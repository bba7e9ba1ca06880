import Markflow.Proofs.Builtin.Sets
import Markflow.Proofs.Passes.LineScan

/-!
# Runs of marked lines

Lists and quotes are runs of lines that bear a mark.  Such a run is matched from its first line on
and as far as lines with the mark go, with the line feed behind the last of them if there is one
(`scansLines_of_marks`).
-/

namespace Markflow

open Regex Regex.Node

/-- What is taken at a marked line: the run of marked lines from there on. -/
def runTake (isMarked : List Char → Bool) (out : List (List Char) → List (List Char)) : Take :=
  fun line more =>
    if isMarked line then
      some (out (line :: more.takeWhile isMarked), (more.takeWhile isMarked).length)
    else none

section RunTake

variable {isMarked : List Char → Bool} {run rest : List (List Char)}
    (out : List (List Char) → List (List Char))

/-- A run of marked lines is taken as a whole where no marked line follows. -/
theorem lineScan_runTake_append (run_ne : run ≠ []) (marked : ∀ line ∈ run, isMarked line = true)
    (ends : ∀ line ∈ rest.head?, isMarked line = false) :
    lineScan (runTake isMarked out) (run ++ rest) =
      out run ++ lineScan (runTake isMarked out) rest := by
  rcases List.exists_cons_of_ne_nil run_ne with ⟨line, more, rfl⟩
  have more_all : ∀ other ∈ more, isMarked other = true := fun other mem =>
    marked other (List.mem_cons_of_mem line mem)
  have rest_stops : rest.takeWhile isMarked = [] := by
    rcases rest with _ | ⟨next, rest⟩
    · rfl
    · rw [List.takeWhile_cons_of_neg (by simp [ends next rfl])]
  have run_eq : (more ++ rest).takeWhile isMarked = more := by
    rw [List.takeWhile_append_of_pos more_all, rest_stops, List.append_nil]
  have taken :
      runTake isMarked out line (more ++ rest) = some (out (line :: more), more.length) := by
    rw [runTake, if_pos (marked line List.mem_cons_self), run_eq]
  rw [List.cons_append, lineScan_of_some taken, List.drop_left]

theorem lineScan_runTake_cons {line : List Char} {more : List (List Char)}
    (other : isMarked line = false) :
    lineScan (runTake isMarked out) (line :: more) =
      line :: lineScan (runTake isMarked out) more := by
  apply lineScan_of_none
  rw [runTake, other]
  rfl

end RunTake

namespace Regex

/-- The two ends of a line: behind its line feed, if it has one, and before it. -/
def lineEnds (before : List Char) (marks : List GroupMark) (line : List Char)
    (more : List (List Char)) :
    List State :=
  (if more = [] then []
    else [⟨.amid ('\n' :: (line.reverse ++ before)) (Text.join ['\n'] more), marks⟩]) ++
    [⟨.amid (line.reverse ++ before) (Text.lineTail more), marks⟩]

theorem lineEnds_append (before : List Char) (marks : List GroupMark) (first second : List Char)
    (more : List (List Char)) :
    lineEnds before marks (first ++ second) more =
      lineEnds (first.reverse ++ before) marks second more := by
  simp [lineEnds]

/-- An expression passes over one marked line. -/
structure Marks (body : Node) (isMarked : List Char → Bool) : Prop where
  consumes : body.consumes = true
  not_nil : isMarked [] = false
  ways_eq : ∀ before marks line more, '\n' ∉ line → (∀ other ∈ more, '\n' ∉ other) →
    body.ways ⟨.amid before (line ++ Text.lineTail more), marks⟩ =
      if opensLine before = true ∧ isMarked line = true then lineEnds before marks line more else []

section Climb

variable {body : Node} (consumes : body.consumes = true)

include consumes

theorem ways_greedy_ne_nil (s : State) : (loop .greedy 0 none body).ways s ≠ [] := by
  have again := ways_greedy_zero consumes none s
  rw [Option.map_none] at again
  rw [again]
  exact List.concat_ne_nil _ _

/-- The first way of a repetition that may end takes the first way of its body as long as there is
one. -/
theorem head?_ways_greedy (s : State) :
    ((loop .greedy 0 none body).ways s).head? =
      match (body.ways s).head? with
      | some t => ((loop .greedy 0 none body).ways t).head?
      | none => some s := by
  have again := ways_greedy_zero consumes none s
  rw [Option.map_none] at again
  rw [again]
  rcases body.ways s with _ | ⟨t, others⟩
  · rfl
  · obtain ⟨u, more, ways_eq⟩ := List.exists_cons_of_ne_nil (ways_greedy_ne_nil consumes t)
    simp only [List.flatMap_cons, ways_eq, List.cons_append, List.head?_cons]

/-- A required repetition makes a difference only where there is none. -/
theorem head?_ways_greedy_one {s : State} (possible : body.ways s ≠ []) :
    ((loop .greedy 1 none body).ways s).head? = ((loop .greedy 0 none body).ways s).head? := by
  have required := ways_loop_succ consumes (show Greed.greedy ≠ .possessive by simp) 0 none s
  rw [Option.map_none] at required
  rw [required, head?_ways_greedy consumes]
  obtain ⟨t, others, split⟩ := List.exists_cons_of_ne_nil possible
  obtain ⟨u, more, ways_eq⟩ := List.exists_cons_of_ne_nil (ways_greedy_ne_nil consumes t)
  simp only [split, List.flatMap_cons, ways_eq, List.cons_append, List.head?_cons]

end Climb

/-- The text of a run of lines, with the line feed behind it if lines follow. -/
def runText (run rest : List (List Char)) : List Char :=
  Text.join ['\n'] run ++ if run = [] ∨ rest = [] then [] else ['\n']

theorem join_eq_runText_append (run rest : List (List Char)) :
    Text.join ['\n'] (run ++ rest) = runText run rest ++ Text.join ['\n'] rest := by
  by_cases run_eq : run = []
  · simp [run_eq, runText, Text.join]
  · rw [Text.join_append run_eq]
    by_cases rest_eq : rest = []
    · simp [runText, rest_eq, Text.join]
    · simp [runText, run_eq, rest_eq, Text.lineTail_eq_cons_join rest_eq]

theorem runText_cons_of_ne_nil (line : List Char) {run rest : List (List Char)}
    (more_ne : run ++ rest ≠ []) :
    runText (line :: run) rest = line ++ '\n' :: runText run rest := by
  rcases run with _ | ⟨next, run⟩
  · have rest_ne : rest ≠ [] := by simpa using more_ne
    simp [runText, rest_ne, Text.join]
  · by_cases rest_eq : rest = [] <;> simp [runText, rest_eq, Text.join]

namespace Marks

variable {body : Node} {isMarked : List Char → Bool} (marked : Marks body isMarked)

include marked

/-- A repetition of marked lines takes all of them. -/
theorem head?_ways_run {before : List Char} (marks : List GroupMark)
    (opens : opensLine before = true) {ls : List (List Char)} (inLine : ∀ line ∈ ls, '\n' ∉ line) :
    ((loop .greedy 0 none body).ways ⟨.amid before (Text.join ['\n'] ls), marks⟩).head? =
      some ⟨.amid ((runText (ls.takeWhile isMarked) (ls.dropWhile isMarked)).reverse ++ before)
        (Text.join ['\n'] (ls.dropWhile isMarked)), marks⟩ := by
  induction ls generalizing before with
  | nil =>
    have nothing := marked.ways_eq before marks [] [] (by simp) (by simp)
    simp only [marked.not_nil, Bool.false_eq_true, and_false, if_false] at nothing
    rw [head?_ways_greedy marked.consumes]
    simp_all [Text.join, runText]
  | cons line more ih =>
    have more_in : ∀ other ∈ more, '\n' ∉ other := fun other mem => inLine other (by simp [mem])
    rw [head?_ways_greedy marked.consumes, Text.join_cons,
      marked.ways_eq before marks line more (inLine line (by simp)) more_in]
    by_cases isMarked_line : isMarked line = true
    · rw [if_pos ⟨opens, isMarked_line⟩, List.takeWhile_cons_of_pos isMarked_line,
        List.dropWhile_cons_of_pos isMarked_line]
      by_cases last : more = []
      · subst last
        have nothing := marked.ways_eq (line.reverse ++ before) marks [] [] (by simp) (by simp)
        rw [marked.not_nil] at nothing
        have stays := head?_ways_greedy marked.consumes ⟨.amid (line.reverse ++ before) [], marks⟩
        simp_all [lineEnds, runText, Text.join]
      · have below := @ih ('\n' :: (line.reverse ++ before)) (by simp) more_in
        have split := @runText_cons_of_ne_nil line (more.takeWhile isMarked)
          (more.dropWhile isMarked) (by simpa [List.takeWhile_append_dropWhile] using last)
        simpa [lineEnds, last, split] using below
    · rw [if_neg (by simp [isMarked_line]), List.takeWhile_cons_of_neg isMarked_line,
        List.dropWhile_cons_of_neg isMarked_line]
      simp [runText, Text.join_cons, Text.join]

/-- A run is matched from a line with the mark on. -/
theorem findAt?_eq {regex : Regex} (root_eq : regex.root = loop .greedy 1 none body)
    (noGroups : regex.groupCount = 0)
    {before line : List Char} {more : List (List Char)} (line_in : '\n' ∉ line)
    (more_in : ∀ other ∈ more, '\n' ∉ other) :
    regex.findAt? before (line ++ Text.lineTail more) =
      if opensLine before = true ∧ isMarked line = true then
        some ⟨runText (line :: more.takeWhile isMarked) (more.dropWhile isMarked), []⟩
      else none := by
  have body_eq := marked.ways_eq before [] line more line_in more_in
  by_cases here : opensLine before = true ∧ isMarked line = true
  · rw [if_pos here] at body_eq ⊢
    have possible : body.ways ⟨.amid before (line ++ Text.lineTail more), []⟩ ≠ [] := by
      simp [body_eq, lineEnds]
    have inLine : ∀ other ∈ line :: more, '\n' ∉ other := by simpa using ⟨line_in, more_in⟩
    have run := marked.head?_ways_run [] here.1 inLine
    have split := join_eq_runText_append (line :: more.takeWhile isMarked) (more.dropWhile isMarked)
    rw [List.cons_append, List.takeWhile_append_dropWhile] at split
    rw [List.takeWhile_cons_of_pos here.2, List.dropWhile_cons_of_pos here.2, Text.join_cons,
      ← head?_ways_greedy_one marked.consumes possible, ← Text.join_cons, split] at run
    rw [← Text.join_cons, split]
    exact findAt?_of_head? (by simpa [root_eq, noGroups, State.begin] using run) .nil noGroups.symm
  · rw [if_neg here] at body_eq ⊢
    have required := ways_loop_succ marked.consumes (show Greed.greedy ≠ .possessive by simp) 0 none
      ⟨.amid before (line ++ Text.lineTail more), []⟩
    rw [Option.map_none, body_eq] at required
    exact findAt?_eq_none_of_ways (by simpa [root_eq, noGroups, State.begin] using required)

/-- A scan for runs of marked lines is a pass over lines, when what is written for a run is made of
lines and ends as the run does. -/
theorem scansLines {regex : Regex} (root_eq : regex.root = loop .greedy 1 none body)
    (noGroups : regex.groupCount = 0)
    {write : Found → List Char} {out : List (List Char) → List (List Char)}
    (out_ne : ∀ run, out run ≠ [])
    (writes : ∀ run, run ≠ [] → (∀ line ∈ run, isMarked line = true ∧ '\n' ∉ line) →
      write ⟨Text.join ['\n'] run, []⟩ = Text.join ['\n'] (out run) ∧
        write ⟨Text.join ['\n'] run ++ ['\n'], []⟩ = Text.join ['\n'] (out run) ++ ['\n']) :
    ScansLines regex write (runTake isMarked out) where
  consumes := by
    rw [root_eq]
    simp [Node.consumes, marked.consumes]
  noBreak := by
    intro before after
    have split := Text.join_lines after
    have nothing := @Marks.findAt?_eq _ _ marked _ root_eq noGroups before [] (Text.lines after)
      (by simp) fun other mem => Text.newline_not_mem_of_mem_lines mem
    rw [Text.lineTail_eq_cons_join (Text.lines_ne_nil after), split, marked.not_nil] at nothing
    simpa using nothing
  missed := by
    intro before line more opens line_in more_in missed front back split
    have unmarked : isMarked line = false := by
      by_contra isMarked_line
      simp [runTake, isMarked_line] at missed
    subst split
    rw [marked.findAt?_eq root_eq noGroups (fun mem => line_in (List.mem_append_right _ mem))
      more_in, if_neg]
    rintro ⟨backOpens, backMarked⟩
    rcases front.eq_nil_or_concat with rfl | ⟨front, c, rfl⟩
    · exact absurd backMarked (by simpa using unmarked)
    · have : c = '\n' := by simpa using backOpens
      exact line_in (by simp [this])
  nonempty := by
    intro line more run count taken
    unfold runTake at taken
    split at taken
    · obtain ⟨rfl, _⟩ : out (line :: more.takeWhile isMarked) = run ∧ _ := by simpa using taken
      exact out_ne _
    · simp at taken
  taken := by
    intro before line more run count opens line_in more_in taken
    unfold runTake at taken
    split at taken
    case isFalse => simp at taken
    case isTrue isMarked_line =>
      obtain ⟨rfl, rfl⟩ : out (line :: more.takeWhile isMarked) = run ∧
          (more.takeWhile isMarked).length = count := by simpa using taken
      have found := @Marks.findAt?_eq _ _ marked _ root_eq noGroups before _ _ line_in more_in
      rw [if_pos ⟨opens, isMarked_line⟩] at found
      obtain ⟨plain, ended⟩ := writes (line :: more.takeWhile isMarked) (by simp) (by
        intro other mem
        rcases List.mem_cons.mp mem with rfl | mem
        · exact ⟨isMarked_line, line_in⟩
        · exact ⟨List.mem_takeWhile_imp mem, more_in other (List.takeWhile_subset _ mem)⟩)
      refine ⟨_, found, ?_⟩
      rw [Text.take_length_takeWhile, Text.drop_length_takeWhile]
      by_cases last : more.dropWhile isMarked = []
      · exact .inl ⟨by simp [runText, last], by simpa [runText, last] using plain⟩
      · exact .inr ⟨last, by simp [runText, last], by simpa [runText, last] using ended⟩

end Marks

end Regex

end Markflow

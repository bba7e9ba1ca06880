import Markflow.Proofs.Builtin.Pass
import Markflow.Proofs.Regex.Pieces
import Markflow.Proofs.Regex.Place
import Markflow.Proofs.Text.Lines
import Markflow.Proofs.Text.Places

/-!
# Passes over lines

The passes of the block transforms go over a text line by line: at each line they either copy the
line, or take it together with some of the lines below and write other lines for them.  `lineScan`
is such a pass, given what is taken at a line.  A scan for an expression is a pass over lines when
its matches begin where lines begin and end where they end (`ScansLines`), whether or not they
include the line feed behind the last line.
-/

namespace Markflow

/-- What is taken at a line: the lines that are written for it, and how many further lines they
stand for. -/
abbrev Take := (line : List Char) → (more : List (List Char)) → Option (List (List Char) × Nat)

/-- The pass over lines that copies a line where nothing is taken. -/
def lineScan (take : Take) : List (List Char) → List (List Char)
  | [] => []
  | line :: more => match take line more with
    | none => line :: lineScan take more
    | some (out, count) => out ++ lineScan take (more.drop count)
termination_by ls => ls.length
decreasing_by all_goals simp; try omega

section LineScan

variable {take : Take} {line : List Char} {more : List (List Char)}

@[simp]
theorem lineScan_nil (take : Take) : lineScan take [] = [] := by
  rw [lineScan]

theorem lineScan_of_none (missed : take line more = none) :
    lineScan take (line :: more) = line :: lineScan take more := by
  rw [lineScan, missed]

theorem lineScan_of_some {out : List (List Char)} {count : Nat}
    (taken : take line more = some (out, count)) :
    lineScan take (line :: more) = out ++ lineScan take (more.drop count) := by
  rw [lineScan, taken]

end LineScan

open Regex

@[simp]
theorem closesLine_lineTail (more : List (List Char)) : closesLine (Text.lineTail more) = true := by
  cases more <;> simp

/-- Where matches begin where lines begin, a line that is not matched from its start on has no
match. -/
theorem findAt?_within_line {regex : Regex}
    (anchored : ∀ before after, opensLine before = false → regex.findAt? before after = none)
    {before line tail : List Char} (inLine : '\n' ∉ line)
    (missed : regex.findAt? before (line ++ tail) = none) (front back : List Char)
    (split : line = front ++ back) :
    regex.findAt? (front.reverse ++ before) (back ++ tail) = none := by
  rcases front.eq_nil_or_concat with rfl | ⟨front, c, rfl⟩
  · simpa [split] using missed
  · apply anchored
    have : c ≠ '\n' := by
      rintro rfl
      exact inLine (by simp [split])
    simpa using this

theorem findAt?_of_lineStart {regex : Regex} {rest : Node}
    (root_eq : regex.root = .seq (.anchor .lineStart) rest)
    (before after : List Char) (within : opensLine before = false) :
    regex.findAt? before after = none := by
  simp [findAt?, root_eq, State.begin, within]

/-- A scan for an expression goes over lines as a way of taking them says. -/
structure ScansLines (regex : Regex) (write : Found → List Char) (take : Take) : Prop where
  consumes : regex.root.consumes = true
  /-- No match begins with a line feed. -/
  noBreak : ∀ before after, regex.findAt? before ('\n' :: after) = none
  /-- Where nothing is taken there is no match up to the end of the line. -/
  missed : ∀ before line more, opensLine before = true → '\n' ∉ line →
    (∀ other ∈ more, '\n' ∉ other) →
    take line more = none → ∀ front back, line = front ++ back →
      regex.findAt? (front.reverse ++ before) (back ++ Text.lineTail more) = none
  /-- Something is written for the lines that are taken. -/
  nonempty : ∀ line more out count, take line more = some (out, count) → out ≠ []
  /-- What is taken is matched, with or without the line feed behind it. -/
  taken : ∀ before line more out count, opensLine before = true → '\n' ∉ line →
    (∀ other ∈ more, '\n' ∉ other) → take line more = some (out, count) →
      ∃ found, regex.findAt? before (line ++ Text.lineTail more) = some found ∧
        ((found.text = Text.join ['\n'] (line :: more.take count) ∧
          write found = Text.join ['\n'] out) ∨
          (more.drop count ≠ [] ∧
            found.text = Text.join ['\n'] (line :: more.take count) ++ ['\n'] ∧
            write found = Text.join ['\n'] out ++ ['\n']))

/-- What a scan does at the first of some lines.  It is kept, or it is taken with some of the
others.  The edits pass over the line feed behind the last of these too if lines follow. -/
structure LineStep (regex : Regex) (write : Found → List Char) (take : Take)
    (before line : List Char)
    (more : List (List Char)) (edits : List Edit) (out : List (List Char)) (count : Nat) :
    Prop where
  out_ne : out ≠ []
  lineScan_eq : lineScan take (line :: more) = out ++ lineScan take (more.drop count)
  taken : count = 0 ∨ take line more = some (out, count)
  last : more.drop count = [] →
    regex.edits before (Text.join ['\n'] (line :: more)) = edits ∧
      Edit.targets write edits = Text.join ['\n'] out
  further : more.drop count ≠ [] → ∃ before', opensLine before' = true ∧
    regex.edits before (Text.join ['\n'] (line :: more)) =
      edits ++ regex.edits before' (Text.join ['\n'] (more.drop count)) ∧
    Edit.targets write edits = Text.ended out ∧
      Edit.sources edits = Text.ended (line :: more.take count)
  swap : ∀ earlier found later, edits = earlier ++ .swap found :: later →
    earlier = [] ∧ take line more = some (out, count) ∧
      (write found = Text.join ['\n'] out ∧
        (later = [] ∧ more.drop count = [] ∨ later = [.keep '\n']) ∨
        write found = Text.join ['\n'] out ++ ['\n'])

namespace ScansLines

variable {regex : Regex} {write : Found → List Char} {take : Take}
    (scans : ScansLines regex write take)

include scans

theorem lineScan_ne_nil {ls : List (List Char)} (ls_ne : ls ≠ []) : lineScan take ls ≠ [] := by
  obtain ⟨line, more, rfl⟩ := List.exists_cons_of_ne_nil ls_ne
  rcases atLine : take line more with _ | ⟨out, count⟩
  · simp [lineScan_of_none atLine]
  · simp [lineScan_of_some atLine, scans.nonempty line more out count atLine]

/-- Edits that end before a line feed are a step, with the line feed if there is one. -/
theorem exists_lineStep_of_edits {before before' line : List Char} {more out : List (List Char)}
    {core : List Edit} {count : Nat}
    (out_ne : out ≠ [])
    (lineScan_eq : lineScan take (line :: more) = out ++ lineScan take (more.drop count))
    (taken : count = 0 ∨ take line more = some (out, count))
    (edits_eq : regex.edits before (Text.join ['\n'] (line :: more)) =
      core ++ regex.edits before' (Text.lineTail (more.drop count)))
    (sources_eq : Edit.sources core = Text.join ['\n'] (line :: more.take count))
    (targets_eq : Edit.targets write core = Text.join ['\n'] out)
    (swap : ∀ earlier found later, core = earlier ++ .swap found :: later →
      earlier = [] ∧ later = [] ∧ take line more = some (out, count) ∧
        write found = Text.join ['\n'] out) :
    ∃ edits, LineStep regex write take before line more edits out count := by
  by_cases rest_nil : more.drop count = []
  · refine ⟨core, out_ne, lineScan_eq, taken, ?_, fun rest_ne => absurd rest_nil rest_ne, ?_⟩
    · rw [edits_eq, rest_nil, Text.lineTail_nil, edits_nil, List.append_nil]
      exact fun _ => ⟨rfl, targets_eq⟩
    · intro earlier found later split
      rcases swap earlier found later split with ⟨earlier_nil, later_nil, atLine, written_eq⟩
      exact ⟨earlier_nil, atLine, .inl ⟨written_eq, .inl ⟨later_nil, rest_nil⟩⟩⟩
  · refine ⟨core ++ [.keep '\n'], out_ne, lineScan_eq, taken, fun rest_eq =>
      absurd rest_eq rest_nil, ?_, ?_⟩
    · refine fun rest_ne => ⟨'\n' :: before', rfl, ?_, ?_, ?_⟩
      · rw [edits_eq, Text.lineTail_eq_cons_join rest_ne, edits_of_none (scans.noBreak _ _),
          List.append_assoc]
        rfl
      · rw [Edit.targets_append, targets_eq, Text.ended_eq_join out_ne]
        rfl
      · rw [Edit.sources_append, sources_eq, Text.ended_eq_join (List.cons_ne_nil _ _)]
        rfl
    · intro earlier found later split
      rcases Text.exists_of_append_eq split with ⟨behind, core_eq, rfl⟩ | ⟨others, -, feed_eq⟩
      · rcases swap earlier found behind core_eq with ⟨earlier_nil, rfl, atLine, written_eq⟩
        exact ⟨earlier_nil, atLine, .inl ⟨written_eq, .inr rfl⟩⟩
      · have among : .swap found ∈ [Edit.keep '\n'] := by simp [feed_eq]
        simp at among

/-- A scan goes over the first of some lines in one step. -/
theorem exists_lineStep {before line : List Char} {more : List (List Char)}
    (opens : opensLine before = true)
    (line_in : '\n' ∉ line) (more_in : ∀ other ∈ more, '\n' ∉ other) :
    ∃ edits out count, LineStep regex write take before line more edits out count := by
  rcases atLine : take line more with _ | ⟨out, count⟩
  · have missed := scans.missed before line more opens line_in more_in atLine
    have kept : regex.edits before (Text.join ['\n'] (line :: more)) =
        line.map .keep ++ regex.edits (line.reverse ++ before) (Text.lineTail more) := by
      rw [Text.join_cons, edits_append_of_missed fun front c back split =>
        missed front (c :: back) split]
    have noSwap : ∀ earlier found later, line.map .keep = earlier ++ Edit.swap found :: later →
        False := by
      intro earlier found later split
      have among : .swap found ∈ line.map Edit.keep := by simp [split]
      simp at among
    rcases @exists_lineStep_of_edits _ _ _ scans _ _ _ _ [line] _ 0 (by simp)
      (lineScan_of_none atLine) (.inl rfl) kept
      (by simp [Text.join]) (by simp [Text.join]) fun earlier found later split =>
        (noSwap earlier found later split).elim with
      ⟨edits, step⟩
    exact ⟨edits, [line], 0, step⟩
  have out_ne := scans.nonempty line more out count atLine
  have alone : ∀ {found : Found} {earlier other later},
      [Edit.swap found] = earlier ++ .swap other :: later →
      earlier = [] ∧ later = [] ∧ other = found := by
    intro found earlier other later split
    rcases List.append_eq_singleton_iff.mp split.symm with ⟨rfl, same⟩ | ⟨-, none⟩
    · cases same
      exact ⟨rfl, rfl, rfl⟩
    · cases none
  have cut : Text.join ['\n'] (line :: more) =
      Text.join ['\n'] (line :: more.take count) ++ Text.lineTail (more.drop count) := by
    rw [← Text.join_append (List.cons_ne_nil _ _), List.cons_append, List.take_append_drop]
  rcases scans.taken before line more out count opens line_in more_in atLine with
    ⟨found, found_eq, ⟨text_eq, write_eq⟩ | ⟨rest_ne, text_eq, write_eq⟩⟩
  · rw [← Text.join_cons, cut, ← text_eq] at found_eq
    have edits_eq := edits_of_some scans.consumes found_eq
    rw [text_eq, ← cut, ← text_eq] at edits_eq
    rcases @exists_lineStep_of_edits _ _ _ scans _ _ _ _ out [.swap found] count out_ne
      (lineScan_of_some atLine) (.inr atLine)
      edits_eq (by simp [Edit.source, text_eq]) (by simp [Edit.target, write_eq])
        fun earlier other later split => by
        rcases alone split with ⟨earlier_nil, later_nil, rfl⟩
        exact ⟨earlier_nil, later_nil, atLine, write_eq⟩ with
      ⟨edits, step⟩
    exact ⟨edits, out, count, step⟩
  · -- The match goes over the line feed.
    have split :
        Text.join ['\n'] (line :: more) = found.text ++ Text.join ['\n'] (more.drop count) := by
      rw [cut, text_eq, Text.lineTail_eq_cons_join rest_ne, List.append_assoc]
      rfl
    rw [← Text.join_cons, split] at found_eq
    have edits_eq := edits_of_some scans.consumes found_eq
    rw [← split] at edits_eq
    refine ⟨[.swap found], out, count, out_ne, lineScan_of_some atLine, .inr atLine, fun nil =>
      absurd nil rest_ne, ?_, ?_⟩
    · refine fun _ => ⟨_, ?_, edits_eq, ?_, ?_⟩
      · simp [text_eq]
      · simp [Edit.target, write_eq, Text.ended_eq_join out_ne]
      · rw [Text.ended_eq_join (List.cons_ne_nil _ _), ← text_eq]
        simp [Edit.source]
    · intro earlier other later split
      rcases alone split with ⟨earlier_nil, -, rfl⟩
      exact ⟨earlier_nil, atLine, .inr write_eq⟩

/-- What a scan writes for the lines from a place on. -/
theorem rewrite_join {before : List Char} (opens : opensLine before = true) {ls : List (List Char)}
    (inLine : ∀ line ∈ ls, '\n' ∉ line) :
    regex.rewrite write before (Text.join ['\n'] ls) = Text.join ['\n'] (lineScan take ls) := by
  induction sized : ls.length using Nat.strongRecOn generalizing before ls with
  | _ size ih =>
    rcases ls with _ | ⟨line, more⟩
    · simp [Text.join]
    have more_in : ∀ other ∈ more, '\n' ∉ other := fun other mem => inLine other (by simp [mem])
    rcases scans.exists_lineStep opens (inLine line (by simp)) more_in with
      ⟨edits, out, count, step⟩
    rw [step.lineScan_eq, rewrite]
    by_cases rest_nil : more.drop count = []
    · rcases step.last rest_nil with ⟨edits_eq, targets_eq⟩
      rw [edits_eq, rest_nil, lineScan_nil, List.append_nil]
      exact targets_eq
    · have shorter : (more.drop count).length < size := by
        simp only [List.length_cons, List.length_drop] at sized ⊢
        omega
      rcases step.further rest_nil with ⟨before', opens', edits_eq, targets_eq, -⟩
      have below :=
        ih _ shorter opens' (fun other mem => more_in other (List.mem_of_mem_drop mem)) rfl
      rw [edits_eq, List.flatMap_append,
        Text.join_append_eq_ended out (scans.lineScan_ne_nil rest_nil), ← below]
      exact congrArg (· ++ _) targets_eq

/-- What a scan writes for a text. -/
theorem rewrite_eq (text : List Char) :
    regex.rewrite write [] text = Text.join ['\n'] (lineScan take (Text.lines text)) := by
  have split := scans.rewrite_join opensLine_nil fun line mem =>
    @Text.newline_not_mem_of_mem_lines text line mem
  rwa [Text.join_lines] at split

end ScansLines

end Markflow

import Markflow.Proofs.Builtin.Sets
import Markflow.Proofs.Passes.LineScan

/-!
# Fenced code

A fence is opened by a line of three backticks, which may bear an info word, and closed by the first
line of three backticks alone below it.  The lines in between are code.
-/

namespace Markflow.Builtin

open Regex Regex.Node

/-- Whether what follows the marks or the info word of a fence ends its line: spaces and tabs, and
maybe a carriage return. -/
def endsFence (rest : List Char) : Bool :=
  let rest := rest.dropWhile isSpaceOrTab
  rest == [] || rest == ['\r']

/-- What follows three backticks. -/
def afterTicks? : List Char → Option (List Char)
  | '\x60' :: '\x60' :: '\x60' :: rest => some rest
  | _ => none

/-- Whether a line closes a fence. -/
def isFenceEnd (line : List Char) : Bool :=
  (afterTicks? line).any endsFence

/-- The info word of a line that opens a fence, which is empty if there is none. -/
def fenceInfo? (line : List Char) : Option (List Char) :=
  (afterTicks? line).bind fun rest =>
    let word := rest.dropWhile isSpaceOrTab
    if endsFence (word.dropWhile infoSet.holds) then some (word.takeWhile infoSet.holds) else none

/-- The end of a line of a fence, behind which a line feed is required or what follows cannot be
read at all. -/
theorem ways_fenceBreak {next : Node} {marks : List GroupMark}
    (refused : ∀ before c after, c ≠ '\n' → next.ways ⟨.amid before (c :: after), marks⟩ = [])
    {before text tail : List Char} (closes : closesLine tail = true) (inLine : '\n' ∉ text) :
    (seq (many gapSet) (seq (optional (lit '\r')) next)).ways ⟨.amid before (text ++ tail), marks⟩ =
      if endsFence text then next.ways ⟨.amid (text.reverse ++ before) tail, marks⟩ else [] := by
  obtain ⟨gap, rest, rfl, gap_all, gap_stops⟩ := Text.exists_cut isSpaceOrTab text
  have feed := ways_optional (show (lit '\r').consumes = true from rfl)
  rw [ways_seq, List.append_assoc, flatMap_many _ (by simpa using gap_all)
    (by simpa using gap_stops.append (stops_of_closesLine isSpaceOrTab_newline closes))]
  · rw [ways_seq, feed, endsFence, Text.dropWhile_cut gap_all gap_stops]
    rcases rest with _ | ⟨c, rest⟩
    · rcases tail with _ | ⟨d, tail⟩
      · simp
      · obtain rfl : d = '\n' := by simpa using closes
        simp
    · have c_ne : c ≠ '\n' := by
        rintro rfl
        exact inLine (by simp)
      by_cases isReturn : c = '\r'
      · subst isReturn
        rcases rest with _ | ⟨d, rest⟩
        · simp [refused _ '\r' _ (by decide)]
        · have d_ne : d ≠ '\n' := by
            rintro rfl
            exact inLine (by simp)
          simp [refused _ '\r' _ (by decide), refused _ d _ d_ne]
      · simp [isReturn, refused _ c _ c_ne]
  · intro before c after holds
    have blank : isSpaceOrTab c = true := by simpa using holds
    have c_ne : c ≠ '\r' := by
      rintro rfl
      exact absurd blank (by decide)
    simp [feed, c_ne, refused _ c _ (ne_newline_of_isSpaceOrTab blank)]

section FenceEnd

variable {before : List Char} {marks : List GroupMark}

/-- Three backticks. -/
theorem flatMap_ticks {rest : Node} {line : List Char} {more : List (List Char)} :
    (seq (lit '\x60') (seq (lit '\x60') (seq (lit '\x60') rest))).ways ⟨.amid before
      (line ++ Text.lineTail more), marks⟩ =
      (afterTicks? line).elim [] fun text =>
        rest.ways ⟨.amid ('\x60' :: '\x60' :: '\x60' :: before) (text ++ Text.lineTail more),
          marks⟩ := by
  have stuck : ∀ before, (lit '\x60').ways ⟨.amid before (Text.lineTail more), marks⟩ = [] := by
    intro before
    cases more <;> simp
  unfold afterTicks?
  split
  · simp
  · next other =>
    rcases line with _ | ⟨c, _ | ⟨d, _ | ⟨e, line⟩⟩⟩
    · simp [stuck]
    · by_cases first : c = '\x60' <;> simp [first, stuck]
    · by_cases first : c = '\x60' <;> by_cases second : d = '\x60' <;> simp [first, second, stuck]
    · by_cases first : c = '\x60' <;> by_cases second : d = '\x60' <;> by_cases third :
        e = '\x60' <;>
        simp_all

theorem ways_fenceEnd {line : List Char} {more : List (List Char)} (inLine : '\n' ∉ line) :
    fenceEnd.ways ⟨.amid before (line ++ Text.lineTail more), marks⟩ =
      if isFenceEnd line then [⟨.amid (line.reverse ++ before) (Text.lineTail more), marks⟩]
        else [] := by
  rw [fenceEnd, flatMap_ticks, isFenceEnd]
  unfold afterTicks?
  split
  · next rest =>
    have rest_in : '\n' ∉ rest := fun mem => inLine (by simp [mem])
    rw [Option.elim_some, ways_fenceBreak (fun before c after c_ne => by simp [c_ne])
      (closesLine_lineTail more) rest_in]
    simp
  · simp

end FenceEnd

/-- The lines of the code, and the line that closes its fence. -/
def fenceBody : Node :=
  sequence
    [group 2
      (loop .lazy 0 none
        (one ⟨[.kind .blank false true, .kind .blank false false], false, .exact⟩)),
    anchor .lineStart, fenceEnd]

/-- Whether a line is not one that closes a fence. -/
def isCodeLine (line : List Char) : Bool :=
  !isFenceEnd line

section Body

variable {before : List Char} {more : List (List Char)} (opens : opensLine before = true)
  (inLine : ∀ line ∈ more, '\n' ∉ line) (more_ne : more ≠ [])

include opens inLine more_ne

omit opens in
/-- Code ends where lines end, before a line that closes the fence. -/
theorem exists_fenceEnd {text rest : List Char} {marks : List GroupMark}
    (split : Text.join ['\n'] more = text ++ rest)
    (closes : (seq (anchor .lineStart) fenceEnd).ways ⟨.amid (text.reverse ++ before) rest, marks⟩ ≠
      []) :
    ∃ first last others, more = first ++ last :: others ∧ text = Text.ended first ∧
      isFenceEnd last = true := by
  have atLine : opensLine (text.reverse ++ before) = true := by
    by_contra within
    simp [within] at closes
  obtain ⟨first, more_eq, text_eq⟩ :
      ∃ first, more = first ++ Text.lines rest ∧ text = Text.ended first := by
    have more_eq : more = Text.lines (text ++ rest) := by
      rw [← split, Text.lines_join inLine more_ne]
    rcases text.eq_nil_or_concat with rfl | ⟨front, c, rfl⟩
    · exact ⟨[], by simpa using more_eq, rfl⟩
    · obtain rfl : c = '\n' := by simpa using atLine
      refine ⟨Text.lines front, ?_, ?_⟩
      · rw [more_eq, List.concat_eq_append, List.append_assoc]
        exact Text.lines_append_cons front rest
      · rw [Text.ended_eq_join (Text.lines_ne_nil front), Text.join_lines, List.concat_eq_append]
  obtain ⟨last, others, lines_eq⟩ := List.exists_cons_of_ne_nil (Text.lines_ne_nil rest)
  refine ⟨first, last, others, by rw [more_eq, lines_eq], text_eq, ?_⟩
  have rest_eq : rest = last ++ Text.lineTail others := by
    rw [← Text.join_cons, ← lines_eq, Text.join_lines]
  by_contra stays
  have last_in : '\n' ∉ last := @Text.newline_not_mem_of_mem_lines rest _ (by simp [lines_eq])
  rw [ways_seq, ways_lineStart, if_pos atLine, List.flatMap_singleton, rest_eq,
    ways_fenceEnd last_in, if_neg stays] at closes
  exact closes rfl

omit inLine more_ne opens in
theorem ways_fenceBody {mark : GroupMark} :
    fenceBody.ways ⟨.amid before (Text.join ['\n'] more), [mark, {}]⟩ =
      ((loop .lazy 0 none
        (one ⟨[.kind .blank false true, .kind .blank false false], false, .exact⟩)).ways
        ⟨.amid before (Text.join ['\n'] more),
          [mark, { opened := some (.amid before (Text.join ['\n'] more)) }]⟩).flatMap
          fun t => (seq (anchor .lineStart) fenceEnd).ways (t.leave 2) := by
  simp [fenceBody, Node.sequence, State.enter, List.flatMap_map]

omit opens in
/-- Without a line that closes it a fence is not read. -/
theorem ways_fenceBody_of_isCodeLine (code : ∀ line ∈ more, isCodeLine line = true)
    {mark : GroupMark} :
    fenceBody.ways ⟨.amid before (Text.join ['\n'] more), [mark, {}]⟩ = [] := by
  rw [ways_fenceBody, List.flatMap_eq_nil_iff]
  intro t t_mem
  obtain ⟨text, rest, split, _, _, rfl⟩ :=
    (mem_ways_loop_of_steps (by simp) rfl (steps_one _) (by simp)).mp t_mem
  by_contra closes
  obtain ⟨first, last, others, more_eq, _, last_ends⟩ := exists_fenceEnd inLine more_ne split closes
  have := code last (by simp [more_eq])
  simp [isCodeLine, last_ends] at this

omit more_ne in
/-- A fence is closed by the first line that can close it. -/
theorem head?_ways_fenceBody {code others : List (List Char)} {last : List Char}
    (more_eq : more = code ++ last :: others) (code_all : ∀ line ∈ code, isCodeLine line = true)
    (last_ends : isFenceEnd last = true) {mark : GroupMark} :
    ∃ mark' : GroupMark, mark'.Holds (some (Text.ended code)) ∧
      (fenceBody.ways ⟨.amid before (Text.join ['\n'] more), [mark, {}]⟩).head? =
        some ⟨.amid ((Text.ended code ++ last).reverse ++ before) (Text.lineTail others),
          [mark, mark']⟩ := by
  have split : Text.join ['\n'] more = Text.ended code ++ Text.join ['\n'] (last :: others) := by
    rw [more_eq, Text.join_append_eq_ended _ (by simp)]
  have atLine : opensLine ((Text.ended code).reverse ++ before) = true := by
    by_cases code_ne : code = []
    · simpa [code_ne] using opens
    · simp [Text.ended_eq_join code_ne]
  have last_in : '\n' ∉ last := inLine last (by simp [more_eq])
  refine ⟨_, GroupMark.spans_amid before (Text.ended code) (Text.join ['\n'] (last :: others)), ?_⟩
  rw [ways_fenceBody, head?_flatMap_lazy_eq_some rfl (steps_one _) (by simp)]
  refine ⟨_, _, split, ?_, by simp [allows], ?_, ?_⟩
  · rw [passed_one]
    intro c _
    cases blank : Text.isBlank c <;> simp [CharSet.holds, SetItem.holds, CharKind.holds, blank]
  · rw [Text.join_cons] at split ⊢
    rw [split]
    simp [State.leave, atLine, ways_fenceEnd last_in, last_ends]
  · intro text' rest' split' _ _ shorter
    by_contra closes
    obtain ⟨first, last', others', more_eq', text_eq, ends⟩ :=
      @exists_fenceEnd _ _ inLine (by simp [more_eq]) _ _
      [mark, _] split' closes
    have code_prefix : code <+: first := by
      have run := congrArg (List.takeWhile isCodeLine) (more_eq.symm.trans more_eq')
      rw [List.takeWhile_append_of_pos code_all,
        List.takeWhile_cons_of_neg (by simp [isCodeLine, last_ends]),
        List.append_nil, List.takeWhile_append,
        List.takeWhile_cons_of_neg (by simp [isCodeLine, ends]),
        List.append_nil] at run
      rw [run]
      split
      · exact List.prefix_rfl
      · exact List.takeWhile_prefix _
    obtain ⟨further, rfl⟩ := code_prefix
    rw [text_eq, Text.ended_append, List.length_append] at shorter
    omega

end Body

/-- What follows the info word of a fence. -/
def fenceTail : Node :=
  seq (many gapSet) (seq (optional (lit '\r')) (seq (lit '\n') fenceBody))

/-- What follows the spaces and tabs behind the marks of a fence. -/
def fenceWord : Node :=
  seq (optional (group 1 (some1 infoSet))) fenceTail

theorem endsFence_of_info {c : Char} (isInfo : infoSet.holds c = true) (rest : List Char) :
    endsFence (c :: rest) = false := by
  have noGap : isSpaceOrTab c = false := by
    by_contra gap
    have : c = ' ' ∨ c = '\t' := by simpa [isSpaceOrTab, or_iff_not_imp_left] using gap
    rcases this with rfl | rfl <;> exact absurd isInfo (by decide)
  have c_ne : c ≠ '\r' := by
    rintro rfl
    exact absurd isInfo (by decide)
  simp [endsFence, noGap, c_ne]

theorem endsFence_append {gap : List Char} (gap_all : ∀ c ∈ gap, isSpaceOrTab c = true)
    (rest : List Char) :
    endsFence (gap ++ rest) = endsFence rest := by
  rw [endsFence, endsFence, List.dropWhile_append_of_pos gap_all]

section Opening

variable {before : List Char} {more : List (List Char)}

theorem ways_fenceTail {text : List Char} {marks : List GroupMark} (inLine : '\n' ∉ text) :
    fenceTail.ways ⟨.amid before (text ++ Text.lineTail more), marks⟩ =
      if endsFence text then
        (seq (lit '\n') fenceBody).ways ⟨.amid (text.reverse ++ before) (Text.lineTail more), marks⟩
      else [] :=
  ways_fenceBreak (fun before c after c_ne => by simp [c_ne]) (closesLine_lineTail more) inLine

/-- The info word of a fence is as long as possible. -/
theorem ways_fenceWord {info text : List Char} (info_all : ∀ c ∈ info, infoSet.holds c = true)
    (stops : Text.Stops infoSet.holds text) (inLine : '\n' ∉ info ++ text) :
    ∃ mark : GroupMark, mark.Holds (if info = [] then none else some info) ∧
      fenceWord.ways ⟨.amid before (info ++ (text ++ Text.lineTail more)), [{}, {}]⟩ =
        fenceTail.ways ⟨.amid (info.reverse ++ before) (text ++ Text.lineTail more),
          [mark, {}]⟩ := by
  have text_in : '\n' ∉ text := fun mem => inLine (List.mem_append_right _ mem)
  have tail_stops : Text.Stops infoSet.holds (Text.lineTail more) :=
    stops_of_closesLine (by decide) (closesLine_lineTail more)
  have opened : fenceWord.ways ⟨.amid before (info ++ (text ++ Text.lineTail more)), [{}, {}]⟩ =
      (((some1 infoSet).ways ⟨.amid before (info ++ (text ++ Text.lineTail more)),
        [{ opened := some (.amid before (info ++ (text ++ Text.lineTail more))) }, {}]⟩).flatMap
          fun t => fenceTail.ways (t.leave 1)) ++
        fenceTail.ways ⟨.amid before (info ++ (text ++ Text.lineTail more)), [{}, {}]⟩ := by
    simp [fenceWord, ways_optional (show (group 1 (some1 infoSet)).consumes = true from rfl),
      State.enter, List.flatMap_map]
  have refused : ∀ before c after marks, infoSet.holds c = true →
      fenceTail.ways ⟨.amid before (c :: after), marks⟩ = [] := by
    intro before c after marks holds
    obtain ⟨line, others, lines_eq⟩ := List.exists_cons_of_ne_nil (Text.lines_ne_nil after)
    have after_eq : after = line ++ Text.lineTail others := by
      rw [← Text.join_cons, ← lines_eq, Text.join_lines]
    have line_in : '\n' ∉ c :: line := by
      have c_ne : '\n' ≠ c := by
        rintro rfl
        exact absurd holds (by decide)
      simpa [c_ne] using @Text.newline_not_mem_of_mem_lines after line (by simp [lines_eq])
    rw [after_eq, ← List.cons_append, ways_fenceTail line_in, endsFence_of_info holds]
    rfl
  rw [opened, flatMap_some1 _ info_all (stops.append tail_stops)]
  · by_cases no_info : info = []
    · subst no_info
      exact ⟨{}, rfl, by simp⟩
    · obtain ⟨c, info, rfl⟩ := List.exists_cons_of_ne_nil no_info
      refine ⟨_, GroupMark.spans_amid before (c :: info) (text ++ Text.lineTail more), ?_⟩
      simp [refused before c _ _ (info_all c (by simp)), State.leave]
  · intro before c after holds
    exact refused before c after _ holds

/-- The spaces and tabs before the info word of a fence. -/
theorem head?_ways_fenceOpening {gap info text : List Char}
    (gap_all : ∀ c ∈ gap, isSpaceOrTab c = true)
    (gap_stops : Text.Stops isSpaceOrTab (info ++ text))
    (info_all : ∀ c ∈ info, infoSet.holds c = true)
    (stops : Text.Stops infoSet.holds text) (inLine : '\n' ∉ info ++ text) :
    ∃ mark : GroupMark, mark.Holds (if info = [] then none else some info) ∧
      ((seq (many gapSet) fenceWord).ways
        ⟨.amid before (gap ++ (info ++ (text ++ Text.lineTail more))), [{}, {}]⟩).head? =
          if endsFence text then
            ((seq (lit '\n') fenceBody).ways
              ⟨.amid ((gap ++ (info ++ text)).reverse ++ before) (Text.lineTail more),
                [mark, {}]⟩).head?
          else none := by
  obtain ⟨mark, holds, word_eq⟩ :=
    @ways_fenceWord (gap.reverse ++ before) more _ _ info_all stops inLine
  have text_in : '\n' ∉ text := fun mem => inLine (List.mem_append_right _ mem)
  rw [ways_fenceTail text_in] at word_eq
  refine ⟨mark, holds, ?_⟩
  have all_stops : Text.Stops gapSet.holds (info ++ (text ++ Text.lineTail more)) := by
    simpa using
      gap_stops.append (stops_of_closesLine isSpaceOrTab_newline (closesLine_lineTail more))
  by_cases goesOn :
    fenceWord.ways ⟨.amid (gap.reverse ++ before) (info ++ (text ++ Text.lineTail more)),
      [{}, {}]⟩ = []
  · have stuck : (seq (many gapSet) fenceWord).ways
        ⟨.amid before (gap ++ (info ++ (text ++ Text.lineTail more))), [{}, {}]⟩ = [] := by
      rw [ways_seq, List.flatMap_eq_nil_iff]
      intro t t_mem
      obtain ⟨front, rest, split, passed, _, rfl⟩ :=
        (mem_ways_loop_of_steps (by simp) rfl (steps_one _) (by simp)).mp t_mem
      have short := Text.length_le_of_stops all_stops (passed_one.mp passed) split
      obtain ⟨back, rfl, rfl⟩ := Text.exists_more split short
      by_cases no_back : back = []
      · simpa [no_back] using goesOn
      -- A gap that is left to what follows is read there, with the same result.
      have back_all : ∀ c ∈ back, isSpaceOrTab c = true := fun c mem => gap_all c (by simp [mem])
      have back_stops : Text.Stops infoSet.holds (back ++ (info ++ text)) := by
        obtain ⟨c, back, rfl⟩ := List.exists_cons_of_ne_nil no_back
        rcases isSpaceOrTab_iff.mp (back_all c List.mem_cons_self) with
          rfl | rfl <;> simp <;> decide
      have back_in : '\n' ∉ back ++ (info ++ text) := by
        intro mem
        rcases List.mem_append.mp mem with mem | mem
        · exact absurd (back_all _ mem) (by decide)
        · exact inLine mem
      obtain ⟨mark', rfl, later⟩ := @ways_fenceWord (front.reverse ++ before) more [] _
        (by simp) back_stops (by simpa using back_in)
      rw [ways_fenceTail back_in, endsFence_append back_all] at later
      simp only [List.nil_append, List.append_assoc, List.reverse_nil] at later
      show fenceWord.ways _ = []
      rw [later]
      rcases info with _ | ⟨c, info⟩
      · obtain rfl : mark = {} := holds
        rw [goesOn] at word_eq
        by_cases ends : endsFence text = true
        · simpa [ends] using word_eq.symm
        · simp [ends]
      · rw [List.cons_append, endsFence_of_info (info_all c (by simp))]
        rfl
    rw [stuck]
    rw [goesOn] at word_eq
    by_cases ends : endsFence text = true
    · rw [if_pos ends] at word_eq ⊢
      have place : (gap ++ (info ++ text)).reverse ++ before =
          text.reverse ++ (info.reverse ++ (gap.reverse ++ before)) := by simp
      rw [place, ← word_eq]
    · simp [ends]
  · rw [ways_seq, head?_flatMap_of_head? (head?_ways_many (by simpa using gap_all) all_stops)
      goesOn, word_eq]
    by_cases ends : endsFence text = true <;> simp [ends]

end Opening

/-- The lines of a fence are read from the line that opens it through the one that closes it. -/
theorem findAt?_codeBlocks {before line : List Char} {more : List (List Char)}
    (opens : opensLine before = true)
    (line_in : '\n' ∉ line) (more_in : ∀ other ∈ more, '\n' ∉ other) :
    codeBlocks.regex.findAt? before (line ++ Text.lineTail more) =
      (fenceInfo? line).bind fun info =>
        if more.all isCodeLine then none
        else some ⟨Text.join ['\n'] (line :: more.take ((more.takeWhile isCodeLine).length + 1)),
          [if info = [] then none
            else some info, some (Text.ended (more.takeWhile isCodeLine))]⟩ := by
  have opened : codeBlocks.regex.root.ways
      (.begin (.amid before (line ++ Text.lineTail more)) codeBlocks.regex.groupCount) =
        (afterTicks? line).elim [] fun text => (seq (many gapSet) fenceWord).ways
          ⟨.amid ('\x60' :: '\x60' :: '\x60' :: before) (text ++ Text.lineTail more),
            [{}, {}]⟩ := by
    rw [show codeBlocks.regex.root =
      seq (anchor .lineStart) (seq (lit '\x60') (seq (lit '\x60') (seq (lit '\x60')
      (seq (many gapSet) fenceWord)))) from rfl, State.begin, ways_seq, ways_lineStart,
      if_pos opens, List.flatMap_singleton, flatMap_ticks]
    rfl
  unfold fenceInfo?
  rcases ticks : afterTicks? line with _ | text
  · simp [findAt?_eq_none_of_ways (by simpa [ticks] using opened)]
  obtain rfl : line = '\x60' :: '\x60' :: '\x60' :: text := by
    unfold afterTicks? at ticks
    split at ticks <;> simp_all
  obtain ⟨gap, word, rfl, gap_all, gap_stops⟩ := Text.exists_cut isSpaceOrTab text
  obtain ⟨info, text, rfl, info_all, stops⟩ := Text.exists_cut infoSet.holds word
  obtain ⟨mark, holds, first⟩ :=
    @head?_ways_fenceOpening ('\x60' :: '\x60' :: '\x60' :: before) more _ _ _
    gap_all gap_stops info_all stops (by simp_all)
  rw [ticks, Option.elim_some] at opened
  simp only [List.append_assoc] at opened
  rw [← opened] at first
  simp only [Option.bind_some, Text.dropWhile_cut gap_all gap_stops,
    Text.dropWhile_cut info_all stops, Text.takeWhile_cut info_all stops]
  by_cases ends : endsFence text = true
  case neg =>
    rw [if_neg ends] at first
    rw [findAt?_eq_none_of_ways (List.head?_eq_none_iff.mp (by simpa using first))]
    simp [ends]
  rw [if_pos ends] at first
  rw [if_pos ends, Option.bind_some]
  by_cases more_ne : more = []
  · subst more_ne
    rw [findAt?_eq_none_of_ways (List.head?_eq_none_iff.mp (by simpa using first))]
    simp
  rw [ways_seq, Text.lineTail_eq_cons_join more_ne, ways_lit_cons, if_pos rfl,
    List.flatMap_singleton] at first
  by_cases code : more.all isCodeLine = true
  · rw [if_pos code]
    rw [ways_fenceBody_of_isCodeLine more_in more_ne (by simpa using code)] at first
    rw [Text.lineTail_eq_cons_join more_ne]
    exact findAt?_eq_none_of_ways (List.head?_eq_none_iff.mp (by simpa using first))
  · rw [if_neg code]
    obtain ⟨last, others, rest_eq⟩ : ∃ last others, more.dropWhile isCodeLine = last :: others := by
      refine List.exists_cons_of_ne_nil fun none_left => code ?_
      simpa using List.dropWhile_eq_nil_iff.mp none_left
    have more_eq : more = more.takeWhile isCodeLine ++ last :: others := by
      rw [← rest_eq, List.takeWhile_append_dropWhile]
    have last_ends : isFenceEnd last = true := by
      have := List.head?_dropWhile_not isCodeLine more
      rw [rest_eq] at this
      simpa [isCodeLine] using this
    obtain ⟨mark', holds', body⟩ :=
      @head?_ways_fenceBody ('\n' :: _) _ (by simp) more_in _ _ _ more_eq
      (fun _ => List.mem_takeWhile_imp) last_ends mark
    rw [body] at first
    generalize more.takeWhile isCodeLine = code at more_eq holds' first
    have taken : more.take (code.length + 1) = code ++ [last] := by
      rw [more_eq, List.append_cons]
      exact List.take_left' (by simp)
    have split : '\x60' :: '\x60' :: '\x60' :: (gap ++ (info ++ text)) ++ Text.lineTail more =
        Text.join ['\n']
          (('\x60' :: '\x60' :: '\x60' :: (gap ++ (info ++ text))) :: more.take
            (code.length + 1)) ++
          Text.lineTail others := by
      rw [Text.join_cons, List.append_assoc, ← Text.lineTail_append, taken,
        ← List.append_cons, ← more_eq]
    rw [← Text.lineTail_eq_cons_join more_ne, split] at first
    rw [split]
    refine findAt?_of_head? (first.trans ?_) (.cons holds (.cons holds' .nil)) rfl
    have tail_eq : Text.lineTail (code ++ [last]) = '\n' :: (Text.ended code ++ last) := by
      rw [Text.lineTail_eq_cons_join (by simp), Text.join_append_eq_ended _ (by simp)]
      simp [Text.join]
    rw [taken, Text.join_cons, tail_eq]
    simp

/-- The class that an info word becomes. -/
def classText (info : List Char) : List Char :=
  if info = [] then [] else " class=\"".toList ++ Escape.attributeValue info ++ "\"".toList

/-- The line that is written for a fence. -/
def fenceHtml (info code : List Char) : List Char :=
  "<pre><code".toList ++ classText info ++ '>' :: Escape.code (dropLineBreak code) false ++
    "</code></pre>".toList

theorem written_codeBlocks (text info code : List Char) :
    codeBlocks.written ⟨text, [if info = [] then none else some info, some code]⟩ =
      fenceHtml info code := by
  have rendered : codeBlocks.written ⟨text, [if info = [] then none else some info, some code]⟩ =
      fenceHtml (Found.group ⟨text, [if info = [] then none else some info, some code]⟩ 1) code :=
    written_of_render (render_codeBlocks _)
  have first : Found.group ⟨text, [if info = [] then none else some info, some code]⟩ 1 = info := by
    by_cases plain : info = [] <;> simp [Found.group, plain]
  rw [rendered, first]

/-- The pass over fences at a line. -/
def fenceTake : Take :=
  fun line more => (fenceInfo? line).bind fun info =>
    if more.all isCodeLine then none
    else some ([fenceHtml info (Text.ended (more.takeWhile isCodeLine))],
      (more.takeWhile isCodeLine).length + 1)

theorem fenceTake_eq_some {line : List Char} {more out : List (List Char)} {count : Nat} :
    fenceTake line more = some (out, count) ↔
      ∃ info, fenceInfo? line = some info ∧ more.all isCodeLine = false ∧
        [fenceHtml info (Text.ended (more.takeWhile isCodeLine))] = out ∧
          (more.takeWhile isCodeLine).length + 1 = count := by
  rcases info_eq : fenceInfo? line with _ | info
  · simp [fenceTake, info_eq]
  · cases code : more.all isCodeLine <;>
      simp only [fenceTake, info_eq, Option.bind_some, code, if_true, if_false, Bool.false_eq_true,
        Option.some.injEq, Prod.mk.injEq, exists_eq_left', true_and, reduceCtorEq, false_and]

theorem scansLines_codeBlocks : ScansLines codeBlocks.regex codeBlocks.written fenceTake where
  consumes := consumes_regex codeBlocks
  noBreak := by
    intro before after
    by_cases opens : opensLine before = true
    · have split := Text.join_lines after
      have nothing := @findAt?_codeBlocks _ [] (Text.lines after) opens (by simp)
        fun other mem => Text.newline_not_mem_of_mem_lines mem
      rw [Text.lineTail_eq_cons_join (Text.lines_ne_nil after), split] at nothing
      simpa [fenceInfo?, afterTicks?] using nothing
    · exact findAt?_of_lineStart rfl _ _ (by simpa using opens)
  missed := by
    intro before line more opens line_in more_in missed
    apply findAt?_within_line (findAt?_of_lineStart rfl) line_in
    rw [findAt?_codeBlocks opens line_in more_in]
    rcases info_eq : fenceInfo? line with _ | info
    · rfl
    · by_cases code : more.all isCodeLine = true
      · rw [Option.bind_some, if_pos code]
      · simp [fenceTake, info_eq, code] at missed
  nonempty := by
    intro line more out count taken
    obtain ⟨info, _, _, rfl, _⟩ := fenceTake_eq_some.mp taken
    simp
  taken := by
    intro before line more out count opens line_in more_in taken
    obtain ⟨info, info_eq, code, rfl, rfl⟩ := fenceTake_eq_some.mp taken
    have found := findAt?_codeBlocks opens line_in more_in
    rw [info_eq, Option.bind_some, if_neg (by simp [code])] at found
    exact ⟨_, found, .inl ⟨rfl, written_codeBlocks _ info _⟩⟩

end Markflow.Builtin

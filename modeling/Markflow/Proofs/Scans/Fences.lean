import Markflow.Proofs.Builtin.Conversion
import Markflow.Proofs.Document.Code

/-!
# The scan for fences

What the pass of code blocks does to the lines of a text, said without its expression.  A fence line
is three backticks with spaces and tabs and maybe an info word behind them.  From the top down, a
fence line and the first fence line without an info word below it become one line, together with the
lines in between; a line from which this cannot be done is copied (`FenceScan`).
-/

namespace Markflow.Builtin

/-- A character of an info word. -/
def IsInfo (c : Char) : Prop :=
  Text.isWordChar c = true ∨ c ∈ "#+.-".toList

/-- A line of three backticks and an info word, which is empty if there is none. -/
def IsFence (line info : List Char) : Prop :=
  ∃ gap back ending, line = "```".toList ++ (gap ++ (info ++ (back ++ ending))) ∧
    (∀ c ∈ gap, c = ' ' ∨ c = '\t') ∧
    (∀ c ∈ back, c = ' ' ∨ c = '\t') ∧ (∀ c ∈ info, IsInfo c) ∧ (ending = [] ∨ ending = ['\r'])

/-- A text without one carriage return at its end. -/
def dropReturn (text : List Char) : List Char :=
  if text.getLast? = some '\r' then text.dropLast else text

/-- The line that is written for some lines of code. -/
def codeLine (info : List Char) (code : List (List Char)) : List Char :=
  "<pre><code".toList ++ classText info ++ '>' :: Escape.code (dropReturn (Text.join ['\n'] code))
    false ++
    "</code></pre>".toList

/-- What a scan for fences makes of some lines. -/
inductive FenceScan : List (List Char) → List (List Char) → Prop
  | done : FenceScan [] []
  | fence {line info last : List Char} {code rest out : List (List Char)}
      (opens : IsFence line info)
      (within : ∀ other ∈ code, ¬ IsFence other []) (closes : IsFence last [])
      (below : FenceScan rest out) :
      FenceScan (line :: (code ++ last :: rest)) (codeLine info code :: out)
  | copy {line : List Char} {more out : List (List Char)}
      (unpaired : ∀ info, IsFence line info → ∀ other ∈ more, ¬ IsFence other [])
      (below : FenceScan more out) :
      FenceScan (line :: more) (line :: out)

section Lines

variable {line info rest : List Char}

theorem holds_infoSet_iff {c : Char} : infoSet.holds c = true ↔ IsInfo c := by
  have word : Regex.CharKind.word.holds false c = Text.isWordChar c := rfl
  have hash : (c.toNat == 0x23) = (c == '#') := Regex.toNat_beq_toNat c '#'
  have plus : (c.toNat == 0x2B) = (c == '+') := Regex.toNat_beq_toNat c '+'
  have dot : (c.toNat == 0x2E) = (c == '.') := Regex.toNat_beq_toNat c '.'
  have dash : (c.toNat == 0x2D) = (c == '-') := Regex.toNat_beq_toNat c '-'
  simp [infoSet, Regex.CharSet.holds, Regex.SetItem.holds, IsInfo, word, hash, plus, dot, dash]

theorem endsFence_iff : endsFence rest = true ↔
    ∃ gap ending, rest = gap ++ ending ∧ (∀ c ∈ gap, c = ' ' ∨ c = '\t') ∧
      (ending = [] ∨ ending = ['\r']) := by
  constructor
  · intro ends
    refine ⟨rest.takeWhile isSpaceOrTab, rest.dropWhile isSpaceOrTab,
      List.takeWhile_append_dropWhile.symm, ?_, ?_⟩
    · intro c mem
      exact isSpaceOrTab_iff.mp (List.mem_takeWhile_imp mem)
    · simpa [endsFence] using ends
  · rintro ⟨gap, ending, rfl, gap_all, ends⟩
    rw [endsFence_append fun c mem => isSpaceOrTab_iff.mpr (gap_all c mem)]
    rcases ends with rfl | rfl <;> decide

theorem afterTicks?_eq_some : afterTicks? line = some rest ↔ line = "```".toList ++ rest := by
  constructor
  · intro ticks
    unfold afterTicks? at ticks
    split at ticks
    · cases ticks
      rfl
    · cases ticks
  · rintro rfl
    rfl

theorem isFenceEnd_iff : isFenceEnd line = true ↔ IsFence line [] := by
  rw [isFenceEnd, Option.any_eq_true]
  constructor
  · rintro ⟨rest, ticks, ends⟩
    rcases endsFence_iff.mp ends with ⟨gap, ending, rfl, gap_all, ending_eq⟩
    refine ⟨gap, [], ending, afterTicks?_eq_some.mp ticks, gap_all, ?_, ?_, ending_eq⟩ <;> simp
  · rintro ⟨gap, back, ending, line_eq, gap_all, back_all, -, ending_eq⟩
    refine ⟨_, afterTicks?_eq_some.mpr line_eq,
      endsFence_iff.mpr ⟨gap ++ back, ending, by simp, ?_, ending_eq⟩⟩
    intro c mem
    exact (List.mem_append.mp mem).elim (gap_all c) (back_all c)

theorem fenceInfo?_eq_some : fenceInfo? line = some info ↔ IsFence line info := by
  rw [fenceInfo?, Option.bind_eq_some_iff]
  constructor
  · rintro ⟨rest, ticks, worded⟩
    dsimp only at worded
    split at worded
    case isFalse => cases worded
    case isTrue ends =>
      cases worded
      rcases endsFence_iff.mp ends with ⟨back, ending, back_eq, back_all, ending_eq⟩
      refine ⟨rest.takeWhile isSpaceOrTab, back, ending, ?_, ?_, back_all, ?_, ending_eq⟩
      · rw [← back_eq, List.takeWhile_append_dropWhile, List.takeWhile_append_dropWhile]
        exact afterTicks?_eq_some.mp ticks
      · intro c mem
        exact isSpaceOrTab_iff.mp (List.mem_takeWhile_imp mem)
      · intro c mem
        exact holds_infoSet_iff.mp (List.mem_takeWhile_imp mem)
  · rintro ⟨gap, back, ending, line_eq, gap_all, back_all, info_all, ending_eq⟩
    refine ⟨_, afterTicks?_eq_some.mpr line_eq, ?_⟩
    have ends : endsFence (back ++ ending) = true :=
      endsFence_iff.mpr ⟨back, ending, rfl, back_all, ending_eq⟩
    have all_gap : ∀ c ∈ gap, isSpaceOrTab c = true := fun c mem =>
      isSpaceOrTab_iff.mpr (gap_all c mem)
    have all_info : ∀ c ∈ info, infoSet.holds c = true := fun c mem =>
      holds_infoSet_iff.mpr (info_all c mem)
    -- What ends a fence does not start with a character of an info word.
    have noInfo : ∀ text, endsFence text = true → Text.Stops infoSet.holds text := by
      intro text ends
      rcases text with _ | ⟨c, text⟩
      · exact Text.stops_nil
      · rw [Text.stops_cons]
        by_contra isInfo
        rw [endsFence_of_info (by simpa using isInfo)] at ends
        cases ends
    by_cases plain : info = []
    · subst plain
      have gap_eq : (gap ++ ([] ++ (back ++ ending))).dropWhile isSpaceOrTab = ending := by
        have blanks : ∀ c ∈ gap ++ back, isSpaceOrTab c = true := by
          intro c mem
          exact (List.mem_append.mp mem).elim (all_gap c) fun inBack =>
            isSpaceOrTab_iff.mpr (back_all c inBack)
        have stops : Text.Stops isSpaceOrTab ending := by
          rcases ending_eq with rfl | rfl <;> simp
          decide
        rw [List.nil_append, ← List.append_assoc, Text.dropWhile_cut blanks stops]
      have tail_ends : endsFence ending = true :=
        endsFence_iff.mpr ⟨[], ending, rfl, by simp, ending_eq⟩
      have none_written : ∀ c ∈ ([] : List Char), infoSet.holds c = true := by simp
      have word_eq := Text.takeWhile_cut none_written (noInfo ending tail_ends)
      have tail_eq := Text.dropWhile_cut none_written (noInfo ending tail_ends)
      rw [List.nil_append] at word_eq tail_eq
      simp only [gap_eq, word_eq, tail_eq, tail_ends, if_true]
    · have stops : Text.Stops isSpaceOrTab (info ++ (back ++ ending)) := by
        rcases List.exists_cons_of_ne_nil plain with ⟨c, word, rfl⟩
        rw [List.cons_append, Text.stops_cons]
        by_contra blank
        have isInfo := all_info c List.mem_cons_self
        rcases isSpaceOrTab_iff.mp (by simpa using blank) with rfl | rfl
        · exact absurd isInfo (by decide)
        · exact absurd isInfo (by decide)
      simp only [Text.dropWhile_cut all_gap stops, Text.dropWhile_cut all_info (noInfo _ ends),
        Text.takeWhile_cut all_info (noInfo _ ends), ends, if_true]

theorem isCodeLine_iff : isCodeLine line = true ↔ ¬ IsFence line [] := by
  rw [isCodeLine, ← isFenceEnd_iff]
  simp

end Lines

theorem dropLineBreak_eq_dropReturn (code : List Char) :
    dropLineBreak (code ++ ['\n']) = dropReturn code := by
  rcases code.eq_nil_or_concat with rfl | ⟨front, c, rfl⟩
  · rfl
  · by_cases isReturn : c = '\r' <;> simp [dropLineBreak, dropReturn, isReturn]

theorem dropLineBreak_ended (code : List (List Char)) :
    dropLineBreak (Text.ended code) = dropReturn (Text.join ['\n'] code) := by
  by_cases code_ne : code = []
  · subst code_ne
    rfl
  · rw [Text.ended_eq_join code_ne, dropLineBreak_eq_dropReturn]

theorem fenceHtml_ended (info : List Char) (code : List (List Char)) :
    fenceHtml info (Text.ended code) = codeLine info code := by
  unfold fenceHtml codeLine
  rw [dropLineBreak_ended]

section Scan

variable {ls result code rest more : List (List Char)} {line info last : List Char}

theorem fenceTake_of_closed (opens : IsFence line info)
    (within : ∀ other ∈ code, ¬ IsFence other []) (closes : IsFence last []) :
    fenceTake line (code ++ last :: rest) = some ([codeLine info code], code.length + 1) := by
  have code_all : ∀ other ∈ code, isCodeLine other = true := fun other mem =>
    isCodeLine_iff.mpr (within other mem)
  have last_ends : isCodeLine last = false := by
    rw [← Bool.not_eq_true, isCodeLine_iff, not_not]
    exact closes
  have code_eq : (code ++ last :: rest).takeWhile isCodeLine = code := by
    rw [List.takeWhile_append_of_pos code_all, List.takeWhile_cons_of_neg (by simp [last_ends]),
      List.append_nil]
  rw [fenceTake_eq_some]
  refine ⟨info, fenceInfo?_eq_some.mpr opens, ?_, ?_, ?_⟩
  · simp [last_ends]
  · rw [code_eq, fenceHtml_ended]
  · rw [code_eq]

theorem fenceTake_eq_none : fenceTake line more = none ↔
    ∀ info, IsFence line info → ∀ other ∈ more, ¬ IsFence other [] := by
  rw [fenceTake, Option.bind_eq_none_iff]
  apply forall_congr'
  intro info
  rw [fenceInfo?_eq_some]
  apply imp_congr_right
  intro _
  simp only [ite_eq_left_iff, reduceCtorEq, imp_false, not_not, List.all_eq_true, isCodeLine_iff]

theorem fenceScan_iff : FenceScan ls result ↔ lineScan fenceTake ls = result := by
  constructor
  · intro scan
    induction scan with
    | done => exact lineScan_nil fenceTake
    | fence opens within closes below ih =>
      rw [lineScan_of_some (fenceTake_of_closed opens within closes), ← List.drop_drop,
        List.drop_left, List.drop_one, List.tail_cons, ih, List.singleton_append]
    | copy unpaired below ih => rw [lineScan_of_none (fenceTake_eq_none.mpr unpaired), ih]
  · rintro rfl
    fun_induction lineScan fenceTake ls with
    | case1 => exact .done
    | case2 line more missed ih => exact .copy (fenceTake_eq_none.mp missed) ih
    | case3 line more out count taken ih =>
      rcases fenceTake_eq_some.mp taken with ⟨info, info_eq, closed, rfl, rfl⟩
      have left : more.dropWhile isCodeLine ≠ [] := by
        intro none_left
        rw [← Bool.not_eq_true, List.all_eq_true] at closed
        exact closed (List.dropWhile_eq_nil_iff.mp none_left)
      rcases List.exists_cons_of_ne_nil left with ⟨last, rest, rest_eq⟩
      have closes := List.head?_dropWhile_not isCodeLine more
      rw [rest_eq] at closes
      have last_ends : isFenceEnd last = true := by simpa [isCodeLine] using closes
      have within : ∀ other ∈ more.takeWhile isCodeLine, ¬ IsFence other [] := by
        intro other mem
        exact isCodeLine_iff.mp (List.mem_takeWhile_imp mem)
      have split : more = more.takeWhile isCodeLine ++ last :: rest := by
        rw [← rest_eq, List.takeWhile_append_dropWhile]
      have rest_drop : more.drop ((more.takeWhile isCodeLine).length + 1) = rest := by
        rw [← List.drop_drop, Text.drop_length_takeWhile, rest_eq, List.drop_one, List.tail_cons]
      rw [rest_drop] at ih ⊢
      have scan :=
        FenceScan.fence (fenceInfo?_eq_some.mp info_eq) within (isFenceEnd_iff.mp last_ends) ih
      rwa [← split, ← fenceHtml_ended] at scan

end Scan

theorem newline_not_mem_codeLine {line info : List Char} (opens : IsFence line info)
    (code : List (List Char)) :
    '\n' ∉ codeLine info code := by
  have info_in := newline_not_mem_fenceInfo (fenceInfo?_eq_some.mpr opens)
  have class_in : '\n' ∉ classText info := fun mem =>
    absurd (Block.isPlain_classText info_in '\n' mem) (by decide)
  apply List.not_mem_append
  · apply List.not_mem_append
    · exact List.not_mem_append (by decide) class_in
    · exact List.not_mem_cons_of_ne_of_not_mem (by decide) (Escape.newline_not_mem_code _)
  · decide

theorem newline_not_mem_of_fenceScan {ls result : List (List Char)} (scan : FenceScan ls result)
    (inLine : ∀ line ∈ ls, '\n' ∉ line) : ∀ line ∈ result, '\n' ∉ line := by
  induction scan with
  | done => exact inLine
  | fence opens within closes below ih =>
    intro line mem
    rcases List.mem_cons.mp mem with rfl | inRest
    · exact newline_not_mem_codeLine opens _
    · apply ih _ line inRest
      intro other other_mem
      exact inLine other (by simp [other_mem])
  | copy unpaired below ih =>
    intro line mem
    rcases List.mem_cons.mp mem with rfl | inRest
    · exact inLine line List.mem_cons_self
    · apply ih _ line inRest
      intro other other_mem
      exact inLine other (List.mem_cons_of_mem _ other_mem)

/-- The lines that the pass of code blocks writes are those that the scan for fences makes of the
lines of the text. -/
theorem fenceScan_iff_lines_pass (text : List Char) (result : List (List Char)) :
    FenceScan (Text.lines text) result ↔ Text.lines (codeBlocks.pass text) = result := by
  have written : FenceScan (Text.lines text) (Text.lines (codeBlocks.pass text)) := by
    have scan := fenceScan_iff.mpr (Eq.refl (lineScan fenceTake (Text.lines text)))
    have inLine := newline_not_mem_of_fenceScan scan fun _ => Text.newline_not_mem_of_mem_lines
    have lines_eq : Text.lines (codeBlocks.pass text) = lineScan fenceTake (Text.lines text) :=
      lines_pass rfl inLine
    rwa [lines_eq]
  constructor
  · intro scan
    exact (fenceScan_iff.mp written).symm.trans (fenceScan_iff.mp scan)
  · rintro rfl
    exact written

/-- A run of code blocks scans a text for fences.  Every line of code that it writes is one line of
the result. -/
theorem apply_codeBlocks [Host] {ρ σ : Type} (call : Caller ρ σ) (text : String) (state : σ) :
    ∃ html, ((codeBlocks.definition : Definition ρ).apply call text).Gives state html state ∧
      (∀ result, FenceScan (Text.lines text.toList) result ↔ Text.lines html.toList = result) ∧
      ∀ line info code, IsFence line info → '\n' ∉ codeLine info code := by
  refine ⟨_, gives_apply call codeBlocks text state, ?_, fun line info code opens =>
    newline_not_mem_codeLine opens code⟩
  rw [String.toList_ofList]
  exact fenceScan_iff_lines_pass text.toList

end Markflow.Builtin

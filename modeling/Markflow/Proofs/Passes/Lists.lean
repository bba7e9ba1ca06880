import Markflow.Proofs.Passes.Runs
import Markflow.Proofs.Text.Digits

/-!
# Lists and quotes

The items of a list and the lines of a quote are marked lines: behind an indentation they bear a
bullet or a number and then something that is not white space, or they bear the mark of a quote.
-/

namespace Markflow.Builtin

open Regex Regex.Node

/-- Whether an item has a text. -/
def hasItem (rest : List Char) : Bool :=
  rest.head?.any (!Text.isBlank ·)

/-- Whether a line is an item of an unordered list. -/
def isBulleted (line : List Char) : Bool :=
  (afterBullet? line).any hasItem

/-- Whether a line is an item of an ordered list. -/
def isNumbered (line : List Char) : Bool :=
  (afterNumber? line).any (hasItem ·.2)

/-- Whether a line is quoted. -/
def isQuoted (line : List Char) : Bool :=
  (afterIndent? line).any (·.head? == some '>')

section Item

variable {before : List Char} {marks : List GroupMark} {more : List (List Char)}

/-- The rest of a line. -/
theorem ways_lineRest {text : List Char} (inLine : '\n' ∉ text) :
    lineRest.ways ⟨.amid before (text ++ Text.lineTail more), marks⟩ =
      lineEnds before marks text more := by
  have text_all : ∀ c ∈ text, (allBut '\n').holds c = true := by
    intro c mem
    have : c ≠ '\n' := by
      rintro rfl
      exact inLine mem
    simpa using this
  have stops : Text.Stops (allBut '\n').holds (Text.lineTail more) := by
    cases more <;> simp
  rw [lineRest, ways_seq, flatMap_many _ text_all stops]
  · have feed := ways_optional (show (lit '\n').consumes = true from rfl)
    rcases more with _ | ⟨next, more⟩
    · simp [feed, lineEnds]
    · simp [feed, lineEnds, Text.join_cons]
  · intro before c after holds
    have : c ≠ '\n' := by simpa using holds
    simp [this]

/-- What follows the mark of an item. -/
def itemRest : Node :=
  seq (some1 gapSet) (seq (one inkSet) lineRest)

theorem ways_itemRest {text : List Char} (inLine : '\n' ∉ text) :
    itemRest.ways ⟨.amid before (text ++ Text.lineTail more), marks⟩ =
      if (afterGap? text).any hasItem then lineEnds before marks text more else [] := by
  obtain ⟨gap, rest, rfl, gap_all, gap_stops⟩ := Text.exists_cut isSpaceOrTab text
  have stops :=
    gap_stops.append (stops_of_closesLine isSpaceOrTab_newline (closesLine_lineTail more))
  have after_eq : afterGap? (gap ++ rest) = if gap = [] then none else some rest := by
    rcases gap with _ | ⟨c, gap⟩
    · cases rest with
      | nil => rfl
      | cons d rest => simpa [afterGap?] using gap_stops
    · have := Text.dropWhile_cut (fun d mem => gap_all d (List.mem_cons_of_mem c mem)) gap_stops
      simp [afterGap?, gap_all c (by simp), this]
  rw [itemRest, ways_seq, List.append_assoc, flatMap_some1 _ (by simpa using gap_all)
    (by simpa using stops), after_eq, lineEnds_append]
  · rcases rest with _ | ⟨d, rest⟩
    · cases more <;> by_cases no_gap :
        gap = [] <;> simp [no_gap, hasItem, Text.isBlank, Text.blankRanges]
    · have rest_in : '\n' ∉ rest := fun mem => inLine (by simp [mem])
      have lineEnds_eq : lineEnds (gap.reverse ++ before) marks (d :: rest) more =
          lineEnds (d :: (gap.reverse ++ before)) marks rest more :=
            lineEnds_append _ _ [d] rest more
      by_cases no_gap : gap = []
      · simp [no_gap]
      · by_cases ink :
          Text.isBlank d <;> simp [no_gap, hasItem, ink, ways_lineRest rest_in, lineEnds_eq]
  · intro before c after holds
    have blank : Text.isBlank c = true := isBlank_of_isSpaceOrTab (by simpa using holds)
    simp [blank]

end Item

/-- The mark and the rest of a line behind its indentation, as an expression passes over it. -/
theorem marks_of_indent {rest : Node} {isMarked : List Char → Bool} (not_nil : isMarked [] = false)
    (consumes : rest.consumes = true)
    (refused : ∀ before after marks, rest.ways ⟨.amid before (' ' :: after), marks⟩ = [])
    (ways_eq : ∀ before marks text more, '\n' ∉ text → (∀ other ∈ more, '\n' ∉ other) →
      rest.ways ⟨.amid before (text ++ Text.lineTail more), marks⟩ =
        if isMarked text then lineEnds before marks text more else []) :
    Marks (seq (anchor .lineStart) (seq indent rest)) fun line =>
      (afterIndent? line).any isMarked where
  consumes := by simp [Node.consumes, consumes]
  not_nil := by simp [afterIndent?, not_nil]
  ways_eq := by
    intro before marks line more line_in more_in
    rw [ways_seq, ways_lineStart]
    by_cases opens : opensLine before = true
    · simp only [opens, if_true, List.flatMap_cons, List.flatMap_nil, List.append_nil, true_and]
      rw [ways_seq, flatMap_indent (refused · · marks) (closesLine_lineTail more)]
      rcases indented : afterIndent? line with _ | text
      · simp
      · have line_eq := eq_append_of_afterIndent? indented
        have text_in : '\n' ∉ text := fun mem => line_in (line_eq ▸ List.mem_append_right _ mem)
        generalize line.takeWhile (· == ' ') = spaces at line_eq
        subst line_eq
        rw [Option.elim_some, ways_eq _ _ _ _ text_in more_in, lineEnds_append, Option.any_some]
    · simp [opens]

/-- The item of an unordered list behind its indentation. -/
def bulletItem : Node :=
  seq (one ⟨[.code 0x2A, .code 0x2B, .code 0x2D], false, .exact⟩) itemRest

/-- Whether what is behind the indentation of a line starts with a bullet and has an item. -/
def startsBullet : List Char → Bool
  | [] => false
  | c :: rest => (c == '*' || c == '+' || c == '-') && (afterGap? rest).any hasItem

theorem marks_unorderedList :
    Marks (seq (anchor .lineStart) (seq indent bulletItem)) isBulleted := by
  have isBulleted_eq : isBulleted = fun line => (afterIndent? line).any startsBullet := by
    funext line
    rcases indented : afterIndent? line with _ | _ | ⟨c, rest⟩
    · simp [isBulleted, afterBullet?, indented]
    · simp [isBulleted, afterBullet?, indented, startsBullet]
    · by_cases bullet : c = '*' ∨ c = '+' ∨ c = '-' <;>
        simp_all [isBulleted, afterBullet?, startsBullet, or_assoc]
  have holds_bullets : ∀ c, CharSet.holds ⟨[.code 0x2A, .code 0x2B, .code 0x2D], false, .exact⟩ c =
      (c == '*' || c == '+' || c == '-') := by
    intro c
    have star : (c.toNat == 0x2A) = (c == '*') := toNat_beq_toNat c '*'
    have plus : (c.toNat == 0x2B) = (c == '+') := toNat_beq_toNat c '+'
    have dash : (c.toNat == 0x2D) = (c == '-') := toNat_beq_toNat c '-'
    simp [CharSet.holds, SetItem.holds, star, plus, dash, Bool.or_assoc]
  rw [isBulleted_eq]
  apply marks_of_indent rfl rfl
  · intro before after marks
    simp [bulletItem, holds_bullets]
  · intro before marks text more text_in _
    rcases text with _ | ⟨c, rest⟩
    · cases more <;> simp [bulletItem, holds_bullets, startsBullet]
    · have lineEnds_eq :
          lineEnds before marks (c :: rest) more = lineEnds (c :: before) marks rest more :=
        lineEnds_append _ _ [c] rest more
      have rest_in : '\n' ∉ rest := fun mem => text_in (by simp [mem])
      rw [bulletItem, ways_seq, List.cons_append, ways_one_cons, holds_bullets, lineEnds_eq]
      by_cases bullet : (c == '*' || c == '+' || c == '-') = true <;>
        simp [bullet, startsBullet, ways_itemRest rest_in]

/-- The item of an ordered list behind its indentation. -/
def numberItem : Node :=
  seq (loop .greedy 1 (some 9) (one ⟨[.kind .digit false true], false, .exact⟩))
    (seq (one ⟨[.code 0x2E, .code 0x29], false, .exact⟩) itemRest)

/-- Whether what is behind the digits of a line has the dot or the bracket of a number, and an
item. -/
def endsNumber : List Char → Bool
  | [] => false
  | c :: rest => (c == '.' || c == ')') && (afterGap? rest).any hasItem

/-- Whether what is behind the indentation of a line starts with a number and has an item. -/
def startsNumber (text : List Char) : Bool :=
  allows 1 (some 9) (text.takeWhile Text.isDigit).length && endsNumber (text.dropWhile Text.isDigit)

theorem marks_orderedList : Marks (seq (anchor .lineStart) (seq indent numberItem)) isNumbered := by
  have isNumbered_eq : isNumbered = fun line => (afterIndent? line).any startsNumber := by
    funext line
    rcases indented : afterIndent? line with _ | text
    · simp [isNumbered, afterNumber?, indented]
    · simp only [isNumbered, afterNumber?, indented, startsNumber, Option.any_some,
        Text.drop_length_takeWhile]
      by_cases few : 1 ≤ (text.takeWhile Text.isDigit).length ∧
        (text.takeWhile Text.isDigit).length ≤ 9
      · rcases text.dropWhile Text.isDigit with _ | ⟨c, rest⟩
        · simp [few, endsNumber]
        · by_cases dot : (c == '.' || c == ')') = true
          · simp only [few, endsNumber, and_self, if_true, dot, allows, Option.all_some,
              decide_true, Bool.true_and]
            cases afterGap? rest <;> simp
          · simp [few, dot, endsNumber]
      · have : allows 1 (some 9) (text.takeWhile Text.isDigit).length = false := by
          simpa [allows] using few
        simp [few, this]
  have holds_digits : CharSet.holds ⟨[.kind .digit false true], false, .exact⟩ = Text.isDigit := by
    funext c
    simp [CharSet.holds, SetItem.holds, CharKind.holds]
  have holds_dots : ∀ c, CharSet.holds ⟨[.code 0x2E, .code 0x29], false, .exact⟩ c =
      (c == '.' || c == ')') := by
    intro c
    have dot : (c.toNat == 0x2E) = (c == '.') := toNat_beq_toNat c '.'
    have close : (c.toNat == 0x29) = (c == ')') := toNat_beq_toNat c ')'
    simp [CharSet.holds, SetItem.holds, dot, close]
  have refused : ∀ before c after marks, Text.isDigit c = true →
      (seq (one ⟨[.code 0x2E, .code 0x29], false, .exact⟩) itemRest).ways ⟨.amid before
        (c :: after), marks⟩ = [] := by
    intro before c after marks holds
    have : ¬ (c = '.' ∨ c = ')') := by
      rintro (rfl | rfl) <;> exact absurd holds (by decide)
    simp [holds_dots, this]
  rw [isNumbered_eq]
  apply marks_of_indent rfl rfl
  · intro before after marks
    have required :=
      ways_loop_succ (show (one ⟨[.kind .digit false true], false, .exact⟩).consumes =
        true from rfl)
      (show Greed.greedy ≠ .possessive by simp) 0 (some 8) ⟨.amid before (' ' :: after), marks⟩
    have noDigit : Text.isDigit ' ' = false := by decide
    rw [ways_one_cons, holds_digits, noDigit] at required
    simpa [numberItem] using congrArg
      (List.flatMap (seq (one ⟨[.code 0x2E, .code 0x29], false, .exact⟩) itemRest).ways) required
  · intro before marks text more text_in _
    obtain ⟨digits, rest, rfl, digits_all, digits_stops⟩ := Text.exists_cut Text.isDigit text
    have tail_stops : Text.Stops Text.isDigit (Text.lineTail more) :=
      stops_of_closesLine (by decide) (closesLine_lineTail more)
    rw [numberItem, ways_seq, List.append_assoc, flatMap_loop_one (by simp) (by simp)
      (fun before c after holds =>
        refused before c after marks (by simpa [holds_digits] using holds))
      (by simpa [holds_digits] using digits_all)
        (by simpa [holds_digits] using digits_stops.append tail_stops)]
    simp only [startsNumber, Text.takeWhile_cut digits_all digits_stops,
      Text.dropWhile_cut digits_all digits_stops]
    by_cases allowed : allows 1 (some 9) digits.length = true
    · rw [lineEnds_append]
      rcases rest with _ | ⟨c, rest⟩
      · cases more <;> simp [allowed, holds_dots, endsNumber]
      · have lineEnds_eq : lineEnds (digits.reverse ++ before) marks (c :: rest) more =
            lineEnds (c :: (digits.reverse ++ before)) marks rest more :=
              lineEnds_append _ _ [c] rest more
        have rest_in : '\n' ∉ rest := fun mem => text_in (by simp [mem])
        rw [ways_seq, List.cons_append, ways_one_cons, holds_dots, lineEnds_eq]
        by_cases dot : (c == '.' || c == ')') = true <;>
          simp [allowed, dot, endsNumber, ways_itemRest rest_in]
    · simp [allowed]

theorem marks_blockquote :
    Marks (seq (anchor .lineStart) (seq indent (seq (lit '>') lineRest))) isQuoted := by
  apply @marks_of_indent _ (·.head? == some '>') rfl rfl
  · intro before after marks
    simp
  · intro before marks text more text_in _
    rcases text with _ | ⟨c, rest⟩
    · cases more <;> simp
    · have lineEnds_eq :
          lineEnds before marks (c :: rest) more = lineEnds (c :: before) marks rest more :=
        lineEnds_append _ _ [c] rest more
      have rest_in : '\n' ∉ rest := fun mem => text_in (by simp [mem])
      by_cases quote : c = '>'
      · subst quote
        simp [lineEnds_eq, ways_lineRest rest_in]
      · simp [quote]

section Block

variable {run : List (List Char)} (run_ne : run ≠ []) (inLine : ∀ line ∈ run, '\n' ∉ line)

include run_ne inLine

theorem lines_block : Text.lines (Text.join ['\n'] run ++ ['\n']) = run ++ [[]] := by
  have ended : Text.join ['\n'] run ++ ['\n'] = Text.join ['\n'] (run ++ [[]]) := by
    simp [Text.join_append run_ne]
  have inLine' : ∀ line ∈ run ++ [[]], '\n' ∉ line := by
    intro line mem
    rcases List.mem_append.mp mem with mem | mem
    · exact inLine line mem
    · simp_all
  rw [ended, Text.lines_join inLine' (by simp)]

variable (ink : ∀ line ∈ run, Text.hasInk line = true)

include ink

/-- The lines of a block of marked lines, whether or not it ends with a line feed. -/
theorem filter_lines_block : (Text.lines (Text.join ['\n'] run)).filter Text.hasInk = run ∧
    (Text.lines (Text.join ['\n'] run ++ ['\n'])).filter Text.hasInk = run := by
  have kept : run.filter Text.hasInk = run := List.filter_eq_self.mpr ink
  rw [Text.lines_join inLine run_ne, lines_block run_ne inLine, List.filter_append, kept]
  simp [Text.hasInk]

theorem trailingNewline_block : trailingNewline (Text.join ['\n'] run) = [] := by
  obtain ⟨front, last, rfl⟩ : ∃ front last, run = front ++ [last] :=
    ⟨_, _, (List.dropLast_concat_getLast run_ne).symm⟩
  have last_ne : last ≠ [] := by
    rintro rfl
    simpa [Text.hasInk] using ink [] (by simp)
  obtain ⟨start, c, rfl⟩ : ∃ start c, last = start ++ [c] :=
    ⟨_, _, (List.dropLast_concat_getLast last_ne).symm⟩
  have c_ne : c ≠ '\n' := by
    rintro rfl
    exact inLine (start ++ ['\n']) (by simp) (by simp)
  obtain ⟨before, join_eq⟩ :
      ∃ before, Text.join ['\n'] (front ++ [start ++ [c]]) = before ++ [c] := by
    by_cases front_ne : front = []
    · exact ⟨start, by simp [front_ne, Text.join]⟩
    · exact ⟨Text.join ['\n'] front ++ '\n' :: start, by simp [Text.join_append front_ne]⟩
  simp [trailingNewline, join_eq, c_ne]

end Block

/-- The lines that are written for a list. -/
def listLines (tag start : List Char) (items : List (List Char)) : List (List Char) :=
  ("<".toList ++ tag ++ start ++ ">".toList) ::
    items.map (fun item => "  <li>".toList ++ item ++ "</li>".toList) ++
      ["</".toList ++ tag ++ ">".toList]

/-- What is neither in the markup of a list nor in what is written in it is not in its lines. -/
theorem not_mem_listLines {c : Char} (noMarkup : c ∉ " <>/li".toList) {tag start : List Char}
    {items : List (List Char)}
    (inTag : c ∉ tag) (inStart : c ∉ start) (inItem : ∀ item ∈ items, c ∉ item) :
    ∀ line ∈ listLines tag start items, c ∉ line := by
  have markup (text : String) (within : text.toList ⊆ " <>/li".toList) : c ∉ text.toList :=
    fun mem => noMarkup (within mem)
  have itemLine : ∀ item ∈ items, c ∉ "  <li>".toList ++ item ++ "</li>".toList := by
    intro item mem
    have opening := List.not_mem_append (markup "  <li>" (by decide)) (inItem item mem)
    exact List.not_mem_append opening (markup "</li>" (by decide))
  intro line mem
  rcases List.mem_append.mp mem with inList | isLast
  · rcases List.mem_cons.mp inList with rfl | isItem
    · have opening :=
        List.not_mem_append (List.not_mem_append (markup "<" (by decide)) inTag) inStart
      exact List.not_mem_append opening (markup ">" (by decide))
    · rcases List.mem_map.mp isItem with ⟨item, item_mem, rfl⟩
      exact itemLine item item_mem
  · rcases List.mem_singleton.mp isLast with rfl
    exact List.not_mem_append (List.not_mem_append (markup "</" (by decide)) inTag)
      (markup ">" (by decide))

theorem toList_renderItems (tag start : String) {items : List (List Char)} (items_ne : items ≠ [])
    (block : List Char) :
    (renderItems tag start items block).toList =
      Text.join ['\n'] (listLines tag.toList start.toList items) ++ trailingNewline block := by
  have texts_ne : (items.map fun item => "  <li>".toList ++ item ++ "</li>".toList) ≠ [] := by
    simpa using items_ne
  have texts_eq :
      (items.map fun item => "  <li>" ++ String.ofList item ++ "</li>").map String.toList =
      items.map fun item => "  <li>".toList ++ item ++ "</li>".toList := by
    simp
  rw [listLines, List.cons_append, Text.join_cons, Text.lineTail_append,
    Text.lineTail_eq_cons_join texts_ne]
  simp only [renderItems, String.toList_append, String.toList_intercalate, texts_eq,
    String.toList_ofList]
  rw [show "\n".toList = ['\n'] from rfl, Text.intercalate_eq_join]
  simp

theorem suffix_of_afterIndent? {line text : List Char} (after : afterIndent? line = some text) :
    text <:+ line :=
  ⟨_, (eq_append_of_afterIndent? after).symm⟩

theorem suffix_of_afterGap? {text rest : List Char} (after : afterGap? text = some rest) :
    rest <:+ text := by
  rcases text with _ | ⟨c, text⟩
  · simp [afterGap?] at after
  · obtain ⟨_, rfl⟩ : isSpaceOrTab c = true ∧ text.dropWhile isSpaceOrTab = rest := by
      simpa [afterGap?] using after
    exact (List.dropWhile_suffix _).trans (List.suffix_cons c text)

theorem suffix_of_afterBullet? {line rest : List Char} (after : afterBullet? line = some rest) :
    rest <:+ line := by
  unfold afterBullet? at after
  split at after
  · next c text indented =>
    split at after
    · exact ((suffix_of_afterGap? after).trans (List.suffix_cons c text)).trans
        (suffix_of_afterIndent? indented)
    · simp at after
  · simp at after

/-- The parts of a line that starts with a number. -/
theorem afterNumber?_eq_some {line rest : List Char} {number : Nat} :
    afterNumber? line = some (number, rest) ↔
      ∃ digits c text, afterIndent? line = some (digits ++ c :: text) ∧
        (∀ d ∈ digits, Text.isDigit d = true) ∧
        Text.isDigit c = false ∧ 1 ≤ digits.length ∧ digits.length ≤ 9 ∧ (c = '.' ∨ c = ')') ∧
        afterGap? text = some rest ∧ number = Text.digitsValue digits := by
  unfold afterNumber?
  rcases afterIndent? line with _ | behind
  · simp
  obtain ⟨digits, text, rfl, digits_all, digits_stops⟩ := Text.exists_cut Text.isDigit behind
  simp only [Text.takeWhile_cut digits_all digits_stops, List.drop_left]
  constructor
  · intro after
    split at after
    case isFalse => simp at after
    case isTrue few =>
      rcases text with _ | ⟨c, text⟩
      · simp at after
      · simp only [Bool.or_eq_true, beq_iff_eq] at after
        split at after
        case isFalse => simp at after
        case isTrue dot =>
          obtain ⟨_, after_eq, rfl, rfl⟩ : ∃ other, afterGap? text = some other ∧
              Text.digitsValue digits = number ∧ other = rest := by simpa using after
          exact ⟨digits, c, text, rfl, digits_all, by
            simpa using digits_stops, few.1, few.2, dot, after_eq, rfl⟩
  · rintro ⟨digits', c, text', same, digits'_all, c_stops, least, most, dot, after, rfl⟩
    obtain ⟨rfl, rfl⟩ :=
      Text.cut_unique digits_all digits_stops digits'_all (by simpa using c_stops)
      (Option.some.inj same)
    simp [least, most, dot, after]

theorem afterIndent?_append {line text : List Char} (after : afterIndent? line = some text)
    (text_ne : text ≠ [])
    (tail : List Char) : afterIndent? (line ++ tail) = some (text ++ tail) := by
  obtain ⟨spaces, text', rfl, spaces_all, spaces_stops⟩ := Text.exists_cut (· == ' ') line
  simp only [afterIndent?, Text.takeWhile_cut spaces_all spaces_stops,
    Text.dropWhile_cut spaces_all spaces_stops]
    at after
  split at after
  case isFalse => simp at after
  case isTrue few =>
    obtain rfl : text' = text := by simpa using after
    have stops : Text.Stops (· == ' ') (text' ++ tail) := by
      obtain ⟨c, text, rfl⟩ := List.exists_cons_of_ne_nil text_ne
      simpa using spaces_stops
    simp [afterIndent?, List.append_assoc, Text.takeWhile_cut spaces_all stops,
      Text.dropWhile_cut spaces_all stops, few]

/-- The number of a block of items is that of its first line. -/
theorem afterNumber?_append {line rest : List Char} {number : Nat}
    (after : afterNumber? line = some (number, rest))
    (tail : List Char) : ∃ rest', afterNumber? (line ++ tail) = some (number, rest') := by
  obtain ⟨digits, c, text, indented, digits_all, c_stops, least, most, dot, gap, number_eq⟩ :=
    afterNumber?_eq_some.mp after
  obtain ⟨rest', gap_eq⟩ : ∃ rest', afterGap? (text ++ tail) = some rest' := by
    rcases text with _ | ⟨d, text⟩
    · simp [afterGap?] at gap
    · have blank : isSpaceOrTab d = true := by
        by_contra isNot
        simp [afterGap?, isNot] at gap
      exact ⟨_, by simp [afterGap?, blank]; rfl⟩
  refine ⟨rest',
    afterNumber?_eq_some.mpr ⟨digits, c, text ++ tail, ?_, digits_all, c_stops, least, most,
      dot, gap_eq,
    number_eq⟩⟩
  simpa using afterIndent?_append indented (by simp) tail

theorem hasInk_of_hasItem {line rest : List Char} (item : hasItem rest = true)
    (isSuffix : rest <:+ line) :
    Text.hasInk line = true := by
  rcases rest with _ | ⟨c, rest⟩
  · simp [hasItem] at item
  · have ink : Text.isBlank c = false := by simpa [hasItem] using item
    simpa [Text.hasInk] using ⟨c, isSuffix.subset (by simp), ink⟩

theorem hasInk_of_isNumbered {line : List Char} (numbered : isNumbered line = true) :
    Text.hasInk line = true := by
  obtain ⟨⟨number, rest⟩, after, item⟩ := (Option.any_eq_true _ _).mp numbered
  obtain ⟨digits, c, text, indented, _, _, _, _, _, gap, _⟩ := afterNumber?_eq_some.mp after
  have isSuffix := (suffix_of_afterGap? gap).trans
    ((List.suffix_cons c text).trans
      ((List.suffix_append digits _).trans (suffix_of_afterIndent? indented)))
  exact hasInk_of_hasItem item isSuffix

/-- The texts of the items of a run. -/
def itemTexts (after? : List Char → Option (List Char)) (run : List (List Char)) :
    List (List Char) :=
  run.map fun line => Text.strip ((after? line).getD line)

/-- What is written for a run of items without numbers. -/
def bulletLines (run : List (List Char)) : List (List Char) :=
  listLines "ul".toList [] (itemTexts afterBullet? run)

theorem scansLines_unorderedList :
    ScansLines unorderedList.regex unorderedList.written (runTake isBulleted bulletLines) := by
  apply marks_unorderedList.scansLines rfl rfl
  · intro run
    simp [bulletLines, listLines]
  · intro run run_ne marked
    have inLine : ∀ line ∈ run, '\n' ∉ line := fun line mem => (marked line mem).2
    have ink : ∀ line ∈ run, Text.hasInk line = true := by
      intro line mem
      obtain ⟨rest, after, item⟩ := (Option.any_eq_true _ _).mp (marked line mem).1
      exact hasInk_of_hasItem item (suffix_of_afterBullet? after)
    have texts_ne : itemTexts afterBullet? run ≠ [] := by simpa [itemTexts] using run_ne
    obtain ⟨plain, ended⟩ := filter_lines_block run_ne inLine ink
    refine ⟨?_, ?_⟩
    · rw [written_of_render (render_unorderedList _), listItems, plain]
      simpa [bulletLines, trailingNewline_block run_ne inLine ink, itemTexts] using
        toList_renderItems "ul" "" texts_ne (Text.join ['\n'] run)
    · rw [written_of_render (render_unorderedList _), listItems, ended]
      simpa [bulletLines, trailingNewline, itemTexts] using
        toList_renderItems "ul" "" texts_ne (Text.join ['\n'] run ++ ['\n'])

/-- Where a list starts, unless it starts at one. -/
def startText (number : Nat) : List Char :=
  if number = 1 then [] else " start=\"".toList ++ Nat.toDigits 10 number ++ "\"".toList

theorem not_mem_startText {c : Char} (noMarkup : c ∉ " start=\"".toList)
    (noDigit : c.isDigit = false) (number : Nat) :
    c ∉ startText number := by
  unfold startText
  split
  · exact List.not_mem_nil
  · have digits := Text.not_mem_toDigits noDigit number
    have closing : c ∉ "\"".toList := fun mem =>
      noMarkup ((by decide : "\"".toList ⊆ " start=\"".toList) mem)
    exact List.not_mem_append (List.not_mem_append noMarkup digits) closing

/-- Where a run of items starts. -/
def runStart : List (List Char) → List Char
  | [] => []
  | line :: _ => match afterNumber? line with
    | some (number, _) => startText number
    | none => []

/-- What is written for a run of items with numbers. -/
def numberLines (run : List (List Char)) : List (List Char) :=
  listLines "ol".toList (runStart run) (itemTexts (fun line => (afterNumber? line).map (·.2)) run)

theorem written_orderedList {line : List Char} {more : List (List Char)} {block tail : List Char}
    (block_eq : block = line ++ tail) (numbered : isNumbered line = true)
    (lines_eq : (Text.lines block).filter Text.hasInk = line :: more) :
    orderedList.written ⟨block, []⟩ =
      Text.join ['\n'] (numberLines (line :: more)) ++ trailingNewline block := by
  obtain ⟨⟨number, rest⟩, after, _⟩ := (Option.any_eq_true _ _).mp numbered
  obtain ⟨rest', after'⟩ := afterNumber?_append after tail
  rw [← block_eq] at after'
  have start_eq : (if number = 1 then "" else s!" start=\"{number}\"").toList =
      runStart (line :: more) := by
    by_cases one : number = 1 <;> simp [runStart, startText, after, one, Nat.repr, toString]
  have texts_ne : itemTexts (fun line => (afterNumber? line).map (·.2)) (line :: more) ≠ [] := by
    simp [itemTexts]
  rw [written_of_render (render_orderedList _)]
  simp only [renderOrderedList, capturesOf, String.toList_ofList, after', listItems, lines_eq]
  rw [numberLines, ← start_eq]
  exact toList_renderItems "ol" _ texts_ne block

theorem scansLines_orderedList :
    ScansLines orderedList.regex orderedList.written (runTake isNumbered numberLines) := by
  apply marks_orderedList.scansLines rfl rfl
  · intro run
    simp [numberLines, listLines]
  · intro run run_ne marked
    have inLine : ∀ line ∈ run, '\n' ∉ line := fun line mem => (marked line mem).2
    have ink : ∀ line ∈ run, Text.hasInk line = true := fun line mem =>
      hasInk_of_isNumbered (marked line mem).1
    obtain ⟨plain, ended⟩ := filter_lines_block run_ne inLine ink
    obtain ⟨line, more, rfl⟩ := List.exists_cons_of_ne_nil run_ne
    have numbered := (marked line (by simp)).1
    refine ⟨?_, ?_⟩
    · rw [written_orderedList (Text.join_cons line more) numbered plain,
        trailingNewline_block run_ne inLine ink, List.append_nil]
    · rw [@written_orderedList _ _ _ (Text.lineTail more ++ ['\n']) (by simp [Text.join_cons])
        numbered ended]
      simp [trailingNewline]

/-- The texts of quoted lines. -/
def quoteTexts (run : List (List Char)) : List (List Char) :=
  (itemTexts afterQuote? run).filter (!·.isEmpty)

/-- What is written for a run of quoted lines. -/
def quoteLines (run : List (List Char)) : List (List Char) :=
  ["<blockquote>".toList ++ Text.join [' '] (quoteTexts run) ++ "</blockquote>".toList]

theorem scansLines_blockquote :
    ScansLines blockquote.regex blockquote.written (runTake isQuoted quoteLines) := by
  apply marks_blockquote.scansLines rfl rfl
  · intro run
    simp [quoteLines]
  · intro run run_ne marked
    have inLine : ∀ line ∈ run, '\n' ∉ line := fun line mem => (marked line mem).2
    have ink : ∀ line ∈ run, Text.hasInk line = true := by
      intro line mem
      obtain ⟨text, indented, quote⟩ := (Option.any_eq_true _ _).mp (marked line mem).1
      rcases text with _ | ⟨c, text⟩
      · simp at quote
      · obtain rfl : c = '>' := by simpa using quote
        simpa [Text.hasInk] using
          ⟨'>', (suffix_of_afterIndent? indented).subset (by simp), by decide⟩
    refine ⟨?_, ?_⟩
    · rw [written_of_render (render_blockquote _), trailingNewline_block run_ne inLine ink,
        Text.lines_join inLine run_ne]
      simp [quoteLines, quoteTexts, itemTexts, Text.join]
    · have stays : Text.strip ((afterQuote? []).getD []) = [] := by decide
      rw [written_of_render (render_blockquote _), lines_block run_ne inLine]
      simp [quoteLines, quoteTexts, itemTexts, Text.join, trailingNewline, stays]

end Markflow.Builtin

import Markflow.Proofs.Document.Blocks
import Markflow.Proofs.Text.Digits

/-!
# Passes over canonical documents

The transform that a block is for makes its HTML of it (`Block.turns_own`), the transforms before
that leave the block as it is written, and those behind it leave its HTML as it is.
-/

namespace Markflow

open Builtin

section Chars

variable {c : Char}

theorem isSpaceOrTab_of_isAlpha (letter : c.isAlpha = true) : isSpaceOrTab c = false := by
  have space : c ≠ ' ' := by
    rintro rfl
    exact absurd letter (by decide)
  have tab : c ≠ '\t' := by
    rintro rfl
    exact absurd letter (by decide)
  simp [isSpaceOrTab, space, tab]

theorem isSpaceOrTab_of_isInfoChar (isInfo : isInfoChar c = true) : isSpaceOrTab c = false := by
  have space : c ≠ ' ' := by
    rintro rfl
    exact absurd isInfo (by decide)
  have tab : c ≠ '\t' := by
    rintro rfl
    exact absurd isInfo (by decide)
  simp [isSpaceOrTab, space, tab]

theorem holds_infoSet_of_isInfoChar (isInfo : isInfoChar c = true) : infoSet.holds c = true := by
  have hash : (c.toNat == 0x23) = (c == '#') := Regex.toNat_beq_toNat c '#'
  have plus : (c.toNat == 0x2B) = (c == '+') := Regex.toNat_beq_toNat c '+'
  have dot : (c.toNat == 0x2E) = (c == '.') := Regex.toNat_beq_toNat c '.'
  have dash : (c.toNat == 0x2D) = (c == '-') := Regex.toNat_beq_toNat c '-'
  have word : c.isAlphanum = true → Text.isAlphanumeric c = true := by
    intro alphanumeric
    have ascii : c.toNat < 128 := by
      rw [Char.isAlphanum, Bool.or_eq_true] at alphanumeric
      rcases alphanumeric with letter | digit
      · have := Text.isAsciiLetter_iff.mp letter
        omega
      · have := Text.isAsciiDigit_iff.mp digit
        omega
    rw [Text.isAlphanumeric, if_pos ascii, alphanumeric]
  simp only [isInfoChar, Bool.or_eq_true, beq_iff_eq] at isInfo
  rcases isInfo with ((((alphanumeric | under) | isHash) | isPlus) | isDot) | isDash
  · simp [infoSet, Regex.CharSet.holds, Regex.SetItem.holds, Regex.CharKind.holds, Text.isWordChar,
      word alphanumeric]
  all_goals
    subst c
    decide

end Chars

namespace Block

/-- The HTML of a block consists of tags and phrases on their lines. -/
theorem lead?_of_mem_htmlLines {block : Block} {line : List Char} (mem : line ∈ block.htmlLines) :
    lead? line = some '<' := by
  have item : ∀ rest, lead? (' ' :: ' ' :: '<' :: rest) = some '<' := fun rest => rfl
  have tag : ∀ rest, lead? ('<' :: rest) = some '<' := fun rest => rfl
  cases block with
  | header level text => simp_all [htmlLines]
  | rule => simp_all [htmlLines]
  | bullets items =>
    simp only [htmlLines, htmlLines.listHtml, List.cons_append, List.mem_cons, List.mem_append,
      List.mem_map, List.not_mem_nil, or_false] at mem
    rcases mem with rfl | ⟨text, _, rfl⟩ | rfl
    · rfl
    · simp [item]
    · rfl
  | numbers start items few =>
    simp only [htmlLines, htmlLines.listHtml, List.cons_append, List.mem_cons, List.mem_append,
      List.mem_map, List.not_mem_nil, or_false] at mem
    rcases mem with rfl | ⟨text, _, rfl⟩ | rfl
    · simp [tag]
    · simp [item]
    · rfl
  | quote lines => simp_all [htmlLines]
  | fence listing => simp_all [htmlLines]
  | paragraph lines => simp_all [htmlLines]

theorem hasInk_of_lead? {line : List Char} {c : Char} (lead : lead? line = some c)
    (ink : Text.isBlank c = false) :
    Text.hasInk line = true := by
  obtain ⟨text, indented, head⟩ := Option.bind_eq_some_iff.mp lead
  obtain ⟨rest, rfl⟩ := List.head?_eq_some_iff.mp head
  simpa [Text.hasInk] using ⟨c, (suffix_of_afterIndent? indented).subset (by simp), ink⟩

/-- Each line of the HTML of a block opens with the tag of a block element. -/
theorem isBlockLine_of_mem_htmlLines {block : Block} {line : List Char}
    (mem : line ∈ block.htmlLines) :
    isBlockLine line = true := by
  have item : ∀ rest, isBlockLine (' ' :: ' ' :: '<' :: 'l' :: 'i' :: '>' :: rest) = true :=
    fun rest => isBlockLine_tag (show "li" ∈ blockTags by simp [blockTags]) rest rfl
  cases block with
  | header level text =>
    have isTag : ∀ level : Fin 6, String.ofList ('h' :: Nat.toDigits 10 (level + 1)) ∈
        blockTags := by decide
    have opens := isBlockLine_tag (c := '>') (isTag level) (text.text ++ "</h".toList ++
      Nat.toDigits 10 (level + 1) ++ ">".toList) rfl
    obtain rfl := List.mem_singleton.mp mem
    simpa using opens
  | rule =>
    obtain rfl := List.mem_singleton.mp mem
    rfl
  | bullets items =>
    simp only [htmlLines, htmlLines.listHtml, List.cons_append, List.mem_cons, List.mem_append,
      List.mem_map, List.not_mem_nil, or_false] at mem
    rcases mem with rfl | ⟨text, _, rfl⟩ | rfl
    · rfl
    · simp [item]
    · rfl
  | numbers start items few =>
    simp only [htmlLines, htmlLines.listHtml, List.cons_append, List.mem_cons, List.mem_append,
      List.mem_map, List.not_mem_nil, or_false] at mem
    rcases mem with rfl | ⟨text, _, rfl⟩ | rfl
    · by_cases one : start = 1
      · rw [startText, if_pos one]
        rfl
      · rw [startText, if_neg one]
        rfl
    · simp [item]
    · rfl
  | quote lines =>
    obtain rfl := List.mem_singleton.mp mem
    exact isBlockLine_tag (show "blockquote" ∈ blockTags by simp [blockTags]) _ rfl
  | fence listing =>
    obtain rfl := List.mem_singleton.mp mem
    exact isBlockLine_tag (show "pre" ∈ blockTags by simp [blockTags]) _ rfl
  | paragraph lines =>
    obtain rfl := List.mem_singleton.mp mem
    exact isBlockLine_tag (show "p" ∈ blockTags by simp [blockTags]) _ rfl

/-- A text without hashes that ends with ink is all of a header's text. -/
theorem headerContent_eq_self {text : List Char} (noHash : '#' ∉ text)
    {front : List Char} {c : Char}
    (text_eq : text = front ++ [c]) (ends : isSpaceOrTab c = false) :
    headerContent text = text := by
  obtain ⟨rest, split, _, trailer, _⟩ := @headerContent_spec text (by simp [text_eq])
  rcases rest.eq_nil_or_concat with rfl | ⟨start, d, rfl⟩
  · simpa using split.symm
  · rw [List.concat_eq_append] at split trailer
    obtain rfl : d = c := by
      have last := congrArg List.getLast? (split.symm.trans text_eq)
      simpa [← List.append_assoc] using last
    have goesOn : (start ++ [d]).dropWhile isSpaceOrTab ≠ [] := by
      intro none_left
      have := List.dropWhile_eq_nil_iff.mp none_left d (by simp)
      simp [ends] at this
    obtain ⟨e, more, rest_eq⟩ := List.exists_cons_of_ne_nil goesOn
    have e_mem : e ∈ text := by
      have : e ∈ start ++ [d] := (List.dropWhile_suffix isSpaceOrTab).subset (by simp [rest_eq])
      rw [split]
      exact List.mem_append_right _ this
    have : e ≠ '#' := by
      rintro rfl
      exact noHash e_mem
    simp [isTrailer, rest_eq, this] at trailer

theorem isBlockLine_cons_of_isAlpha {c : Char} (letter : c.isAlpha = true) (rest : List Char) :
    isBlockLine (c :: rest) = false := by
  have differs : c ≠ '<' := by
    rintro rfl
    exact absurd letter (by decide)
  simp [isBlockLine, isSpaceOrTab_of_isAlpha letter, differs]

theorem dropWhile_gap_text (text : Phrase) : text.text.dropWhile isSpaceOrTab = text.text := by
  obtain ⟨c, rest, text_eq, letter⟩ := text.exists_text_cons
  simp [text_eq, isSpaceOrTab_of_isAlpha letter]

theorem afterGap?_text (text : Phrase) : afterGap? (' ' :: text.text) = some text.text := by
  simp [afterGap?, dropWhile_gap_text, isSpaceOrTab]

theorem hasItem_text (text : Phrase) : hasItem text.text = true := by
  obtain ⟨c, rest, text_eq, letter⟩ := text.exists_text_cons
  simp [hasItem, text_eq, Text.isBlank_of_isAlpha letter]

theorem headerTake_header (level : Fin 6) (text : Phrase) (more : List (List Char)) :
    headerTake (List.replicate (level + 1) '#' ++ ' ' :: text.text) more =
      some ([headerHtml (List.replicate (level + 1) '#') text.text], 0) := by
  have hashes_all : ∀ c ∈ List.replicate (level.val + 1) '#', (c == '#') = true := by simp
  have stops : Text.Stops (· == '#') (' ' :: text.text) := by simp
  have gap_all : ∀ c ∈ [' '], isSpaceOrTab c = true := by simp [isSpaceOrTab]
  have gap_stops : Text.Stops isSpaceOrTab text.text := by
    obtain ⟨c, rest, text_eq, letter⟩ := text.exists_text_cons
    simpa [text_eq] using isSpaceOrTab_of_isAlpha letter
  have gap_cut := Text.takeWhile_cut gap_all gap_stops
  have rest_cut := Text.dropWhile_cut gap_all gap_stops
  have content : headerContent text.text = text.text := by
    obtain ⟨front, c, text_eq, letter⟩ := text.exists_text_concat
    exact headerContent_eq_self (text.not_mem_text (by decide) (by decide)) text_eq
      (isSpaceOrTab_of_isAlpha letter)
  have allowed : Regex.Node.allows 1 (some 6) (level.val + 1) = true := by
    have := level.isLt
    simp only [Regex.Node.allows, Option.all_some, Bool.and_eq_true, decide_eq_true_eq]
    omega
  rw [List.singleton_append] at gap_cut rest_cut
  simp [headerTake, header?, Text.takeWhile_cut hashes_all stops,
    Text.dropWhile_cut hashes_all stops, gap_cut, rest_cut, headerText?, text.text_ne_nil,
    content, allowed]

theorem afterBullet?_text (text : Phrase) :
    afterBullet? ("- ".toList ++ text.text) = some text.text := by
  simp [afterBullet?, afterIndent?, afterGap?_text]

theorem afterQuote?_text (text : Phrase) :
    afterQuote? ("> ".toList ++ text.text) = some text.text := by
  simp [afterQuote?, afterIndent?, isSpaceOrTab]

theorem afterNumber?_text (number : Nat) (few : number < 10 ^ 9) (text : Phrase) :
    afterNumber? (Nat.toDigits 10 number ++ ". ".toList ++ text.text) =
      some (number, text.text) := by
  have digits_all : ∀ c ∈ Nat.toDigits 10 number, c.isDigit = true :=
    fun c mem => Nat.isDigit_of_mem_toDigits (by decide) (by decide) mem
  refine afterNumber?_eq_some.mpr ⟨Nat.toDigits 10 number, '.', ' ' :: text.text, ?_, ?_, by
    decide, ?_, ?_, .inl rfl, afterGap?_text text, (Text.digitsValue_toDigits number).symm⟩
  · obtain ⟨c, rest, digits_eq⟩ :=
      List.exists_cons_of_ne_nil (Nat.toDigits_ne_nil (n := number) (b := 10))
    have noSpace : c ≠ ' ' := by
      rintro rfl
      exact absurd (digits_all ' ' (by simp [digits_eq])) (by decide)
    simp [afterIndent?, digits_eq, noSpace]
  · exact fun c mem => Text.isDigit_of_isDigit (digits_all c mem)
  · exact Nat.length_toDigits_pos
  · exact (Nat.length_toDigits_le_iff (by decide) (by decide)).mpr few

theorem mem_numbered {start : Nat} {items : List Phrase} {line : List Char}
    (mem : line ∈ numbered start items) :
    ∃ (number : Nat) (item : Phrase), start ≤ number ∧ number < start + items.length ∧
      line = Nat.toDigits 10 number ++ ". ".toList ++ item.text := by
  obtain ⟨⟨item, number⟩, pair_mem, rfl⟩ := List.mem_map.mp mem
  obtain ⟨least, most, _⟩ := List.mem_zipIdx pair_mem
  exact ⟨number, item, least, most, rfl⟩

theorem itemTexts_map {after? : List Char → Option (List Char)} {line : Phrase → List Char}
    (after_eq : ∀ item, after? (line item) = some item.text) (items : List Phrase) :
    itemTexts after? (items.map line) = items.map Phrase.text := by
  rw [itemTexts, List.map_map]
  apply List.map_congr_left
  intro item _
  simp [after_eq, item.strip_text]

theorem itemTexts_numbered {start : Nat} {items : List Phrase}
    (few : start + items.length ≤ 10 ^ 9) :
    itemTexts (fun line => (afterNumber? line).map (·.2)) (numbered start items) =
      items.map Phrase.text := by
  induction items generalizing start with
  | nil => rfl
  | cons item items ih =>
    have number_lt : start < 10 ^ 9 := by
      rw [List.length_cons] at few
      omega
    have below := @ih (start + 1) (by simp only [List.length_cons] at few; omega)
    have first := afterNumber?_text start number_lt item
    simp only [numbered, itemTexts] at below ⊢
    rw [List.zipIdx_cons, List.map_cons, List.map_cons, below, List.map_cons, first]
    simp [item.strip_text]

theorem dropLineBreak_append_newline {code : List Char} (ends : code.getLast? ≠ some '\r') :
    dropLineBreak (code ++ ['\n']) = code := by
  rcases code.eq_nil_or_concat with rfl | ⟨front, c, rfl⟩
  · rfl
  · have : c ≠ '\r' := by simpa using ends
    unfold dropLineBreak
    rw [List.reverse_append, List.reverse_singleton, List.singleton_append, List.concat_eq_append,
      List.reverse_append, List.reverse_singleton, List.singleton_append]
    split
    · simp_all
    · simp_all
    · simp_all

theorem runStart_numbered {start : Nat} {items : List Phrase} (items_ne : items ≠ [])
    (few : start + items.length ≤ 10 ^ 9) :
    runStart (numbered start items) = startText start := by
  rcases List.exists_cons_of_ne_nil items_ne with ⟨item, more, rfl⟩
  have start_lt : start < 10 ^ 9 := by
    rw [List.length_cons] at few
    omega
  have lines_eq : numbered start (item :: more) =
      (Nat.toDigits 10 start ++ ". ".toList ++ item.text) :: numbered (start + 1) more := by
    simp [numbered, List.zipIdx_cons]
  simp only [lines_eq, runStart, afterNumber?_text start start_lt item]

/-- The line that opens a listing has its info word. -/
theorem fenceInfo?_opening (listing : Listing) :
    fenceInfo? ("```".toList ++ listing.info) = some listing.info := by
  have info_stops : Text.Stops isSpaceOrTab listing.info := by
    rcases info_eq : listing.info with _ | ⟨c, info⟩
    · simp
    · simpa using isSpaceOrTab_of_isInfoChar (listing.info_all c (by simp [info_eq]))
  have word :=
    Text.dropWhile_cut (show ∀ c ∈ ([] : List Char), isSpaceOrTab c = true by simp) info_stops
  have info_all : ∀ c ∈ listing.info, infoSet.holds c = true :=
    fun c mem => holds_infoSet_of_isInfoChar (listing.info_all c mem)
  have info_cut := Text.takeWhile_cut info_all (Text.stops_nil)
  have rest_cut := Text.dropWhile_cut info_all (Text.stops_nil)
  rw [List.append_nil] at info_cut rest_cut
  rw [List.nil_append] at word
  simp [fenceInfo?, afterTicks?, word, info_cut, rest_cut, endsFence]

/-- A listing is taken from the line that opens it to the one that closes it, whatever follows. -/
theorem fenceTake_listing (listing : Listing) (rest : List (List Char)) :
    fenceTake ("```".toList ++ listing.info) (Text.lines listing.code ++ ["```".toList] ++ rest) =
      some ((fence listing).htmlLines, (Text.lines listing.code ++ ["```".toList]).length) := by
  have code_all : ∀ line ∈ Text.lines listing.code, isCodeLine line = true := by
    intro line mem
    simp [isCodeLine, listing.noEnd line mem]
  have last : isCodeLine "```".toList = false := by decide
  have code_eq : (Text.lines listing.code ++ ["```".toList] ++ rest).takeWhile isCodeLine =
      Text.lines listing.code := by
    rw [List.append_assoc, List.takeWhile_append_of_pos code_all, List.singleton_append,
      List.takeWhile_cons_of_neg (Bool.eq_false_iff.mp last), List.append_nil]
  refine fenceTake_eq_some.mpr ⟨listing.info, fenceInfo?_opening listing, ?_, ?_, ?_⟩
  · rw [List.all_append, List.all_append, List.all_cons, last]
    simp
  · rw [code_eq, Text.ended_eq_join (Text.lines_ne_nil _), Text.join_lines]
    unfold fenceHtml
    rw [dropLineBreak_append_newline listing.ends]
    simp [htmlLines]
  · rw [code_eq]
    simp

/-- The transform that a block is for makes its HTML of it. -/
theorem turns_own (block : Block) : Turns block.kind.blockTake block.lines block.htmlLines := by
  cases block with
  | header level text =>
    apply Turns.of_taken
    intro rest _
    rw [List.nil_append, kind, blockTake, headerTake_header]
    simp [headerHtml, htmlLines]
  | rule =>
    apply Turns.of_taken
    intro rest _
    rfl
  | bullets items =>
    have marked : ∀ line ∈ (bullets items).lines, isBulleted line = true := by
      intro line mem
      obtain ⟨item, _, rfl⟩ := List.mem_map.mp mem
      rw [isBulleted, afterBullet?_text, Option.any_some, hasItem_text]
    have turns := Turns.of_marked bulletLines rfl (by simp [lines, items.property]) marked
    have out_eq : bulletLines (bullets items).lines = (bullets items).htmlLines := by
      rw [bulletLines, lines, itemTexts_map afterBullet?_text]
      simp [listLines, htmlLines, htmlLines.listHtml]
    rwa [out_eq] at turns
  | numbers start items few =>
    have marked : ∀ line ∈ (numbers start items few).lines, isNumbered line = true := by
      intro line mem
      obtain ⟨number, item, _, less, rfl⟩ := mem_numbered mem
      rw [isNumbered, afterNumber?_text number (by omega), Option.any_some, hasItem_text]
    have lines_ne : (numbers start items few).lines ≠ [] := by
      simp [lines, numbered, items.property]
    have turns := Turns.of_marked numberLines rfl lines_ne marked
    have out_eq :
        numberLines (numbers start items few).lines = (numbers start items few).htmlLines := by
      rw [numberLines, lines, runStart_numbered items.property few, itemTexts_numbered few]
      simp [listLines, htmlLines, htmlLines.listHtml]
    rwa [out_eq] at turns
  | quote lines =>
    have marked : ∀ line ∈ (quote lines).lines, isQuoted line = true := by
      intro line mem
      obtain ⟨text, _, rfl⟩ := List.mem_map.mp mem
      simp [isQuoted, afterIndent?]
    have turns := Turns.of_marked quoteLines rfl (by simp [Block.lines, lines.property]) marked
    have kept : (lines.val.map Phrase.text).filter (!·.isEmpty) = lines.val.map Phrase.text := by
      apply List.filter_eq_self.mpr
      intro text mem
      obtain ⟨line, _, rfl⟩ := List.mem_map.mp mem
      simp [line.text_ne_nil]
    have out_eq : quoteLines (quote lines).lines = (quote lines).htmlLines := by
      rw [quoteLines, quoteTexts, Block.lines, itemTexts_map afterQuote?_text, kept]
      rfl
    rwa [out_eq] at turns
  | fence listing => exact Turns.of_taken fun rest _ => fenceTake_listing listing rest
  | paragraph lines =>
    have marked : ∀ line ∈ (paragraph lines).lines, Text.hasInk line = true := by
      intro line mem
      obtain ⟨text, _, rfl⟩ := List.mem_map.mp mem
      exact text.hasInk_text
    have turns := Turns.of_marked (wrapLines []) rfl (by simp [Block.lines, lines.property]) marked
    have plain : ∀ line ∈ (paragraph lines).lines, isBlockLine line = false := by
      intro line mem
      obtain ⟨text, _, rfl⟩ := List.mem_map.mp mem
      obtain ⟨c, rest, text_eq, letter⟩ := text.exists_text_cons
      exact text_eq ▸ isBlockLine_cons_of_isAlpha letter rest
    have stripped : (paragraph lines).lines.map Text.strip = lines.val.map Phrase.text := by
      simp [Block.lines, Phrase.strip_text]
    have out_eq : wrapLines [] (paragraph lines).lines = (paragraph lines).htmlLines := by
      rw [wrapLines_of_not_isBlockLine plain, List.nil_append, stripped]
      simp [paragraphLine, lines.property, htmlLines]
    rwa [out_eq] at turns

theorem isDigit_of_isAlpha {c : Char} (letter : c.isAlpha = true) : Text.isDigit c = false := by
  have range := Text.isAsciiLetter_iff.mp letter
  have ascii : c.toNat < 128 := by omega
  rw [Text.isDigit, if_pos ascii, Char.isDigit, Bool.and_eq_false_imp]
  simp only [decide_eq_true_eq, decide_eq_false_iff_not, UInt32.le_iff_toNat_le]
  change 48 ≤ c.toNat → ¬ c.toNat ≤ 57
  omega

/-- A letter or a digit starts no line that a transform takes, except for numbered items and
paragraphs. -/
theorem leads_of_isAlphanum {kind : Builtin} {c : Char} (alphanumeric : c.isAlphanum = true)
    (noNumber : kind ≠ orderedList) (noParagraph : kind ≠ paragraphs) : kind.leads c = false := by
  have differs : ∀ d : Char, d.isAlphanum = false → c ≠ d := by
    rintro d mark rfl
    simp [mark] at alphanumeric
  cases kind with
  | codeBlocks => simpa [leads] using differs '\x60' (by decide)
  | headers => simpa [leads] using differs '#' (by decide)
  | horizontalRule => simp [leads, differs '-' (by decide), differs '*' (by decide),
      differs '_' (by decide)]
  | unorderedList => simp [leads, differs '-' (by decide), differs '*' (by decide),
      differs '+' (by decide)]
  | orderedList => exact absurd rfl noNumber
  | blockquote => simpa [leads] using differs '>' (by decide)
  | paragraphs => exact absurd rfl noParagraph
  | _ => rfl

/-- The transforms before the one that a block is for do not take its lines. -/
theorem blockTake_of_earlier {kind : Builtin} {block : Block}
    (earlier : kind.rank < block.kind.rank) {line : List Char} (mem : line ∈ block.lines)
    (more : List (List Char)) : kind.blockTake line more = none := by
  cases block with
  | header level text =>
    obtain rfl := List.mem_singleton.mp mem
    have earlier : kind.rank < headers.rank := earlier
    have other : kind.leads '#' = false := by
      revert earlier
      cases kind <;> decide
    have lead : lead? (List.replicate (level + 1) '#' ++ ' ' :: text.text) = some '#' := by
      rw [List.replicate_succ]
      exact lead?_cons _ (by decide)
    exact blockTake_of_lead? lead other more
  | rule =>
    obtain rfl := List.mem_singleton.mp mem
    have earlier : kind.rank < horizontalRule.rank := earlier
    have other : kind.leads '-' = false := by
      revert earlier
      cases kind <;> decide
    exact blockTake_of_lead? (c := '-') rfl other more
  | bullets items =>
    obtain ⟨item, _, rfl⟩ := List.mem_map.mp mem
    by_cases isRule : kind = horizontalRule
    · subst isRule
      obtain ⟨c, rest, text_eq, letter⟩ := item.exists_text_cons
      have noRun :
          ∀ mark, mark ∈ ['-', '*', '_'] → isRuleRun mark 3 ("- ".toList ++ item.text) = false := by
        intro mark isMark
        have differs : c ≠ mark := by
          rintro rfl
          have noLetter : ∀ d ∈ ['-', '*', '_'], d.isAlpha = false := by decide
          simp [noLetter c isMark] at letter
        simp [isRuleRun, text_eq, differs, isSpaceOrTab_of_isAlpha letter]
      have indented :
          afterIndent? ("- ".toList ++ item.text) = some ("- ".toList ++ item.text) := by
        simp [afterIndent?]
      simp only [blockTake, ruleTake, Builtin.isRule, indented, noRun '-' (by simp),
        noRun '*' (by simp), noRun '_' (by simp)]
      rfl
    · have earlier : kind.rank < unorderedList.rank := earlier
      have other : kind.leads '-' = false := by
        revert earlier isRule
        cases kind <;> decide
      exact blockTake_of_lead? (c := '-') (lead?_cons _ (by decide)) other more
  | numbers start items few =>
    obtain ⟨number, item, _, _, rfl⟩ := mem_numbered mem
    obtain ⟨c, rest, digits_eq⟩ :=
      List.exists_cons_of_ne_nil (Nat.toDigits_ne_nil (n := number) (b := 10))
    have digit : c.isDigit = true :=
      Nat.isDigit_of_mem_toDigits (n := number) (b := 10) (by decide) (by decide)
        (by simp [digits_eq])
    have earlier : kind.rank < orderedList.rank := earlier
    have other : kind.leads c = false := by
      apply leads_of_isAlphanum (by simp [Char.isAlphanum, digit])
      · rintro rfl
        exact absurd earlier (by decide)
      · rintro rfl
        exact absurd earlier (by decide)
    have lead : lead? (Nat.toDigits 10 number ++ ". ".toList ++ item.text) = some c := by
      rw [digits_eq]
      refine lead?_cons _ ?_
      rintro rfl
      exact absurd digit (by decide)
    exact blockTake_of_lead? lead other more
  | quote lines =>
    obtain ⟨text, _, rfl⟩ := List.mem_map.mp mem
    have earlier : kind.rank < blockquote.rank := earlier
    have other : kind.leads '>' = false := by
      revert earlier
      cases kind <;> decide
    exact blockTake_of_lead? (c := '>') (lead?_cons _ (by decide)) other more
  | fence listing => simp [Block.kind, Builtin.rank, Builtin.all] at earlier
  | paragraph lines =>
    obtain ⟨text, _, rfl⟩ := List.mem_map.mp mem
    obtain ⟨c, rest, text_eq, letter⟩ := text.exists_text_cons
    have earlier : kind.rank < paragraphs.rank := earlier
    have other : kind.leads c = false := by
      by_cases ordered : kind = orderedList
      · rw [ordered]
        exact isDigit_of_isAlpha letter
      · apply leads_of_isAlphanum (by simp [Char.isAlphanum, letter]) ordered
        rintro rfl
        exact absurd earlier (by decide)
    have lead : lead? text.text = some c := by
      rw [text_eq]
      refine lead?_cons _ ?_
      rintro rfl
      exact absurd letter (by decide)
    exact blockTake_of_lead? lead other more

/-- No transform takes a line of HTML but the one for paragraphs. -/
theorem blockTake_of_mem_htmlLines {kind : Builtin} (other : kind ≠ paragraphs) {block : Block}
    {line : List Char}
    (mem : line ∈ block.htmlLines) (more : List (List Char)) : kind.blockTake line more = none := by
  have noLead : kind.leads '<' = false := by
    revert other
    cases kind <;> decide
  exact blockTake_of_lead? (lead?_of_mem_htmlLines mem) noLead more

/-- The HTML of a block is left as it is. -/
theorem turns_html (kind : Builtin) (block : Block) :
    Turns kind.blockTake block.htmlLines block.htmlLines := by
  by_cases last : kind = paragraphs
  · subst last
    have inked : ∀ line ∈ block.htmlLines, Text.hasInk line = true :=
      fun line mem => hasInk_of_lead? (lead?_of_mem_htmlLines mem) (by decide)
    have nonempty : block.htmlLines ≠ [] := by
      cases block <;> simp [htmlLines, htmlLines.listHtml]
    have turns := Turns.of_marked (wrapLines []) rfl nonempty inked
    rwa [wrapLines_of_isBlockLine fun line mem => isBlockLine_of_mem_htmlLines mem] at turns
  · exact Turns.of_missed fun line mem more => blockTake_of_mem_htmlLines last mem more

end Block

end Markflow

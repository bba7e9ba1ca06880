import Markflow.Proofs.Document.EmittedTags
import Markflow.Proofs.Passes.Wrapping
import Mathlib.Logic.Relation

/-!
# Links, images and paragraphs

The text of a link or an image and its title are the parts of it that may have a blank line.  Where
they have none, the element that is written has none, as references and tags hold no white space,
and the passes of emphasis change no more of it than marks.  Then one line of the HTML has all of
the element, unless lines on which it stands open blocks.  A blank line in the text of a link ends a
paragraph within the element.
-/

namespace Markflow

open Text (HasBlankLine Trimmed)

section BlankLines

variable {allowed : List Char → List Char → Prop} {text result : List Char}

/-- What is written without white space makes no blank line. -/
theorem Swaps.hasBlankLine
    (inked : ∀ part written, allowed part written → ∀ c ∈ written, Text.isBlank c = false)
    (swaps : Swaps allowed text result) (blank : HasBlankLine result) : HasBlankLine text := by
  rcases blank with ⟨front, blanks, back, rfl, blanks_all⟩
  have piece_all : ∀ c ∈ '\n' :: (blanks ++ ['\n']), Text.isBlank c = true := by
    intro c mem
    rcases List.mem_cons.mp mem with rfl | mem
    · exact Text.isBlank_newline
    rcases List.mem_append.mp mem with inBlanks | last
    · exact blanks_all c inBlanks
    · rcases List.mem_singleton.mp last with rfl
      exact Text.isBlank_newline
  have stays : ∀ written part, allowed part written → ∀ c ∈ written,
      c ∉ '\n' :: (blanks ++ ['\n']) := by
    intro written part isAllowed c inWritten inPiece
    have ink := inked part written isAllowed c inWritten
    rw [piece_all c inPiece] at ink
    cases ink
  -- What is written is apart from the blank line, so the line is in the text as it is in the
  -- result.
  have split : front ++ '\n' :: (blanks ++ '\n' :: back) =
      front ++ ('\n' :: (blanks ++ ['\n']) ++ back) := by simp
  have back_swaps := swaps.symm
  rw [split] at back_swaps
  rcases back_swaps.of_piece (List.cons_ne_nil _ _) stays with ⟨front', back', rfl, -, -⟩
  exact ⟨front', blanks, back', by simp, blanks_all⟩

theorem swaps_flatMap {write : Char → List Char} (write_ne : ∀ c, write c ≠ [])
    (each : ∀ c, allowed [c] (write c) ∨ write c = [c]) (text : List Char) :
    Swaps allowed text (text.flatMap write) := by
  induction text with
  | nil => exact .nil
  | cons c text ih =>
    rw [List.flatMap_cons]
    rcases each c with isAllowed | same
    · exact .swap isAllowed (List.cons_ne_nil c []) (write_ne c) ih
    · rw [same]
      exact .keep c ih

end BlankLines

namespace Builtin

/-- A link as it is written. -/
def linkHtml (url title label : List Char) : List Char :=
  anchor url title ++ (label ++ "</a>".toList)

section Written

variable {text label url title target : List Char}

/-- A reference is written for a character. -/
def WritesReference (_part written : List Char) : Prop :=
  written ∈ Escape.references

theorem isBlank_of_writesReference (part written : List Char)
    (writes : WritesReference part written) :
    ∀ c ∈ written, Text.isBlank c = false := by
  have inked : ∀ reference ∈ Escape.references, ∀ c ∈ reference, Text.isBlank c = false := by decide
  exact inked written writes

theorem hasBlankLine_of_attributeValue (blank : HasBlankLine (Escape.attributeValue text)) :
    HasBlankLine text := by
  have references_ne : ∀ reference ∈ Escape.references, reference ≠ [] := by decide
  have nonempty : ∀ {c : Char} {written : List Char}, written ∈ Escape.references ∨ written = [c] →
      written ≠ [] := by
    rintro c written (isReference | rfl)
    · exact references_ne written isReference
    · exact List.cons_ne_nil c []
  have markup_each : ∀ c, Escape.markup c ∈ Escape.references ∨ Escape.markup c = [c] :=
    fun c => (Escape.markup_cases c).imp_right And.left
  have entity_each : ∀ c, Escape.entity true c ∈ Escape.references ∨ Escape.entity true c = [c] :=
    fun c => (Escape.entity_cases true c).imp_right And.left
  have outer : Swaps WritesReference (Escape.html text) (Escape.attributeValue text) :=
    swaps_flatMap (fun c => nonempty (markup_each c)) markup_each _
  have inner : Swaps WritesReference text (Escape.html text) :=
    swaps_flatMap (fun c => nonempty (entity_each c)) entity_each _
  exact inner.hasBlankLine isBlank_of_writesReference
    (outer.hasBlankLine isBlank_of_writesReference blank)

theorem newline_not_mem_attributeValue (inLine : '\n' ∉ text) :
    '\n' ∉ Escape.attributeValue text := by
  intro mem
  exact absurd (isPlain_attributeValue inLine '\n' mem) (by decide)

theorem hasBlankLine_of_titleText (blank : HasBlankLine (titleText title)) :
    HasBlankLine title := by
  unfold titleText at blank
  split at blank
  · exact absurd blank (Text.not_hasBlankLine List.not_mem_nil)
  · rw [List.append_assoc] at blank
    have closed := blank.of_append_left (by decide)
    exact hasBlankLine_of_attributeValue (closed.of_append_right (by decide))

theorem newline_not_mem_titleText (inLine : '\n' ∉ title) : '\n' ∉ titleText title := by
  unfold titleText
  split
  · exact List.not_mem_nil
  · exact List.not_mem_append
      (List.not_mem_append (by decide) (newline_not_mem_attributeValue inLine)) (by decide)

theorem isBlank_of_isUrlChar {c : Char} (isUrl : isUrlChar c = true) : Text.isBlank c = false := by
  simpa using (Bool.and_eq_true_iff.mp isUrl).2

theorem IsTarget.newline_not_mem {title : Option (List Char)}
    (isTarget : IsTarget url title target) : '\n' ∉ url := by
  intro mem
  exact absurd (isBlank_of_isUrlChar (isTarget.url_spec.2 '\n' mem)) (by decide)

theorem IsTarget.hasBlankLine_iff {title : Option (List Char)}
    (isTarget : IsTarget url title target) :
    HasBlankLine target ↔ HasBlankLine (title.getD []) := by
  have url_in := isTarget.newline_not_mem
  have opening : Text.isBlank '(' = false := by decide
  have quote : Text.isBlank '"' = false := by decide
  cases isTarget with
  | plain url_ne url_all =>
    have none : '\n' ∉ url ++ [')'] := List.not_mem_append url_in (by decide)
    rw [Text.hasBlankLine_cons opening]
    exact iff_of_false (Text.not_hasBlankLine none) (Text.not_hasBlankLine List.not_mem_nil)
  | @titled url_ne url_all gap title gap_ne gap_all noQuote =>
    have gap_in : '\n' ∉ gap := fun mem => absurd (gap_all '\n' mem) (by decide)
    have before : ¬ HasBlankLine (url ++ gap) :=
      Text.not_hasBlankLine (List.not_mem_append url_in gap_in)
    have behind : ¬ HasBlankLine [')'] := Text.not_hasBlankLine (by decide)
    rw [Text.hasBlankLine_cons opening, ← List.append_assoc, Text.hasBlankLine_append_cons quote,
      Text.hasBlankLine_append_cons quote]
    simp [before, behind]

theorem IsLink.hasBlankLine_iff {title : Option (List Char)}
    (isLink : IsLink label url title target) :
    HasBlankLine (linkText label target) ↔ HasBlankLine label ∨ HasBlankLine (title.getD []) := by
  rw [linkText, Text.hasBlankLine_cons (by decide), Text.hasBlankLine_append_cons (by decide),
    isLink.isTarget.hasBlankLine_iff]

theorem append_tag (opening value title rest : List Char) :
    opening ++ (value ++ '"' :: (title ++ ['>'])) ++ rest = (opening ++ (value ++ '"' :: title)) ++
      '>' :: rest := by
  simp

/-- The end of a tag with a value that may be followed by a title. -/
theorem hasBlankLine_of_tagEnd {opening : List Char} (opening_in : '\n' ∉ opening)
    (blank : HasBlankLine (opening ++ (Escape.attributeValue text ++ '"' :: titleText title))) :
    HasBlankLine text ∨ HasBlankLine title := by
  rcases (Text.hasBlankLine_append_cons (by decide)).mp (blank.of_append_left opening_in) with
    inText | inTitle
  · exact .inl (hasBlankLine_of_attributeValue inText)
  · exact .inr (hasBlankLine_of_titleText inTitle)

theorem append_image_tag (opening source between value title : List Char) :
    opening ++ (source ++ (between ++ (value ++ '"' :: (title ++ ['>'])))) =
      (opening ++ (source ++ between)) ++ (value ++ '"' :: title) ++ ['>'] := by
  simp

theorem hasBlankLine_of_image (url_in : '\n' ∉ url) (blank : HasBlankLine (image url label title)) :
    HasBlankLine label ∨ HasBlankLine title := by
  have bracket_in : '\n' ∉ ['>'] := by decide
  have first_in : '\n' ∉ "<img src=\"".toList := by decide
  have second_in : '\n' ∉ "\" alt=\"".toList := by decide
  have opening_in :
      '\n' ∉ "<img src=\"".toList ++ (Escape.attributeValue url ++ "\" alt=\"".toList) :=
    List.not_mem_append first_in
      (List.not_mem_append (newline_not_mem_attributeValue url_in) second_in)
  have tag_eq : image url label title =
      ("<img src=\"".toList ++ (Escape.attributeValue url ++ "\" alt=\"".toList)) ++
      (Escape.attributeValue label ++ '"' :: titleText title) ++ ['>'] :=
    append_image_tag _ _ _ _ _
  rw [tag_eq] at blank
  exact hasBlankLine_of_tagEnd opening_in (blank.of_append_right bracket_in)

theorem hasBlankLine_of_linkHtml (url_in : '\n' ∉ url)
    (blank : HasBlankLine (linkHtml url title label)) :
    HasBlankLine label ∨ HasBlankLine title := by
  have bracket : Text.isBlank '>' = false := by decide
  have opening_in : '\n' ∉ "<a href=\"".toList := by decide
  have closing_in : '\n' ∉ "</a>".toList := by decide
  have tag_eq : linkHtml url title label =
      ("<a href=\"".toList ++ (Escape.attributeValue url ++ '"' :: titleText title)) ++
        '>' :: (label ++ "</a>".toList) :=
    append_tag _ _ _ _
  rw [tag_eq] at blank
  rcases (Text.hasBlankLine_append_cons bracket).mp blank with inTag | behind
  · rcases hasBlankLine_of_tagEnd opening_in inTag with inUrl | inTitle
    · exact absurd inUrl (Text.not_hasBlankLine url_in)
    · exact .inr inTitle
  · exact .inl (behind.of_append_right closing_in)

theorem newline_not_mem_tagEnd (inLine : '\n' ∉ title) :
    '\n' ∉ '"' :: (titleText title ++ ['>']) := by
  apply List.not_mem_cons_of_ne_of_not_mem (by decide)
  exact List.not_mem_append (newline_not_mem_titleText inLine) (by decide)

theorem newline_not_mem_image (url_in : '\n' ∉ url) (label_in : '\n' ∉ label)
    (title_in : '\n' ∉ title) :
    '\n' ∉ image url label title := by
  have first_in : '\n' ∉ "<img src=\"".toList := by decide
  have second_in : '\n' ∉ "\" alt=\"".toList := by decide
  apply List.not_mem_append first_in
  apply List.not_mem_append (newline_not_mem_attributeValue url_in)
  apply List.not_mem_append second_in
  exact List.not_mem_append (newline_not_mem_attributeValue label_in)
    (newline_not_mem_tagEnd title_in)

theorem newline_not_mem_linkHtml (url_in : '\n' ∉ url) (label_in : '\n' ∉ label)
    (title_in : '\n' ∉ title) :
    '\n' ∉ linkHtml url title label := by
  have first_in : '\n' ∉ "<a href=\"".toList := by decide
  have last_in : '\n' ∉ "</a>".toList := by decide
  have anchor_in : '\n' ∉ anchor url title := by
    apply List.not_mem_append first_in
    exact List.not_mem_append (newline_not_mem_attributeValue url_in)
      (newline_not_mem_tagEnd title_in)
  exact List.not_mem_append anchor_in (List.not_mem_append label_in last_in)

theorem exists_append_eq_cons {opening first : List Char} {c : Char}
    (opening_eq : opening = c :: first) (rest : List Char) :
    ∃ others, opening ++ rest = c :: others := by
  rw [opening_eq]
  exact ⟨_, rfl⟩

theorem exists_append_eq_concat {closing last : List Char} {c : Char}
    (closing_eq : closing = last ++ [c])
    (first second : List Char) : ∃ others, first ++ (second ++ closing) = others ++ [c] := by
  rw [closing_eq]
  exact ⟨first ++ (second ++ last), by simp⟩

theorem trimmed_image (url label title : List Char) : Trimmed (image url label title) := by
  have bracket : Text.isBlank '<' = false := by decide
  have closing : Text.isBlank '>' = false := by decide
  have starts : ∃ rest, image url label title = '<' :: rest :=
    exists_append_eq_cons imageOpening_eq _
  have ends : ∃ rest, image url label title = rest ++ ['>'] := ⟨_, append_image_tag _ _ _ _ _⟩
  exact .of_ends bracket closing starts ends

theorem trimmed_linkHtml (url title label : List Char) : Trimmed (linkHtml url title label) := by
  have bracket : Text.isBlank '<' = false := by decide
  have closing : Text.isBlank '>' = false := by decide
  have last_eq : "</a>".toList = "</a".toList ++ ['>'] := by decide
  have anchor_starts : ∃ rest, anchor url title = '<' :: rest :=
    exists_append_eq_cons anchorOpening_eq _
  rcases anchor_starts with ⟨inside, anchor_eq⟩
  have starts : ∃ rest, linkHtml url title label = '<' :: rest := exists_append_eq_cons anchor_eq _
  have ends : ∃ rest, linkHtml url title label = rest ++ ['>'] :=
    exists_append_eq_concat last_eq _ _
  exact .of_ends bracket closing starts ends

end Written

section Emphasized

variable {text result front piece back : List Char}

/-- What passes of emphasis make of a text. -/
abbrev Emphasized : List Char → List Char → Prop :=
  Relation.ReflTransGen (Swaps WritesEmphasis)

theorem emphasized_foldl {kinds : List Builtin} (all : ∀ kind ∈ kinds, kind ∈ emphasis)
    (text : List Char) :
    Emphasized text (kinds.foldl (fun text kind => kind.pass text) text) := by
  induction kinds generalizing text with
  | nil => exact .refl
  | cons kind kinds ih =>
    have first := swaps_pass_emphasis (all kind List.mem_cons_self) text
    exact .head first
      (ih (fun other mem => all other (List.mem_cons_of_mem kind mem)) (kind.pass text))

/-- A piece without marks has a place in what is made of the text. -/
theorem Emphasized.of_piece (piece_ne : piece ≠ []) (unmarked : Unmarked piece)
    (chain : Emphasized (front ++ (piece ++ back)) result) :
    ∃ front' back', result = front' ++ (piece ++ back') ∧ Emphasized front front' ∧
      Emphasized back back' := by
  have stays : ∀ part written, WritesEmphasis part written → ∀ c ∈ part, c ∉ piece := by
    rintro part written ⟨part_mem, -⟩ c inPart
    exact unmarked.marks_out part part_mem c inPart
  induction chain with
  | refl => exact ⟨front, back, rfl, .refl, .refl⟩
  | tail _ step ih =>
    rcases ih with ⟨front', back', rfl, front_chain, back_chain⟩
    rcases step.of_piece piece_ne stays with ⟨front'', back'', rfl, front_step, back_step⟩
    exact ⟨front'', back'', rfl, front_chain.tail front_step, back_chain.tail back_step⟩

theorem Emphasized.eq_nil (chain : Emphasized [] result) : result = [] := by
  induction chain with
  | refl => rfl
  | tail _ step ih =>
    rw [ih] at step
    exact step.eq_nil

theorem tags_inked : ∀ tag ∈ emphasisTags, ∀ c ∈ tag, Text.isBlank c = false := by
  decide

theorem Emphasized.hasBlankLine (chain : Emphasized text result) (blank : HasBlankLine result) :
    HasBlankLine text := by
  induction chain with
  | refl => exact blank
  | tail _ step
      ih => exact ih (step.hasBlankLine (fun _ written writes => tags_inked written writes.2) blank)

theorem Emphasized.newline_not_mem (chain : Emphasized text result) (inLine : '\n' ∉ text) :
    '\n' ∉ result := by
  have tags_in : ∀ part written, WritesEmphasis part written → '\n' ∉ written := by
    intro part written writes mem
    exact absurd (tags_inked written writes.2 '\n' mem) (by decide)
  induction chain with
  | refl => exact inLine
  | tail _ step ih => exact step.not_mem ih tags_in

end Emphasized

/-- What a match of images or of links has become in the text that paragraphs are made of, and what
stands around it. -/
inductive Element (earlier : List Edit) (found : Found) (later : List Edit) :
    Builtin → List Char → Around → Prop where
  | image {around : Around} (leaves : LeavesAll (images.written found) (links :: emphasis)
        ⟨Edit.targets images.written earlier, Edit.targets images.written later⟩ around) :
      Element earlier found later images (images.written found) around
  | link {around : Around} {label : List Char}
      (before : Emphasized (Edit.targets links.written earlier) around.front)
      (inside : Emphasized (found.group 1) label)
      (behind : Emphasized (Edit.targets links.written later) around.back) :
      Element earlier found later links (linkHtml (found.group 2) (found.group 3) label) around

/-- The text that the pass of an inline transform reads. -/
def readBy (kind : Builtin) (text : String) : List Char :=
  (inlines.takeWhile (· != kind)).foldl (fun text kind => kind.pass text) (blocked text)

section Elements

variable {text : String} {kind : Builtin} {earlier later : List Edit} {found : Found}

theorem readBy_images (text : String) : readBy images text = inlineCode.pass (blocked text) := by
  have before : inlines.takeWhile (· != images) = [inlineCode] := by decide
  rw [readBy, before, List.foldl_cons, List.foldl_nil]

theorem readBy_links (text : String) :
    readBy links text = images.pass (inlineCode.pass (blocked text)) := by
  have before : inlines.takeWhile (· != links) = [inlineCode, images] := by decide
  rw [readBy, before, List.foldl_cons, List.foldl_cons, List.foldl_nil]

/-- Every match of images or of links becomes an element. -/
theorem exists_element (isTarget : kind = images ∨ kind = links)
    (edits_eq : kind.regex.edits [] (readBy kind text) = earlier ++ .swap found :: later) :
    ∃ element around, Element earlier found later kind element around ∧
      inlined text = around.text element := by
  rcases isTarget with rfl | rfl
  · rw [readBy_images] at edits_eq
    have emitted := Emitted.image edits_eq
    rcases emitted.exists_leavesAll with ⟨around, leaves⟩
    exact ⟨_, around, .image leaves, emitted.inlined_eq.trans leaves.foldl_eq⟩
  · rw [readBy_links] at edits_eq
    have emitted := Emitted.anchor edits_eq
    -- No mark of emphasis is in the two tags, so what comes before, between and behind them has
    -- marks of its own.
    have closing : Unmarked "</a>".toList := by unfold Unmarked; decide
    have chain :
        Emphasized (Edit.targets links.written earlier ++ (anchor (found.group 2) (found.group 3) ++
        (found.group 1 ++ ("</a>".toList ++ Edit.targets links.written later))))
          (inlined text) := by
      rw [emitted.inlined_eq]
      exact emphasized_foldl (fun _ => id) _
    rcases chain.of_piece (anchor_ne_nil _ _) (unmarked_anchor _ _) with
      ⟨front, rest, inlined_eq, before, rest_chain⟩
    rcases rest_chain.of_piece (by decide) closing with ⟨label, back, rfl, inside, behind⟩
    refine ⟨_, ⟨front, back⟩, .link before inside behind, ?_⟩
    rw [inlined_eq, Around.text, linkHtml, List.append_assoc, List.append_assoc]

theorem written_images_group (found : Found) :
    images.written found = image (found.group 2) (found.group 1) (found.group 3) :=
  (written_of_render (render_images found)).trans (append_image _ _ _ _ _)

/-- The parts of a match, of which the URL has no line feed. -/
structure IsElementOf (found : Found) : Prop where
  url_in : '\n' ∉ found.group 2
  parts_in : '\n' ∉ found.text → '\n' ∉ found.group 1 ∧ '\n' ∉ found.group 3
  hasBlankLine_iff : HasBlankLine found.text ↔
    HasBlankLine (found.group 1) ∨ HasBlankLine (found.group 3)

theorem IsLink.newline_not_mem {label url target : List Char} {title : Option (List Char)}
    (isLink : IsLink label url title target) (inLine : '\n' ∉ linkText label target) :
    '\n' ∉ label ∧ '\n' ∉ title.getD [] := by
  have title_in : '\n' ∈ title.getD [] → '\n' ∈ target := by
    intro mem
    cases isLink.isTarget with
    | plain => cases mem
    | @titled _ _ gap title =>
      have inTitle : '\n' ∈ title := mem
      simp [inTitle]
  constructor
  · exact fun mem => inLine (by simp [linkText, mem])
  · exact fun mem => inLine (by simp [linkText, title_in mem])

theorem isElementOf_of_swap (isTarget : kind = images ∨ kind = links) {before read : List Char}
    (swapped : .swap found ∈ kind.regex.edits before read) : IsElementOf found := by
  rcases Regex.exists_findAt?_of_swap swapped with ⟨before, after, found_eq⟩
  rcases isTarget with rfl | rfl
  · rcases findAt?_images.mp found_eq with ⟨label, url, title, target, rest, -, isLink, rfl⟩
    refine ⟨isLink.isTarget.newline_not_mem, ?_, ?_⟩
    · exact fun inLine => isLink.newline_not_mem (List.not_mem_of_not_mem_cons inLine)
    · exact (Text.hasBlankLine_cons (by decide)).trans isLink.hasBlankLine_iff
  · rcases findAt?_links.mp found_eq with ⟨-, label, url, title, target, rest, -, -, isLink, rfl⟩
    exact ⟨isLink.isTarget.newline_not_mem, isLink.newline_not_mem, isLink.hasBlankLine_iff⟩

section Element

variable {element : List Char} {around : Around}
    (isElement : Element earlier found later kind element around)

include isElement

theorem Element.trimmed : Trimmed element := by
  cases isElement with
  | image leaves =>
    rw [written_images_group]
    exact trimmed_image _ _ _
  | link before inside behind => exact trimmed_linkHtml _ _ _

variable (parts : IsElementOf found)

include parts

theorem Element.hasBlankLine (blank : HasBlankLine element) : HasBlankLine found.text := by
  rw [parts.hasBlankLine_iff]
  cases isElement with
  | image leaves =>
    rw [written_images_group] at blank
    exact hasBlankLine_of_image parts.url_in blank
  | link before inside
      behind => exact (hasBlankLine_of_linkHtml parts.url_in blank).imp_left inside.hasBlankLine

theorem Element.newline_not_mem (inLine : '\n' ∉ found.text) : '\n' ∉ element := by
  rcases parts.parts_in inLine with ⟨label_in, title_in⟩
  cases isElement with
  | image leaves =>
    rw [written_images_group]
    exact newline_not_mem_image parts.url_in label_in title_in
  | link before inside behind =>
    exact newline_not_mem_linkHtml parts.url_in (inside.newline_not_mem label_in) title_in

end Element

end Elements

end Builtin

open Builtin

/-- A match of images or of links has a blank line in its text or its title alone.  The element that
it becomes is on one line of the HTML if the match is within a line, or if it has no blank line and
no line on which the element stands opens a block. -/
theorem convert_holds_elements [Host] {text : String} {kind : Builtin}
    {earlier later : List Edit} {found : Found} (isTarget : kind = images ∨ kind = links)
    (edits_eq : kind.regex.edits [] (readBy kind text) = earlier ++ .swap found :: later) :
    (HasBlankLine found.text ↔ HasBlankLine (found.group 1) ∨ HasBlankLine (found.group 3)) ∧
      ∃ html element around, convert {} (.text text) = .ok html ∧
        Element earlier found later kind element around ∧
        inlined text = around.text element ∧
          ('\n' ∉ found.text ∨
            ¬ HasBlankLine found.text ∧ (∀ line ∈ around.lines element, isBlockLine line = false) →
              OnOneLine around element html.toList) := by
  have swapped : .swap found ∈ kind.regex.edits [] (readBy kind text) := by simp [edits_eq]
  have parts := isElementOf_of_swap isTarget swapped
  rcases exists_element isTarget edits_eq with ⟨element, around, isElement, inlined_eq⟩
  refine ⟨parts.hasBlankLine_iff, _, element, around, convert_default text, isElement,
    inlined_eq, ?_⟩
  intro held
  rw [@String.toList_ofList (all.foldl (fun text kind => kind.pass text) text.toList),
    foldl_all_eq, inlined_eq]
  apply onOneLine isElement.trimmed
  rcases held with inLine | ⟨whole, noBlock⟩
  · exact .inl (isElement.newline_not_mem parts inLine)
  · exact .inr ⟨fun blank => whole (isElement.hasBlankLine parts blank), noBlock⟩

attribute [local instance] Host.standard

/-- A link over two lines. -/
theorem convert_holds_elements_lines :
    links.regex.edits [] (readBy links "[a\nb](u)") =
        [] ++ .swap ⟨"[a\nb](u)".toList, [some "a\nb".toList, some "u".toList, none]⟩ :: [] ∧
      ¬ HasBlankLine "[a\nb](u)".toList ∧
        convert {} (.text "[a\nb](u)") = .ok "<p><a href=\"u\">a b</a></p>" ∧
        OnOneLine ⟨[], []⟩ "<a href=\"u\">a\nb</a>".toList
          "<p><a href=\"u\">a b</a></p>".toList := by
  have edits_eq : links.regex.edits [] (readBy links "[a\nb](u)") =
      [] ++ .swap ⟨"[a\nb](u)".toList, [some "a\nb".toList, some "u".toList, none]⟩ :: [] := by
    decide +kernel
  have whole : ¬ HasBlankLine "[a\nb](u)".toList := by decide +kernel
  have html_eq : all.foldl (fun text kind => kind.pass text) "[a\nb](u)".toList =
      "<p><a href=\"u\">a b</a></p>".toList := by
    decide +kernel
  have inlined_eq : inlined "[a\nb](u)" = "<a href=\"u\">a\nb</a>".toList := by decide +kernel
  have noBlock : ∀ line ∈ (⟨[], []⟩ : Around).lines "<a href=\"u\">a\nb</a>".toList,
      isBlockLine line = false := by
    decide +kernel
  have converted : convert {} (.text "[a\nb](u)") = .ok "<p><a href=\"u\">a b</a></p>" := by
    rw [convert_default, html_eq, String.ofList_toList]
  refine ⟨edits_eq, whole, converted, ?_⟩
  rcases convert_holds_elements (.inr rfl) edits_eq with
    ⟨-, html, element, around, html_ok, isElement, text_eq, onOneLine⟩
  have same : html = "<p><a href=\"u\">a b</a></p>" := by
    rw [converted] at html_ok
    exact (Except.ok.inj html_ok).symm
  have around_eq : around = ⟨[], []⟩ := by
    cases isElement with
    | link before inside behind =>
      rcases around with ⟨front, back⟩
      rw [Around.mk.injEq]
      exact ⟨before.eq_nil, behind.eq_nil⟩
  have element_eq : element = "<a href=\"u\">a\nb</a>".toList := by
    rw [around_eq, inlined_eq, Around.text, List.nil_append, List.append_nil] at text_eq
    exact text_eq.symm
  rw [around_eq, element_eq, same] at onOneLine
  exact onOneLine (.inr ⟨whole, noBlock⟩)

/-- A blank line in the text of a link ends the paragraph within the link, and a paragraph starts
within the description of an image behind the line of a header. -/
theorem convert_breaks_link :
    .swap ⟨"[a\n\nb](u)".toList, [some "a\n\nb".toList, some "u".toList, none]⟩ ∈
        links.regex.edits [] (readBy links "[a\n\nb](u)") ∧
      HasBlankLine "[a\n\nb](u)".toList ∧
        convert {} (.text "[a\n\nb](u)") = .ok "<p><a href=\"u\">a</p>\n\n<p>b</a></p>" ∧
          convert {} (.text "# ![a\nb](u)") =
            .ok "<h1><img src=\"u\" alt=\"a&lt;/h1&gt;\n<p>b\"></p>" := by
  have link_eq : all.foldl (fun text kind => kind.pass text) "[a\n\nb](u)".toList =
      "<p><a href=\"u\">a</p>\n\n<p>b</a></p>".toList := by
    decide +kernel
  have image_eq : all.foldl (fun text kind => kind.pass text) "# ![a\nb](u)".toList =
      "<h1><img src=\"u\" alt=\"a&lt;/h1&gt;\n<p>b\"></p>".toList := by
    decide +kernel
  refine ⟨?_, ?_, ?_, ?_⟩
  · decide +kernel
  · decide +kernel
  · rw [convert_default, link_eq, String.ofList_toList]
  · rw [convert_default, image_eq, String.ofList_toList]

end Markflow

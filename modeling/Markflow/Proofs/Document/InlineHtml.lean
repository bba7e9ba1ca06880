import Markflow.Proofs.Document.Code
import Markflow.Proofs.Regex.Swaps
import Markflow.Proofs.Text.Places
import Mathlib.Data.List.Infix

/-!
# The HTML of inline passes

The tags that the inline passes write are those of inline elements, and what they write is in place
of marks or of whole spans: a text is otherwise kept.  So a pass over a text is a matter of `Swaps`,
where a part begins with a character of inline markup and ends in no white space.
-/

namespace Markflow

/-- What stands behind the `<` of the tags that the inline passes write. -/
def inlineHeads : List String :=
  ["/", "code", "img src=", "a href=", "strong>", "em>", "del>"]

/-- A text goes on like a tag of an inline element behind its `<`. -/
abbrev OpensInline (text : List Char) : Prop :=
  ∃ head ∈ inlineHeads, head.toList <+: text

theorem OpensInline.append {text : List Char} (opens : OpensInline text) (more : List Char) :
    OpensInline (text ++ more) := by
  rcases opens with ⟨head, mem, isPrefix⟩
  exact ⟨head, mem, isPrefix.trans (List.prefix_append text more)⟩

/-- All tags of a piece of HTML are those of inline elements. -/
def HasInlineTags (html : List Char) : Prop :=
  ∀ near far, html = near ++ '<' :: far → OpensInline far

namespace HasInlineTags

variable {first second html : List Char}

theorem of_not_mem (noTag : '<' ∉ html) : HasInlineTags html := by
  rintro near far rfl
  exact absurd (by simp) noTag

theorem append (left : HasInlineTags first) (right : HasInlineTags second) :
    HasInlineTags (first ++ second) := by
  intro near far split
  rcases Text.exists_of_append_eq split with ⟨more, first_eq, rfl⟩ | ⟨more, -, second_eq⟩
  · exact (left near more first_eq).append second
  · exact right more far second_eq

theorem of_tails (opens : ∀ tail ∈ html.tails, tail.head? = some '<' → OpensInline tail.tail) :
    HasInlineTags html := by
  intro near far split
  apply opens ('<' :: far) _ rfl
  exact (List.mem_tails _ _).mpr ⟨near, split.symm⟩

/-- One tag, which may go on with attributes. -/
theorem of_tag {opening first rest : List Char} (opening_eq : opening = '<' :: first)
    (opens : OpensInline first)
    (noTag : '<' ∉ first) (noMore : '<' ∉ rest) : HasInlineTags (opening ++ rest) := by
  subst opening_eq
  intro near far split
  rcases near with _ | ⟨c, near⟩
  · rcases List.cons.inj split with ⟨-, rfl⟩
    exact opens.append rest
  · rw [List.cons_append, List.cons_append] at split
    rcases List.cons.inj split with ⟨-, rest_eq⟩
    have mem : '<' ∈ first ++ rest := by
      rw [rest_eq]
      simp
    rcases List.mem_append.mp mem with inFirst | inRest
    · exact absurd inFirst noTag
    · exact absurd inRest noMore

end HasInlineTags

namespace Builtin

/-- What an inline pass writes for a part of a text. -/
structure WritesInline (part written : List Char) : Prop where
  begins : ∃ c rest, part = c :: rest ∧ Escape.isMarkup c = true
  ends : ∃ rest c, part = rest ++ [c] ∧ Text.isBlank c = false
  tags : HasInlineTags written

/-- What a pass of emphasis writes for a part of a text. -/
def WritesEmphasis (part written : List Char) : Prop :=
  part ∈ emphasisMarks ∧ written ∈ emphasisTags

variable {before after : List Char} {found : Found}

theorem swaps_marked {marks opening closing : List Char} (marks_mem : marks ∈ emphasisMarks)
    (opening_mem : opening ∈ emphasisTags) (closing_mem : closing ∈ emphasisTags)
    (body : List Char) :
    Swaps WritesEmphasis (marked marks body) (opening ++ body ++ closing) := by
  have tags_ne : ∀ tag ∈ emphasisTags, tag ≠ [] := by decide
  have one : ∀ tag ∈ emphasisTags, Swaps WritesEmphasis marks tag := fun tag mem =>
    .of_part ⟨marks_mem, mem⟩ (emphasisMarks_spec marks marks_mem).1 (tags_ne tag mem)
  rw [marked, List.append_assoc]
  exact (one opening opening_mem).append ((Swaps.refl body).append (one closing closing_mem))

theorem swaps_emphasis {kind : Builtin} (isEmphasis : kind ∈ emphasis)
    (found_eq : kind.regex.findAt? before after = some found) :
    Swaps WritesEmphasis found.text (kind.written found) := by
  rcases exists_emphasis isEmphasis found_eq with
    ⟨marks, body, opening, closing, text_eq, written_eq, marks_mem, opening_mem, closing_mem⟩
  rw [text_eq, written_eq]
  exact swaps_marked marks_mem opening_mem closing_mem body

theorem swaps_pass_emphasis {kind : Builtin} (isEmphasis : kind ∈ emphasis) (text : List Char) :
    Swaps WritesEmphasis text (kind.pass text) :=
  Regex.swaps_rewrite (consumes_regex kind) (fun _ _ _ => swaps_emphasis isEmphasis) [] text

theorem WritesEmphasis.writesInline {part written : List Char}
    (writes : WritesEmphasis part written) :
    WritesInline part written := by
  rcases writes with ⟨part_mem, written_mem⟩
  have marks_shape : ∃ c less, Escape.isMarkup c = true ∧ Text.isBlank c = false ∧
      part = List.replicate (less + 1) c := by
    simp only [emphasisMarks, List.mem_cons, List.not_mem_nil, or_false] at part_mem
    rcases part_mem with rfl | rfl | rfl | rfl
    · exact ⟨'*', 0, by decide, by decide, rfl⟩
    · exact ⟨'*', 1, by decide, by decide, rfl⟩
    · exact ⟨'*', 2, by decide, by decide, rfl⟩
    · exact ⟨'~', 1, by decide, by decide, rfl⟩
  rcases marks_shape with ⟨c, less, markup, ink, rfl⟩
  have tags_open : ∀ tag ∈ emphasisTags, ∀ tail ∈ tag.tails, tail.head? = some '<' →
      OpensInline tail.tail := by decide
  exact ⟨⟨c, _, List.replicate_succ, markup⟩, ⟨_, c, List.replicate_succ', ink⟩,
    .of_tails (tags_open written written_mem)⟩

theorem tag_not_mem_titleText (title : List Char) : '<' ∉ titleText title := by
  have inValue : '<' ∉ Escape.attributeValue title :=
    Escape.not_mem_attributeValue (by decide) title
  unfold titleText
  split
  · simp
  · simp [inValue]

/-- The opening tag of a link. -/
def anchor (url title : List Char) : List Char :=
  "<a href=\"".toList ++ (Escape.attributeValue url ++ '"' :: (titleText title ++ ['>']))

/-- The tag of an image. -/
def image (url label title : List Char) : List Char :=
  "<img src=\"".toList ++
    (Escape.attributeValue url ++ ("\" alt=\"".toList ++ (Escape.attributeValue label ++
    '"' :: (titleText title ++ ['>']))))

theorem anchorOpening_eq : "<a href=\"".toList = '<' :: "a href=\"".toList := by
  decide

theorem imageOpening_eq : "<img src=\"".toList = '<' :: "img src=\"".toList := by
  decide

theorem anchor_ne_nil (url title : List Char) : anchor url title ≠ [] :=
  List.append_ne_nil_of_left_ne_nil (by decide) _

theorem image_ne_nil (url label title : List Char) : image url label title ≠ [] :=
  List.append_ne_nil_of_left_ne_nil (by decide) _

theorem append_anchor (opening value title label closing : List Char) :
    opening ++ value ++ '"' :: title ++ '>' :: label ++ closing =
      opening ++ (value ++ '"' :: (title ++ ['>'])) ++ (label ++ closing) := by
  simp

theorem append_image (opening source between description title : List Char) :
    opening ++ source ++ between ++ description ++ '"' :: title ++ ['>'] =
      opening ++ (source ++ (between ++ (description ++ '"' :: (title ++ ['>'])))) := by
  simp

theorem written_links_eq (text label url : List Char) (title : Option (List Char)) :
    links.written ⟨text, [some label, some url, title]⟩ =
      anchor url (title.getD []) ++ (label ++ "</a>".toList) :=
  (written_links text label url title).trans (append_anchor _ _ _ _ _)

theorem written_images_eq (text label url : List Char) (title : Option (List Char)) :
    images.written ⟨text, [some label, some url, title]⟩ = image url label (title.getD []) :=
  (written_images text label url title).trans (append_image _ _ _ _ _)

/-- What follows a value in a tag. -/
theorem tag_not_mem_tagEnd (title : List Char) : '<' ∉ '"' :: (titleText title ++ ['>']) := by
  simp [tag_not_mem_titleText]

theorem hasInlineTags_anchor (url title : List Char) : HasInlineTags (anchor url title) := by
  have inUrl : '<' ∉ Escape.attributeValue url := Escape.not_mem_attributeValue (by decide) url
  exact .of_tag anchorOpening_eq (by decide) (by decide)
    (List.not_mem_append inUrl (tag_not_mem_tagEnd title))

theorem hasInlineTags_image (url label title : List Char) :
    HasInlineTags (image url label title) := by
  have inUrl : '<' ∉ Escape.attributeValue url := Escape.not_mem_attributeValue (by decide) url
  have inLabel : '<' ∉ Escape.attributeValue label :=
    Escape.not_mem_attributeValue (by decide) label
  have inBetween : '<' ∉ "\" alt=\"".toList := by decide
  apply HasInlineTags.of_tag imageOpening_eq (by decide) (by decide)
  apply List.not_mem_append inUrl
  apply List.not_mem_append inBetween
  exact List.not_mem_append inLabel (tag_not_mem_tagEnd title)

theorem IsTarget.exists_between {url target : List Char} {title : Option (List Char)}
    (isTarget : IsTarget url title target) :
    ∃ inside, target = '(' :: (inside ++ [')']) := by
  cases isTarget with
  | plain => exact ⟨url, rfl⟩
  | @titled _ _ gap title => exact ⟨url ++ (gap ++ '"' :: (title ++ ['"'])), by simp⟩

theorem swaps_images (found_eq : images.regex.findAt? before after = some found) :
    Swaps WritesInline found.text (images.written found) := by
  rcases findAt?_images.mp found_eq with ⟨label, url, title, target, rest, -, isLink, rfl⟩
  rcases isLink.isTarget.exists_between with ⟨inside, rfl⟩
  have tags := hasInlineTags_image url label (title.getD [])
  have text_eq : '!' :: linkText label ('(' :: (inside ++ [')'])) =
      ('!' :: linkText label ('(' :: inside)) ++ [')'] := by
    simp [linkText]
  rw [written_images_eq]
  apply Swaps.of_part _ (List.cons_ne_nil _ _) (image_ne_nil url label _)
  exact ⟨⟨'!', _, rfl, by decide⟩, ⟨_, ')', text_eq, by decide⟩, tags⟩

theorem swaps_links (found_eq : links.regex.findAt? before after = some found) :
    Swaps WritesInline found.text (links.written found) := by
  rcases findAt?_links.mp found_eq with ⟨-, label, url, title, target, rest, -, -, isLink, rfl⟩
  rcases isLink.isTarget.exists_between with ⟨inside, rfl⟩
  have opens : Swaps WritesInline ['['] (anchor url (title.getD [])) := by
    apply Swaps.of_part _ (List.cons_ne_nil _ _) (anchor_ne_nil url _)
    exact ⟨⟨'[', [], rfl, by decide⟩, ⟨[], '[', rfl, by decide⟩,
      hasInlineTags_anchor url (title.getD [])⟩
  have closes : Swaps WritesInline (']' :: '(' :: (inside ++ [')'])) "</a>".toList := by
    apply Swaps.of_part _ (List.cons_ne_nil _ _) (by decide)
    exact ⟨⟨']', _, rfl, by decide⟩, ⟨']' :: '(' :: inside, ')', rfl, by decide⟩,
      .of_tails (by decide)⟩
  rw [written_links_eq]
  exact opens.append ((Swaps.refl label).append closes)

theorem swaps_inlineCode (found_eq : inlineCode.regex.findAt? before after = some found) :
    Swaps WritesInline found.text (inlineCode.written found) := by
  rcases findAt?_inlineCode.mp found_eq with ⟨-, count, content, rest, -, isCode, rfl⟩
  rcases Nat.exists_eq_add_of_lt isCode.pos with ⟨less, count_eq⟩
  rw [Nat.zero_add] at count_eq
  have first_eq : tickRun count = '\x60' :: List.replicate less '\x60' := by
    rw [tickRun, count_eq, List.replicate_succ]
  have last_eq : marked (tickRun count) content =
      (tickRun count ++ (content ++ List.replicate less '\x60')) ++ ['\x60'] := by
    rw [marked, tickRun, count_eq, List.replicate_succ']
    simp only [List.append_assoc]
  have inCode : '<' ∉ Escape.code (unpadded content) := Escape.not_mem_code (by decide) _ true
  have opening_tags : HasInlineTags "<code>".toList := .of_tails (by decide)
  have closing_tags : HasInlineTags "</code>".toList := .of_tails (by decide)
  rw [written_inlineCode]
  apply Swaps.of_part
  · refine ⟨⟨'\x60', List.replicate less '\x60' ++ (content ++ tickRun count), ?_, by decide⟩,
      ⟨_, '\x60', last_eq, by decide⟩, ?_⟩
    · show marked (tickRun count) content = _
      rw [marked, first_eq, List.cons_append]
    · exact (opening_tags.append (.of_not_mem inCode)).append closing_tags
  · rw [last_eq]
    exact List.append_ne_nil_of_right_ne_nil _ (List.cons_ne_nil _ _)
  · exact List.append_ne_nil_of_right_ne_nil _ (by decide)

/-- The inline transforms in the order in which they run. -/
def inlines : List Builtin :=
  inlineCode :: images :: links :: emphasis

/-- The text that paragraphs are made of. -/
def inlined (text : String) : List Char :=
  inlines.foldl (fun text kind => kind.pass text) (blocked text)

theorem foldl_all_eq (text : String) :
    all.foldl (fun text kind => kind.pass text) text.toList = paragraphs.pass (inlined text) := by
  rw [foldl_all]
  simp only [inlined, inlines, List.foldl_cons]

/-- An inline pass writes tags of inline elements for parts of a text. -/
theorem swaps_pass_inline {kind : Builtin} (isInline : kind ∈ inlines) (text : List Char) :
    Swaps WritesInline text (kind.pass text) := by
  have each : ∀ before after found, kind.regex.findAt? before after = some found →
      Swaps WritesInline found.text (kind.written found) := by
    intro before after found found_eq
    simp only [inlines, List.mem_cons] at isInline
    rcases isInline with rfl | rfl | rfl | isEmphasis
    · exact swaps_inlineCode found_eq
    · exact swaps_images found_eq
    · exact swaps_links found_eq
    · exact (swaps_emphasis (by simpa using isEmphasis) found_eq).mono fun _ _ =>
        WritesEmphasis.writesInline
  exact Regex.swaps_rewrite (consumes_regex kind) each [] text

end Builtin

end Markflow

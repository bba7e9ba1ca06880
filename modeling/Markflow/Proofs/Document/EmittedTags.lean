import Markflow.Proofs.Document.InlineHtml
import Markflow.Proofs.Regex.Pieces

/-!
# Tags of links and images

The tag of an image and the opening tag of a link hold no character of inline markup, as the values
of their attributes are escaped.  So no match of a later pass begins inside such a tag, and marks of
emphasis that stand around it have all of it between them.  The target of a link cannot begin before
a tag of an image and end in it: in a tag a space follows `<img`, and quotes that open a value
follow `=` and not white space.
-/

namespace Markflow.Builtin

open Regex

/-- A text without characters of inline markup. -/
def Unmarked (text : List Char) : Prop :=
  ∀ c ∈ text, Escape.isMarkup c = false

theorem Unmarked.append {first second : List Char} (left : Unmarked first)
    (right : Unmarked second) :
    Unmarked (first ++ second) := by
  intro c mem
  exact (List.mem_append.mp mem).elim (left c) (right c)

theorem Unmarked.not_mem {text : List Char} (unmarked : Unmarked text) {c : Char}
    (markup : Escape.isMarkup c = true) :
    c ∉ text := by
  intro mem
  rw [unmarked c mem] at markup
  cases markup

theorem Unmarked.marks_out {text : List Char} (unmarked : Unmarked text) :
    ∀ marks ∈ emphasisMarks, ∀ c ∈ marks, c ∉ text :=
  fun marks mem c inMarks => unmarked.not_mem ((emphasisMarks_spec marks mem).2 c inMarks).1

theorem unmarked_attributeValue (text : List Char) : Unmarked (Escape.attributeValue text) := by
  intro c mem
  by_contra markup
  exact Escape.not_mem_attributeValue (by simp [eq_true_of_ne_false markup]) text mem

theorem unmarked_tagEnd (title : List Char) : Unmarked ('"' :: (titleText title ++ ['>'])) := by
  have opening : Unmarked " title=\"".toList := by unfold Unmarked; decide
  have closing : Unmarked "\"".toList := by unfold Unmarked; decide
  have quote : Escape.isMarkup '"' = false := by decide
  have bracket : Unmarked ['>'] := by unfold Unmarked; decide
  have inTitle : Unmarked (titleText title) := by
    by_cases plain : title = []
    · rw [titleText, if_pos plain]
      exact fun c mem => absurd mem List.not_mem_nil
    · rw [titleText, if_neg plain]
      exact (opening.append (unmarked_attributeValue title)).append closing
  exact List.forall_mem_cons.mpr ⟨quote, inTitle.append bracket⟩

theorem unmarked_anchor (url title : List Char) : Unmarked (anchor url title) := by
  have opening : Unmarked "<a href=\"".toList := by unfold Unmarked; decide
  exact opening.append ((unmarked_attributeValue url).append (unmarked_tagEnd title))

theorem unmarked_image (url label title : List Char) : Unmarked (image url label title) := by
  have opening : Unmarked "<img src=\"".toList := by unfold Unmarked; decide
  have between : Unmarked "\" alt=\"".toList := by unfold Unmarked; decide
  have inLabel := (unmarked_attributeValue label).append (unmarked_tagEnd title)
  exact opening.append ((unmarked_attributeValue url).append (between.append inLabel))

section Targets

theorem close_not_mem_attributeValue {text : List Char} (missing : ')' ∉ text) :
    ')' ∉ Escape.attributeValue text := by
  have noClose : ∀ reference ∈ Escape.references, ')' ∉ reference := by decide
  intro mem
  rcases Escape.mem_flatMap_markup mem with ⟨inText, -⟩ | ⟨reference, isReference, inReference⟩
  · exact missing inText
  · exact noClose reference isReference inReference

theorem attributeValue_ne_nil {text : List Char} (text_ne : text ≠ []) :
    Escape.attributeValue text ≠ [] := by
  have references_ne : ∀ reference ∈ Escape.references, reference ≠ [] := by decide
  rcases List.exists_cons_of_ne_nil text_ne with ⟨c, rest, rfl⟩
  have entity_ne : Escape.entity true c ≠ [] := by
    rcases Escape.entity_cases true c with isReference | ⟨same, -⟩
    · exact references_ne _ isReference
    · rw [same]
      exact List.cons_ne_nil c []
  rcases List.exists_cons_of_ne_nil entity_ne with ⟨d, others, entity_eq⟩
  have markup_ne : Escape.markup d ≠ [] := by
    rcases Escape.markup_cases d with isReference | ⟨same, -⟩
    · exact references_ne _ isReference
    · rw [same]
      exact List.cons_ne_nil d []
  simp [Escape.attributeValue, Escape.html, entity_eq, markup_ne]

theorem exists_attributeValue {url target : List Char} {title : Option (List Char)}
    (isTarget : IsTarget url title target) :
    ∃ c rest, Escape.attributeValue url = c :: rest ∧ c ≠ ')' := by
  rcases isTarget.url_spec with ⟨url_ne, url_all⟩
  have noClose : ')' ∉ url := fun mem => absurd (url_all ')' mem) (by decide)
  rcases List.exists_cons_of_ne_nil (attributeValue_ne_nil url_ne) with ⟨c, rest, value_eq⟩
  refine ⟨c, rest, value_eq, ?_⟩
  rintro rfl
  exact close_not_mem_attributeValue noClose (by simp [value_eq])

theorem append_cons_append {opening value others rest : List Char} {c : Char}
    (value_eq : value = c :: others) :
    opening ++ (value ++ rest) = opening ++ c :: (others ++ rest) := by
  rw [value_eq, List.cons_append]

theorem imageOpening_parts (behind : List Char) : "<img src=\"".toList ++ behind =
    ['<', 'i', 'm', 'g'] ++ ([' '] ++ (['s', 'r', 'c', '='] ++ '"' :: behind)) := by
  have opening_eq : "<img src=\"".toList = ['<', 'i', 'm', 'g', ' ', 's', 'r', 'c', '=', '"'] := by
    decide
  rw [opening_eq]
  rfl

/-- No target ends inside the tag of an image that begins in it. -/
theorem IsTarget.not_reaching {url target : List Char} {title : Option (List Char)}
    (isTarget : IsTarget url title target)
    {more reach rest behind : List Char} {c : Char} (value : c ≠ ')')
    (target_eq : target = more ++ '<' :: reach)
    (same : '<' :: reach ++ rest = "<img src=\"".toList ++ c :: behind) : False := by
  have apart : ∀ {text before after : List Char}, '<' ∉ text → text ≠ before ++ '<' :: after := by
    rintro text before after missing rfl
    exact missing (by simp)
  -- The URL would be cut behind the name of the tag.
  have cut : ∀ {left others : List Char}, (∀ d ∈ '<' :: left, isUrlChar d = true) →
      Text.Stops isUrlChar others →
      '<' :: left ++ others = "<img src=\"".toList ++ c :: behind →
        others = [' '] ++ (['s', 'r', 'c', '='] ++ '"' :: c :: behind) := by
    intro left others left_all others_stop same
    rw [imageOpening_parts] at same
    have space : Text.Stops isUrlChar ([' '] ++ (['s', 'r', 'c', '='] ++ '"' :: c :: behind)) :=
      Text.stops_cons.mpr (by decide)
    exact (Text.cut_unique left_all others_stop (by decide) space same).2
  cases isTarget with
  | plain url_ne url_all =>
    rcases more with _ | ⟨d, more⟩
    · cases target_eq
    rcases Text.exists_of_append_eq (List.cons.inj target_eq).2 with ⟨left, url_eq, rfl⟩
      | ⟨left, -, close_eq⟩
    · have left_all : ∀ d ∈ '<' :: left, isUrlChar d = true := fun d mem =>
        url_all d (by rw [url_eq]; simp [mem])
      rw [← List.cons_append, List.append_assoc] at same
      cases cut left_all (Text.stops_cons.mpr (by decide)) same
    · exact apart (by decide) close_eq
  | @titled url_ne url_all gap title gap_ne gap_all noQuote =>
    rcases more with _ | ⟨d, more⟩
    · cases target_eq
    rcases Text.exists_of_append_eq (List.cons.inj target_eq).2 with ⟨left, url_eq, rfl⟩
      | ⟨left, -, gap_eq⟩
    · have left_all : ∀ d ∈ '<' :: left, isUrlChar d = true := fun d mem =>
        url_all d (by rw [url_eq]; simp [mem])
      rcases List.exists_cons_of_ne_nil gap_ne with ⟨g, others, gap_cons⟩
      have gap_stops : Text.Stops isUrlChar (gap ++ '"' :: (title ++ ['"', ')']) ++ rest) := by
        rw [gap_cons]
        exact Text.stops_cons.mpr (isUrlChar_of_isSpaceOrTab (gap_all g (by simp [gap_cons])))
      rw [← List.cons_append, List.append_assoc] at same
      have quoted := cut left_all gap_stops same
      rw [List.append_assoc] at quoted
      -- Between the white space and the quote there is nothing in a target.
      have parts := Text.cut_unique gap_all (Text.stops_cons.mpr (by decide)) (by decide)
        (Text.stops_cons.mpr (by decide)) quoted
      cases parts.2
    rcases Text.exists_of_append_eq gap_eq with ⟨left, rfl, -⟩ | ⟨left, -, quote_eq⟩
    · exact absurd (gap_all '<' (by simp)) (by decide)
    rcases left with _ | ⟨e, left⟩
    · cases quote_eq
    rcases Text.exists_of_append_eq (List.cons.inj quote_eq).2 with ⟨left, title_eq, rfl⟩
      | ⟨left, -, close_eq⟩
    · have unquoted : ∀ {text : List Char}, '"' ∉ text → ∀ d ∈ text, (d != '"') = true := by
        intro text missing d mem
        rw [bne_iff_ne]
        rintro rfl
        exact missing mem
      have left_out : '"' ∉ '<' :: left := fun mem =>
        noQuote (by rw [title_eq]; exact List.mem_append_right _ mem)
      have word_out : '"' ∉ ['<', 'i', 'm', 'g'] ++ ([' '] ++ ['s', 'r', 'c', '=']) := by decide
      have quoted : ('<' :: left) ++ '"' :: ')' :: rest =
          (['<', 'i', 'm', 'g'] ++ ([' '] ++ ['s', 'r', 'c', '='])) ++ '"' :: c :: behind := by
        rw [imageOpening_parts] at same
        simpa using same
      have parts := Text.cut_unique (unquoted left_out) (Text.stops_cons.mpr (by decide))
        (unquoted word_out)
        (Text.stops_cons.mpr (by decide)) quoted
      cases parts.2
      exact value rfl
    · exact apart (by decide) close_eq

/-- A tag of an image, as it is written: the value of its first attribute does not begin with a
parenthesis. -/
structure IsImageTag (tag : List Char) : Prop where
  unmarked : Unmarked tag
  opens : ∃ c behind, tag = "<img src=\"".toList ++ c :: behind ∧ c ≠ ')'

theorem isImageTag_of_swap {before text : List Char} {found : Found}
    (swapped : .swap found ∈ images.regex.edits before text) :
    IsImageTag (images.written found) := by
  rcases exists_findAt?_of_swap swapped with ⟨front, after, found_eq⟩
  rcases findAt?_images.mp found_eq with ⟨label, url, title, target, rest, -, isLink, rfl⟩
  rcases exists_attributeValue isLink.isTarget with ⟨c, others, value_eq, value⟩
  rw [written_images_eq]
  exact ⟨unmarked_image url label _, c, _, append_cons_append value_eq, value⟩

namespace IsImageTag

variable {tag : List Char} (isTag : IsImageTag tag)

include isTag

theorem exists_cons : ∃ inside, tag = '<' :: inside := by
  rcases isTag.opens with ⟨c, behind, rfl, -⟩
  rw [imageOpening_eq]
  exact ⟨_, rfl⟩

/-- No target goes on into the tag of an image. -/
theorem not_reached {url more reach rest behind : List Char} {title : Option (List Char)}
    (isTarget : IsTarget url title (more ++ reach)) (reach_ne : reach ≠ [])
    (same : reach ++ rest = tag ++ behind) : False := by
  rcases isTag.opens with ⟨c, value, rfl, c_ne⟩
  rcases List.exists_cons_of_ne_nil reach_ne with ⟨d, reach, rfl⟩
  have begins := same
  rw [imageOpening_eq] at begins
  rcases List.cons.inj begins with ⟨rfl, -⟩
  rw [List.append_assoc] at same
  exact isTarget.not_reaching c_ne rfl same

end IsImageTag

/-- The target of a link or an image begins before a piece and goes on into it. -/
def InTarget (around : Around) (piece : List Char) : Prop :=
  ∃ before label begun reach after url title,
    around.front = before ++ '[' :: (label ++ ']' :: '(' :: begun) ∧ reach ≠ [] ∧
    piece ++ around.back = reach ++ after ∧ IsTarget url title ('(' :: begun ++ reach)

theorem IsImageTag.not_inTarget {tag : List Char} (isTag : IsImageTag tag) (around : Around) :
    ¬ InTarget around tag := by
  rintro ⟨before, label, begun, reach, after, url, title, -, reach_ne, same, isTarget⟩
  exact isTag.not_reached isTarget reach_ne same.symm

section Pieces

variable {piece : List Char} {around : Around} (opens : ∃ inside, piece = '<' :: inside)
    (noBracket : ']' ∉ piece)
  (free : ¬ InTarget around piece)

include opens noBracket free

/-- A link or an image that begins before a piece and ends behind its beginning has the piece in its
text, if no target goes on into the piece. -/
theorem exists_label {marks others label url target near reach rest : List Char}
    {title : Option (List Char)}
    (marks_eq : marks = others ++ ['[']) (marks_out : ∀ d ∈ marks, d ∉ piece)
    (isTarget : IsTarget url title target) (isSuffix : near <:+ around.front)
    (reach_ne : reach ≠ []) (split : marks ++ (label ++ ']' :: target) = near ++ reach)
    (same : reach ++ rest = piece ++ around.back) :
    ∃ inner far, near = marks ++ inner ∧ label = inner ++ (piece ++ far) := by
  rcases opens with ⟨inside, rfl⟩
  apply exists_body (List.cons_ne_nil _ _) split same marks_out noBracket
  -- A piece that begins behind the label would begin in the target.
  by_contra beyond
  rw [← List.append_assoc] at split
  rcases Text.exists_more split.symm (by omega) with ⟨more, near_eq, closing_eq⟩
  rcases List.exists_cons_of_ne_nil reach_ne with ⟨d, reach, rfl⟩
  rcases List.cons.inj same with ⟨rfl, -⟩
  have opened : ∃ inTarget, target = '(' :: inTarget := by
    cases isTarget <;> exact ⟨_, rfl⟩
  rcases opened with ⟨inTarget, rfl⟩
  rcases more with _ | ⟨e, _ | ⟨f, begun⟩⟩
  · cases closing_eq
  · cases closing_eq
  · rcases List.cons.inj closing_eq with ⟨rfl, target_eq⟩
    rcases List.cons.inj target_eq with ⟨rfl, rfl⟩
    rcases isSuffix with ⟨before, front_eq⟩
    refine free ⟨before ++ others, label, begun, '<' :: reach, rest, url, title, ?_, reach_ne,
      same.symm, isTarget⟩
    rw [← front_eq, near_eq, marks_eq]
    simp

/-- The pass of links leaves a piece alone into which no target goes on. -/
theorem exists_leaves_links (noLink : '[' ∉ piece) :
    ∃ around', Leaves links.regex links.written [] piece around around' := by
  apply exists_leaves (consumes_regex links)
  · intro before near d far split
    exact missed_of_head rfl noLink _ near d far around.back split
  intro before near reach rest found isSuffix _ reach_ne text_eq same found_eq
  rcases findAt?_links.mp found_eq with ⟨-, label, url, title, target, after, -, -, isLink, rfl⟩
  have marks_out : ∀ d ∈ ['['], d ∉ piece := by
    intro d mem
    rcases List.mem_singleton.mp mem with rfl
    exact noLink
  rcases exists_label opens noBracket free (List.nil_append _).symm marks_out isLink.isTarget
    isSuffix reach_ne text_eq same with
    ⟨inner, far, near_eq, rfl⟩
  refine ⟨⟨inner, far⟩, ['['], ']' :: target, anchor url (title.getD []), "</a>".toList, near_eq, by
    simp, by simp, rfl, ?_⟩
  rw [written_links_eq]
  rfl

end Pieces

end Targets

/-- Passes that run one after the other leave a piece alone. -/
inductive LeavesAll (piece : List Char) : List Builtin → Around → Around → Prop where
  | nil (around : Around) : LeavesAll piece [] around around
  | cons {kind : Builtin} {kinds : List Builtin} {around next last : Around}
      (first : Leaves kind.regex kind.written [] piece around next)
      (rest : LeavesAll piece kinds next last) :
      LeavesAll piece (kind :: kinds) around last

theorem LeavesAll.foldl_eq {piece : List Char} {kinds : List Builtin} {around around' : Around}
    (leaves : LeavesAll piece kinds around around') :
    kinds.foldl (fun text kind => kind.pass text) (around.text piece) = around'.text piece := by
  induction leaves with
  | nil => rfl
  | cons first rest ih =>
    rw [List.foldl_cons, pass, first.rewrite_eq]
    exact ih

/-- Passes leave a piece alone that each of them leaves alone where the piece stands as it should,
if it then stands so behind the pass. -/
theorem exists_leavesAll_of_stands {piece : List Char} {stands : Around → Prop}
    {kinds : List Builtin} (each : ∀ kind ∈ kinds, ∀ around, stands around →
      ∃ around', Leaves kind.regex kind.written [] piece around around' ∧ stands around')
    {around : Around} (start : stands around) : ∃ around', LeavesAll piece kinds around around' ∧
      stands around' := by
  induction kinds generalizing around with
  | nil => exact ⟨around, .nil around, start⟩
  | cons kind kinds ih =>
    rcases each kind List.mem_cons_self around start with ⟨next, first, stands_next⟩
    rcases ih (fun other mem => each other (List.mem_cons_of_mem kind mem)) stands_next with
      ⟨last, rest, stands_last⟩
    exact ⟨last, .cons first rest, stands_last⟩

theorem exists_leavesAll {piece : List Char} {kinds : List Builtin}
    (each : ∀ kind ∈ kinds, ∀ around, ∃ around',
      Leaves kind.regex kind.written [] piece around around') (around : Around) :
    ∃ around', LeavesAll piece kinds around around' := by
  have alone : ∀ kind ∈ kinds, ∀ around, True →
      ∃ around', Leaves kind.regex kind.written [] piece around around' ∧ True := by
    intro kind mem around _
    rcases each kind mem around with ⟨around', leaves⟩
    exact ⟨around', leaves, trivial⟩
  rcases @exists_leavesAll_of_stands piece (fun _ => True) kinds alone around trivial with
    ⟨around', leaves, -⟩
  exact ⟨around', leaves⟩

theorem LeavesAll.append {piece : List Char} {kinds others : List Builtin}
    {around next last : Around}
    (first : LeavesAll piece kinds around next) (rest : LeavesAll piece others next last) :
    LeavesAll piece (kinds ++ others) around last := by
  induction first with
  | nil => exact rest
  | cons leaves _ ih => exact .cons leaves (ih rest)

/-- A tag that the pass of images or that of links writes in the conversion of a text, the passes of
inline markup that come later, and what stands around the tag when it is written. -/
inductive Emitted (text : String) : (tag : List Char) → (later : List Builtin) → Around → Prop where
  | image {earlier later : List Edit} {found : Found}
      (edits_eq : images.regex.edits [] (inlineCode.pass (blocked text)) =
        earlier ++ .swap found :: later) :
      Emitted text (images.written found) (links :: emphasis)
        ⟨Edit.targets images.written earlier, Edit.targets images.written later⟩
  | anchor {earlier later : List Edit} {found : Found}
      (edits_eq : links.regex.edits [] (images.pass (inlineCode.pass (blocked text))) =
        earlier ++ .swap found :: later) :
      Emitted text (anchor (found.group 2) (found.group 3)) emphasis
        ⟨Edit.targets links.written earlier,
          found.group 1 ++ ("</a>".toList ++ Edit.targets links.written later)⟩

theorem written_links_group (found : Found) :
    links.written found = anchor (found.group 2) (found.group 3) ++
      (found.group 1 ++ "</a>".toList) :=
  (written_of_render (render_links found)).trans (append_anchor _ _ _ _ _)

theorem Emitted.inlined_eq {text : String} {tag : List Char} {later : List Builtin}
    {around : Around} (emitted : Emitted text tag later around) :
    inlined text = later.foldl (fun text kind => kind.pass text) (around.text tag) := by
  have passes_eq : inlined text = emphasis.foldl (fun text kind => kind.pass text)
      (links.pass (images.pass (inlineCode.pass (blocked text)))) := by
    simp only [inlined, inlines, List.foldl_cons]
  rw [passes_eq]
  cases emitted with
  | @image earlier later found edits_eq =>
    have written : images.pass (inlineCode.pass (blocked text)) =
        (⟨Edit.targets images.written earlier, Edit.targets images.written later⟩ : Around).text
          (images.written found) :=
      rewrite_of_edits edits_eq
    rw [written, List.foldl_cons]
  | @anchor earlier later found edits_eq =>
    have written : links.pass (images.pass (inlineCode.pass (blocked text))) =
        Edit.targets links.written earlier ++
          (links.written found ++ Edit.targets links.written later) :=
      rewrite_of_edits edits_eq
    rw [written, written_links_group, List.append_assoc, List.append_assoc, Around.text]

theorem exists_leavesAll_emphasis {tag : List Char} (tag_ne : tag ≠ []) (unmarked : Unmarked tag)
    (around : Around) :
    ∃ around', LeavesAll tag emphasis around around' :=
  exists_leavesAll (fun _ isEmphasis => exists_leaves_emphasis isEmphasis tag_ne unmarked.marks_out)
    around

theorem Emitted.exists_leavesAll {text : String} {tag : List Char} {later : List Builtin}
    {around : Around}
    (emitted : Emitted text tag later around) : ∃ around', LeavesAll tag later around around' := by
  cases emitted with
  | @image earlier behind found edits_eq =>
    have swapped : .swap found ∈ images.regex.edits [] (inlineCode.pass (blocked text)) := by
      simp [edits_eq]
    have isTag := isImageTag_of_swap swapped
    have unmarked := isTag.unmarked
    apply Builtin.exists_leavesAll
    intro kind isLater around
    rcases List.mem_cons.mp isLater with rfl | isEmphasis
    · exact exists_leaves_links isTag.exists_cons (unmarked.not_mem (by decide))
        (isTag.not_inTarget around)
        (unmarked.not_mem (by decide))
    · rcases isTag.exists_cons with ⟨inside, tag_eq⟩
      exact exists_leaves_emphasis isEmphasis (by simp [tag_eq]) unmarked.marks_out around
  | anchor edits_eq => exact exists_leavesAll_emphasis (anchor_ne_nil _ _) (unmarked_anchor _ _) _

/-- A run of a built-in transform edits its text. -/
theorem gives_edits [Host] {ρ σ : Type} (call : Caller ρ σ) (kind : Builtin) (text : List Char)
    (state : σ) : ((kind.definition : Definition ρ).apply call (String.ofList text)).Gives state
      (String.ofList (Edit.targets kind.written (kind.regex.edits [] text))) state := by
  have gives := gives_apply call kind (String.ofList text) state
  rwa [String.toList_ofList] at gives

/-- Every pass that comes after a tag of an image or the opening tag of a link leaves the tag alone:
no match begins or ends in it, and it stands as it was written in the text that paragraphs are made
of, the last step of the conversion.  The passes are those of the transforms. -/
theorem convert_keeps_tags [Host] {text : String} {tag : List Char} {later : List Builtin}
    {around : Around} (emitted : Emitted text tag later around) :
    (∃ around', LeavesAll tag later around around' ∧ inlined text = around'.text tag ∧
        convert {} (.text text) = .ok (String.ofList (paragraphs.pass (around'.text tag)))) ∧
      ∀ {ρ σ : Type} (call : Caller ρ σ) (kind : Builtin) (text : List Char) (state : σ),
        ((kind.definition : Definition ρ).apply call (String.ofList text)).Gives state
          (String.ofList (Edit.targets kind.written (kind.regex.edits [] text))) state := by
  rcases emitted.exists_leavesAll with ⟨around', leaves⟩
  have inlined_eq : inlined text = around'.text tag := emitted.inlined_eq.trans leaves.foldl_eq
  refine ⟨⟨around', leaves, inlined_eq, ?_⟩, gives_edits⟩
  rw [convert_default, foldl_all_eq, inlined_eq]

attribute [local instance] Host.standard

/-- The tag of an image in the text of a link that is emphasized. -/
theorem convert_keeps_tags_in_link :
    Emitted "**[![a_b](u)](v)**" "<img src=\"u\" alt=\"a&#95;b\">".toList (links :: emphasis)
        ⟨"**[".toList, "](v)**".toList⟩ ∧
      ∃ around, LeavesAll "<img src=\"u\" alt=\"a&#95;b\">".toList
        (links :: emphasis) ⟨"**[".toList, "](v)**".toList⟩ around ∧
        inlined "**[![a_b](u)](v)**" = around.text "<img src=\"u\" alt=\"a&#95;b\">".toList := by
  let found : Found := ⟨"![a_b](u)".toList, [some "a_b".toList, some "u".toList, none]⟩
  have edits_eq : images.regex.edits [] (inlineCode.pass (blocked "**[![a_b](u)](v)**")) =
      "**[".toList.map .keep ++ .swap found :: "](v)**".toList.map .keep := by
    decide +kernel
  have tag_eq : images.written found = "<img src=\"u\" alt=\"a&#95;b\">".toList := by decide +kernel
  have front_eq : Edit.targets images.written ("**[".toList.map .keep) = "**[".toList := by
    decide +kernel
  have back_eq : Edit.targets images.written ("](v)**".toList.map .keep) = "](v)**".toList := by
    decide +kernel
  have emitted := Emitted.image edits_eq
  rw [tag_eq, front_eq, back_eq] at emitted
  rcases (convert_keeps_tags emitted).1 with ⟨around, leaves, inlined_eq, -⟩
  exact ⟨emitted, around, leaves, inlined_eq⟩

end Markflow.Builtin

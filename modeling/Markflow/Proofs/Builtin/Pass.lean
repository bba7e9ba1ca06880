import Markflow.Builtin.Render
import Markflow.Proofs.Builtin.Regexes
import Markflow.Proofs.Regex.Edits

/-!
# Passes of the built-in transforms

A built-in transform always gives a text for a match, and it looks at the texts of the match alone:
`Builtin.written`.  So a run of it is a function from texts to texts, `Builtin.pass`.
-/

namespace Markflow

/-- The text of a group, empty when it is unset. -/
def Found.group (found : Found) (index : Nat) : List Char :=
  ((found.groups[index - 1]?).join).getD []

theorem lookup_map_snd {α β γ : Type} [BEq α] (f : β → γ) (pairs : List (α × β)) (key : α) :
    (pairs.map fun pair => (pair.1, f pair.2)).lookup key = (pairs.lookup key).map f := by
  induction pairs with
  | nil => rfl
  | cons pair pairs ih =>
    obtain ⟨name, value⟩ := pair
    by_cases same : key == name <;> simp [List.lookup_cons, same, ih]

namespace Builtin

/-- The captures of a match as a built-in transform sees them. -/
def capturesOf (kind : Builtin) (found : Found) : Captures where
  full := String.ofList found.text
  groups := found.groups.map fun group => String.ofList (group.getD [])
  start := 0
  stop := 0
  names := kind.regex.names

/-- What a built-in transform puts in place of a match. -/
def written (kind : Builtin) (found : Found) : List Char :=
  match kind.render (kind.capturesOf found) with
  | .ok text => text.toList
  | .error _ => []

/-- What a built-in transform makes of a text. -/
def pass (kind : Builtin) (text : List Char) : List Char :=
  kind.regex.rewrite kind.written [] text

/-- A named group is captured under its number. -/
theorem named_capturesOf (kind : Builtin) (found : Found) (name : String) {index : Nat}
    (isGroup : kind.regex.names.lookup name = some index) :
    (kind.capturesOf found).named name = .ok (String.ofList (found.group index)) := by
  have isNamed : (kind.capturesOf found).isNamed = true := by
    cases names : kind.regex.names <;> simp_all [Captures.isNamed, capturesOf]
  have text_eq : ((kind.capturesOf found).groups[index - 1]?).getD "" =
      String.ofList (found.group index) := by
    simp only [capturesOf, List.getElem?_map, Found.group]
    rcases found.groups[index - 1]? with _ | _ | text <;> rfl
  have field := lookup_map_snd (fun number => ((kind.capturesOf found).groups[number - 1]?).getD "")
    kind.regex.names name
  simp only [Captures.named, isNamed, if_true, Captures.fields]
  rw [show (kind.capturesOf found).names = kind.regex.names from rfl, field, isGroup,
    Option.map_some, text_eq]

theorem namedOrEmpty_capturesOf (kind : Builtin) (found : Found) (name : String) {index : Nat}
    (isGroup : kind.regex.names.lookup name = some index) :
    (kind.capturesOf found).namedOrEmpty name = String.ofList (found.group index) := by
  simp [Captures.namedOrEmpty, named_capturesOf kind found name isGroup]

theorem written_of_render {kind : Builtin} {found : Found} {text : List Char}
    (renders : kind.render (kind.capturesOf found) = .ok (String.ofList text)) :
    kind.written found = text := by
  simp [written, renders]

section Written

variable (found : Found)

theorem render_codeBlocks :
    codeBlocks.render (codeBlocks.capturesOf found) = .ok (String.ofList (
      "<pre><code".toList ++
        (if found.group 1 = [] then []
          else " class=\"".toList ++ Escape.attributeValue (found.group 1) ++ "\"".toList) ++
        '>' :: Escape.code (dropLineBreak (found.group 2)) false ++ "</code></pre>".toList)) := by
  simp only [render, renderCodeBlock, namedOrEmpty_capturesOf codeBlocks found "lang" rfl,
    namedOrEmpty_capturesOf codeBlocks found "code" rfl]
  by_cases plain : found.group 1 = [] <;> simp [plain, String.ext_iff]

theorem render_headers :
    headers.render (headers.capturesOf found) = .ok (String.ofList (
      "<h".toList ++ Nat.toDigits 10 (found.group 1).length ++ '>' :: found.group 2 ++
        "</h".toList ++ Nat.toDigits 10 (found.group 1).length ++ ['>'])) := by
  simp only [render, renderHeader, named_capturesOf headers found "hashes" rfl,
    named_capturesOf headers found "text" rfl]
  simp [Bind.bind, Except.bind, pure, Except.pure, String.ext_iff, Nat.repr, toString]

theorem render_unorderedList :
    unorderedList.render (unorderedList.capturesOf found) = .ok (String.ofList (
      (renderItems "ul" "" (listItems afterBullet? found.text) found.text).toList)) := by
  simp [render, renderUnorderedList, capturesOf]

theorem render_orderedList :
    orderedList.render (orderedList.capturesOf found) = .ok (String.ofList (
      (renderOrderedList (orderedList.capturesOf found)).toList)) := by
  simp [render]

theorem render_blockquote :
    blockquote.render (blockquote.capturesOf found) = .ok (String.ofList (
      "<blockquote>".toList ++ Text.join [' ']
        (((Text.lines found.text).map fun line => Text.strip ((afterQuote? line).getD line)).filter
          (!·.isEmpty)) ++ "</blockquote>".toList ++ trailingNewline found.text)) := by
  simp [render, renderBlockquote, capturesOf, String.ext_iff]

theorem render_inlineCode :
    inlineCode.render (inlineCode.capturesOf found) = .ok (String.ofList (
      "<code>".toList ++ Escape.code (unpadded (found.group 2)) ++ "</code>".toList)) := by
  simp only [render, renderInlineCode, named_capturesOf inlineCode found "code" rfl]
  simp [Bind.bind, Except.bind, pure, Except.pure, String.ext_iff]

/-- The title attribute of a link or an image with a title, which may be empty. -/
def titleText (title : List Char) : List Char :=
  if title = [] then [] else " title=\"".toList ++ Escape.attributeValue title ++ "\"".toList

theorem titleAttribute_capturesOf (kind : Builtin)
    (isGroup : kind.regex.names.lookup "title" = some 3) :
    titleAttribute (kind.capturesOf found) = String.ofList (titleText (found.group 3)) := by
  simp only [titleAttribute, namedOrEmpty_capturesOf kind found "title" isGroup, titleText]
  by_cases plain : found.group 3 = [] <;> simp [plain, String.ext_iff]

theorem render_images :
    images.render (images.capturesOf found) = .ok (String.ofList (
      "<img src=\"".toList ++ Escape.attributeValue (found.group 2) ++ "\" alt=\"".toList ++
        Escape.attributeValue (found.group 1) ++ '"' :: titleText (found.group 3) ++ ['>'])) := by
  simp only [render, renderImage, named_capturesOf images found "url" rfl,
    named_capturesOf images found "alt" rfl, titleAttribute_capturesOf found images rfl]
  simp [Bind.bind, Except.bind, pure, Except.pure, String.ext_iff]

theorem render_links :
    links.render (links.capturesOf found) = .ok (String.ofList (
      "<a href=\"".toList ++ Escape.attributeValue (found.group 2) ++
        '"' :: titleText (found.group 3) ++
        '>' :: found.group 1 ++ "</a>".toList)) := by
  simp only [render, renderLink, named_capturesOf links found "url" rfl,
    named_capturesOf links found "text" rfl, titleAttribute_capturesOf found links rfl]
  simp [Bind.bind, Except.bind, pure, Except.pure, String.ext_iff]

theorem render_bold :
    bold.render (bold.capturesOf found) = .ok (String.ofList (
      if found.group 1 = [] then "<strong>".toList ++ found.group 2 ++ "</strong>".toList
      else "<em><strong>".toList ++ found.group 1 ++ "</strong></em>".toList)) := by
  simp only [render, renderBold, named_capturesOf bold found "text" rfl,
    namedOrEmpty_capturesOf bold found "combined" rfl]
  by_cases plain : found.group 1 = [] <;>
    simp [plain, Bind.bind, Except.bind, pure, Except.pure, String.ext_iff]

theorem render_italic :
    italic.render (italic.capturesOf found) = .ok (String.ofList (
      "<em>".toList ++ found.group 1 ++ "</em>".toList)) := by
  simp only [render, renderInside, named_capturesOf italic found "text" rfl]
  simp [Bind.bind, Except.bind, pure, Except.pure, String.ext_iff]

theorem render_strikethrough :
    strikethrough.render (strikethrough.capturesOf found) = .ok (String.ofList (
      "<del>".toList ++ found.group 1 ++ "</del>".toList)) := by
  simp only [render, renderInside, named_capturesOf strikethrough found "text" rfl]
  simp [Bind.bind, Except.bind, pure, Except.pure, String.ext_iff]

theorem render_paragraphs :
    paragraphs.render (paragraphs.capturesOf found) = .ok (String.ofList (
      Text.join ['\n'] (wrapLines [] (Text.lines (found.group 1))))) := by
  simp only [render, renderParagraphs, named_capturesOf paragraphs found "text" rfl]
  simp [Bind.bind, Except.bind, pure, Except.pure]

/-- A built-in transform gives a text for every match. -/
theorem render_capturesOf (kind : Builtin) :
    kind.render (kind.capturesOf found) = .ok (String.ofList (kind.written found)) := by
  have renders : ∃ text, kind.render (kind.capturesOf found) = .ok (String.ofList text) := by
    cases kind with
    | codeBlocks => exact ⟨_, render_codeBlocks found⟩
    | headers => exact ⟨_, render_headers found⟩
    | horizontalRule => exact ⟨"<hr>".toList, by simp [render]⟩
    | unorderedList => exact ⟨_, render_unorderedList found⟩
    | orderedList => exact ⟨_, render_orderedList found⟩
    | blockquote => exact ⟨_, render_blockquote found⟩
    | inlineCode => exact ⟨_, render_inlineCode found⟩
    | images => exact ⟨_, render_images found⟩
    | links => exact ⟨_, render_links found⟩
    | bold => exact ⟨_, render_bold found⟩
    | italic => exact ⟨_, render_italic found⟩
    | strikethrough => exact ⟨_, render_strikethrough found⟩
    | paragraphs => exact ⟨_, render_paragraphs found⟩
  obtain ⟨text, renders⟩ := renders
  rw [renders, written_of_render renders]

end Written

/-- The captures of a match are those that a built-in transform sees, at the place of the match. -/
theorem ofMatch_eq (kind : Builtin) (m : Match) : Captures.ofMatch kind.regex.names m =
    { kind.capturesOf m.found with start := m.start.offset, stop := m.stop.offset } := by
  have groups_eq : (m.groups.map (·.getD "")) =
      m.found.groups.map fun group => String.ofList (group.getD []) := by
    simp only [Match.found, List.map_map]
    apply List.map_congr_left
    rintro (_ | text) _ <;> simp
  simp [Captures.ofMatch, capturesOf, groups_eq, Match.text, Match.found]

theorem named_ofMatch (kind : Builtin) (m : Match) (name : String) {index : Nat}
    (isGroup : kind.regex.names.lookup name = some index) :
    (Captures.ofMatch kind.regex.names m).named name =
      .ok (String.ofList (m.found.group index)) := by
  rw [ofMatch_eq, ← named_capturesOf kind m.found name isGroup]
  rfl

/-- Nothing but the texts of a match decides what is put in its place. -/
theorem render_ofMatch (kind : Builtin) (m : Match) :
    kind.render (.ofMatch kind.regex.names m) = .ok (String.ofList (kind.written m.found)) := by
  have unplaced :
      kind.render { kind.capturesOf m.found with start := m.start.offset, stop := m.stop.offset } =
      kind.render (kind.capturesOf m.found) := by
    cases kind <;> rfl
  rw [ofMatch_eq, unplaced, render_capturesOf]

end Builtin

end Markflow

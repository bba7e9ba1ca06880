import Markflow.Proofs.Document.Inlines
import Markflow.Proofs.Passes.Blocks

/-!
# Inline passes over canonical lines

Each inline transform turns its own nodes of a line into HTML and leaves the others as they are,
whichever nodes stand around them.
-/

namespace Markflow

namespace Builtin

open Regex

/-- Whether a text is at its end or a space comes next. -/
def atGap (text : List Char) : Bool :=
  text.head?.all (· == ' ')

/-- A transform makes another text of a text that stands between gaps. -/
def Rewrites (kind : Builtin) (piece out : List Char) : Prop :=
  ∀ before after, atGap before = true → atGap after = true →
    kind.regex.rewrite kind.written before (piece ++ after) =
      out ++ kind.regex.rewrite kind.written (piece.reverse ++ before) after

section Rewrites

variable {kind : Builtin}

theorem cases_of_atGap {text : List Char} (gap : atGap text = true) :
    text = [] ∨ ∃ more, text = ' ' :: more := by
  rcases text with _ | ⟨c, text⟩
  · exact .inl rfl
  · obtain rfl : c = ' ' := by simpa [atGap] using gap
    exact .inr ⟨text, rfl⟩

theorem space_not_mem_mark (kind : Builtin) : ' ' ∉ kind.mark := by
  cases kind <;> decide

theorem mark_ne_nil (inline : kind.isBlock = false) : kind.mark ≠ [] := by
  revert inline
  cases kind <;> decide

/-- A mark does not extend over a gap. -/
theorem prefix_of_atGap {piece after : List Char} (gap : atGap after = true)
    (isMark : kind.mark <+: piece ++ after) :
    kind.mark <+: piece := by
  obtain ⟨rest, same⟩ := isMark
  rcases List.append_eq_append_iff.mp same with ⟨more, piece_eq, _⟩ | ⟨more, mark_eq, after_eq⟩
  · exact ⟨more, piece_eq.symm⟩
  · rcases cases_of_atGap gap with rfl | ⟨others, rfl⟩
    · obtain ⟨rfl, _⟩ := List.append_eq_nil_iff.mp after_eq.symm
      exact ⟨[], by simpa using mark_eq⟩
    · rcases more with _ | ⟨c, more⟩
      · exact ⟨[], by simpa using mark_eq⟩
      · obtain rfl : ' ' = c := (List.cons.inj after_eq).1
        exact absurd (by simp [mark_eq]) (space_not_mem_mark kind)

/-- A text without the mark of a transform is left alone. -/
theorem Rewrites.of_no_mark {piece : List Char} (without : ¬ kind.mark <:+: piece) :
    kind.Rewrites piece piece := by
  intro before after _ gap
  apply rewrite_of_no_mark
  rintro front back rfl _ isMark
  exact without ((prefix_of_atGap gap isMark).isInfix.trans (List.suffix_append front back).isInfix)

theorem Rewrites.of_not_mem {piece : List Char} {c : Char} (inMark : c ∈ kind.mark)
    (missing : c ∉ piece) :
    kind.Rewrites piece piece :=
  Rewrites.of_no_mark fun isInfix => missing (isInfix.subset inMark)

/-- A text that is matched as a whole. -/
theorem Rewrites.of_found {piece out : List Char} (groups : List (Option (List Char)))
    (found : ∀ before after, atGap before = true → atGap after = true →
      kind.regex.findAt? before (piece ++ after) = some ⟨piece, groups⟩)
    (written_eq : kind.written ⟨piece, groups⟩ = out) : kind.Rewrites piece out := by
  intro before after gap gap'
  have found_eq : kind.regex.findAt? before (Found.text ⟨piece, groups⟩ ++ after) =
      some ⟨piece, groups⟩ :=
    found before after gap gap'
  rw [← written_eq]
  exact Regex.rewrite_of_some (consumes_regex kind) found_eq

/-- A transform goes over texts with single spaces between them one by one. -/
theorem rewrite_join (inline : kind.isBlock = false) {pieces outs : List (List Char)}
    (rewrites : List.Forall₂ kind.Rewrites pieces outs) {before : List Char}
    (gap : atGap before = true) :
    kind.regex.rewrite kind.written before (Text.join [' '] pieces) = Text.join [' '] outs := by
  have split : ∀ (first second : List Char) (more : List (List Char)),
      Text.join [' '] (first :: second :: more) =
        first ++ ' ' :: Text.join [' '] (second :: more) := by
    intro first second more
    simp [Text.join]
  induction rewrites generalizing before with
  | nil => simp [Text.join]
  | @cons piece out pieces outs first more ih =>
    cases more with
    | nil => simpa [Text.join] using first before [] gap rfl
    | @cons next nextOut pieces outs second more =>
      have missed :
          kind.regex.findAt? (piece.reverse ++ before) (' ' :: Text.join [' '] (next :: pieces)) =
            none := by
        apply findAt?_of_not_mark
        intro isMark
        obtain ⟨c, mark, mark_eq⟩ := List.exists_cons_of_ne_nil (mark_ne_nil inline)
        rw [mark_eq, List.cons_prefix_cons] at isMark
        exact space_not_mem_mark kind (by simp [mark_eq, isMark.1])
      rw [split, split, first before _ gap (by simp [atGap]), Regex.rewrite_of_none missed,
        ih (by simp [atGap])]

end Rewrites

section Spans

theorem passed_of_forall {passes : Char → List Char → Bool} {text : List Char}
    (all : ∀ c ∈ text, ∀ after, passes c after = true) (rest : List Char) :
    Regex.Passed passes text rest := by
  induction text with
  | nil => trivial
  | cons c text ih => exact ⟨all c (by simp) _, ih fun d mem => all d (by simp [mem])⟩

/-- A phrase between marks is the body of a span. -/
theorem isSpan_text {kind : Builtin} {first : Char} {more : List Char} (text : Phrase)
    {after : List Char}
    (gap : atGap after = true) (noLetter : first.isAlpha = false) (noSpace : first ≠ ' ')
    (notFirst : kind.mark.headD ' ' = first)
    (free : CharSet.holds ⟨kind.barredAfter, false, .exact⟩ ' ' = false)
    (goes : ∀ c after, c ≠ first → c ≠ '\n' → kind.goesOn c after = true) :
    kind.IsSpan (first :: more) text.text after := by
  have noMark : first ∉ text.text := text.not_mem_text noLetter noSpace
  refine ⟨?_, text.text_ne_nil, passed_of_forall ?_ _, ?_, ?_⟩
  · obtain ⟨c, rest, text_eq, letter⟩ := text.exists_text_cons
    have : c ≠ first := by
      rintro rfl
      simp [noLetter] at letter
    simp only [text_eq, List.head?_cons, Option.any_some, notFirst, Text.isBlank_of_isAlpha letter,
      Bool.not_false, Bool.true_and, bne_iff_ne, ne_eq, this, not_false_eq_true]
  · intro c mem after
    apply goes
    · rintro rfl
      exact noMark mem
    · rintro rfl
      exact text.newline_not_mem_text mem
  · obtain ⟨front, c, text_eq, letter⟩ := text.exists_text_concat
    rcases cases_of_atGap gap with rfl | ⟨others, rfl⟩
    · simp [endsSpan, text_eq, Text.isBlank_of_isAlpha letter]
    · simp [endsSpan, text_eq, Text.isBlank_of_isAlpha letter, free]
  · intro shorter after' same _ isShorter
    obtain ⟨rest, text_eq, marks_eq⟩ := Text.exists_more same (by omega)
    rcases rest with _ | ⟨c, rest⟩
    · simp [text_eq] at isShorter
    · obtain rfl : first = c := by simpa using (List.cons.inj marks_eq).1
      exact absurd (by simp [text_eq]) noMark

theorem pairedPasses_of_ne {mark c : Char} (noMark : c ≠ mark) (noFeed : c ≠ '\n')
    (after : List Char) :
    pairedPasses mark c after = true := by
  simp [pairedPasses, noMark, noFeed]

theorem singlePasses_of_ne {c : Char} (noMark : c ≠ '*') (noFeed : c ≠ '\n') (after : List Char) :
    singlePasses c after = true := by
  simp [singlePasses, noMark, noFeed]

variable {before after : List Char}

theorem free_of_atGap {items : List SetItem}
    (free : CharSet.holds ⟨items, false, .exact⟩ ' ' = false)
    (gap : atGap before = true) :
    before.head?.any (CharSet.holds ⟨items, false, .exact⟩) = false := by
  rcases cases_of_atGap gap with rfl | ⟨others, rfl⟩
  · rfl
  · simpa using free

theorem rewrites_italic (text : Phrase) :
    italic.Rewrites (marked ['*'] text.text) ("<em>".toList ++ text.text ++ "</em>".toList) := by
  apply Rewrites.of_found [some text.text]
  · intro before after gap gap'
    exact findAt?_italic.mpr ⟨free_of_atGap (by decide) gap, text.text, after, rfl,
      isSpan_text text gap' (by decide)
      (by decide) rfl (by decide)
        (fun c after noMark noFeed => singlePasses_of_ne noMark noFeed after), rfl⟩
  · exact written_of_render (render_italic _)

theorem rewrites_strikethrough (text : Phrase) :
    strikethrough.Rewrites (marked ['~', '~'] text.text)
      ("<del>".toList ++ text.text ++ "</del>".toList) := by
  apply Rewrites.of_found [some text.text]
  · intro before after gap gap'
    exact findAt?_strikethrough.mpr ⟨free_of_atGap (by decide) gap, text.text, after, rfl,
      isSpan_text text gap'
      (by decide) (by decide) rfl (by decide)
        (fun c after noMark noFeed => pairedPasses_of_ne noMark noFeed after), rfl⟩
  · exact written_of_render (render_strikethrough _)

theorem isSpan_bold {more : List Char} (text : Phrase) (gap : atGap after = true) :
    bold.IsSpan ('*' :: more) text.text after :=
  isSpan_text text gap (by decide) (by decide) rfl (by decide)
    (fun _ after noMark noFeed => pairedPasses_of_ne noMark noFeed after)

theorem rewrites_bold_strong (text : Phrase) :
    bold.Rewrites (marked ['*', '*'] text.text)
      ("<strong>".toList ++ text.text ++ "</strong>".toList) := by
  apply Rewrites.of_found [none, some text.text]
  · intro before after gap gap'
    refine findAt?_bold.mpr ⟨free_of_atGap (by decide) gap,
      .inr ⟨?_, text.text, after, rfl, isSpan_bold text gap', rfl⟩⟩
    intro body rest same _
    obtain ⟨c, more, text_eq, letter⟩ := text.exists_text_cons
    simp only [marked, text_eq, List.cons_append, List.nil_append, List.cons.injEq,
      true_and] at same
    exact absurd letter (by simp [same.1])
  · exact written_of_render (render_bold _)

theorem rewrites_bold_both (text : Phrase) :
    bold.Rewrites (marked ['*', '*', '*'] text.text)
      ("<em><strong>".toList ++ text.text ++ "</strong></em>".toList) := by
  apply Rewrites.of_found [some text.text, none]
  · intro before after gap gap'
    exact findAt?_bold.mpr ⟨free_of_atGap (by decide) gap,
      .inl ⟨text.text, after, rfl, isSpan_bold text gap', rfl⟩⟩
  · have rendered :=
      written_of_render (render_bold ⟨marked ['*', '*', '*'] text.text, [some text.text, none]⟩)
    rw [rendered]
    exact if_neg text.text_ne_nil

end Spans

section Links

variable (text : Phrase) (address : Address) (title : Option Phrase)

theorem isTarget_targetText :
    IsTarget address.url (title.map Phrase.text) (Inline.targetText address title) := by
  have url_all : ∀ c ∈ address.url, isUrlChar c = true := by
    intro c mem
    have allowed := address.allowed c mem
    simp only [isAddressChar, Bool.not_eq_true', Bool.or_eq_false_iff] at allowed
    simp [isUrlChar, allowed, bne]
  cases title with
  | none =>
    have target := IsTarget.plain address.nonempty url_all
    simpa [Inline.targetText] using target
  | some title =>
    have target := @IsTarget.titled address.url address.nonempty url_all [' '] title.text (by simp)
      (by simp [isSpaceOrTab]) (title.not_mem_text (by decide) (by decide))
    simpa [Inline.targetText] using target

theorem isLink_text :
    IsLink text.text address.url (title.map Phrase.text) (Inline.targetText address title) :=
  ⟨text.not_mem_text (by decide) (by decide), isTarget_targetText address title⟩

/-- Letters and spaces are not escaped. -/
theorem attributeValue_text : Escape.attributeValue text.text = text.text := by
  have kept : ∀ c ∈ text.text, (Escape.entity true c).flatMap Escape.markup = [c] := by
    intro c mem
    have noSpecial : ∀ d : Char, d.isAlpha = false → d ≠ ' ' → c ≠ d := by
      rintro d noLetter noSpace rfl
      exact text.not_mem_text noLetter noSpace mem
    have entity_eq : Escape.entity true c = [c] := by
      simp [Escape.entity, noSpecial '&' (by decide) (by decide),
        noSpecial '<' (by decide) (by decide), noSpecial '>' (by decide) (by decide),
        noSpecial '"' (by decide) (by decide), noSpecial '\'' (by decide) (by decide)]
    have markup_eq : Escape.markup c = [c] := by
      simp [Escape.markup, noSpecial '*' (by decide) (by decide),
        noSpecial '_' (by decide) (by decide), noSpecial '~' (by decide) (by decide),
        noSpecial '\x60' (by decide) (by decide), noSpecial '[' (by decide) (by decide),
        noSpecial ']' (by decide) (by decide), noSpecial '!' (by decide) (by decide)]
    simp [entity_eq, markup_eq]
  rw [Escape.attributeValue, Escape.html, List.flatMap_assoc, List.flatMap_congr kept]
  simp

theorem titleText_eq (group : Option (List Char)) (group_eq : group = title.map Phrase.text) :
    titleText (group.getD []) = Inline.titleHtml title := by
  subst group_eq
  cases title with
  | none => rfl
  | some title =>
    have escaped := attributeValue_text title
    rw [Option.map_some, Option.getD_some, titleText, if_neg title.text_ne_nil, escaped]
    rfl

theorem rewrites_links : links.Rewrites (linkText text.text (Inline.targetText address title))
    (Inline.html (.link text address title)) := by
  apply Rewrites.of_found [some text.text, some address.url, title.map Phrase.text]
  · intro before after gap _
    refine findAt?_links.mpr ⟨?_, text.text, address.url, title.map Phrase.text,
      Inline.targetText address title, after, rfl, text.text_ne_nil, isLink_text text address title,
      rfl⟩
    rcases cases_of_atGap gap with rfl | ⟨others, rfl⟩ <;> simp
  · have titled := titleText_eq title _ rfl
    rw [written_links, titled]
    unfold Inline.html
    simp

theorem rewrites_images :
    images.Rewrites ('!' :: linkText text.text (Inline.targetText address title))
    (Inline.html (.image text address title)) := by
  apply Rewrites.of_found [some text.text, some address.url, title.map Phrase.text]
  · intro before after _ _
    exact findAt?_images.mpr ⟨text.text, address.url, title.map Phrase.text,
      Inline.targetText address title, after, rfl, isLink_text text address title, rfl⟩
  · have titled := titleText_eq title _ rfl
    have escaped := attributeValue_text text
    rw [written_images, titled, escaped]
    unfold Inline.html
    simp

end Links

section Code

/-- A run within a text is not longer than its longest run. -/
theorem length_le_longestRun (mark : Char) (front : List Char) (count : Nat) (back : List Char) :
    count ≤ longestRun mark (front ++ (List.replicate count mark ++ back)) := by
  induction front with
  | nil =>
    cases count with
    | zero => simp
    | succ count =>
      have all : ∀ c ∈ List.replicate (count + 1) mark, (c == mark) = true := by
        intro c mem
        simp [(List.mem_replicate.mp mem).2]
      have run := @List.takeWhile_append_of_pos _ _ _ back all
      have length_run := congrArg List.length run
      rw [List.length_append, List.length_replicate] at length_run
      simp only [List.nil_append, List.replicate_succ, List.cons_append, longestRun] at length_run ⊢
      omega
  | cons c front ih =>
    rw [List.cons_append, longestRun]
    omega

variable (snippet : Snippet)

/-- Padded code is the content of a code span. -/
theorem isCode_padded {after : List Char} (gap : atGap after = true) :
    IsCode snippet.ticks (' ' :: (snippet.code ++ [' '])) after := by
  have pos : 0 < snippet.ticks := Nat.lt_of_le_of_lt (Nat.zero_le _) snippet.enough
  refine ⟨pos, by simp, by simp, ?_, ?_, ?_⟩
  · refine passed_of_forall ?_ _
    intro c mem _
    have : c ≠ '\n' := by
      rintro rfl
      simp [snippet.inLine] at mem
    simpa using this
  · rcases cases_of_atGap gap with rfl | ⟨others, rfl⟩ <;> simp [endsCode, List.getLast?_cons]
  · intro shorter after' same shorter_ne isShorter
    obtain ⟨c, shorter, rfl⟩ := List.exists_cons_of_ne_nil shorter_ne
    obtain ⟨rest, content_eq, runs⟩ := Text.exists_more same (by omega)
    obtain ⟨rfl, padded_eq⟩ := List.cons.inj content_eq
    -- What is left of the content ends with a space, so that the closing run lies within it, and
    -- before the space.
    rcases rest.eq_nil_or_concat with rfl | ⟨rest, d, rfl⟩
    · simp [padded_eq] at isShorter
    obtain ⟨code_eq, space⟩ : snippet.code = shorter ++ rest ∧ ' ' = d := by
      simpa [← List.append_assoc] using padded_eq
    subst space
    have longer : snippet.ticks ≤ rest.length := by
      by_contra short
      have inRun : ' ' ∈ tickRun snippet.ticks := by
        have prefix_eq := congrArg (List.take (rest.length + 1)) runs
        rw [List.take_append_of_le_length (by rw [length_tickRun]; omega), List.concat_eq_append,
          List.take_left' (by simp)] at prefix_eq
        exact List.mem_of_mem_take (prefix_eq ▸ List.mem_append_right rest (by simp))
      exact absurd (tickRun_all _ _ inRun) (by decide)
    obtain ⟨more, rest_eq, _⟩ := Text.exists_more
      (show rest ++ (' ' :: (tickRun snippet.ticks ++ after)) = tickRun snippet.ticks ++ after' by
        simpa using runs.symm)
      (by rw [length_tickRun]; omega)
    have inCode := length_le_longestRun '\x60' shorter snippet.ticks more
    rw [← tickRun, ← rest_eq, ← code_eq] at inCode
    exact absurd snippet.enough (by omega)

theorem unpadded_padded : unpadded (' ' :: (snippet.code ++ [' '])) = snippet.code := by
  have code_ne : snippet.code ≠ [] := by
    intro none_left
    have ink := snippet.hasInk
    simp [none_left, Text.hasInk] at ink
  have long : 2 < (' ' :: (snippet.code ++ [' '])).length := by
    have := List.length_pos_iff.mpr code_ne
    simp
    omega
  have ink : Text.hasInk (' ' :: (snippet.code ++ [' '])) = true := by
    have ink := snippet.hasInk
    simp only [Text.hasInk, List.any_cons, List.any_append] at ink ⊢
    simp [ink]
  simp [unpadded, ink, List.getLast?_cons, code_ne]

theorem rewrites_inlineCode :
    inlineCode.Rewrites (marked (tickRun snippet.ticks) (' ' :: (snippet.code ++ [' '])))
    (Inline.html (.code snippet)) := by
  apply Rewrites.of_found [some (tickRun snippet.ticks), some (' ' :: (snippet.code ++ [' ']))]
  · intro before after gap gap'
    refine findAt?_inlineCode.mpr ⟨?_, snippet.ticks, _, after, rfl, isCode_padded snippet gap',
      rfl⟩
    rcases cases_of_atGap gap with rfl | ⟨others, rfl⟩ <;> simp
  · rw [written_inlineCode, unpadded_padded]
    rfl

end Code

end Builtin

end Markflow

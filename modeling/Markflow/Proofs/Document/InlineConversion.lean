import Markflow.Proofs.Builtin.Conversion
import Markflow.Proofs.Document.BlockPasses
import Markflow.Proofs.Document.InlinePasses

/-!
# Conversion of canonical lines

No block transform but the one for paragraphs takes a line of inline nodes, each inline transform
turns its own nodes into HTML (`Inline.stage`), and the line becomes a paragraph
(`convert_inlines`).
-/

namespace Markflow

open Builtin

namespace Inline

/-- A node when the transforms up to a number have run. -/
def stage (done : Nat) (node : Inline) : List Char :=
  if node.kind?.any (·.rank < done) then node.html else node.source

theorem newline_not_mem_url (address : Address) : '\n' ∉ address.url := by
  intro mem
  exact absurd (address.allowed _ mem) (by decide)

theorem isPlain_titleHtml (title : Option Phrase) : IsPlain (titleHtml title) := by
  cases title with
  | none => exact fun c mem => by simp [titleHtml] at mem
  | some title => exact (IsPlain.append (by decide) (isPlain_text title)).append (by decide)

/-- The HTML of a node is plain. -/
theorem isPlain_html (node : Inline) : IsPlain node.html := by
  cases node with
  | phrase text => exact isPlain_text text
  | strong text => exact (IsPlain.append (by decide) (isPlain_text text)).append (by decide)
  | emphasis text => exact (IsPlain.append (by decide) (isPlain_text text)).append (by decide)
  | both text => exact (IsPlain.append (by decide) (isPlain_text text)).append (by decide)
  | deleted text => exact (IsPlain.append (by decide) (isPlain_text text)).append (by decide)
  | link text address title =>
    exact
      ((((((IsPlain.append (by decide)
        (isPlain_attributeValue (newline_not_mem_url address))).append
      (by decide)).append (isPlain_titleHtml title)).append (by decide)).append
        (isPlain_text text)).append (by decide))
  | image text address title =>
    exact
      ((((((IsPlain.append (by decide)
        (isPlain_attributeValue (newline_not_mem_url address))).append
      (by decide)).append (isPlain_text text)).append (by decide)).append
        (isPlain_titleHtml title)).append (by decide))
  | code snippet =>
    exact (IsPlain.append (by decide) (isPlain_code snippet.code fun _ => snippet.inLine)).append
      (by decide)

/-- The marks of the inline transforms do not stand in plain text. -/
theorem exists_foreign_mark {kind : Builtin} (inline : kind.isBlock = false) :
    ∃ c ∈ kind.mark, isForeign c = true := by
  revert inline
  cases kind <;> decide

theorem rewrites_of_isPlain {kind : Builtin} (inline : kind.isBlock = false) {piece : List Char}
    (plain : IsPlain piece) :
    kind.Rewrites piece piece := by
  obtain ⟨c, inMark, foreign⟩ := exists_foreign_mark inline
  exact Rewrites.of_not_mem inMark fun mem => by simp [plain c mem] at foreign

section Source

variable {c : Char} (noLetter : c.isAlpha = false) (noSpace : c ≠ ' ')

include noLetter noSpace

/-- What may stand in a target. -/
theorem not_mem_targetText (address : Address) (title : Option Phrase)
    (noUrl : isAddressChar c = false)
    (noParenthesis : c ∉ ['(', ')', '"']) : c ∉ targetText address title := by
  have inUrl : c ∉ address.url := fun mem => by simp [address.allowed c mem] at noUrl
  simp only [List.mem_cons, List.not_mem_nil, or_false, not_or] at noParenthesis
  cases title with
  | none => simp [targetText, inUrl, noParenthesis]
  | some title => simp [targetText, inUrl, noParenthesis, noSpace,
      title.not_mem_text noLetter noSpace]

end Source

/-- A phrase between marks is left alone by a transform with another mark. -/
theorem rewrites_between {kind : Builtin} {marks : List Char} (text : Phrase)
    (other : ∃ c ∈ kind.mark, c ∉ marks ∧ c.isAlpha = false ∧ c ≠ ' ') :
    kind.Rewrites (marks ++ text.text ++ marks) (marks ++ text.text ++ marks) := by
  obtain ⟨c, inMark, noMark, noLetter, noSpace⟩ := other
  exact Rewrites.of_not_mem inMark (by simp [noMark, text.not_mem_text noLetter noSpace])

/-- Two asterisks do not stand next to each other around a phrase between single ones. -/
theorem not_infix_emphasis (text : Phrase) : ¬ bold.mark <:+: (emphasis text).source := by
  have noMark : '*' ∉ text.text := text.not_mem_text (by decide) (by decide)
  obtain ⟨c, rest, text_eq, letter⟩ := text.exists_text_cons
  rintro ⟨front, back, same⟩
  have source_eq : front ++ '*' :: '*' :: back = '*' :: (text.text ++ ['*']) := by
    unfold source at same
    simpa [mark] using same
  rcases front with _ | ⟨d, front⟩
  · have inner := (List.cons.inj source_eq).2
    rw [text_eq, List.cons_append] at inner
    exact absurd letter (by simp [← (List.cons.inj inner).1])
  · have inner := (List.cons.inj source_eq).2
    rcases back.eq_nil_or_concat with rfl | ⟨back, e, rfl⟩
    · have : front ++ ['*'] = text.text := by
        have :=
          List.append_inj_left' (show (front ++ ['*']) ++ ['*'] = text.text ++ ['*'] by
            simpa using inner) rfl
        exact this
      exact noMark (by simp [← this])
    · have : front ++ '*' :: '*' :: back = text.text := by
        have :=
          List.append_inj_left' (show (front ++ '*' :: '*' :: back) ++ [e] = text.text ++ ['*'] by
          simpa using inner) rfl
        exact this
      exact noMark (by simp [← this])

/-- An exclamation mark does not stand before the bracket of a link. -/
theorem not_infix_link (text : Phrase) (address : Address) (title : Option Phrase) :
    ¬ images.mark <:+: (link text address title).source := by
  have noBracket : '[' ∉ text.text ++ "]".toList ++ targetText address title := by
    have inText : '[' ∉ text.text := text.not_mem_text (by decide) (by decide)
    have inTarget := not_mem_targetText (c := '[') (by decide) (by decide) address title
      (by decide) (by decide)
    simp [inText, inTarget]
  rintro ⟨front, back, same⟩
  have source_eq :
      front ++ '!' :: '[' :: back =
        '[' :: (text.text ++ "]".toList ++ targetText address title) := by
    unfold source at same
    simpa [mark] using same
  rcases front with _ | ⟨d, front⟩
  · exact absurd (List.cons.inj source_eq).1 (by decide)
  · exact noBracket (by rw [← (List.cons.inj source_eq).2]; simp)

/-- A transform leaves the nodes alone that others run for later. -/
theorem rewrites_source {kind : Builtin} (inline : kind.isBlock = false) (node : Inline)
    (earlier : ∀ own, node.kind? = some own → kind.rank < own.rank) :
    kind.Rewrites node.source node.source := by
  cases node with
  | phrase text => exact rewrites_of_isPlain inline (isPlain_text text)
  | strong text =>
    apply rewrites_between text
    have before := earlier _ rfl
    revert inline before
    cases kind <;> decide
  | both text =>
    apply rewrites_between text
    have before := earlier _ rfl
    revert inline before
    cases kind <;> decide
  | emphasis text =>
    by_cases isBold : kind = bold
    · subst isBold
      exact Rewrites.of_no_mark (not_infix_emphasis text)
    · apply rewrites_between text
      have before := earlier _ rfl
      revert inline before isBold
      cases kind <;> decide
  | deleted text =>
    apply rewrites_between text
    have before := earlier _ rfl
    revert inline before
    cases kind <;> decide
  | link text address title =>
    have before := earlier _ rfl
    have kinds : kind = inlineCode ∨ kind = images := by
      revert inline before
      cases kind <;> decide
    rcases kinds with rfl | rfl
    · have inText : '\x60' ∉ text.text := text.not_mem_text (by decide) (by decide)
      have inTarget := not_mem_targetText (c := '\x60') (by decide) (by decide) address title
        (by decide) (by decide)
      exact Rewrites.of_not_mem (c := '\x60') (by decide)
        (by unfold source; simp [inText, inTarget])
    · exact Rewrites.of_no_mark (not_infix_link text address title)
  | image text address title =>
    have before := earlier _ rfl
    obtain rfl : kind = inlineCode := by
      revert inline before
      cases kind <;> decide
    have inText : '\x60' ∉ text.text := text.not_mem_text (by decide) (by decide)
    have inTarget := not_mem_targetText (c := '\x60') (by decide) (by decide) address title
      (by decide) (by decide)
    exact Rewrites.of_not_mem (c := '\x60') (by decide) (by unfold source; simp [inText, inTarget])
  | code snippet =>
    have none_before : ∀ kind : Builtin, kind.isBlock = false → ¬ kind.rank < inlineCode.rank := by
      intro kind
      cases kind <;> decide
    exact absurd (earlier _ rfl) (none_before kind inline)

/-- A transform turns its own nodes into HTML. -/
theorem rewrites_own {kind : Builtin} {node : Inline} (own : node.kind? = some kind) :
    kind.Rewrites node.source node.html := by
  cases node with
  | phrase text => simp [kind?] at own
  | strong text =>
    obtain rfl : bold = kind := Option.some.inj own
    have source_eq : (strong text).source = marked ['*', '*'] text.text := by
      unfold source
      simp [marked]
    rw [source_eq]
    exact rewrites_bold_strong text
  | both text =>
    obtain rfl : bold = kind := Option.some.inj own
    have source_eq : (both text).source = marked ['*', '*', '*'] text.text := by
      unfold source
      simp [marked]
    rw [source_eq]
    exact rewrites_bold_both text
  | emphasis text =>
    obtain rfl : italic = kind := Option.some.inj own
    have source_eq : (emphasis text).source = marked ['*'] text.text := by
      unfold source
      simp [marked]
    rw [source_eq]
    exact rewrites_italic text
  | deleted text =>
    obtain rfl : strikethrough = kind := Option.some.inj own
    have source_eq : (deleted text).source = marked ['~', '~'] text.text := by
      unfold source
      simp [marked]
    rw [source_eq]
    exact rewrites_strikethrough text
  | link text address title =>
    obtain rfl : links = kind := Option.some.inj own
    have source_eq :
        (link text address title).source = linkText text.text (targetText address title) := by
      unfold source
      simp [linkText]
    rw [source_eq]
    exact rewrites_links text address title
  | image text address title =>
    obtain rfl : images = kind := Option.some.inj own
    have source_eq :
        (image text address title).source =
          '!' :: linkText text.text (targetText address title) := by
      unfold source
      simp [linkText]
    rw [source_eq]
    exact rewrites_images text address title
  | code snippet =>
    obtain rfl : inlineCode = kind := Option.some.inj own
    have source_eq :
        (code snippet).source =
          marked (tickRun snippet.ticks) (' ' :: (snippet.code ++ [' '])) := by
      unfold source
      simp [marked, tickRun]
    rw [source_eq]
    exact rewrites_inlineCode snippet

/-- Each inline transform takes a node from one stage to the next. -/
theorem rewrites_stage {kind : Builtin} (inline : kind.isBlock = false) (node : Inline) :
    kind.Rewrites (node.stage kind.rank) (node.stage (kind.rank + 1)) := by
  rcases own : node.kind? with _ | other
  · have same : ∀ done, node.stage done = node.source := by
      intro done
      simp [stage, own]
    rw [same, same]
    exact rewrites_source inline node fun other other_eq => by simp [own] at other_eq
  · rcases Nat.lt_trichotomy other.rank kind.rank with before | same | behind
    · rw [stage, stage, own, Option.any_some, if_pos (by simpa using before),
        if_pos (by simp; omega)]
      exact rewrites_of_isPlain inline node.isPlain_html
    · rw [stage, stage, own, Option.any_some, if_neg (by simp; omega), if_pos (by simp; omega)]
      exact rewrites_own (own.trans (congrArg some (rank_injective same)))
    · rw [stage, stage, own, Option.any_some, if_neg (by simp; omega), if_neg (by simp; omega)]
      refine rewrites_source inline node fun later later_eq => ?_
      rw [own] at later_eq
      exact Option.some.inj later_eq ▸ behind

theorem newline_not_mem_source (node : Inline) : '\n' ∉ node.source := by
  have inText : ∀ text : Phrase, '\n' ∉ text.text := fun text => text.newline_not_mem_text
  have inTarget : ∀ address title, '\n' ∉ targetText address title := fun address title =>
    not_mem_targetText (by decide) (by decide) address title (by decide) (by decide)
  unfold source
  cases node with
  | code snippet => simp [snippet.inLine]
  | _ => simp [inText, inTarget]

/-- What a node starts with. -/
theorem source_cases (node : Inline) :
    (∃ c rest, node.source = c :: rest ∧
      (c.isAlpha = true ∨ c = '~' ∨ c = '[' ∨ c = '!' ∨ c = '\x60')) ∨
      ∃ c rest, node.source = '*' :: c :: rest ∧ (c.isAlpha = true ∨ c = '*') ∧ ∃ d ∈ node.source,
        d.isAlpha = true := by
  have opens : ∀ text : Phrase, ∃ c rest, text.text = c :: rest ∧ c.isAlpha = true := fun text =>
    text.exists_text_cons
  unfold source
  cases node with
  | phrase text =>
    obtain ⟨c, rest, text_eq, letter⟩ := opens text
    exact .inl ⟨c, rest, text_eq, .inl letter⟩
  | strong text =>
    obtain ⟨c, rest, text_eq, letter⟩ := opens text
    exact .inr ⟨'*', _, rfl, .inr rfl, c, by simp [text_eq], letter⟩
  | emphasis text =>
    obtain ⟨c, rest, text_eq, letter⟩ := opens text
    exact .inr ⟨c, rest ++ ['*'], by simp [text_eq], .inl letter, c, by simp [text_eq], letter⟩
  | both text =>
    obtain ⟨c, rest, text_eq, letter⟩ := opens text
    exact .inr ⟨'*', _, rfl, .inr rfl, c, by simp [text_eq], letter⟩
  | deleted text => exact .inl ⟨'~', _, rfl, by simp⟩
  | link text address title => exact .inl ⟨'[', _, rfl, by simp⟩
  | image text address title => exact .inl ⟨'!', _, rfl, by simp⟩
  | code snippet =>
    obtain ⟨less, ticks_eq⟩ : ∃ less, snippet.ticks = less + 1 :=
      ⟨snippet.ticks - 1, by have := snippet.enough; omega⟩
    exact .inl ⟨'\x60', _, by simp only [ticks_eq, List.replicate_succ, List.cons_append]; rfl, by
      simp⟩

/-- A line of nodes when the transforms up to a number have run. -/
def lineText (done : Nat) (nodes : List Inline) : List Char :=
  Text.join [' '] (nodes.map (stage done))

theorem newline_not_mem_lineText (done : Nat) (nodes : List Inline) :
    '\n' ∉ lineText done nodes := by
  intro mem
  rcases Text.mem_join mem with space | ⟨text, text_mem, inText⟩
  · exact absurd space (by decide)
  · obtain ⟨node, _, rfl⟩ := List.mem_map.mp text_mem
    unfold stage at inText
    split at inText
    · exact absurd (node.isPlain_html _ inText) (by decide)
    · exact node.newline_not_mem_source inText

/-- A line with two asterisks or an asterisk and a letter at its start is neither an item nor a
rule. -/
theorem blockTake_of_asterisk {kind : Builtin} (noParagraph : kind ≠ paragraphs) {c d : Char}
    {rest : List Char}
    (second : isSpaceOrTab c = false) (inLine : d ∈ '*' :: c :: rest) (letter : d.isAlpha = true) :
    kind.blockTake ('*' :: c :: rest) [] = none := by
  have indented : afterIndent? ('*' :: c :: rest) = some ('*' :: c :: rest) := by
    simp [afterIndent?]
  have noItem : afterBullet? ('*' :: c :: rest) = none := by
    simp [afterBullet?, indented, afterGap?, second]
  have differs :
      ∀ mark : Char, mark.isAlpha = false → isRuleRun mark 3 ('*' :: c :: rest) = false := by
    intro mark noLetter
    have noRun : ('*' :: c :: rest).all (fun c => c == mark || isSpaceOrTab c) = false := by
      rw [List.all_eq_false]
      refine ⟨d, inLine, ?_⟩
      have : d ≠ mark := by
        rintro rfl
        simp [noLetter] at letter
      simp [this, isSpaceOrTab_of_isAlpha letter]
    simp only [isRuleRun, noRun, Bool.false_and]
  have noRule : isRule ('*' :: c :: rest) = false := by
    simp [isRule, indented, differs '-' (by decide), differs '*' (by decide),
      differs '_' (by decide)]
  have lead := lead?_cons (c :: rest) (show '*' ≠ ' ' by decide)
  cases kind with
  | horizontalRule => simp [blockTake, ruleTake, noRule]
  | unorderedList => simp [blockTake, runTake, isBulleted, noItem]
  | paragraphs => exact absurd rfl noParagraph
  | _ => exact blockTake_of_lead? lead (by decide) []

/-- The characters that a node may start with start no line that a transform takes, except for
fences. -/
theorem leads_of_starts {kind : Builtin} (noParagraph : kind ≠ paragraphs) {c : Char}
    (starts : c.isAlpha = true ∨ c = '~' ∨ c = '[' ∨ c = '!' ∨ c = '\x60') :
    kind = codeBlocks ∨ kind.leads c = false := by
  rcases starts with letter | rfl | rfl | rfl | rfl
  · by_cases number : kind = orderedList
    · subst number
      exact .inr (Block.isDigit_of_isAlpha letter)
    · exact .inr (Block.leads_of_isAlphanum (by simp [Char.isAlphanum, letter]) number noParagraph)
  all_goals
    revert noParagraph
    cases kind <;> decide

/-- No block transform but the one for paragraphs takes a line that starts with a node. -/
theorem blockTake_of_source {kind : Builtin} (noParagraph : kind ≠ paragraphs) (node : Inline)
    (rest : List Char) :
    kind.blockTake (node.source ++ rest) [] = none := by
  rcases node.source_cases with ⟨c, more, source_eq, starts⟩
    | ⟨c, more, source_eq, second, d, inSource, letter⟩
  · rcases leads_of_starts noParagraph starts with rfl | other
    · rcases fenceInfo? (node.source ++ rest) with _ | info <;> simp [blockTake, fenceTake]
    · have noSpace : c ≠ ' ' := by
        rintro rfl
        revert starts
        decide
      rw [source_eq, List.cons_append]
      exact blockTake_of_lead? (lead?_cons _ noSpace) other []
  · rw [source_eq] at inSource ⊢
    apply blockTake_of_asterisk noParagraph _ (List.mem_append_left rest inSource) letter
    rcases second with letter | rfl
    · exact isSpaceOrTab_of_isAlpha letter
    · decide

/-- Each transform but the one for paragraphs takes a line of nodes from one stage to the next. -/
theorem pass_lineText {kind : Builtin} (noParagraph : kind ≠ paragraphs) {nodes : List Inline}
    (nonempty : nodes ≠ []) :
    kind.pass (lineText kind.rank nodes) = lineText (kind.rank + 1) nodes := by
  by_cases isBlock : kind.isBlock = true
  · have unturned : ∀ done, done ≤ kind.rank + 1 → nodes.map (stage done) = nodes.map source := by
      intro done few
      apply List.map_congr_left
      intro node _
      have later : node.kind?.any (·.rank < done) = false := by
        have early : ∀ own : Builtin, own.isBlock = false → kind.rank + 1 ≤ own.rank := by
          intro own
          revert isBlock noParagraph
          cases kind <;> cases own <;> decide
        cases node <;> simp [kind?] <;> exact few.trans (early _ rfl)
      simp [stage, later]
    obtain ⟨node, more, rfl⟩ := List.exists_cons_of_ne_nil nonempty
    obtain ⟨rest, join_eq⟩ := Text.exists_join_cons [' '] node.source (more.map source)
    have inLine := newline_not_mem_lineText kind.rank (node :: more)
    rw [lineText, unturned _ (by omega), List.map_cons, join_eq] at inLine ⊢
    rw [lineText, unturned _ (by omega), List.map_cons, join_eq, pass_eq_lineScan isBlock,
      Text.lines_of_inLine inLine, lineScan_of_none (blockTake_of_source noParagraph node rest),
      lineScan_nil]
    simp [Text.join]
  · have inline : kind.isBlock = false := by simpa using isBlock
    apply rewrite_join inline _ rfl
    rw [List.forall₂_map_left_iff, List.forall₂_map_right_iff, List.forall₂_same]
    exact fun node _ => rewrites_stage inline node

/-- The HTML of a node opens no block. -/
theorem isBlockLine_html (node : Inline) (rest : List Char) :
    isBlockLine (node.html ++ rest) = false := by
  cases node with
  | phrase text =>
    obtain ⟨c, more, text_eq, letter⟩ := text.exists_text_cons
    have plain := Block.isBlockLine_cons_of_isAlpha letter (more ++ rest)
    rwa [← List.cons_append, ← text_eq] at plain
  | _ => rfl

theorem exists_html_cons (node : Inline) :
    ∃ c rest, node.html = c :: rest ∧ Text.isBlank c = false := by
  cases node with
  | phrase text =>
    obtain ⟨c, rest, text_eq, letter⟩ := text.exists_text_cons
    exact ⟨c, rest, text_eq, Text.isBlank_of_isAlpha letter⟩
  | _ => exact ⟨'<', _, rfl, by decide⟩

theorem exists_html_concat (node : Inline) :
    ∃ front c, node.html = front ++ [c] ∧ Text.isBlank c = false := by
  have closed : ∀ (front : List Char) (tag : String) (inner : List Char),
      tag.toList = inner ++ ['>'] →
      ∃ more c, front ++ tag.toList = more ++ [c] ∧ Text.isBlank c = false := by
    intro front tag inner tag_eq
    exact ⟨front ++ inner, '>', by simp [tag_eq], by decide⟩
  cases node with
  | phrase text =>
    obtain ⟨front, c, text_eq, letter⟩ := text.exists_text_concat
    exact ⟨front, c, text_eq, Text.isBlank_of_isAlpha letter⟩
  | strong text => exact closed _ "</strong>" "</strong".toList rfl
  | emphasis text => exact closed _ "</em>" "</em".toList rfl
  | both text => exact closed _ "</strong></em>" "</strong></em".toList rfl
  | deleted text => exact closed _ "</del>" "</del".toList rfl
  | link text address title => exact closed _ "</a>" "</a".toList rfl
  | image text address title => exact closed _ ">" [] rfl
  | code snippet => exact closed _ "</code>" "</code".toList rfl

/-- A line of the HTML of nodes becomes a paragraph. -/
theorem pass_paragraphs {nodes : List Inline} (nonempty : nodes ≠ []) :
    paragraphs.pass (Text.join [' '] (nodes.map html)) =
      "<p>".toList ++ Text.join [' '] (nodes.map html) ++ "</p>".toList := by
  have inLine : '\n' ∉ Text.join [' '] (nodes.map html) := by
    intro mem
    rcases Text.mem_join mem with space | ⟨text, text_mem, inText⟩
    · exact absurd space (by decide)
    · obtain ⟨node, _, rfl⟩ := List.mem_map.mp text_mem
      exact absurd (node.isPlain_html _ inText) (by decide)
  obtain ⟨first, more, nodes_eq⟩ := List.exists_cons_of_ne_nil nonempty
  obtain ⟨rest, front_eq⟩ := Text.exists_join_cons [' '] first.html (more.map html)
  obtain ⟨front, last, nodes_eq'⟩ : ∃ front last, nodes = front ++ [last] :=
    ⟨_, _, (List.dropLast_concat_getLast nonempty).symm⟩
  obtain ⟨start, back_eq⟩ := Text.exists_join_concat [' '] last.html (front.map html)
  rw [← List.map_cons, ← nodes_eq] at front_eq
  have map_eq : front.map html ++ [last.html] = nodes.map html := by simp [nodes_eq']
  rw [map_eq] at back_eq
  generalize Text.join [' '] (nodes.map html) = line at inLine front_eq back_eq ⊢
  obtain ⟨c, opening, first_eq, opens⟩ := first.exists_html_cons
  obtain ⟨closing, d, last_eq, closes⟩ := last.exists_html_concat
  have plain : isBlockLine line = false := by
    rw [front_eq]
    exact first.isBlockLine_html rest
  have strip_eq : Text.strip line = line := by
    apply Text.strip_eq_self
    · simpa [front_eq, first_eq] using opens
    · simpa [back_eq, last_eq] using closes
  have ink : Text.hasInk line = true := by simp [front_eq, first_eq, Text.hasInk, opens]
  have taken : paragraphs.blockTake line [] = some (wrapLines [] [line], 0) := by
    simp [blockTake, runTake, ink]
  rw [pass_eq_lineScan rfl, Text.lines_of_inLine inLine, lineScan_of_some taken, List.drop_nil,
    lineScan_nil, wrapLines_of_not_isBlockLine (by simpa using plain)]
  simp [paragraphLine, strip_eq, Text.join]

end Inline

open Inline in
/-- A line of nodes with single spaces between them converts to a paragraph of the HTML of the
nodes. -/
theorem convert_inlines [Host] (nodes : List Inline) (nonempty : nodes ≠ []) :
    convert {} (.text (String.ofList (Text.join [' '] (nodes.map source)))) =
      .ok (String.ofList ("<p>".toList ++ Text.join [' '] (nodes.map html) ++ "</p>".toList)) := by
  let text (done : Nat) : List Char :=
    if done ≤ paragraphs.rank then lineText done nodes
    else "<p>".toList ++ Text.join [' '] (nodes.map html) ++ "</p>".toList
  have unturned : nodes.map (stage 0) = nodes.map source := by
    apply List.map_congr_left
    intro node _
    simp [stage]
  have turned : nodes.map (stage paragraphs.rank) = nodes.map html := by
    apply List.map_congr_left
    intro node _
    cases node <;> rfl
  have step : ∀ kind : Builtin, kind.pass (text kind.rank) = text (kind.rank + 1) := by
    intro kind
    by_cases paragraph : kind = paragraphs
    · subst paragraph
      have here : text paragraphs.rank = Text.join [' '] (nodes.map html) := by rw [← turned]; rfl
      rw [here]
      exact pass_paragraphs nonempty
    · have few : kind.rank < paragraphs.rank := by
        revert paragraph
        cases kind <;> decide
      simp only [text, if_pos (Nat.le_of_lt few), if_pos (Nat.succ_le_of_lt few)]
      exact pass_lineText paragraph nonempty
  have stages := foldl_pass_of_stages step
  have start : text 0 = Text.join [' '] (nodes.map source) := by rw [← unturned]; rfl
  have stop : text all.length = "<p>".toList ++ Text.join [' '] (nodes.map html) ++ "</p>".toList :=
    rfl
  rw [start, stop] at stages
  rw [convert_default, String.toList_ofList, stages]

attribute [local instance] Host.standard

open Inline in
/-- Strong emphasis and code that holds a backtick. -/
theorem convert_inlines_strong_code :
    [strong ⟨[⟨['a'], by decide, by decide⟩], by decide⟩,
        code ⟨"b\x60c".toList, 2, by decide, by decide, by decide⟩] ≠ [] ∧
      convert {} (.text "**a** \x60\x60 b\x60c \x60\x60") =
        .ok "<p><strong>a</strong> <code>b&#96;c</code></p>" := by
  refine ⟨by simp, ?_⟩
  have converted := convert_inlines [strong ⟨[⟨['a'], by decide, by decide⟩], by decide⟩,
    code ⟨"b\x60c".toList, 2, by decide, by decide, by decide⟩] (by simp)
  exact converted

end Markflow

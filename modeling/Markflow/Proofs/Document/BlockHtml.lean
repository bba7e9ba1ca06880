import Markflow.Proofs.Document.InlineHtml

/-!
# The HTML of block passes

A line that a block pass writes opens with a tag, at the start of the line or behind two spaces, and
its other tags close elements or are those of inline elements.  A pass that comes later leaves such
a line alone.  So a text that starts without `<` has it in lines of this kind alone until code spans
are read.
-/

namespace Markflow

/-- What holds of all lines that a pass leaves and of all that it writes. -/
theorem forall_mem_lineScan {take : Take} {source result : List Char → Prop} {ls : List (List Char)}
    (all : ∀ line ∈ ls, source line) (missed : ∀ line more, take line more = none → source line →
      result line)
    (taken : ∀ line more out count, take line more = some (out, count) →
      (∀ other ∈ line :: more, source other) →
      ∀ html ∈ out, result html) : ∀ line ∈ lineScan take ls, result line := by
  fun_induction lineScan take ls with
  | case1 => exact fun line mem => absurd mem List.not_mem_nil
  | case2 line more atLine ih =>
    intro other mem
    rcases List.mem_cons.mp mem with rfl | mem
    · exact missed other more atLine (all other List.mem_cons_self)
    · exact ih (fun another mem => all another (List.mem_cons_of_mem line mem)) other mem
  | case3 line more out count atLine ih =>
    intro other mem
    rcases List.mem_append.mp mem with written | behind
    · exact taken line more out count atLine all other written
    · exact ih
        (fun another mem => all another (List.mem_cons_of_mem line (List.mem_of_mem_drop mem)))
        other behind

/-- HTML within a line, all of whose tags are those of inline elements. -/
structure InLineHtml (html : List Char) : Prop where
  tags : HasInlineTags html
  inLine : '\n' ∉ html

namespace InLineHtml

variable {first second : List Char}

theorem append (left : InLineHtml first) (right : InLineHtml second) :
    InLineHtml (first ++ second) :=
  ⟨left.tags.append right.tags, List.not_mem_append left.inLine right.inLine⟩

/-- Text without tags. -/
theorem of_text {text : List Char} (noTag : '<' ∉ text) (inLine : '\n' ∉ text) : InLineHtml text :=
  ⟨.of_not_mem noTag, inLine⟩

theorem of_digits (n : Nat) : InLineHtml (Nat.toDigits 10 n) := by
  have digits : ∀ c ∈ Nat.toDigits 10 n, c.isDigit = true :=
    fun c mem => Nat.isDigit_of_mem_toDigits (by decide) (by decide) mem
  exact of_text (fun mem => absurd (digits _ mem) (by decide))
    (fun mem => absurd (digits _ mem) (by decide))

theorem join {texts : List (List Char)} (html : ∀ text ∈ texts, InLineHtml text) :
    InLineHtml (Text.join [' '] texts) := by
  induction texts with
  | nil => exact of_text List.not_mem_nil List.not_mem_nil
  | cons text more ih =>
    have first := html text (by simp)
    have others := ih fun other mem => html other (by simp [mem])
    rcases more with _ | ⟨next, more⟩
    · exact first
    · have space : InLineHtml [' '] := of_text (by decide) (by decide)
      exact (first.append space).append others

end InLineHtml

namespace Builtin

/-- The tags of a line are those of inline elements, save one before which there are only spaces and
tabs. -/
def TidyLine (line : List Char) : Prop :=
  ∀ near far, line = near ++ '<' :: far → (∀ c ∈ near, isSpaceOrTab c = true) ∨ OpensInline far

/-- A line that opens with a tag. -/
structure BlockHtml (line : List Char) : Prop where
  lead : lead? line = some '<'
  inLine : '\n' ∉ line
  tidy : TidyLine line

theorem blockHtml_cons {rest : List Char} (html : InLineHtml rest) : BlockHtml ('<' :: rest) where
  lead := lead?_cons rest (by decide)
  inLine := List.not_mem_cons_of_ne_of_not_mem (by decide) html.inLine
  tidy := by
    intro near far split
    rcases near with _ | ⟨c, near⟩
    · exact .inl (by simp)
    · rcases List.cons.inj split with ⟨-, rest_eq⟩
      exact .inr (html.tags near far rest_eq)

theorem blockHtml_of_opening {opening first rest : List Char} (opening_eq : opening = '<' :: first)
    (html : InLineHtml (first ++ rest)) : BlockHtml (opening ++ rest) := by
  subst opening_eq
  exact blockHtml_cons html

/-- A line that opens behind two spaces. -/
theorem blockHtml_indented {rest : List Char} (html : InLineHtml rest) :
    BlockHtml (' ' :: ' ' :: '<' :: rest) where
  lead := by simp [lead?, afterIndent?]
  inLine := by simp [html.inLine]
  tidy := by
    intro near far split
    rcases near with _ | ⟨c, _ | ⟨d, _ | ⟨e, near⟩⟩⟩
    · exact .inl (by simp)
    · simp at split
    · rcases List.cons.inj split with ⟨rfl, below⟩
      rcases List.cons.inj below with ⟨rfl, -⟩
      exact .inl (by decide)
    · rcases List.cons.inj split with ⟨-, below⟩
      rcases List.cons.inj below with ⟨-, behind⟩
      rcases List.cons.inj behind with ⟨-, rest_eq⟩
      exact .inr (html.tags near far rest_eq)

section Written

variable {line text info : List Char} {run : List (List Char)}

theorem inLineHtml_attributeValue (inLine : '\n' ∉ text) :
    InLineHtml (Escape.attributeValue text) := by
  apply InLineHtml.of_text (Escape.not_mem_attributeValue (by decide) text)
  intro mem
  exact absurd (isPlain_attributeValue inLine '\n' mem) (by decide)

theorem inLineHtml_classText (inLine : '\n' ∉ info) : InLineHtml (classText info) := by
  have opening : InLineHtml " class=\"".toList := .of_text (by decide) (by decide)
  have closing : InLineHtml "\"".toList := .of_text (by decide) (by decide)
  have whole := (opening.append (inLineHtml_attributeValue inLine)).append closing
  by_cases plain : info = []
  · rw [classText, if_pos plain]
    exact .of_text List.not_mem_nil List.not_mem_nil
  · rw [classText, if_neg plain]
    exact whole

theorem append_fence (opening info code closing : List Char) :
    opening ++ info ++ '>' :: code ++ closing = opening ++ (info ++ ('>' :: code ++ closing)) := by
  simp

theorem append_header (opening level text closing : List Char) :
    opening ++ level ++ '>' :: text ++ closing ++ level ++ ['>'] =
      opening ++ (level ++ ('>' :: text ++ (closing ++ (level ++ ['>'])))) := by
  simp

theorem blockHtml_fenceHtml (inLine : '\n' ∉ info) (code : List Char) :
    BlockHtml (fenceHtml info code) := by
  have opening_eq : "<pre><code".toList = '<' :: "pre><code".toList := by decide
  have opening : InLineHtml "pre><code".toList := ⟨.of_tails (by decide), by decide⟩
  have closing : InLineHtml "</code></pre>".toList := ⟨.of_tails (by decide), by decide⟩
  have noTag : '<' ∉ Escape.code (dropLineBreak code) false :=
    Escape.not_mem_code (by decide) _ false
  have inCode : InLineHtml ('>' :: Escape.code (dropLineBreak code) false) := by
    apply InLineHtml.of_text
    · exact List.not_mem_cons_of_ne_of_not_mem (by decide) noTag
    · exact List.not_mem_cons_of_ne_of_not_mem (by decide) (Escape.newline_not_mem_code _)
  have html_eq : fenceHtml info code = "<pre><code".toList ++ (classText info ++
      ('>' :: Escape.code (dropLineBreak code) false ++ "</code></pre>".toList)) :=
    append_fence _ _ _ _
  rw [html_eq]
  apply blockHtml_of_opening opening_eq
  exact opening.append ((inLineHtml_classText inLine).append (inCode.append closing))

theorem blockHtml_headerHtml (hashes : List Char) (html : InLineHtml text) :
    BlockHtml (headerHtml hashes text) := by
  have opening_eq : "<h".toList = '<' :: ['h'] := by decide
  have opening : InLineHtml ['h'] := .of_text (by decide) (by decide)
  have closing : InLineHtml "</h".toList := ⟨.of_tails (by decide), by decide⟩
  have bracket : InLineHtml ['>'] := .of_text (by decide) (by decide)
  have level := InLineHtml.of_digits hashes.length
  rw [headerHtml, append_header]
  apply blockHtml_of_opening opening_eq
  exact opening.append
    (level.append ((bracket.append html).append (closing.append (level.append bracket))))

/-- The texts of items are parts of the lines. -/
theorem exists_of_mem_itemTexts {after? : List Char → Option (List Char)}
    (suffix : ∀ line rest, after? line = some rest → rest <:+ line) {item : List Char}
    (mem : item ∈ itemTexts after? run) : ∃ line ∈ run, item ⊆ line := by
  rcases List.mem_map.mp mem with ⟨line, line_mem, rfl⟩
  refine ⟨line, line_mem, List.Subset.trans (Text.strip_subset _) ?_⟩
  rcases after_eq : after? line with _ | rest
  · exact List.Subset.refl line
  · exact (suffix line rest after_eq).subset

theorem suffix_of_afterNumber? (line rest : List Char)
    (after : (afterNumber? line).map (·.2) = some rest) : rest <:+ line := by
  rcases Option.map_eq_some_iff.mp after with ⟨⟨number, behind⟩, after_eq, rfl⟩
  rcases afterNumber?_eq_some.mp after_eq with ⟨digits, c, text, indented, -, -, -, -, -, gap, -⟩
  have inText := (suffix_of_afterGap? gap).trans (List.suffix_cons c text)
  exact (inText.trans (List.suffix_append digits _)).trans (suffix_of_afterIndent? indented)

theorem suffix_of_afterQuote? (line rest : List Char) (after : afterQuote? line = some rest) :
    rest <:+ line := by
  unfold afterQuote? at after
  split at after
  · next c behind indented =>
    have isSuffix := (List.suffix_cons '>' (c :: behind)).trans (suffix_of_afterIndent? indented)
    split at after
    · cases after
      exact (List.suffix_cons c _).trans isSuffix
    · cases after
      exact isSuffix
  · cases after
    exact List.nil_suffix
  · cases after

theorem blockHtml_item {item : List Char} (html : InLineHtml item) :
    BlockHtml ("  <li>".toList ++ item ++ "</li>".toList) := by
  have opening_eq : "  <li>".toList = ' ' :: ' ' :: '<' :: "li>".toList := by decide
  have opening : InLineHtml "li>".toList := ⟨.of_tails (by decide), by decide⟩
  have closing : InLineHtml "</li>".toList := ⟨.of_tails (by decide), by decide⟩
  rw [opening_eq]
  exact blockHtml_indented ((opening.append html).append closing)

theorem append_listTag (opening tag start closing : List Char) :
    opening ++ tag ++ start ++ closing = opening ++ (tag ++ (start ++ closing)) := by
  simp

theorem blockHtml_listLines {tag start : List Char} {items : List (List Char)}
    (tag_html : InLineHtml tag)
    (start_html : InLineHtml start) (items_html : ∀ item ∈ items, InLineHtml item) :
    ∀ line ∈ listLines tag start items, BlockHtml line := by
  have bracket : InLineHtml ">".toList := .of_text (by decide) (by decide)
  have slash : InLineHtml "/".toList := .of_text (by decide) (by decide)
  intro line mem
  rcases List.mem_append.mp mem with mem | mem
  · rcases List.mem_cons.mp mem with rfl | mem
    · rw [append_listTag]
      apply @blockHtml_of_opening _ [] _ (by decide)
      exact tag_html.append (start_html.append bracket)
    · rcases List.mem_map.mp mem with ⟨item, item_mem, rfl⟩
      exact blockHtml_item (items_html item item_mem)
  · rcases List.mem_singleton.mp mem with rfl
    rw [List.append_assoc]
    apply @blockHtml_of_opening _ "/".toList _ (by decide)
    exact slash.append (tag_html.append bracket)

theorem inLineHtml_runStart (run : List (List Char)) : InLineHtml (runStart run) := by
  have nothing : InLineHtml [] := .of_text List.not_mem_nil List.not_mem_nil
  have opening : InLineHtml " start=\"".toList := .of_text (by decide) (by decide)
  have closing : InLineHtml "\"".toList := .of_text (by decide) (by decide)
  have number_html : ∀ number, InLineHtml (startText number) := by
    intro number
    by_cases first : number = 1
    · rw [startText, if_pos first]
      exact nothing
    · rw [startText, if_neg first]
      exact (opening.append (.of_digits number)).append closing
  cases run with
  | nil => exact nothing
  | cons line more =>
    rw [runStart]
    split
    · exact number_html _
    · exact nothing

theorem blockHtml_quote (html : InLineHtml text) :
    BlockHtml ("<blockquote>".toList ++ text ++ "</blockquote>".toList) := by
  have opening_eq : "<blockquote>".toList = '<' :: "blockquote>".toList := by decide
  have opening : InLineHtml "blockquote>".toList := ⟨.of_tails (by decide), by decide⟩
  have closing : InLineHtml "</blockquote>".toList := ⟨.of_tails (by decide), by decide⟩
  rw [List.append_assoc]
  apply blockHtml_of_opening opening_eq
  exact opening.append (html.append closing)

/-- A line without tags within which a text stands. -/
theorem inLineHtml_of_subset (subset : text ⊆ line) (noTag : '<' ∉ line) (inLine : '\n' ∉ line) :
    InLineHtml text :=
  .of_text (fun mem => noTag (subset mem)) (fun mem => inLine (subset mem))

theorem inLineHtml_itemTexts {after? : List Char → Option (List Char)}
    (suffix : ∀ line rest, after? line = some rest → rest <:+ line)
    (bare : ∀ line ∈ run, '<' ∉ line ∧ '\n' ∉ line) :
    ∀ item ∈ itemTexts after? run, InLineHtml item := by
  intro item mem
  rcases exists_of_mem_itemTexts suffix mem with ⟨line, line_mem, subset⟩
  exact inLineHtml_of_subset subset (bare line line_mem).1 (bare line line_mem).2

theorem blockHtml_quoteLines (bare : ∀ line ∈ run, '<' ∉ line ∧ '\n' ∉ line) :
    ∀ line ∈ quoteLines run, BlockHtml line := by
  intro line mem
  rcases List.mem_singleton.mp mem with rfl
  apply blockHtml_quote
  apply InLineHtml.join
  intro text text_mem
  exact inLineHtml_itemTexts suffix_of_afterQuote? bare text (List.mem_of_mem_filter text_mem)

end Written

section Passes

variable {line : List Char} {more out : List (List Char)} {count : Nat}

/-- A text without tags and line feeds. -/
def Bare (text : List Char) : Prop :=
  '<' ∉ text ∧ '\n' ∉ text

/-- What is written for lines without tags. -/
theorem blockHtml_of_blockTake {kind : Builtin} (besides : kind ∈ besidesCode)
    (taken : kind.blockTake line more = some (out, count))
    (bare : ∀ other ∈ line :: more.take count, Bare other) :
    ∀ html ∈ out, BlockHtml html := by
  have run_bare : ∀ {isMarked : List Char → Bool} {write : List (List Char) → List (List Char)},
      runTake isMarked write line more = some (out, count) →
        ∃ run, (∀ other ∈ run, Bare other) ∧ out = write run := by
    intro isMarked write taken
    unfold runTake at taken
    split at taken
    · cases taken
      rw [Text.take_length_takeWhile] at bare
      exact ⟨_, bare, rfl⟩
    · cases taken
  cases kind with
  | headers =>
    rcases Option.map_eq_some_iff.mp taken with ⟨⟨hashes, text⟩, header_eq, same⟩
    cases same
    intro html mem
    rcases List.mem_singleton.mp mem with rfl
    rcases bare line List.mem_cons_self with ⟨noTag, inLine⟩
    exact blockHtml_headerHtml hashes
      (inLineHtml_of_subset (subset_of_header? header_eq) noTag inLine)
  | horizontalRule =>
    simp only [blockTake, ruleTake] at taken
    split at taken
    · cases taken
      intro html mem
      rcases List.mem_singleton.mp mem with rfl
      have opening_eq : "<hr>".toList = '<' :: "hr>".toList := by decide
      rw [opening_eq]
      exact blockHtml_cons ⟨.of_tails (by decide), by decide⟩
    · cases taken
  | unorderedList =>
    rcases run_bare taken with ⟨run, all, rfl⟩
    have tag : InLineHtml "ul".toList := .of_text (by decide) (by decide)
    apply blockHtml_listLines tag (.of_text List.not_mem_nil List.not_mem_nil)
    exact inLineHtml_itemTexts (fun _ _ => suffix_of_afterBullet?) all
  | orderedList =>
    rcases run_bare taken with ⟨run, all, rfl⟩
    have tag : InLineHtml "ol".toList := .of_text (by decide) (by decide)
    apply blockHtml_listLines tag (inLineHtml_runStart run)
    exact inLineHtml_itemTexts suffix_of_afterNumber? all
  | blockquote =>
    rcases run_bare taken with ⟨run, all, rfl⟩
    exact blockHtml_quoteLines all
  | _ => simp [besidesCode] at besides

/-- Lines without tags, and lines that are HTML. -/
def Settled (line : List Char) : Prop :=
  Bare line ∨ BlockHtml line

theorem Settled.inLine (settled : Settled line) : '\n' ∉ line :=
  settled.elim And.right BlockHtml.inLine

theorem blockTake_of_blockHtml {kind : Builtin} (besides : kind ∈ besidesCode)
    (html : BlockHtml line) (more : List (List Char)) : kind.blockTake line more = none := by
  have other : kind.leads '<' = false := by
    revert besides
    cases kind <;> decide
  exact blockTake_of_lead? html.lead other more

/-- The lines of a text after a pass, when none of those that it writes holds a line feed. -/
theorem settled_of_mem_lines_pass {kind : Builtin} (isBlock : kind.isBlock = true)
    {text : List Char} (all : ∀ line ∈ lineScan kind.blockTake (Text.lines text), Settled line) :
    ∀ line ∈ Text.lines (kind.pass text), Settled line := by
  rw [lines_pass isBlock fun line mem => (all line mem).inLine]
  exact all

theorem settled_codeBlocks {text : List Char} (noTag : '<' ∉ text) :
    ∀ line ∈ Text.lines (codeBlocks.pass text), Settled line := by
  have bare : ∀ line ∈ Text.lines text, Bare line := fun line mem =>
    ⟨fun inLine => noTag (Text.subset_of_mem_lines mem inLine),
      Text.newline_not_mem_of_mem_lines mem⟩
  apply settled_of_mem_lines_pass rfl
  apply forall_mem_lineScan bare (fun _ _ _ => Or.inl)
  intro line more out count taken _ html mem
  rcases fenceTake_eq_some.mp taken with ⟨info, info_eq, -, rfl, -⟩
  rcases List.mem_singleton.mp mem with rfl
  exact .inr (blockHtml_fenceHtml (newline_not_mem_fenceInfo info_eq) _)

theorem settled_besides {kind : Builtin} (besides : kind ∈ besidesCode) {text : List Char}
    (all : ∀ line ∈ Text.lines text, Settled line) : ∀ line ∈ Text.lines (kind.pass text),
      Settled line := by
  have isBlock : kind.isBlock = true := by
    revert besides
    cases kind <;> decide
  apply settled_of_mem_lines_pass isBlock
  apply forall_mem_lineScan all (fun _ _ _ => id)
  intro line more out count taken settled html html_mem
  refine .inr (blockHtml_of_blockTake besides taken ?_ html html_mem)
  intro other mem
  -- A line that is HTML is taken by no pass, so the lines that are taken have no tags.
  have taken_other : ∃ rest, kind.blockTake other rest ≠ none := by
    rcases List.mem_cons.mp mem with rfl | within
    · exact ⟨more, by simp [taken]⟩
    · exact ⟨[], blockTake_ne_none_of_taken besides taken within []⟩
  rcases taken_other with ⟨rest, isTaken⟩
  have other_mem : other ∈ line :: more := by
    rcases List.mem_cons.mp mem with rfl | within
    · exact List.mem_cons_self
    · exact List.mem_cons_of_mem line (List.mem_of_mem_take within)
  rcases settled other other_mem with bare | html
  · exact bare
  · exact absurd (blockTake_of_blockHtml besides html rest) isTaken

/-- The lines of a text without tags, when code spans are read. -/
theorem settled_of_mem_lines_blocked {text : String} (noTag : '<' ∉ text.toList) :
    ∀ line ∈ Text.lines (blocked text), Settled line := by
  apply List.foldlRecOn (motive := fun text => ∀ line ∈ Text.lines text, Settled line) besidesCode _
    (settled_codeBlocks noTag)
  intro text all kind besides
  exact settled_besides besides all

end Passes


end Builtin

end Markflow

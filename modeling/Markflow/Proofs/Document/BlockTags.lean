import Markflow.Proofs.Document.BlockHtml

/-!
# The tags of block elements

In a text that starts without `<`, every tag stands at the start of its line, behind spaces and tabs
at most, or is that of an inline element or closes one.  Block passes write it so, and inline passes
keep it so: a part that they write anew ends in no white space, so what stands before a tag stays,
and begins with a character of inline markup, so what the tag begins with stays too.  The pass of
paragraphs puts no line that starts with the tag of a block element into a paragraph.
-/

namespace Markflow

/-- Nothing but spaces and tabs stands before a place on its line. -/
def StartsLine (front : List Char) : Prop :=
  ∃ above indent, front = above ++ indent ∧ (above = [] ∨ ∃ before, above = before ++ ['\n']) ∧
    ∀ c ∈ indent, Builtin.isSpaceOrTab c = true

/-- A text goes on like the opening tag of a block element behind its `<`. -/
def OpensBlock (text : List Char) : Prop :=
  ∃ tag ∈ Builtin.blockTags, ∃ c rest, text = tag.toList ++ c :: rest ∧
    (Text.isBlank c || c == '/' || c == '>') = true

theorem startsLine_ended (above : List (List Char)) {near : List Char}
    (blank : ∀ c ∈ near, Builtin.isSpaceOrTab c = true) : StartsLine (Text.ended above ++ near) :=
  ⟨Text.ended above, near, rfl, Text.ended_eq_nil_or above, blank⟩

/-- All that stands on the line before a place at the start of the line is white space. -/
theorem StartsLine.blank {front near : List Char} (starts : StartsLine (front ++ near))
    (inLine : '\n' ∉ near) :
    ∀ c ∈ near, Builtin.isSpaceOrTab c = true := by
  rcases starts with ⟨above, indent, split, opened, blank⟩
  rcases List.append_eq_append_iff.mp split with ⟨more, above_eq, near_eq⟩ | ⟨more, -, indent_eq⟩
  · have more_nil : more = [] := by
      rcases opened with rfl | ⟨before, rfl⟩
      · exact (List.append_eq_nil_iff.mp above_eq.symm).2
      · rcases more.eq_nil_or_concat with rfl | ⟨others, c, rfl⟩
        · rfl
        · rw [List.concat_eq_append, ← List.append_assoc] at above_eq
          cases List.append_inj_right' above_eq rfl
          exact absurd (by simp [near_eq]) inLine
    rw [near_eq, more_nil]
    exact blank
  · intro c mem
    exact blank c (by simp [indent_eq, mem])

namespace Builtin

/-- The tags of a text that do not start lines are those of inline elements. -/
def Tidy (text : List Char) : Prop :=
  ∀ front back, text = front ++ '<' :: back → StartsLine front ∨ OpensInline back

variable {text line front back : List Char}

theorem tidy_of_lines (all : ∀ line ∈ Text.lines text, TidyLine line) : Tidy text := by
  intro front back split
  rw [← Text.join_lines text] at split
  rcases Text.exists_place (by decide) split with ⟨above, near, far, below, lines_eq, rfl, rfl⟩
  have mem : near ++ '<' :: far ∈ Text.lines text := by simp [lines_eq]
  rcases all _ mem near far rfl with blank | opens
  · exact .inl (startsLine_ended above blank)
  · exact .inr (opens.append _)

/-- No tag goes on over the end of a line. -/
theorem opensInline_of_append {below : List (List Char)}
    (opens : OpensInline (line ++ Text.lineTail below)) :
    OpensInline line := by
  have inLine : ∀ head ∈ inlineHeads, '\n' ∉ head.toList := by decide
  rcases opens with ⟨head, mem, rest, split⟩
  -- A head that goes on over the line would hold its line feed.
  rcases List.append_eq_append_iff.mp split with ⟨more, line_eq, -⟩ | ⟨more, head_eq, tail_eq⟩
  · exact ⟨head, mem, more, line_eq.symm⟩
  · rcases more with _ | ⟨c, more⟩
    · exact ⟨head, mem, by rw [head_eq, List.append_nil]⟩
    · rcases Text.lineTail_eq_nil_or below with none | ⟨behind, some⟩
      · simp [none] at tail_eq
      · rw [some] at tail_eq
        rcases List.cons.inj tail_eq with ⟨rfl, -⟩
        exact absurd (by simp [head_eq]) (inLine head mem)

theorem Tidy.of_mem_lines (tidy : Tidy text) (mem : line ∈ Text.lines text) : TidyLine line := by
  intro near far line_eq
  rcases Text.exists_of_mem_lines mem with ⟨above, below, -, text_eq⟩
  have split : text = (Text.ended above ++ near) ++ '<' :: (far ++ Text.lineTail below) := by
    rw [text_eq, line_eq]
    simp
  rcases tidy _ _ split with starts | opens
  · have inLine := Text.newline_not_mem_of_mem_lines mem
    exact .inl (starts.blank fun inNear => inLine (by simp [line_eq, inNear]))
  · exact .inr (opensInline_of_append opens)

section Inlines

variable {front' result : List Char}

/-- White space at the end of a text is kept. -/
theorem of_swaps_blank {blanks : List Char} (blank : ∀ c ∈ blanks, Text.isBlank c = true)
    (swaps : Swaps WritesInline (front ++ blanks) result) :
    ∃ front', result = front' ++ blanks ∧ Swaps WritesInline front front' := by
  apply swaps.of_suffix
  intro part written writes c mem inBlanks
  rcases writes.ends with ⟨rest, last, rfl, ink⟩
  rcases (by simpa using mem : last = c) with rfl
  rw [blank last inBlanks] at ink
  cases ink

theorem startsLine_of_swaps (starts : StartsLine front) (swaps : Swaps WritesInline front front') :
    StartsLine front' := by
  rcases starts with ⟨above, indent, rfl, opened, blank⟩
  have indent_blank : ∀ c ∈ indent, Text.isBlank c = true := fun c mem =>
    isBlank_of_isSpaceOrTab (blank c mem)
  rcases opened with rfl | ⟨before, rfl⟩
  · rcases of_swaps_blank indent_blank swaps with ⟨none, rfl, nothing⟩
    rw [nothing.eq_nil]
    exact ⟨[], indent, rfl, .inl rfl, blank⟩
  · have feed_blank : ∀ c ∈ '\n' :: indent, Text.isBlank c = true :=
      List.forall_mem_cons.mpr ⟨by decide, indent_blank⟩
    rw [List.append_assoc] at swaps
    rcases of_swaps_blank feed_blank swaps with ⟨before', rfl, -⟩
    exact ⟨before' ++ ['\n'], indent, by simp, .inr ⟨before', rfl⟩, blank⟩

/-- The start of a tag of an inline element is kept. -/
theorem opensInline_of_swaps (opens : OpensInline back) (swaps : Swaps WritesInline back result) :
    OpensInline result := by
  have plain : ∀ head ∈ inlineHeads, ∀ c ∈ head.toList, Escape.isMarkup c = false := by decide
  rcases opens with ⟨head, mem, rest, rfl⟩
  have stays : ∀ part written, WritesInline part written → ∀ c ∈ part.head?, c ∉ head.toList := by
    intro part written writes c first inHead
    rcases writes.begins with ⟨d, others, rfl, markup⟩
    rcases Option.some.inj first with rfl
    rw [plain head mem d inHead] at markup
    cases markup
  rcases swaps.of_prefix stays with ⟨rest', rfl, -⟩
  exact ⟨head, mem, rest', rfl⟩

theorem Tidy.of_swaps (tidy : Tidy text) (swaps : Swaps WritesInline text result) :
    Tidy result := by
  rintro front' back' rfl
  rcases swaps.of_mem_result with ⟨front, back, rfl, before, behind⟩
    | ⟨part, near, far, later, writes, rfl⟩
  · rcases tidy front back rfl with starts | opens
    · exact .inl (startsLine_of_swaps starts before)
    · exact .inr (opensInline_of_swaps opens behind)
  · exact .inr ((writes.tags near far rfl).append later)

theorem tidy_inlined {text : String} (noTag : '<' ∉ text.toList) : Tidy (inlined text) := by
  have start : Tidy (blocked text) := by
    apply tidy_of_lines
    intro line mem
    rcases settled_of_mem_lines_blocked noTag line mem with bare | html
    · intro near far line_eq
      exact absurd (by simp [line_eq]) bare.1
    · exact html.tidy
  apply List.foldlRecOn (motive := Tidy) inlines _ start
  intro text tidy kind isInline
  exact tidy.of_swaps (swaps_pass_inline isInline text)

end Inlines

section Paragraphs

/-- What a name is read in goes on as far as another text does. -/
theorem afterTagName?_cut {name near far rest : List Char} {c : Char}
    (out : ∀ letter ∈ name, (Regex.CharSet.single .unicode letter.toNat).holds c = false)
    (after : afterTagName? name (near ++ c :: far) = some rest) :
    ∃ left, rest = left ++ c :: far ∧ ∀ other,
      afterTagName? name (near ++ other) = some (left ++ other) := by
  induction name generalizing near with
  | nil =>
    cases after
    exact ⟨near, rfl, fun _ => rfl⟩
  | cons letter name ih =>
    rcases near with _ | ⟨d, near⟩
    · rw [List.nil_append, afterTagName?, if_neg (by simp [out letter List.mem_cons_self])] at after
      cases after
    · rw [List.cons_append, afterTagName?] at after
      split at after
      · next same =>
        rcases ih (fun e mem => out e (List.mem_cons_of_mem letter mem)) after with
          ⟨left, rest_eq, goesOn⟩
        refine ⟨left, rest_eq, fun other => ?_⟩
        rw [List.cons_append, afterTagName?, if_pos same, goesOn other]
      · cases after

/-- The characters that come behind a text when lines are put together. -/
def separators : List Char :=
  [' ', '<', '\n']

theorem separators_out : ∀ c ∈ separators, ∀ tag ∈ blockTags, ∀ letter ∈ tag.toList,
    (Regex.CharSet.single .unicode letter.toNat).holds c = false := by
  decide +kernel

/-- A text that starts with the name of a block element does so with white space in place of what
follows it. -/
theorem startsWithBlockTag_cut {near far blanks : List Char} {c : Char}
    (isSeparator : c ∈ separators)
    (blank : ∀ d ∈ blanks, Text.isBlank d = true)
    (starts : startsWithBlockTag (near ++ c :: far) = true) :
    startsWithBlockTag (near ++ blanks) = true := by
  rcases List.any_eq_true.mp starts with ⟨tag, mem, ends⟩
  rcases after_eq : afterTagName? tag.toList (near ++ c :: far) with _ | rest
  · simp [after_eq] at ends
  · rcases afterTagName?_cut (separators_out c isSeparator tag mem) after_eq with
      ⟨left, rfl, goesOn⟩
    apply List.any_eq_true.mpr
    refine ⟨tag, mem, ?_⟩
    rw [goesOn blanks]
    rw [after_eq] at ends
    rcases left with _ | ⟨d, left⟩
    · rcases blanks with _ | ⟨d, blanks⟩
      · rfl
      · simp [blank d List.mem_cons_self]
    · exact ends

theorem startsWithBlockTag_of_opensInline (opens : OpensInline text) :
    startsWithBlockTag text = false := by
  rcases opens with ⟨head, mem, rest, rfl⟩
  simp only [inlineHeads, List.mem_cons, List.not_mem_nil, or_false] at mem
  rcases mem with rfl | rfl | rfl | rfl | rfl | rfl | rfl <;> rfl

theorem isBlockLine_of_starts {near far : List Char} (blank : ∀ c ∈ near, isSpaceOrTab c = true)
    (starts : startsWithBlockTag far = true) : isBlockLine (near ++ '<' :: far) = true := by
  have noSlash : ∀ text, startsWithBlockTag ('/' :: text) = false := fun _ => rfl
  unfold isBlockLine
  rw [List.dropWhile_append_of_pos blank, List.dropWhile_cons_of_neg (by decide)]
  split
  · rfl
  · next text_eq =>
    rcases List.cons.inj text_eq with ⟨-, rfl⟩
    rw [noSlash] at starts
    cases starts
  · next text_eq =>
    rcases List.cons.inj text_eq with ⟨-, rfl⟩
    exact starts
  · next other => exact absurd rfl (other far)

/-- No tag of a text is that of a block element, whatever follows the text. -/
def NoBlockTag (text : List Char) : Prop :=
  ∀ near far, text = near ++ '<' :: far → ∀ c ∈ separators, ∀ rest,
    startsWithBlockTag (far ++ c :: rest) = false

/-- A text is stripped of white space on its two sides. -/
theorem exists_blanks (text : List Char) :
    ∃ before behind, text = before ++ (Text.strip text ++ behind) ∧
      (∀ c ∈ behind, Text.isBlank c = true) := by
  refine ⟨text.takeWhile Text.isBlank,
    ((Text.stripLeft text).reverse.takeWhile Text.isBlank).reverse, ?_, ?_⟩
  · rw [Text.strip, Text.stripRight, ← List.reverse_append, List.takeWhile_append_dropWhile,
      List.reverse_reverse, Text.stripLeft, List.takeWhile_append_dropWhile]
  · intro c mem
    exact List.mem_takeWhile_imp (List.mem_reverse.mp mem)

theorem noBlockTag_strip (tidy : TidyLine line) (plain : isBlockLine line = false) :
    NoBlockTag (Text.strip line) := by
  intro near far strip_eq c isSeparator rest
  rcases exists_blanks line with ⟨before, behind, line_eq, blank⟩
  have split : line = (before ++ near) ++ '<' :: (far ++ behind) := by
    rw [line_eq, strip_eq]
    simp
  have missing : startsWithBlockTag (far ++ behind) = false := by
    rcases tidy _ _ split with indent | opens
    · by_contra starts
      rw [split, isBlockLine_of_starts indent (by simpa using starts)] at plain
      cases plain
    · exact startsWithBlockTag_of_opensInline opens
  by_contra starts
  rw [startsWithBlockTag_cut isSeparator blank (by simpa using starts)] at missing
  cases missing

/-- The tags of block elements in a line have nothing but spaces and tabs before them. -/
def LeadsBlockTags (line : List Char) : Prop :=
  ∀ near far, line = near ++ '<' :: far → (∀ c ∈ near, isSpaceOrTab c = true) ∨
    startsWithBlockTag far = false

theorem NoBlockTag.append {near far rest : List Char} {c : Char} (noTag : NoBlockTag text)
    (isSeparator : c ∈ separators)
    (behind : ∀ near far, c :: rest = near ++ '<' :: far → startsWithBlockTag far = false)
    (split : text ++ c :: rest = near ++ '<' :: far) : startsWithBlockTag far = false := by
  rcases Text.exists_of_append_eq split with ⟨more, text_eq, rfl⟩ | ⟨more, -, rest_eq⟩
  · exact noTag near more text_eq c isSeparator rest
  · exact behind more far rest_eq

theorem startsWithBlockTag_join {pending : List (List Char)}
    (noTag : ∀ text ∈ pending, NoBlockTag text)
    {closing : List Char} (tags : HasInlineTags ('<' :: closing)) {near far : List Char}
    (split : Text.join [' '] pending ++ '<' :: closing = near ++ '<' :: far) :
    startsWithBlockTag far = false := by
  have closes : ∀ near far, '<' :: closing = near ++ '<' :: far → startsWithBlockTag far = false :=
    fun near far closing_eq => startsWithBlockTag_of_opensInline (tags near far closing_eq)
  induction pending generalizing near far with
  | nil => exact closes near far split
  | cons text more ih =>
    have first := noTag text List.mem_cons_self
    rcases more with _ | ⟨next, more⟩
    · exact first.append (by decide) closes split
    · have split_eq : Text.join [' '] (text :: next :: more) ++ '<' :: closing =
          text ++ ' ' :: (Text.join [' '] (next :: more) ++ '<' :: closing) := by
        simp [Text.join]
      rw [split_eq] at split
      apply first.append (by decide) _ split
      intro near far behind_eq
      rcases near with _ | ⟨c, near⟩
      · cases behind_eq
      · exact ih (fun other mem => noTag other (List.mem_cons_of_mem text mem))
          (List.cons.inj behind_eq).2

theorem leadsBlockTags_paragraphLine {pending : List (List Char)}
    (noTag : ∀ text ∈ pending, NoBlockTag text) :
    ∀ line ∈ paragraphLine pending, LeadsBlockTags line := by
  have opening_eq : "<p>".toList = ['<', 'p', '>'] := by decide
  have closing_eq : "</p>".toList = '<' :: "/p>".toList := by decide
  have closing_tags : HasInlineTags ('<' :: "/p>".toList) := .of_tails (by decide)
  intro line mem near far line_eq
  unfold paragraphLine at mem
  split at mem
  · cases mem
  rw [List.mem_singleton.mp mem, opening_eq, closing_eq] at line_eq
  rcases near with _ | ⟨c, _ | ⟨d, _ | ⟨e, near⟩⟩⟩
  · exact .inl (by simp)
  · cases line_eq
  · cases line_eq
  · have behind_eq := (List.cons.inj (List.cons.inj (List.cons.inj line_eq).2).2).2
    exact .inr (startsWithBlockTag_join noTag closing_tags behind_eq)

theorem leadsBlockTags_of_tidy (tidy : TidyLine line) : LeadsBlockTags line := by
  intro near far line_eq
  exact (tidy near far line_eq).imp_right startsWithBlockTag_of_opensInline

theorem leadsBlockTags_wrapLines {pending ls : List (List Char)}
    (noTag : ∀ text ∈ pending, NoBlockTag text)
    (tidy : ∀ line ∈ ls, TidyLine line) : ∀ line ∈ wrapLines pending ls, LeadsBlockTags line := by
  induction ls generalizing pending with
  | nil => exact leadsBlockTags_paragraphLine noTag
  | cons line more ih =>
    have more_tidy : ∀ other ∈ more, TidyLine other := fun other mem =>
      tidy other (List.mem_cons_of_mem line mem)
    rw [wrapLines]
    split
    · intro other mem
      rcases List.mem_append.mp mem with waiting | mem
      · exact leadsBlockTags_paragraphLine noTag other waiting
      · rcases List.mem_cons.mp mem with rfl | mem
        · exact leadsBlockTags_of_tidy (tidy other List.mem_cons_self)
        · exact ih (fun _ mem => absurd mem List.not_mem_nil) more_tidy other mem
    · next plain =>
      -- A tidy line that opens no block has no tag of a block element at all.
      apply ih _ more_tidy
      intro text mem
      rcases List.mem_append.mp mem with waiting | last
      · exact noTag text waiting
      · rcases List.mem_singleton.mp last with rfl
        exact noBlockTag_strip (tidy line List.mem_cons_self) (by simpa using plain)

theorem leadsBlockTags_lineScan (tidy : Tidy text) :
    ∀ line ∈ lineScan paragraphs.blockTake (Text.lines text), LeadsBlockTags line := by
  apply forall_mem_lineScan (fun line mem => tidy.of_mem_lines mem)
    (fun _ _ _ => leadsBlockTags_of_tidy)
  intro line more out count taken all
  simp only [blockTake, runTake] at taken
  split at taken
  · cases taken
    apply leadsBlockTags_wrapLines (fun _ mem => absurd mem List.not_mem_nil)
    intro other mem
    rcases List.mem_cons.mp mem with rfl | mem
    · exact all other List.mem_cons_self
    · exact all other (List.mem_cons_of_mem line (List.takeWhile_subset _ mem))
  · cases taken

theorem startsLine_of_opensBlock (tidy : Tidy text) {front back : List Char}
    (split : paragraphs.pass text = front ++ '<' :: back) (opens : OpensBlock back) :
    StartsLine front := by
  rw [pass_eq_lineScan rfl] at split
  rcases Text.exists_place (by decide) split with ⟨above, near, far, below, scan_eq, rfl, rfl⟩
  have mem : near ++ '<' :: far ∈ lineScan paragraphs.blockTake (Text.lines text) := by
    simp [scan_eq]
  rcases leadsBlockTags_lineScan tidy _ mem near far rfl with blank | missing
  · exact startsLine_ended above blank
  · rcases opens with ⟨tag, tag_mem, c, rest, back_eq, ends⟩
    have starts : startsWithBlockTag (far ++ Text.lineTail below) = true := by
      rw [back_eq]
      exact startsWithBlockTag_append tag_mem rest ends
    have onLine : startsWithBlockTag (far ++ []) = true := by
      rcases Text.lineTail_eq_nil_or below with none | ⟨behind, some⟩
      · rwa [none] at starts
      · rw [some] at starts
        exact startsWithBlockTag_cut (by decide) (by simp) starts
    rw [List.append_nil, missing] at onLine
    cases onLine

end Paragraphs

end Builtin

open Builtin

/-- A text without `<` becomes HTML in which each opening tag of a block element starts its line,
behind spaces and tabs at most.  So none stands on a line behind the start of a paragraph. -/
theorem convert_block_tags [Host] (text : String) (noTag : '<' ∉ text.toList) :
    ∃ html, convert {} (.text text) = .ok html ∧
      (∀ front back, html.toList = front ++ '<' :: back → OpensBlock back → StartsLine front) ∧
      ∀ front content back, html.toList = front ++ "<p>".toList ++ content ++ '<' :: back →
        '\n' ∉ content →
        ¬ OpensBlock back := by
  have leads : ∀ front back, (all.foldl (fun text kind => kind.pass text) text.toList) =
      front ++ '<' :: back →
      OpensBlock back → StartsLine front := by
    intro front back split
    rw [foldl_all_eq] at split
    exact startsLine_of_opensBlock (tidy_inlined noTag) split
  have html_eq := @String.toList_ofList (all.foldl (fun text kind => kind.pass text) text.toList)
  refine ⟨_, convert_default text, ?_, ?_⟩
  · rw [html_eq]
    exact leads
  · rw [html_eq]
    intro front content back split inLine opens
    have starts := leads _ _ split opens
    rw [List.append_assoc] at starts
    have lineBefore : '\n' ∉ "<p>".toList ++ content := List.not_mem_append (by decide) inLine
    have tagBefore : '<' ∈ "<p>".toList ++ content := List.mem_append_left content (by decide)
    exact absurd (starts.blank lineBefore '<' tagBefore) (by decide)

attribute [local instance] Host.standard

/-- The tag of an item in a list with a link. -/
theorem convert_block_tags_item :
    '<' ∉ "- [a](u)".toList ∧
      convert {} (.text "- [a](u)") = .ok "<ul>\n  <li><a href=\"u\">a</a></li>\n</ul>" ∧
      StartsLine "<ul>\n  ".toList := by
  have noTag : '<' ∉ "- [a](u)".toList := by decide
  have html_eq : all.foldl (fun text kind => kind.pass text) "- [a](u)".toList =
      "<ul>\n  <li><a href=\"u\">a</a></li>\n</ul>".toList := by
    decide +kernel
  have converted :
      convert {} (.text "- [a](u)") = .ok "<ul>\n  <li><a href=\"u\">a</a></li>\n</ul>" := by
    rw [convert_default, html_eq, String.ofList_toList]
  rcases convert_block_tags "- [a](u)" noTag with ⟨html, html_ok, leads, -⟩
  have same : html = "<ul>\n  <li><a href=\"u\">a</a></li>\n</ul>" := by
    rw [converted] at html_ok
    exact (Except.ok.inj html_ok).symm
  refine ⟨noTag, converted, leads _ "li><a href=\"u\">a</a></li>\n</ul>".toList ?_ ?_⟩
  · rw [same]
    decide +kernel
  · exact ⟨"li", by decide, '>', "<a href=\"u\">a</a></li>\n</ul>".toList, by
      decide +kernel, by decide⟩

end Markflow

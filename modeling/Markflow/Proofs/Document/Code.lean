import Markflow.Proofs.Document.BlockConversion
import Markflow.Proofs.Document.Sealed
import Markflow.Proofs.Passes.LinePieces

/-!
# Code in documents

What is written for a code block or a code span is sealed against the passes that come later.  A
code block is a line of its own, which the passes on the lines between the code blocks spare, and no
code span goes over the end of a line.
-/

namespace Markflow

namespace Regex

variable {regex : Regex}

theorem exists_findAt?_of_swap {before text : List Char} {found : Found}
    (swapped : .swap found ∈ regex.edits before text) :
    ∃ before after, regex.findAt? before after = some found := by
  fun_induction edits regex before text with
  | case1 => cases swapped
  | case2 before c after other found_eq ih =>
    rcases List.mem_cons.mp swapped with same | swapped
    · cases same
      exact ⟨_, _, found_eq⟩
    · exact ih swapped
  | case3 before c after missed ih =>
    rcases List.mem_cons.mp swapped with same | swapped
    · cases same
    · exact ih swapped

end Regex

namespace Builtin

variable {piece text : List Char}

/-- The transforms that run on the lines between the code blocks. -/
def besidesCode : List Builtin :=
  [headers, horizontalRule, unorderedList, orderedList, blockquote]

/-- What a line is taken with could be taken itself. -/
theorem blockTake_ne_none_of_taken {kind : Builtin} (besides : kind ∈ besidesCode)
    {line other : List Char}
    {more out : List (List Char)} {count : Nat}
    (taken : kind.blockTake line more = some (out, count))
    (mem : other ∈ more.take count) (rest : List (List Char)) :
    kind.blockTake other rest ≠ none := by
  have inRun : ∀ {isMarked : List Char → Bool} {write : List (List Char) → List (List Char)},
      runTake isMarked write line more = some (out, count) →
        runTake isMarked write other rest ≠ none := by
    intro isMarked write taken
    unfold runTake at taken ⊢
    split at taken
    · cases taken
      rw [Text.take_length_takeWhile] at mem
      simp [List.mem_takeWhile_imp mem]
    · cases taken
  have alone : count = 0 → kind.blockTake other rest ≠ none := by
    rintro rfl
    cases mem
  cases kind with
  | headers =>
    rcases Option.map_eq_some_iff.mp taken with ⟨header, -, same⟩
    cases same
    exact alone rfl
  | horizontalRule =>
    simp only [blockTake, ruleTake] at taken
    split at taken
    · cases taken
      exact alone rfl
    · cases taken
  | unorderedList => exact inRun taken
  | orderedList => exact inRun taken
  | blockquote => exact inRun taken
  | _ => simp [besidesCode] at besides

/-- The passes on the lines between the code blocks spare a line that is sealed. -/
theorem spares_blockTake (isSealed : Sealed piece) {kind : Builtin} (besides : kind ∈ besidesCode) :
    Spares kind.blockTake piece := by
  have other : kind.leads '<' = false := by
    revert besides
    cases kind <;> decide
  have missed : ∀ more, kind.blockTake piece more = none := by
    rcases isSealed.opens with ⟨inside, rfl⟩
    exact blockTake_of_lead? (lead?_cons inside (by decide)) other
  refine ⟨missed, ?_⟩
  intro line more out count taken mem
  exact blockTake_ne_none_of_taken besides taken mem [] (missed [])

theorem IsCode.newline_not_mem {count : Nat} {content rest : List Char}
    (isCode : IsCode count content rest) :
    '\n' ∉ content := by
  intro mem
  have passed := Regex.passed_one.mp isCode.shortest.passed '\n' mem
  cases passed

theorem newline_not_mem_unpadded {content : List Char} (inLine : '\n' ∉ content) :
    '\n' ∉ unpadded content := by
  unfold unpadded
  split
  · intro mem
    exact inLine (List.mem_of_mem_drop (List.dropLast_subset _ mem))
  · exact inLine

/-- A code span does not reach into a line that is sealed. -/
theorem exists_leaves_inlineCode (isSealed : Sealed piece) {around : Around}
    (isLine : around.IsLine) :
    ∃ around', Regex.Leaves inlineCode.regex inlineCode.written [] piece around around' := by
  apply Regex.exists_leaves (consumes_regex inlineCode)
  · intro before near d far split
    exact missed_of_head rfl (isSealed.not_mem (by decide)) _ near d far around.back split
  intro before near reach rest found isSuffix near_ne _ text_eq _ found_eq
  rcases findAt?_inlineCode.mp found_eq with ⟨-, count, content, after, -, isCode, rfl⟩
  have noFeed : '\n' ∉ marked (tickRun count) content := by
    have inTicks : '\n' ∉ tickRun count := fun mem => by simpa using tickRun_all count '\n' mem
    simp [marked, inTicks, isCode.newline_not_mem]
  -- The match would go over the line feed before the piece.
  rcases near.eq_nil_or_concat with rfl | ⟨others, c, rfl⟩
  · exact absurd rfl near_ne
  · rcases isSuffix with ⟨pre, front_eq⟩
    have feed : c = '\n' := by
      have opens := isLine.opens
      rw [← front_eq] at opens
      simpa using opens
    have inMatch : '\n' ∈ marked (tickRun count) content := by
      rw [show marked (tickRun count) content = others.concat c ++ reach from text_eq]
      simp [feed]
    exact absurd inMatch noFeed

theorem bracket_not_mem_code (code : List Char) (keepLines : Bool) :
    ']' ∉ Escape.code code keepLines :=
  Escape.not_mem_code (by decide) code keepLines

theorem bracket_not_mem_classText (info : List Char) : ']' ∉ classText info := by
  have inValue : ']' ∉ Escape.attributeValue info := Escape.not_mem_attributeValue (by decide) info
  unfold classText
  split
  · simp
  · simp [inValue]

theorem openFence_eq : "<pre><code".toList = '<' :: "pre><code".toList := by
  decide

theorem closeFence_eq : "</code></pre>".toList = "</code></pre".toList ++ ['>'] := by
  decide

theorem sealed_fenceHtml {info : List Char} (inLine : '\n' ∉ info) (code : List Char) :
    Sealed (fenceHtml info code) := by
  have plainCode : IsPlain (Escape.code (dropLineBreak code) false) :=
    isPlain_code (dropLineBreak code) (by simp)
  have noBracket := bracket_not_mem_code (dropLineBreak code) false
  unfold fenceHtml
  generalize Escape.code (dropLineBreak code) false = escaped at plainCode noBracket ⊢
  rw [List.append_assoc "<pre><code".toList]
  apply Sealed.of_tags openFence_eq closeFence_eq
  · have inside : IsPlain ('>' :: escaped) := List.forall_mem_cons.mpr ⟨by decide, plainCode⟩
    exact (IsPlain.append (by decide) ((Block.isPlain_classText inLine).append inside)).append
      (by decide)
  · simp [bracket_not_mem_classText, noBracket]

theorem sealed_codeSpan {content : List Char} (inLine : '\n' ∉ content) :
    Sealed ("<code>".toList ++ Escape.code content ++ "</code>".toList) := by
  have opening_eq : "<code>".toList = '<' :: "code>".toList := by decide
  have closing_eq : "</code>".toList = "</code".toList ++ ['>'] := by decide
  apply Sealed.of_tags opening_eq closing_eq
  · exact (IsPlain.append (by decide) (isPlain_code content fun _ => inLine)).append (by decide)
  · simp [bracket_not_mem_code]

theorem newline_not_mem_fenceInfo {line info : List Char} (isInfo : fenceInfo? line = some info) :
    '\n' ∉ info := by
  rcases Option.bind_eq_some_iff.mp isInfo with ⟨rest, -, read⟩
  simp only at read
  split at read
  · cases read
    intro mem
    exact absurd (List.mem_takeWhile_imp mem) (by decide)
  · cases read

/-- What is written for a code block is sealed, and it is a line of the result. -/
theorem isLine_of_swap {earlier later : List Edit} {found : Found}
    (edits_eq : codeBlocks.regex.edits [] text = earlier ++ .swap found :: later) :
    Sealed (codeBlocks.written found) ∧
      Around.IsLine ⟨Edit.targets codeBlocks.written earlier,
        Edit.targets codeBlocks.written later⟩ := by
  rw [← Text.join_lines text] at edits_eq
  have inLine : ∀ line ∈ Text.lines text, '\n' ∉ line := fun _ => Text.newline_not_mem_of_mem_lines
  rcases scansLines_codeBlocks.exists_take_of_swap Regex.opensLine_nil inLine edits_eq with
    ⟨line, more, out, count, taken, opens, ⟨written_eq, closes⟩ | written_eq⟩
  · rcases fenceTake_eq_some.mp taken with ⟨info, info_eq, -, rfl, -⟩
    rw [written_eq]
    exact ⟨sealed_fenceHtml (newline_not_mem_fenceInfo info_eq) _, opens, closes⟩
  · -- HTML that ends with a tag has no line feed after it.
    have closed := written_of_render (render_codeBlocks found)
    rw [written_eq, closeFence_eq, ← List.append_assoc] at closed
    cases List.append_inj_right' closed rfl

theorem sealed_of_swap {found : Found} (swapped : .swap found ∈ inlineCode.regex.edits [] text) :
    Sealed (inlineCode.written found) := by
  rcases Regex.exists_findAt?_of_swap swapped with ⟨before, after, found_eq⟩
  rcases findAt?_inlineCode.mp found_eq with ⟨-, count, content, rest, -, isCode, rfl⟩
  rw [written_inlineCode]
  exact sealed_codeSpan (newline_not_mem_unpadded isCode.newline_not_mem)

/-- The text in which code spans are read: the block transforms have run save that of paragraphs. -/
def blocked (text : String) : List Char :=
  besidesCode.foldl (fun text kind => kind.pass text) (codeBlocks.pass text.toList)

theorem foldl_all (text : String) : all.foldl (fun text kind => kind.pass text) text.toList =
    paragraphs.pass (emphasis.foldl (fun text kind => kind.pass text)
      (links.pass (images.pass (inlineCode.pass (blocked text))))) := by
  simp only [all, blocked, besidesCode, emphasis, List.foldl_cons, List.foldl_nil]

end Builtin

end Markflow

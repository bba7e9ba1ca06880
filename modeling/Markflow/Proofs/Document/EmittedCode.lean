import Markflow.Proofs.Document.EmittedTags
import Markflow.Proofs.Passes.Wrapping

/-!
# Code in the result

What is written for a code block or a code span holds no character of inline markup, so no later
match begins in it.  A code block is a line of its own, which the passes on the lines between the
code blocks spare, and no code span goes over the end of a line.  Then a piece of code is in the
text in which images and links are read.  There an image may stand around the piece, or the target
of an image or a link may go on into it, as parentheses and quotes of code are kept.  A piece of
which neither is true stays as it is, at its place on one line of the result.
-/

namespace Markflow

namespace Edit

variable {write : Found → List Char} {edits : List Edit}

/-- A character that is in nothing that is written for a match is one that is kept. -/
theorem exists_keep_of_targets {c : Char} (out : ∀ found, .swap found ∈ edits → c ∉ write found)
    {front back : List Char} (split : targets write edits = front ++ c :: back) :
    ∃ earlier later, edits = earlier ++ .keep c :: later ∧ targets write earlier = front ∧
      targets write later = back := by
  induction edits generalizing front with
  | nil => simp at split
  | cons edit more ih =>
    rw [targets_cons] at split
    rcases Text.exists_of_append_eq split with ⟨others, here, back_eq⟩ | ⟨others, front_eq, below⟩
    · cases edit with
      | keep d =>
        rcases front with _ | ⟨e, front⟩
        · cases here
          exact ⟨[], more, rfl, rfl, back_eq.symm⟩
        · simp [target] at here
      | swap found =>
        have among : c ∈ write found := by
          rw [show write found = front ++ c :: others from here]
          simp
        exact absurd among (out found List.mem_cons_self)
    · rcases ih (fun found mem => out found (List.mem_cons_of_mem edit mem)) below with
        ⟨earlier, later, rfl, rfl, later_eq⟩
      exact ⟨edit :: earlier, later, rfl, front_eq.symm, later_eq⟩

/-- A text that is written first is kept, if nothing that is written for a match begins in it. -/
theorem exists_map_keep_of_targets {text back : List Char}
    (apart : ∀ near reach found behind, text = near ++ reach → reach ≠ [] → .swap found ∈ edits →
      reach ++ back ≠ write found ++ behind)
    (split : targets write edits = text ++ back) : ∃ later, edits = text.map keep ++ later := by
  induction text generalizing edits with
  | nil => exact ⟨edits, rfl⟩
  | cons c text ih =>
    rcases edits with _ | ⟨edit, more⟩
    · cases split
    cases edit with
    | keep d =>
      rcases List.cons.inj split with ⟨rfl, below⟩
      have apartBelow :=
        fun near reach found behind (text_eq : text = near ++ reach) reach_ne mem =>
        apart (d :: near) reach found behind (congrArg (d :: ·) text_eq) reach_ne
          (List.mem_cons_of_mem (keep d) mem)
      rcases ih apartBelow below with ⟨later, rfl⟩
      exact ⟨later, rfl⟩
    | swap
        found =>
        exact absurd split.symm
          (apart [] (c :: text) found _ rfl (List.cons_ne_nil c text) List.mem_cons_self)

end Edit

namespace Builtin

open Regex

variable {piece : List Char} {reading : Around}

/-- A piece stands in the text of an image. -/
def InImage (around : Around) (piece : List Char) : Prop :=
  ∃ before label more after url title target, around.front = before ++ '!' :: '[' :: label ∧
    around.back = more ++ ']' :: (target ++ after) ∧
      IsLink (label ++ (piece ++ more)) url title target

/-- The pass of images keeps a piece around which no image stands and into which no target goes
on. -/
theorem exists_beside_images (isSealed : Sealed piece) (noImage : ¬ InImage reading piece)
    (free : ¬ InTarget reading piece) :
    ∃ earlier later, Edit.sources earlier = reading.front ∧ Edit.sources later = reading.back ∧
      images.regex.edits [] (reading.text piece) = earlier ++ (piece.map .keep ++ later) := by
  apply exists_beside (consumes_regex images)
  · intro before near d far split
    exact missed_of_head rfl (isSealed.not_mem (by decide)) _ near d far reading.back split
  intro before near reach rest found isSuffix _ reach_ne text_eq same found_eq
  rcases findAt?_images.mp found_eq with ⟨label, url, title, target, after, -, isLink, rfl⟩
  have marks_out : ∀ d ∈ ['!', '['], d ∉ piece := by
    have foreign : ∀ d ∈ ['!', '['], isForeign d = true := by decide
    exact fun d mem => isSealed.not_mem (foreign d mem)
  have marks_eq : ['!', '['] = ['!'] ++ ['['] := rfl
  rcases exists_label isSealed.opens isSealed.noBracket free marks_eq marks_out isLink.isTarget
    isSuffix reach_ne text_eq
    same with ⟨inner, far, rfl, rfl⟩
  rcases isSuffix with ⟨before, front_eq⟩
  have reach_eq : reach = piece ++ (far ++ ']' :: target) := by
    have split : '!' :: linkText (inner ++ (piece ++ far)) target = ['!', '['] ++ inner ++ reach :=
      text_eq
    simpa [linkText] using split.symm
  rw [reach_eq, List.append_assoc, List.append_right_inj] at same
  refine noImage ⟨before, inner, far, rest, url, title, target, front_eq.symm, ?_, isLink⟩
  rw [← same]
  simp

/-- A target that goes on into a piece where images are written goes on into it where they are
read. -/
theorem InTarget.of_images {earlier later : List Edit}
    (tags : ∀ found, .swap found ∈ earlier ++ later → IsImageTag (images.written found))
    (inTarget : InTarget ⟨Edit.targets images.written earlier, Edit.targets images.written later⟩
      piece) :
    InTarget ⟨Edit.sources earlier, Edit.sources later⟩ piece := by
  rcases inTarget with
    ⟨before, label, begun, reach, after, url, title, front_eq, reach_ne, same, isTarget⟩
  have noMarkup : ∀ {c : Char} {found : Found}, Escape.isMarkup c = true → .swap found ∈ earlier →
      c ∉ images.written found :=
    fun markup mem => (tags _ (List.mem_append_left later mem)).unmarked.not_mem markup
  rcases Edit.exists_keep_of_targets (fun _ => noMarkup (by decide)) front_eq with
    ⟨above, behindOpen, rfl, -, label_eq⟩
  have inLabel : ∀ found, .swap found ∈ behindOpen → ']' ∉ images.written found :=
    fun found mem => noMarkup (by decide) (by simp [mem])
  rcases Edit.exists_keep_of_targets inLabel label_eq with ⟨text, inside, rfl, -, inside_eq⟩
  -- The edits from the target on keep all of it, since no tag of an image begins in it.
  have kept : ∃ behind, inside ++ (piece.map .keep ++ later) = ('(' :: begun ++ reach).map .keep ++
      behind := by
    apply @Edit.exists_map_keep_of_targets images.written _ _ after
    · intro near reach' found behind target_eq reach'_ne mem tag_eq
      have among :
          .swap found ∈ (above ++ .keep '[' :: (text ++ .keep ']' :: inside)) ++ later := by
        rcases List.mem_append.mp mem with mem | mem
        · simp [mem]
        · have inLater : .swap found ∈ later := by simpa using mem
          simp [inLater]
      rw [target_eq] at isTarget
      exact (tags found among).not_reached isTarget reach'_ne tag_eq
    · rw [Edit.targets_append, Edit.targets_append, Edit.targets_map_keep, inside_eq, same,
        List.append_assoc]
  rcases kept with ⟨behind, kept⟩
  have begun_eq : Edit.sources inside = '(' :: begun := by
    rcases List.append_eq_append_iff.mp kept.symm with ⟨more, inside_split, -⟩
      | ⟨more, target_eq, -⟩
    · rw [inside_split, Edit.targets_append, Edit.targets_map_keep] at inside_eq
      have longer := congrArg List.length inside_eq
      have reach_pos := List.length_pos_iff.mpr reach_ne
      simp only [List.length_cons, List.length_append] at longer
      omega
    · rcases List.map_eq_append_iff.mp target_eq with ⟨first, second, -, rfl, -⟩
      rw [Edit.targets_map_keep] at inside_eq
      rw [Edit.sources_map_keep, inside_eq]
  refine ⟨Edit.sources above, Edit.sources text, begun, reach, Edit.sources behind, url, title, ?_,
    reach_ne, ?_, isTarget⟩
  · simp [begun_eq, Edit.source]
  · have below := congrArg Edit.sources kept
    rw [Edit.sources_append, Edit.sources_append, Edit.sources_append, Edit.sources_map_keep,
      Edit.sources_map_keep, begun_eq] at below
    simpa using below

/-- The inline passes behind that of code spans leave a sealed piece alone around which no image
stands and into which no target goes on. -/
theorem exists_leavesAll_inlines (isSealed : Sealed piece) (noImage : ¬ InImage reading piece)
    (free : ¬ InTarget reading piece) :
    ∃ around, LeavesAll piece (images :: links :: emphasis) reading around := by
  rcases exists_beside_images isSealed noImage free with
    ⟨earlier, later, front_eq, back_eq, edits_eq⟩
  obtain rfl : reading = ⟨Edit.sources earlier, Edit.sources later⟩ := by rw [front_eq, back_eq]
  have first := @Leaves.beside images.regex images.written [] piece earlier later edits_eq
  have tags : ∀ found, .swap found ∈ earlier ++ later → IsImageTag (images.written found) := by
    intro found mem
    have swapped :
        .swap found ∈
          images.regex.edits []
          ((⟨Edit.sources earlier, Edit.sources later⟩ : Around).text piece) := by
      rw [edits_eq]
      rcases List.mem_append.mp mem with mem | mem
      · simp [mem]
      · simp [mem]
    exact isImageTag_of_swap swapped
  have free' := fun inTarget => free (InTarget.of_images tags inTarget)
  rcases exists_leaves_links isSealed.opens isSealed.noBracket free'
    (isSealed.not_mem (by decide)) with ⟨next, second⟩
  have marks_out : ∀ marks ∈ emphasisMarks, ∀ c ∈ marks, c ∉ piece :=
    fun marks mem c inMarks => isSealed.not_mem ((emphasisMarks_spec marks mem).2 c inMarks).2
  rcases exists_leavesAll
    (fun _ isEmphasis => exists_leaves_emphasis isEmphasis isSealed.ne_nil marks_out) next with
    ⟨last, others⟩
  exact ⟨last, .cons first (.cons second others)⟩

/-- No target goes on into a piece if all that begin before it end before it. -/
theorem not_inTarget_of_closes
    (closes : ∀ before begun, reading.front = before ++ ']' :: '(' :: begun →
      ∃ url title target rest, IsTarget url title target ∧ '(' :: begun = target ++ rest) :
      ¬ InTarget reading piece := by
  rintro ⟨before, label, begun, reach, after, url, title, front_eq, reach_ne, -, isTarget⟩
  rw [← List.cons_append, ← List.append_assoc] at front_eq
  rcases closes _ begun front_eq with ⟨url', title', target, rest, isTarget', closed⟩
  have same : '(' :: begun ++ reach ++ [] = target ++ (rest ++ reach) := by
    rw [List.append_nil, closed, List.append_assoc]
  rcases isTarget.unique isTarget' same with ⟨-, -, rfl⟩
  rw [List.append_right_inj] at same
  exact reach_ne (List.append_eq_nil_iff.mp same.symm).2

/-- What is written for a code block or a code span in the conversion of a text, the passes that
come later and before images are read, and what stands around the piece when it is written. -/
inductive Coded (text : String) : (piece : List Char) → (later : List Builtin) → Around → Prop where
  | block {earlier later : List Edit} {found : Found}
      (edits_eq : codeBlocks.regex.edits [] text.toList = earlier ++ .swap found :: later) :
      Coded text (codeBlocks.written found) (besidesCode ++ [inlineCode])
        ⟨Edit.targets codeBlocks.written earlier, Edit.targets codeBlocks.written later⟩
  | span {earlier later : List Edit} {found : Found}
      (edits_eq : inlineCode.regex.edits [] (blocked text) = earlier ++ .swap found :: later) :
      Coded text (inlineCode.written found) []
        ⟨Edit.targets inlineCode.written earlier, Edit.targets inlineCode.written later⟩

section Coded

variable {text : String} {later : List Builtin} {around : Around}

theorem Coded.isSealed (coded : Coded text piece later around) : Sealed piece := by
  cases coded with
  | block edits_eq => exact (isLine_of_swap edits_eq).1
  | @span earlier later found edits_eq =>
    have swapped : .swap found ∈ inlineCode.regex.edits [] (blocked text) := by simp [edits_eq]
    exact sealed_of_swap swapped

theorem Coded.foldl_eq (coded : Coded text piece later around) :
    later.foldl (fun text kind => kind.pass text) (around.text piece) =
      inlineCode.pass (blocked text) := by
  cases coded with
  | @block earlier later found edits_eq =>
    have written : codeBlocks.pass text.toList = (⟨Edit.targets codeBlocks.written earlier,
        Edit.targets codeBlocks.written later⟩ : Around).text (codeBlocks.written found) :=
      rewrite_of_edits edits_eq
    rw [List.foldl_append, ← written, blocked, List.foldl_cons, List.foldl_nil]
  | span edits_eq => exact (rewrite_of_edits edits_eq).symm

/-- The passes on the lines between the code blocks and that of code spans leave code alone. -/
theorem Coded.exists_leavesAll (coded : Coded text piece later around) :
    ∃ reading, LeavesAll piece later around reading := by
  have isSealed := coded.isSealed
  cases coded with
  | @block earlier later found edits_eq =>
    have spared : ∀ kind ∈ besidesCode, ∀ around, around.IsLine →
        ∃ around', Leaves kind.regex kind.written [] (codeBlocks.written found) around around' ∧
          around'.IsLine := by
      intro kind besides around isLine
      have block : kind.isBlock = true := by
        revert besides
        cases kind <;> decide
      exact (scansLines_blockTake block).exists_leaves (spares_blockTake isSealed besides)
        isSealed.inLine isLine
    rcases exists_leavesAll_of_stands spared (isLine_of_swap edits_eq).2 with ⟨next, first, isLine⟩
    rcases exists_leaves_inlineCode isSealed isLine with ⟨reading, last⟩
    exact ⟨reading, first.append (.cons last (.nil reading))⟩
  | span edits_eq => exact ⟨_, .nil _⟩

end Coded

end Builtin

open Builtin Regex

/-- All that is written for code blocks and code spans is in the text in which images and links are
read, at the place that the passes leave it.  If no image stands around a piece of it and no target
goes on into it, every later pass leaves the piece alone, and it is on one line of the result. -/
theorem convert_keeps_code [Host] {text : String} {piece : List Char} {later : List Builtin}
    {around : Around} (coded : Coded text piece later around) :
    (∃ reading, LeavesAll piece later around reading) ∧ ∀ reading,
      LeavesAll piece later around reading →
      inlineCode.pass (blocked text) = reading.text piece ∧
        (¬ InImage reading piece → ¬ InTarget reading piece →
        ∃ around', LeavesAll piece (images :: links :: emphasis) reading around' ∧
          inlined text = around'.text piece ∧
          ∃ html, convert {} (.text text) = .ok html ∧ OnOneLine around' piece html.toList ∧
            Text.unbroken piece = piece) := by
  have isSealed := coded.isSealed
  refine ⟨coded.exists_leavesAll, ?_⟩
  intro reading leaves
  have read_eq : inlineCode.pass (blocked text) = reading.text piece :=
    coded.foldl_eq.symm.trans leaves.foldl_eq
  refine ⟨read_eq, ?_⟩
  intro noImage free
  rcases exists_leavesAll_inlines isSealed noImage free with ⟨around', inlineLeaves⟩
  have inlined_eq : inlined text = around'.text piece := by
    rw [← inlineLeaves.foldl_eq, ← read_eq]
    simp only [inlined, inlines, List.foldl_cons]
  refine ⟨around', inlineLeaves, inlined_eq, _, convert_default text, ?_,
    Text.unbroken_eq_self isSealed.trimmed isSealed.inLine⟩
  rw [String.toList_ofList, foldl_all_eq, inlined_eq]
  exact onOneLine isSealed.trimmed (.inl isSealed.inLine)

attribute [local instance] Host.standard

/-- A code span behind an image and a link with a title is kept. -/
theorem convert_keeps_code_behind_link :
    Coded "![i](p) [a](u \"t\") \x60*b*\x60" "<code>&#42;b&#42;</code>".toList
      [] ⟨"![i](p) [a](u \"t\") ".toList, []⟩ ∧
      ∃ around html, LeavesAll "<code>&#42;b&#42;</code>".toList (images :: links :: emphasis)
          ⟨"![i](p) [a](u \"t\") ".toList, []⟩ around ∧
        convert {} (.text "![i](p) [a](u \"t\") \x60*b*\x60") = .ok html ∧
        OnOneLine around "<code>&#42;b&#42;</code>".toList html.toList := by
  let found : Found := ⟨"\x60*b*\x60".toList, [some ['\x60'], some "*b*".toList]⟩
  have edits_eq : inlineCode.regex.edits [] (blocked "![i](p) [a](u \"t\") \x60*b*\x60") =
      "![i](p) [a](u \"t\") ".toList.map .keep ++ .swap found :: [] := by
    decide +kernel
  have written_eq : inlineCode.written found = "<code>&#42;b&#42;</code>".toList := by
    decide +kernel
  have coded := Coded.span edits_eq
  rw [written_eq, Edit.targets_map_keep, Edit.targets_nil] at coded
  have noImage :
      ¬ InImage ⟨"![i](p) [a](u \"t\") ".toList, []⟩ "<code>&#42;b&#42;</code>".toList := by
    rintro ⟨before, label, more, after, url, title, target, -, back_eq, -⟩
    simp at back_eq
  have free :
      ¬ InTarget ⟨"![i](p) [a](u \"t\") ".toList, []⟩ "<code>&#42;b&#42;</code>".toList := by
    apply not_inTarget_of_closes
    intro before begun front_eq
    have mem : ']' :: '(' :: begun ∈ "![i](p) [a](u \"t\") ".toList.tails :=
      (List.mem_tails _ _).mpr ⟨before, front_eq.symm⟩
    have front_chars : "![i](p) [a](u \"t\") ".toList =
        ['!', '[', 'i', ']', '(', 'p', ')', ' ', '[', 'a', ']', '(', 'u', ' ',
        '"', 't', '"', ')', ' '] := by
      decide
    rw [front_chars] at mem
    rcases (by simpa using mem : begun = _ ∨ begun = _) with rfl | rfl
    · exact ⟨['p'], none, _, _, .plain (by decide) (by decide), rfl⟩
    · exact ⟨['u'], some ['t'], _, _, @IsTarget.titled _ (by decide) (by decide) [' '] ['t']
        (by decide) (by decide) (by decide), rfl⟩
  rcases (convert_keeps_code coded).2 _ (.nil _) with ⟨-, kept⟩
  rcases kept noImage free with ⟨around, leaves, -, html, html_eq, onOneLine, -⟩
  exact ⟨coded, around, html, leaves, html_eq, onOneLine⟩

/-- A code span that holds the end of a target is cut. -/
theorem convert_cuts_code :
    .swap ⟨"\x60b)c\x60".toList, [some ['\x60'], some "b)c".toList]⟩ ∈
        inlineCode.regex.edits [] (blocked "[a](\x60b)c\x60") ∧
      convert {} (.text "[a](\x60b)c\x60") = .ok "<p><a href=\"&lt;code&gt;b\">a</a>c</code></p>" ∧
      ¬ inlineCode.written ⟨"\x60b)c\x60".toList, [some ['\x60'], some "b)c".toList]⟩ <:+:
        "<p><a href=\"&lt;code&gt;b\">a</a>c</code></p>".toList := by
  have html_eq : all.foldl (fun text kind => kind.pass text) "[a](\x60b)c\x60".toList =
      "<p><a href=\"&lt;code&gt;b\">a</a>c</code></p>".toList := by
    decide +kernel
  refine ⟨?_, ?_, ?_⟩
  · decide +kernel
  · rw [convert_default, html_eq, String.ofList_toList]
  · decide +kernel

end Markflow

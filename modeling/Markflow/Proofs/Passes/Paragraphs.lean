import Markflow.Proofs.Passes.Runs

/-!
# Paragraphs

The last pass takes runs of lines that are not blank.  It has no anchors: a run is taken from its
first line on because the line before it is blank or belongs to no match, and a blank line has no
place where a match could begin.
-/

namespace Markflow.Builtin

open Regex Regex.Node

/-- A line that is not blank, and what is tried behind it. -/
def inkLine (next : State → List State) (s : State) : List State :=
  ((many lineBlankSet).ways s).flatMap fun t =>
    ((one inkSet).ways t).flatMap fun u => ((many (allBut '\n')).ways u).flatMap next

theorem head?_inkLine {next : State → List State} (goesOn : ∀ s, next s ≠ [])
    {before line tail : List Char}
    {marks : List GroupMark} (closes : closesLine tail = true) (inLine : '\n' ∉ line) :
    (inkLine next ⟨.amid before (line ++ tail), marks⟩).head? =
      if Text.hasInk line then (next ⟨.amid (line.reverse ++ before) tail, marks⟩).head?
        else none := by
  obtain ⟨blanks, text, rfl, blanks_all, text_stops⟩ :=
    Text.exists_cut (fun c => Text.isBlank c && c != '\n') line
  have noInk : Text.hasInk blanks = false := by
    simpa [Text.hasInk] using fun c mem => (Bool.and_eq_true_iff.mp (blanks_all c mem)).1
  have tail_stops : Text.Stops (fun c => Text.isBlank c && c != '\n') tail :=
    stops_of_closesLine (by simp) closes
  rw [inkLine, List.append_assoc, flatMap_many _ (by simpa using blanks_all)
    (by simpa using text_stops.append tail_stops)]
  · rcases text with _ | ⟨c, text⟩
    · rcases tail with _ | ⟨d, tail⟩
      · simp [noInk]
      · obtain rfl : d = '\n' := by simpa using closes
        have blank : Text.isBlank '\n' = true := by decide
        simp [noInk, blank]
    · have c_ne : c ≠ '\n' := by
        rintro rfl
        exact inLine (by simp)
      have ink : Text.isBlank c = false := by simpa [c_ne] using text_stops
      have hasInk : Text.hasInk (blanks ++ c :: text) = true := by simp [Text.hasInk, ink]
      have text_all : ∀ d ∈ text, (allBut '\n').holds d = true := by
        intro d mem
        have : d ≠ '\n' := by
          rintro rfl
          exact inLine (by simp [mem])
        simpa using this
      have rest_stops : Text.Stops (allBut '\n').holds tail := by
        simpa using @stops_of_closesLine (· != '\n') (by simp) _ closes
      have first := @head?_flatMap_of_head? _ next _
        (@head?_ways_many (c :: (blanks.reverse ++ before)) _ _ marks _ text_all rest_stops)
          (goesOn _)
      simpa [hasInk, ink] using first
  · intro before c after holds
    have blank : Text.isBlank c = true := by
      have : Text.isBlank c = true ∧ c ≠ '\n' := by simpa using holds
      exact this.1
    simp [blank]

/-- The further lines of a paragraph. -/
def paragraphRest : Node :=
  loop .greedy 0 none (sequence [lit '\n', many lineBlankSet, one inkSet, many (allBut '\n')])

theorem head?_ways_paragraphRest {before : List Char} {marks : List GroupMark}
    {more : List (List Char)} (inLine : ∀ line ∈ more, '\n' ∉ line) :
    (paragraphRest.ways ⟨.amid before (Text.lineTail more), marks⟩).head? =
      some ⟨.amid ((Text.lineTail (more.takeWhile Text.hasInk)).reverse ++ before)
        (Text.lineTail (more.dropWhile Text.hasInk)), marks⟩ := by
  have body_eq : ∀ before line (more : List (List Char)), '\n' ∉ line →
      ((sequence [lit '\n', many lineBlankSet, one inkSet, many (allBut '\n')]).ways
        ⟨.amid before (Text.lineTail (line :: more)), marks⟩).head? =
          if Text.hasInk line then
            some ⟨.amid ((Text.lineTail [line]).reverse ++ before) (Text.lineTail more), marks⟩
          else none := by
    intro before line more line_in
    have inked := @head?_inkLine (fun s => [s]) (by simp) ('\n' :: before) _ _ marks
      (closesLine_lineTail more) line_in
    have body_eq : ∀ s, (sequence [many lineBlankSet, one inkSet, many (allBut '\n')]).ways s =
        inkLine (fun s => [s]) s := by
      intro s
      simp only [inkLine, List.flatMap_singleton']
      rfl
    rw [show sequence [lit '\n', many lineBlankSet, one inkSet, many (allBut '\n')] =
        seq (lit '\n') (sequence [many lineBlankSet, one inkSet, many (allBut '\n')]) from rfl,
        ways_seq, Text.lineTail_cons, ways_lit_cons,
      if_pos rfl, List.flatMap_singleton, body_eq, inked]
    simp
  induction more generalizing before with
  | nil =>
    rw [paragraphRest, head?_ways_greedy rfl]
    simp [Node.sequence]
  | cons line more ih =>
    rw [paragraphRest, head?_ways_greedy rfl, body_eq before line more (inLine line (by simp))]
    by_cases ink : Text.hasInk line = true
    · have below := @ih ((Text.lineTail [line]).reverse ++ before)
        fun other mem => inLine other (by simp [mem])
      rw [paragraphRest] at below
      simpa [ink] using below
    · simp [ink]

/-- A run of lines that are not blank is matched from its first line on. -/
theorem findAt?_paragraphs {before line : List Char} {more : List (List Char)}
    (line_in : '\n' ∉ line) (more_in : ∀ other ∈ more, '\n' ∉ other) :
    paragraphs.regex.findAt? before (line ++ Text.lineTail more) =
      if Text.hasInk line then
        some ⟨Text.join ['\n'] (line :: more.takeWhile Text.hasInk),
          [some (Text.join ['\n'] (line :: more.takeWhile Text.hasInk))]⟩
      else none := by
  have opened :
      paragraphs.regex.root.ways
        (.begin (.amid before (line ++ Text.lineTail more)) paragraphs.regex.groupCount) =
      (inkLine paragraphRest.ways ⟨.amid before (line ++ Text.lineTail more),
        [{ opened := some (.amid before (line ++ Text.lineTail more)) }]⟩).map (·.leave 1) := rfl
  have goesOn : ∀ s, paragraphRest.ways s ≠ [] := ways_greedy_ne_nil rfl
  have first := congrArg List.head? opened
  rw [List.head?_map, head?_inkLine goesOn (closesLine_lineTail more) line_in] at first
  by_cases ink : Text.hasInk line = true
  · rw [if_pos ink, head?_ways_paragraphRest more_in] at first
    have split : line ++ Text.lineTail more =
        Text.join ['\n'] (line :: more.takeWhile Text.hasInk) ++
          Text.lineTail (more.dropWhile Text.hasInk) := by
      rw [Text.join_cons, List.append_assoc, ← Text.lineTail_append,
        List.takeWhile_append_dropWhile]
    rw [if_pos ink, split]
    rw [split] at first
    refine findAt?_of_head? (first.trans ?_) (.cons (GroupMark.spans_amid before _
      (Text.lineTail (more.dropWhile Text.hasInk))) .nil) rfl
    simp [State.leave, Text.join_cons]
  · rw [if_neg ink] at first ⊢
    exact findAt?_eq_none_of_ways (List.head?_eq_none_iff.mp (by simpa using first))

/-- The names of block elements are in lower case, so each is a spelling of itself. -/
theorem alike_of_mem_blockTags : ∀ tag ∈ blockTags, ∀ c ∈ tag.toList,
    (Regex.CharSet.single .unicode c.toNat).holds c = true := by
  decide +kernel

theorem afterTagName?_append {name : List Char}
    (alike : ∀ c ∈ name, (Regex.CharSet.single .unicode c.toNat).holds c = true)
    (rest : List Char) :
    afterTagName? name (name ++ rest) = some rest := by
  induction name with
  | nil => cases rest <;> rfl
  | cons c name ih =>
    rw [List.cons_append, afterTagName?, if_pos (alike c (by simp)), ih fun d mem =>
      alike d (by simp [mem])]

/-- A text that starts with the name of a block element, behind which the name ends. -/
theorem startsWithBlockTag_append {tag : String} (mem : tag ∈ blockTags) {c : Char}
    (rest : List Char)
    (ends : (Text.isBlank c || c == '/' || c == '>') = true) :
    startsWithBlockTag (tag.toList ++ c :: rest) = true := by
  rw [startsWithBlockTag, List.any_eq_true]
  exact ⟨tag, mem, by rw [afterTagName?_append (alike_of_mem_blockTags tag mem)]; exact ends⟩

/-- A line that opens with the tag of a block element. -/
theorem isBlockLine_tag {tag : String} (mem : tag ∈ blockTags) {c : Char} (rest : List Char)
    (ends : (Text.isBlank c || c == '/' || c == '>') = true) :
    isBlockLine ('<' :: (tag.toList ++ c :: rest)) = true := by
  have starts := startsWithBlockTag_append mem rest ends
  have noSlash : ∀ text, startsWithBlockTag ('/' :: text) = false := fun _ => rfl
  unfold isBlockLine
  rw [List.dropWhile_cons_of_neg (by decide)]
  split
  · rfl
  · next text_eq =>
    obtain ⟨_, text_eq⟩ := List.cons.inj text_eq
    rw [text_eq, noSlash] at starts
    exact absurd starts (by simp)
  · next text_eq =>
    obtain ⟨_, rfl⟩ := List.cons.inj text_eq
    exact starts
  · next other => exact absurd rfl (other _)

/-- What is neither in the markup of a paragraph nor in its lines is not in what is written for
it. -/
theorem not_mem_paragraphLine {c : Char} (noMarkup : c ∉ " </p>".toList)
    {pending : List (List Char)}
    (inLine : ∀ line ∈ pending, c ∉ line) : ∀ line ∈ paragraphLine pending, c ∉ line := by
  have markup (text : String) (within : text.toList ⊆ " </p>".toList) : c ∉ text.toList :=
    fun mem => noMarkup (within mem)
  intro line mem
  unfold paragraphLine at mem
  split at mem
  · cases mem
  · rcases List.mem_singleton.mp mem with rfl
    have joined : c ∉ Text.join [' '] pending := Text.not_mem_join (markup " " (by decide)) inLine
    exact List.not_mem_append (List.not_mem_append (markup "<p>" (by decide)) joined)
      (markup "</p>" (by decide))

theorem wrapLines_ne_nil {pending ls : List (List Char)} (nonempty : pending ≠ [] ∨ ls ≠ []) :
    wrapLines pending ls ≠ [] := by
  induction ls generalizing pending with
  | nil =>
    have : pending ≠ [] := by simpa using nonempty
    simp [wrapLines, paragraphLine, this]
  | cons line more ih =>
    by_cases block : isBlockLine line
    · simp [wrapLines, block]
    · simpa [wrapLines, block] using ih (.inl (by simp))

theorem scansLines_paragraphs :
    ScansLines paragraphs.regex paragraphs.written (runTake Text.hasInk (wrapLines [])) where
  consumes := consumes_regex paragraphs
  noBreak := by
    intro before after
    have split := Text.join_lines after
    have nothing := @findAt?_paragraphs before [] (Text.lines after) (by simp)
      fun other mem => Text.newline_not_mem_of_mem_lines mem
    rw [Text.lineTail_eq_cons_join (Text.lines_ne_nil after), split] at nothing
    simpa [Text.hasInk] using nothing
  missed := by
    intro before line more opens line_in more_in missed front back split
    have noInk : Text.hasInk line = false := by
      by_contra ink
      simp [runTake, ink] at missed
    subst split
    rw [findAt?_paragraphs (fun mem => line_in (List.mem_append_right _ mem)) more_in, if_neg]
    simp_all [Text.hasInk]
  nonempty := by
    intro line more out count taken
    unfold runTake at taken
    split at taken
    · obtain ⟨rfl, _⟩ : wrapLines [] (line :: more.takeWhile Text.hasInk) = out ∧ _ := by
        simpa using taken
      exact wrapLines_ne_nil (.inr (by simp))
    · simp at taken
  taken := by
    intro before line more out count opens line_in more_in taken
    unfold runTake at taken
    split at taken
    case isFalse => simp at taken
    case isTrue ink =>
      obtain ⟨rfl, rfl⟩ : wrapLines [] (line :: more.takeWhile Text.hasInk) = out ∧
          (more.takeWhile Text.hasInk).length = count := by simpa using taken
      have found := @findAt?_paragraphs before _ _ line_in more_in
      rw [if_pos ink] at found
      have run_in : ∀ other ∈ line :: more.takeWhile Text.hasInk, '\n' ∉ other := by
        intro other mem
        rcases List.mem_cons.mp mem with rfl | mem
        · exact line_in
        · exact more_in other (List.takeWhile_subset _ mem)
      refine ⟨_, found, .inl ⟨by rw [Text.take_length_takeWhile], ?_⟩⟩
      rw [written_of_render (render_paragraphs _)]
      simp [Found.group, Text.lines_join run_in]

/-- Lines that open blocks are left alone. -/
theorem wrapLines_of_isBlockLine {ls : List (List Char)}
    (block : ∀ line ∈ ls, isBlockLine line = true) :
    wrapLines [] ls = ls := by
  induction ls with
  | nil => rfl
  | cons line more ih =>
    rw [wrapLines, if_pos (block line (by simp)), ih fun other mem => block other (by simp [mem])]
    rfl

/-- Lines that open no block become one line. -/
theorem wrapLines_of_not_isBlockLine {ls : List (List Char)}
    (plain : ∀ line ∈ ls, isBlockLine line = false)
    (pending : List (List Char)) :
    wrapLines pending ls = paragraphLine (pending ++ ls.map Text.strip) := by
  induction ls generalizing pending with
  | nil => simp [wrapLines]
  | cons line more ih =>
    rw [wrapLines, if_neg (by simp [plain line (by simp)]), ih fun other mem =>
      plain other (by simp [mem])]
    simp

end Markflow.Builtin

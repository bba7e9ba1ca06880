import Markflow.Proofs.Document.Words
import Markflow.Proofs.Text.Places

/-!
# Blank lines

A blank line between two others ends a paragraph.  In a text that neither starts nor ends with white
space and has no such line, all lines have ink, and they still have it when more is put before the
first and behind the last of them.  Put together with spaces, the lines of such a text stand within
those of the longer one (`unbroken_around`).
-/

namespace Markflow.Text

/-- Between two line feeds of a text there is only white space. -/
def HasBlankLine (text : List Char) : Prop :=
  ∃ front blanks back, text = front ++ '\n' :: (blanks ++ '\n' :: back) ∧ ∀ c ∈ blanks,
    isBlank c = true

section HasBlankLine

variable {front back text : List Char} {c : Char}

theorem isBlank_newline : isBlank '\n' = true := by
  decide

theorem HasBlankLine.of_infix {piece : List Char} (isInfix : piece <:+: text)
    (blank : HasBlankLine piece) :
    HasBlankLine text := by
  rcases isInfix with ⟨earlier, later, rfl⟩
  rcases blank with ⟨front, blanks, back, rfl, blanks_all⟩
  exact ⟨earlier ++ front, blanks, back ++ later, by simp, blanks_all⟩

theorem not_hasBlankLine (inLine : '\n' ∉ text) : ¬ HasBlankLine text := by
  rintro ⟨front, blanks, back, rfl, -⟩
  exact inLine (by simp)

/-- A character that is no white space is in no blank line and ends none. -/
theorem hasBlankLine_append_cons (ink : isBlank c = false) :
    HasBlankLine (front ++ c :: back) ↔ HasBlankLine front ∨ HasBlankLine back := by
  have apart : ∀ {more : List Char}, '\n' :: more ≠ c :: back := by
    rintro more same
    rcases List.cons.inj same with ⟨rfl, -⟩
    rw [isBlank_newline] at ink
    cases ink
  constructor
  · rintro ⟨first, blanks, last, split, blanks_all⟩
    -- The character is neither one of the two line feeds nor one of those between them.
    rcases exists_of_append_eq split.symm with ⟨more, rfl, rfl⟩ | ⟨more, front_eq, rest_eq⟩
    · exact .inr ⟨more, blanks, last, rfl, blanks_all⟩
    · rcases more with _ | ⟨d, more⟩
      · exact absurd rest_eq apart
      · rcases List.cons.inj rest_eq with ⟨rfl, blanks_eq⟩
        rcases exists_of_append_eq blanks_eq with ⟨others, inBlanks, -⟩ | ⟨others, more_eq, last_eq⟩
        · rw [blanks_all c (by simp [inBlanks])] at ink
          cases ink
        · rcases others with _ | ⟨d, others⟩
          · exact absurd last_eq apart
          · rcases List.cons.inj last_eq with ⟨rfl, -⟩
            exact .inl ⟨first, blanks, others, by rw [front_eq, more_eq], blanks_all⟩
  · rintro (inFront | inBack)
    · exact inFront.of_infix (List.prefix_append front _).isInfix
    · exact inBack.of_infix ((List.suffix_cons c back).trans (List.suffix_append front _)).isInfix

theorem hasBlankLine_cons (ink : isBlank c = false) :
    HasBlankLine (c :: back) ↔ HasBlankLine back := by
  have none : ¬ HasBlankLine [] := not_hasBlankLine List.not_mem_nil
  rw [← List.nil_append (c :: back), hasBlankLine_append_cons ink]
  simp [none]

theorem HasBlankLine.of_append_left (inLine : '\n' ∉ front) (blank : HasBlankLine (front ++ back)) :
    HasBlankLine back := by
  rcases blank with ⟨first, blanks, last, split, blanks_all⟩
  rcases exists_of_append_eq split with ⟨more, rfl, -⟩ | ⟨more, -, rfl⟩
  · exact absurd (by simp) inLine
  · exact ⟨more, blanks, last, rfl, blanks_all⟩

theorem HasBlankLine.of_append_right (inLine : '\n' ∉ back) (blank : HasBlankLine (front ++ back)) :
    HasBlankLine front := by
  rcases blank with ⟨first, blanks, last, split, blanks_all⟩
  rw [← List.cons_append, ← List.append_assoc] at split
  rcases exists_of_append_eq split with ⟨more, rfl, -⟩ | ⟨more, -, rfl⟩
  · exact ⟨first, blanks, more, by simp, blanks_all⟩
  · exact absurd (by simp) inLine

end HasBlankLine

section Lines

variable {front back text line : List Char} {c : Char}

/-- The lines of two texts put together, where the last line of the one goes on with the first of
the other. -/
theorem lines_append {above below : List (List Char)} {last first : List Char}
    (front_eq : lines front = above ++ [last])
    (back_eq : lines back = first :: below) :
    lines (front ++ back) = above ++ (last ++ first) :: below := by
  have front_in : ∀ other ∈ above ++ [last], '\n' ∉ other := by
    rw [← front_eq]
    exact fun _ => newline_not_mem_of_mem_lines
  have back_in : ∀ other ∈ first :: below, '\n' ∉ other := by
    rw [← back_eq]
    exact fun _ => newline_not_mem_of_mem_lines
  have inLine : ∀ other ∈ above ++ (last ++ first) :: below, '\n' ∉ other := by
    intro other mem
    rcases List.mem_append.mp mem with isAbove | rest
    · exact front_in other (List.mem_append_left _ isAbove)
    · rcases List.mem_cons.mp rest with rfl | isBelow
      · exact List.not_mem_append (front_in last (by simp)) (back_in first List.mem_cons_self)
      · exact back_in other (List.mem_cons_of_mem first isBelow)
  have text_eq : front ++ back = join ['\n'] (above ++ (last ++ first) :: below) := by
    rw [← join_lines front, ← join_lines back, front_eq, back_eq, join_around,
      join_around, join_cons]
    simp
  rw [text_eq, lines_join inLine (by simp)]

theorem exists_lines_cons (text : List Char) : ∃ first below, lines text = first :: below :=
  List.exists_cons_of_ne_nil (lines_ne_nil text)

theorem exists_lines_concat (text : List Char) : ∃ above last, lines text = above ++ [last] := by
  rcases (lines text).eq_nil_or_concat with none | ⟨above, last, split⟩
  · exact absurd none (lines_ne_nil text)
  · exact ⟨above, last, by simpa using split⟩

theorem lines_append_newline_append (front back : List Char) :
    lines (front ++ '\n' :: back) = lines front ++ lines back := by
  rcases exists_lines_concat front with ⟨above, last, split⟩
  rw [lines_append split (show lines ('\n' :: back) = [] :: lines back from rfl), split]
  simp

theorem hasBlankLine_of_lines {above below : List (List Char)} {before behind : List Char}
    (split : lines text = above ++ before :: line :: behind :: below)
    (noInk : hasInk line = false) : HasBlankLine text := by
  have text_eq := join_lines text
  rw [split, join_around, lineTail_cons, lineTail_cons] at text_eq
  refine ⟨ended above ++ before, line, behind ++ lineTail below, ?_, by simpa [hasInk] using noInk⟩
  rw [← text_eq, List.append_assoc]

/-- A blank line between two others is one of the lines, neither the first nor the last. -/
theorem hasBlankLine_iff :
    HasBlankLine text ↔ ∃ line ∈ (lines text).tail.dropLast, hasInk line = false := by
  constructor
  · rintro ⟨front, blanks, back, rfl, blanks_all⟩
    rcases exists_lines_cons blanks with ⟨line, more, blanks_eq⟩
    have line_blank : ∀ c ∈ line, isBlank c = true :=
      fun c mem => blanks_all c (subset_of_mem_lines (by simp [blanks_eq]) mem)
    refine ⟨line, ?_, by simpa [hasInk] using line_blank⟩
    rw [lines_append_newline_append, lines_append_newline_append,
      List.tail_append_of_ne_nil (lines_ne_nil front),
      List.dropLast_append_of_ne_nil (by simp [lines_ne_nil]),
      List.dropLast_append_of_ne_nil (lines_ne_nil back), blanks_eq]
    simp
  · rintro ⟨line, mem, noInk⟩
    rcases exists_lines_cons text with ⟨first, more, split⟩
    rw [split, List.tail_cons] at mem
    rcases more.eq_nil_or_concat with rfl | ⟨more, last, rfl⟩
    · cases mem
    rw [List.concat_eq_append] at split mem
    rw [List.dropLast_concat] at mem
    rcases List.append_of_mem mem with ⟨above, below, rfl⟩
    rcases (first :: above).eq_nil_or_concat with none | ⟨others, before, above_eq⟩
    · cases none
    rcases List.exists_cons_of_ne_nil (List.concat_ne_nil last below) with ⟨behind, rest, below_eq⟩
    rw [List.concat_eq_append] at above_eq
    apply @hasBlankLine_of_lines text line others rest before behind _ noInk
    rw [split, List.append_assoc, List.cons_append, below_eq, ← List.cons_append, above_eq]
    simp

instance decidableHasBlankLine (text : List Char) : Decidable (HasBlankLine text) :=
  decidable_of_iff _ hasBlankLine_iff.symm

theorem newline_ne_of_ink (ink : isBlank c = false) : '\n' ≠ c := by
  rintro rfl
  rw [isBlank_newline] at ink
  cases ink

/-- The first line of a text that starts with ink, with more put before it. -/
theorem exists_lines_ink_cons (ink : isBlank c = false) (rest : List Char) :
    ∃ first below, ∀ near, '\n' ∉ near →
      lines (near ++ c :: rest) = (near ++ c :: first) :: below := by
  rcases exists_lines_cons rest with ⟨first, below, rest_eq⟩
  refine ⟨first, below, ?_⟩
  intro near near_in
  have inLine : '\n' ∉ near ++ [c] :=
    List.not_mem_append near_in (by simpa using newline_ne_of_ink ink)
  have split := @lines_append (near ++ [c]) rest [] below (near ++ [c]) first
    (lines_of_inLine inLine) rest_eq
  simpa using split

/-- The last line of a text that ends with ink, with more put behind it. -/
theorem exists_lines_concat_ink (ink : isBlank c = false) (rest : List Char) :
    ∃ above last, ∀ far, '\n' ∉ far → lines (rest ++ c :: far) = above ++ [last ++ c :: far] := by
  rcases exists_lines_concat rest with ⟨above, last, rest_eq⟩
  refine ⟨above, last, ?_⟩
  intro far far_in
  exact lines_append rest_eq
    (lines_of_inLine (List.not_mem_cons_of_ne_of_not_mem (newline_ne_of_ink ink) far_in))

/-- A text that neither starts nor ends with white space. -/
structure Trimmed (text : List Char) : Prop where
  starts : ∃ c rest, isBlank c = false ∧ text = c :: rest
  ends : ∃ rest c, isBlank c = false ∧ text = rest ++ [c]

theorem Trimmed.of_ends {first last : Char} (first_ink : isBlank first = false)
    (last_ink : isBlank last = false)
    (starts : ∃ rest, text = first :: rest) (ends : ∃ rest, text = rest ++ [last]) :
    Trimmed text := by
  rcases starts with ⟨rest, starts⟩
  rcases ends with ⟨rest', ends⟩
  exact ⟨⟨first, rest, first_ink, starts⟩, ⟨rest', last, last_ink, ends⟩⟩

theorem hasInk_append (front back : List Char) :
    hasInk (front ++ back) = (hasInk front || hasInk back) :=
  List.any_append

theorem hasInk_cons (ink : isBlank c = false) (rest : List Char) : hasInk (c :: rest) = true := by
  simp [hasInk, ink]

/-- Of a text that starts and ends with ink, only a blank line between two others has none, and more
on the first line and on the last changes nothing of this. -/
theorem hasInk_of_mem_lines (trimmed : Trimmed text) (whole : ¬ HasBlankLine text)
    {near far : List Char}
    (near_in : '\n' ∉ near) (far_in : '\n' ∉ far) (mem : line ∈ lines (near ++ (text ++ far))) :
    hasInk line = true := by
  rcases List.append_of_mem mem with ⟨above, below, split⟩
  -- The first line has the first character of the text, and the last line has its last.
  rcases above.eq_nil_or_concat with rfl | ⟨above, before, rfl⟩
  · rcases trimmed.starts with ⟨c, rest, ink, rfl⟩
    rcases exists_lines_ink_cons ink (rest ++ far) with ⟨first, others, lines_eq⟩
    rw [List.cons_append, lines_eq near near_in, List.nil_append] at split
    rcases List.cons.inj split with ⟨rfl, -⟩
    rw [hasInk_append, hasInk_cons ink, Bool.or_true]
  rcases below with _ | ⟨behind, below⟩
  · rcases trimmed.ends with ⟨rest, c, ink, rfl⟩
    rcases exists_lines_concat_ink ink (near ++ rest) with ⟨others, last, lines_eq⟩
    rw [List.append_assoc, ← List.append_assoc, List.singleton_append, lines_eq far far_in] at split
    rcases List.append_inj' split rfl with ⟨-, line_eq⟩
    rw [← (List.cons.inj line_eq).1, hasInk_append, hasInk_cons ink, Bool.or_true]
  · by_contra noInk
    rw [List.concat_eq_append, List.append_assoc, List.singleton_append] at split
    have blank := hasBlankLine_of_lines split (eq_false_of_ne_true noInk)
    exact whole ((blank.of_append_left near_in).of_append_right far_in)

end Lines

section Unbroken

variable {text : List Char} {c : Char}

/-- A text on one line, as a paragraph has it. -/
def unbroken (text : List Char) : List Char :=
  join [' '] ((lines text).map strip)

theorem stripRight_append_cons (ink : isBlank c = false) (front back : List Char) :
    stripRight (front ++ c :: back) = front ++ c :: stripRight back := by
  have stops : Stops isBlank (c :: front.reverse) := stops_cons.mpr ink
  rcases exists_cut isBlank back.reverse with ⟨blanks, kept, split, blanks_all, kept_stops⟩
  have back_eq : stripRight back = kept.reverse := by
    rw [stripRight, split, dropWhile_cut blanks_all kept_stops]
  have whole_stops : Stops isBlank (kept ++ c :: front.reverse) := kept_stops.append stops
  have whole_eq : (front ++ c :: back).reverse = blanks ++ (kept ++ c :: front.reverse) := by
    rw [List.reverse_append, List.reverse_cons, split]
    simp
  rw [back_eq, stripRight, whole_eq, dropWhile_cut blanks_all whole_stops]
  simp

theorem strip_append_cons (ink : isBlank c = false) (front back : List Char) :
    strip (front ++ c :: back) = stripLeft front ++ c :: stripRight back := by
  rcases exists_cut isBlank front with ⟨blanks, kept, rfl, blanks_all, kept_stops⟩
  have whole_stops : Stops isBlank (kept ++ c :: back) := kept_stops.append (stops_cons.mpr ink)
  rw [strip, List.append_assoc, stripLeft, dropWhile_cut blanks_all whole_stops,
    stripRight_append_cons ink, stripLeft, dropWhile_cut blanks_all kept_stops]

theorem join_append_cons (separator front back : List Char) (more : List (List Char)) :
    join separator ((front ++ back) :: more) = front ++ join separator (back :: more) := by
  cases more <;> simp [join]

theorem join_concat_append (separator front back : List Char) (above : List (List Char)) :
    join separator (above ++ [front ++ back]) = join separator (above ++ [front]) ++ back := by
  induction above with
  | nil => rfl
  | cons line above ih =>
    rcases above with _ | ⟨next, above⟩
    · simp [join]
    · simp only [List.cons_append, join, List.append_assoc] at ih ⊢
      rw [ih]

/-- Some lines of those that are put together. -/
theorem infix_join {separator : List Char} {run : List (List Char)} (run_ne : run ≠ [])
    (first last : List (List Char)) :
    join separator run <:+: join separator (first ++ run ++ last) := by
  have isPrefix :
      ∀ run : List (List Char), run ≠ [] → join separator run <+: join separator (run ++ last) := by
    intro run run_ne
    induction run with
    | nil => exact absurd rfl run_ne
    | cons line run ih =>
      rcases run with _ | ⟨next, run⟩
      · rcases exists_join_cons separator line last with ⟨rest, join_eq⟩
        exact ⟨rest, join_eq.symm⟩
      · exact (List.prefix_append_right_inj _).mpr (ih (by simp))
  induction first with
  | nil => exact (isPrefix run run_ne).isInfix
  | cons line first ih =>
    rcases List.exists_cons_of_ne_nil (show first ++ run ++ last ≠ [] by simp [run_ne]) with
      ⟨next, more, split⟩
    have join_eq : join separator (line :: (first ++ run ++ last)) =
        line ++ separator ++ join separator (first ++ run ++ last) := by
      rw [split]
      rfl
    rw [List.cons_append, List.cons_append, join_eq]
    exact infix_append_left _ ih

theorem unbroken_append_left (ink : isBlank c = false) (rest : List Char) {near : List Char}
    (near_in : '\n' ∉ near) :
    unbroken (near ++ c :: rest) = stripLeft near ++ unbroken (c :: rest) := by
  rcases exists_lines_ink_cons ink rest with ⟨first, below, lines_eq⟩
  have alone : strip (c :: first) = c :: stripRight first := strip_append_cons ink [] first
  have alone_eq : lines (c :: rest) = (c :: first) :: below := lines_eq [] List.not_mem_nil
  rw [unbroken, unbroken, lines_eq near near_in, alone_eq, List.map_cons, List.map_cons,
    strip_append_cons ink, alone, join_append_cons]

theorem unbroken_append_right (ink : isBlank c = false) (rest : List Char) {far : List Char}
    (far_in : '\n' ∉ far) :
    unbroken (rest ++ c :: far) = unbroken (rest ++ [c]) ++ stripRight far := by
  rcases exists_lines_concat_ink ink rest with ⟨above, last, lines_eq⟩
  have split : strip (last ++ c :: far) = strip (last ++ [c]) ++ stripRight far := by
    rw [strip_append_cons ink, strip_append_cons ink]
    simp [stripRight]
  rw [unbroken, unbroken, lines_eq far far_in, lines_eq [] List.not_mem_nil, List.map_append,
    List.map_append, List.map_singleton, List.map_singleton, split, join_concat_append]

/-- A text that starts and ends with ink, with more on its first line and on its last. -/
theorem unbroken_around (trimmed : Trimmed text) {near far : List Char} (near_in : '\n' ∉ near)
    (far_in : '\n' ∉ far) :
    unbroken (near ++ (text ++ far)) = stripLeft near ++ (unbroken text ++ stripRight far) := by
  rcases trimmed.starts with ⟨c, rest, ink, starts⟩
  rcases trimmed.ends with ⟨rest', d, ink', ends⟩
  have left : unbroken (near ++ (text ++ far)) = stripLeft near ++ unbroken (text ++ far) := by
    rw [starts]
    exact unbroken_append_left ink (rest ++ far) near_in
  have right : unbroken (text ++ far) = unbroken text ++ stripRight far := by
    rw [ends, List.append_assoc]
    exact unbroken_append_right ink' rest' far_in
  rw [left, right]

/-- A text within a line that starts and ends with ink is as it is. -/
theorem unbroken_eq_self (trimmed : Trimmed text) (inLine : '\n' ∉ text) :
    unbroken text = text := by
  rcases trimmed.starts with ⟨c, rest, ink, starts⟩
  rcases trimmed.ends with ⟨rest', d, ink', ends⟩
  have stripped : strip text = text := by
    apply strip_eq_self
    · rw [starts]
      exact stops_cons.mpr ink
    · rw [ends, List.reverse_append]
      exact stops_cons.mpr ink'
  rw [unbroken, lines_of_inLine inLine, List.map_singleton, stripped]
  rfl

end Unbroken

end Markflow.Text

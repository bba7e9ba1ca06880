import Markflow.Proofs.Regex.Edits
import Mathlib.Data.List.Induction

/-!
# Texts with some parts written anew

A replacement writes something for some parts of a text and keeps what is between them.  `Swaps`
says so of two texts and of the parts, and not of how the parts are found: a match may count as one
part, or as several with kept text between them.  Where one of the texts is cut the other is cut
too, unless the cut is inside a part (`Swaps.cut`), and so a piece of text stands where no part
begins, ends or reaches.
-/

namespace Markflow

/-- A text becomes another when for some parts of it others are written.  None of them is empty. -/
inductive Swaps (allowed : List Char → List Char → Prop) : List Char → List Char → Prop where
  | nil : Swaps allowed [] []
  | keep {text result : List Char} (c : Char) (rest : Swaps allowed text result) :
      Swaps allowed (c :: text) (c :: result)
  | swap {part written text result : List Char} (isAllowed : allowed part written)
      (part_ne : part ≠ [])
      (written_ne : written ≠ []) (rest : Swaps allowed text result) :
      Swaps allowed (part ++ text) (written ++ result)

namespace Swaps

variable {allowed : List Char → List Char → Prop} {text result front back front' back' : List Char}

theorem refl (text : List Char) : Swaps allowed text text := by
  induction text with
  | nil => exact .nil
  | cons c text ih => exact .keep c ih

theorem of_part {part written : List Char} (isAllowed : allowed part written) (part_ne : part ≠ [])
    (written_ne : written ≠ []) : Swaps allowed part written := by
  have alone := Swaps.swap isAllowed part_ne written_ne .nil
  rwa [List.append_nil, List.append_nil] at alone

theorem append (first : Swaps allowed front front') (second : Swaps allowed back back') :
    Swaps allowed (front ++ back) (front' ++ back') := by
  induction first with
  | nil => exact second
  | keep c rest ih => exact .keep c ih
  | swap isAllowed part_ne written_ne rest ih =>
    rw [List.append_assoc, List.append_assoc]
    exact .swap isAllowed part_ne written_ne ih

theorem mono {allowed' : List Char → List Char → Prop}
    (more : ∀ part written, allowed part written → allowed' part written)
    (swaps : Swaps allowed text result) : Swaps allowed' text result := by
  induction swaps with
  | nil => exact .nil
  | keep c rest ih => exact .keep c ih
  | swap isAllowed part_ne written_ne rest
      ih => exact .swap (more _ _ isAllowed) part_ne written_ne ih

theorem symm (swaps : Swaps allowed text result) : Swaps (flip allowed) result text := by
  induction swaps with
  | nil => exact .nil
  | keep c rest ih => exact .keep c ih
  | swap isAllowed part_ne written_ne rest ih => exact .swap isAllowed written_ne part_ne ih

theorem eq_nil (swaps : Swaps allowed [] result) : result = [] := by
  generalize text_eq : ([] : List Char) = text at swaps
  cases swaps with
  | nil => rfl
  | keep c rest => cases text_eq
  | swap isAllowed part_ne written_ne
      rest => exact absurd (List.append_eq_nil_iff.mp text_eq.symm).1 part_ne

/-- A cut falls between what is kept and the parts, or inside a part. -/
theorem cut (swaps : Swaps allowed (front ++ back) result) :
    (∃ front' back', result = front' ++ back' ∧ Swaps allowed front front' ∧
      Swaps allowed back back') ∨
      ∃ earlier near far later written earlier' later', front = earlier ++ near ∧
        back = far ++ later ∧ near ≠ [] ∧
        far ≠ [] ∧ allowed (near ++ far) written ∧ result = earlier' ++ (written ++ later') ∧
        Swaps allowed earlier earlier' ∧ Swaps allowed later later' := by
  generalize text_eq : front ++ back = text at swaps
  induction swaps generalizing front with
  | nil =>
    rcases List.append_eq_nil_iff.mp text_eq with ⟨rfl, rfl⟩
    exact .inl ⟨[], [], rfl, .nil, .nil⟩
  | @keep text result c rest ih =>
    rcases front with _ | ⟨d, front⟩
    · rw [List.nil_append] at text_eq
      rw [text_eq]
      exact .inl ⟨[], c :: result, rfl, .nil, .keep c rest⟩
    · rcases List.cons.inj text_eq with ⟨rfl, below⟩
      rcases ih below with ⟨front', back', rfl, first, second⟩ |
        ⟨earlier, near, far, later, written, earlier', later', rfl, rfl, near_ne, far_ne, isAllowed,
          rfl, first, second⟩
      · exact .inl ⟨d :: front', back', rfl, .keep d first, second⟩
      · exact .inr ⟨d :: earlier, near, far, later, written, d :: earlier', later', rfl, rfl,
          near_ne, far_ne, isAllowed, rfl, .keep d first, second⟩
  | @swap part written text result isAllowed part_ne written_ne rest ih =>
    -- A cut at one of the ends of the part is between what is kept and the parts.
    rcases List.append_eq_append_iff.mp text_eq with ⟨more, part_eq, back_eq⟩
      | ⟨more, front_eq, rest_eq⟩
    · by_cases front_nil : front = []
      · subst front_nil
        rw [List.nil_append] at text_eq
        rw [text_eq]
        exact .inl ⟨[], written ++ result, rfl, .nil, .swap isAllowed part_ne written_ne rest⟩
      · by_cases more_nil : more = []
        · subst more_nil
          rw [List.append_nil] at part_eq
          rw [List.nil_append] at back_eq
          rw [back_eq, ← part_eq]
          exact .inl ⟨written, result, rfl, of_part isAllowed part_ne written_ne, rest⟩
        · rw [part_eq] at isAllowed
          exact .inr ⟨[], front, more, text, written, [], result, rfl, back_eq, front_nil, more_nil,
            isAllowed, rfl, .nil, rest⟩
    · rcases ih rest_eq.symm with ⟨front', back', rfl, first, second⟩ |
        ⟨earlier, near, far, later, written', earlier', later', rfl, rfl, near_ne, far_ne,
          isAllowed', rfl, first, second⟩
      · refine .inl ⟨written ++ front', back', by rw [List.append_assoc], ?_, second⟩
        rw [front_eq]
        exact .swap isAllowed part_ne written_ne first
      · refine .inr ⟨part ++ earlier, near, far, later, written', written ++ earlier', later', ?_,
          rfl, near_ne, far_ne, isAllowed', ?_, .swap isAllowed part_ne written_ne first, second⟩
        · rw [front_eq, List.append_assoc]
        · rw [List.append_assoc]

/-- What stands where no part begins is kept, at the start of a text. -/
theorem of_prefix (stays : ∀ part written, allowed part written → ∀ c ∈ part.head?, c ∉ front)
    (swaps : Swaps allowed (front ++ back) result) :
    ∃ back', result = front ++ back' ∧ Swaps allowed back back' := by
  induction front generalizing result with
  | nil => exact ⟨result, rfl, swaps⟩
  | cons c front ih =>
    generalize text_eq : c :: front ++ back = text at swaps
    cases swaps with
    | nil => cases text_eq
    | keep d rest =>
      rcases List.cons.inj text_eq with ⟨rfl, rfl⟩
      have stays_behind : ∀ part written, allowed part written → ∀ d ∈ part.head?, d ∉ front :=
        fun part written isAllowed d mem inFront =>
          stays part written isAllowed d mem (List.mem_cons_of_mem c inFront)
      rcases ih stays_behind rest with ⟨back', rfl, swaps⟩
      exact ⟨back', rfl, swaps⟩
    | @swap part written _ _ isAllowed part_ne _ _ =>
      rcases List.exists_cons_of_ne_nil part_ne with ⟨d, part, rfl⟩
      rcases List.cons.inj text_eq with ⟨rfl, -⟩
      exact absurd List.mem_cons_self (stays _ _ isAllowed c rfl)

theorem not_mem {c : Char} (missing : c ∉ text)
    (unwritten : ∀ part written, allowed part written → c ∉ written)
    (swaps : Swaps allowed text result) : c ∉ result := by
  induction swaps with
  | nil => exact missing
  | keep d rest ih =>
    have behind := ih (List.not_mem_of_not_mem_cons missing)
    exact List.not_mem_cons_of_ne_of_not_mem (List.ne_of_not_mem_cons missing) behind
  | swap isAllowed part_ne written_ne rest ih =>
    exact List.not_mem_append (unwritten _ _ isAllowed)
      (ih fun mem => missing (List.mem_append_right _ mem))

theorem of_singleton {c : Char} (stays : ∀ part written, allowed part written → part ≠ [c])
    (swaps : Swaps allowed [c] result) : result = [c] := by
  generalize text_eq : [c] = text at swaps
  cases swaps with
  | nil => cases text_eq
  | keep d rest =>
    cases text_eq
    rw [rest.eq_nil]
  | @swap part written text result isAllowed part_ne _ _ =>
    rcases List.exists_cons_of_ne_nil part_ne with ⟨d, part, rfl⟩
    rcases List.cons.inj text_eq with ⟨rfl, none⟩
    rcases List.append_eq_nil_iff.mp none.symm with ⟨rfl, -⟩
    exact absurd rfl (stays _ _ isAllowed)

/-- What stands where no part ends is kept, at the end of a text. -/
theorem of_suffix (stays : ∀ part written, allowed part written → ∀ c ∈ part.getLast?, c ∉ back)
    (swaps : Swaps allowed (front ++ back) result) :
    ∃ front', result = front' ++ back ∧ Swaps allowed front front' := by
  induction back using List.reverseRecOn generalizing result with
  | nil =>
    rw [List.append_nil] at swaps
    exact ⟨result, (List.append_nil result).symm, swaps⟩
  | append_singleton back c ih =>
    rw [← List.append_assoc] at swaps
    rcases swaps.cut with ⟨first', last', rfl, first, last⟩ |
      ⟨earlier, near, far, later, written, earlier', later', -, last_eq, -, far_ne, isAllowed, -⟩
    · have alone : ∀ part written, allowed part written → part ≠ [c] := by
        rintro part written isAllowed rfl
        exact stays _ _ isAllowed c rfl (by simp)
      rw [last.of_singleton alone]
      rcases ih (fun part written isAllowed d mem inBack =>
        stays part written isAllowed d mem (by simp [inBack])) first
        with ⟨front', rfl, kept⟩
      exact ⟨front', by rw [List.append_assoc], kept⟩
    · rcases List.exists_cons_of_ne_nil far_ne with ⟨d, far, rfl⟩
      rcases List.cons.inj last_eq with ⟨rfl, none⟩
      rcases List.append_eq_nil_iff.mp none.symm with ⟨rfl, -⟩
      exact absurd (by simp) (stays _ _ isAllowed c (by simp))

/-- A piece with none of the characters of the parts is kept. -/
theorem of_piece {piece : List Char} (piece_ne : piece ≠ [])
    (stays : ∀ part written, allowed part written → ∀ c ∈ part, c ∉ piece)
    (swaps : Swaps allowed (front ++ (piece ++ back)) result) :
    ∃ front' back', result = front' ++ (piece ++ back') ∧ Swaps allowed front front' ∧
      Swaps allowed back back' := by
  rcases swaps.cut with ⟨front', rest, rfl, first, rest_swaps⟩ |
    ⟨earlier, near, far, later, written, earlier', later', -, back_eq, -, far_ne, isAllowed, -⟩
  · -- No part begins in the piece, so one that reaches into it would begin before it, which the cut
    -- excludes.
    have begins : ∀ part written, allowed part written → ∀ c ∈ part.head?, c ∉ piece :=
      fun part written isAllowed c mem => stays part written isAllowed c (List.mem_of_head? mem)
    rcases rest_swaps.of_prefix begins with ⟨back', rfl, second⟩
    exact ⟨front', back', rfl, first, second⟩
  · rcases List.exists_cons_of_ne_nil far_ne with ⟨c, far, rfl⟩
    rcases List.exists_cons_of_ne_nil piece_ne with ⟨d, piece, rfl⟩
    rcases List.cons.inj back_eq with ⟨rfl, -⟩
    exact absurd List.mem_cons_self (stays _ _ isAllowed d (by simp))

/-- A character of the result was kept or stands in what is written for a part. -/
theorem of_mem_result {c : Char} (swaps : Swaps allowed text (front' ++ c :: back')) :
    (∃ front back, text = front ++ c :: back ∧ Swaps allowed front front' ∧
      Swaps allowed back back') ∨
      ∃ part near far later', allowed part (near ++ c :: far) ∧ back' = far ++ later' := by
  rcases swaps.symm.cut with ⟨front, rest, rfl, first, rest_swaps⟩ |
    ⟨earlier, near, far, later, part, earlier', later', -, back_eq, -, far_ne, isAllowed, -⟩
  · generalize rest_eq : c :: back' = rest' at rest_swaps
    cases rest_swaps with
    | nil => cases rest_eq
    | @keep back _ d second =>
      rcases List.cons.inj rest_eq with ⟨rfl, rfl⟩
      exact .inl ⟨front, _, rfl, first.symm, second.symm⟩
    | @swap written part later' later isAllowed written_ne _ _ =>
      rcases List.exists_cons_of_ne_nil written_ne with ⟨d, far, rfl⟩
      rcases List.cons.inj rest_eq with ⟨rfl, behind_eq⟩
      exact .inr ⟨part, [], far, later', isAllowed, behind_eq⟩
  · rcases List.exists_cons_of_ne_nil far_ne with ⟨d, far, rfl⟩
    rcases List.cons.inj back_eq with ⟨rfl, behind_eq⟩
    exact .inr ⟨part, near, far, later, isAllowed, behind_eq⟩

end Swaps

/-- A scan swaps what it swaps for its matches. -/
theorem Regex.swaps_rewrite {regex : Regex} (consumes : regex.root.consumes = true)
    {write : Found → List Char} {allowed : List Char → List Char → Prop}
    (each : ∀ before after found, regex.findAt? before after = some found →
      Swaps allowed found.text (write found))
    (before text : List Char) : Swaps allowed text (regex.rewrite write before text) := by
  induction sized : text.length using Nat.strongRecOn generalizing before text with
  | _ size ih =>
    rcases text with _ | ⟨c, text⟩
    · rw [rewrite_nil]
      exact .nil
    · rcases found_eq : regex.findAt? before (c :: text) with _ | found
      · rw [rewrite_of_none found_eq]
        exact .keep c (ih text.length (by rw [← sized]; simp) (c :: before) text rfl)
      · rcases findAt?_eq_some consumes found_eq with ⟨found_ne, rest, text_eq⟩
        have shorter : rest.length < size := by
          have := List.length_pos_iff.mpr found_ne
          rw [← sized, text_eq, List.length_append]
          omega
        rw [text_eq] at found_eq ⊢
        rw [rewrite_of_some consumes found_eq]
        exact (each _ _ _ found_eq).append (ih rest.length shorter _ rest rfl)

end Markflow

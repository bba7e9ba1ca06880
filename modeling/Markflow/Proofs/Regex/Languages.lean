import Markflow.Proofs.Regex.Extent
import Mathlib.Computability.Language

/-!
# The languages of expressions

The ways of an expression without groups, assertions and references pass over the texts of a
language that come next, whatever stands around them (`Node.Reads`).  A sequence passes over the
product of two languages and a repetition over the star of one.
-/

namespace Markflow.Regex.Node

open Computability

/-- An expression passes over the texts of a language, and it enters no group. -/
def Reads (body : Node) (language : Language Char) : Prop :=
  ∀ ⦃before after : List Char⦄ ⦃marks : List GroupMark⦄ ⦃t : State⦄,
    t ∈ body.ways ⟨.amid before after, marks⟩ ↔
    ∃ text rest, after = text ++ rest ∧ text ∈ language ∧
      t = ⟨.amid (text.reverse ++ before) rest, marks⟩

section Reads

variable {body first second : Node} {language other : Language Char} {before after : List Char}
    {marks : List GroupMark}
  {t : State}

theorem Reads.congr (reads : body.Reads language) (same : ∀ text, text ∈ language ↔ text ∈ other) :
    body.Reads other :=
  Language.ext same ▸ reads

theorem reads_one (set : CharSet) :
    (one set).Reads {text | ∃ c, set.holds c = true ∧ text = [c]} := by
  intro before after marks t
  constructor
  · intro mem
    rcases after with _ | ⟨c, after⟩
    · cases mem
    · rw [ways_one_cons] at mem
      split at mem
      · next holds =>
        rw [List.mem_singleton] at mem
        exact ⟨[c], after, rfl, ⟨c, holds, rfl⟩, mem⟩
      · cases mem
  · rintro ⟨_, rest, rfl, ⟨c, holds, rfl⟩, rfl⟩
    rw [List.singleton_append, ways_one_cons, if_pos holds]
    exact List.mem_singleton_self _

/-- What follows an expression is tried behind each text that the expression passes over. -/
theorem mem_ways_seq_of_reads (reads : first.Reads language) :
    t ∈ (seq first second).ways ⟨.amid before after, marks⟩ ↔ ∃ text rest,
      after = text ++ rest ∧ text ∈ language ∧
      t ∈ second.ways ⟨.amid (text.reverse ++ before) rest, marks⟩ := by
  rw [ways_seq, List.mem_flatMap]
  constructor
  · rintro ⟨u, u_mem, t_mem⟩
    rcases reads.mp u_mem with ⟨text, rest, after_eq, inLanguage, rfl⟩
    exact ⟨text, rest, after_eq, inLanguage, t_mem⟩
  · rintro ⟨text, rest, after_eq, inLanguage, t_mem⟩
    exact ⟨_, reads.mpr ⟨text, rest, after_eq, inLanguage, rfl⟩, t_mem⟩

theorem Reads.seq (reads : first.Reads language) (reads' : second.Reads other) :
    (Node.seq first second).Reads (language * other) := by
  intro before after marks t
  rw [mem_ways_seq_of_reads reads]
  constructor
  · rintro ⟨front, more, rfl, front_mem, t_mem⟩
    rcases reads'.mp t_mem with ⟨back, rest, rfl, back_mem, rfl⟩
    refine ⟨front ++ back, rest, (List.append_assoc front back rest).symm, ?_, ?_⟩
    · exact Language.mem_mul.mpr ⟨front, front_mem, back, back_mem, rfl⟩
    · rw [List.reverse_append, List.append_assoc]
  · rintro ⟨_, rest, rfl, inProduct, rfl⟩
    rcases Language.mem_mul.mp inProduct with ⟨front, front_mem, back, back_mem, rfl⟩
    refine ⟨front, back ++ rest, List.append_assoc front back rest, front_mem,
      reads'.mpr ⟨back, rest, rfl, back_mem, ?_⟩⟩
    rw [List.reverse_append, List.append_assoc]

/-- A repetition passes over what its body passes over, any number of times. -/
theorem Reads.star (reads : body.Reads language) (consumes : body.consumes = true) :
    (loop .greedy 0 none body).Reads language∗ := by
  have again : ∀ s, (loop .greedy 0 none body).ways s =
      (body.ways s).flatMap (loop .greedy 0 none body).ways ++ [s] := ways_greedy_zero consumes none
  intro before after marks t
  constructor
  · intro mem
    induction sized : after.length using Nat.strongRecOn generalizing before after with
    | _ size ih =>
      rw [again, List.mem_append, List.mem_flatMap, List.mem_singleton] at mem
      rcases mem with ⟨u, u_mem, t_mem⟩ | rfl
      · have shorter := (consumes ▸ reaches_of_mem_ways body u_mem).ahead_lt
        rcases reads.mp u_mem with ⟨front, more, rfl, front_mem, rfl⟩
        rcases ih more.length (by rwa [← sized]) t_mem rfl with ⟨back, rest, rfl, back_mem, rfl⟩
        rcases Language.mem_kstar.mp back_mem with ⟨parts, rfl, parts_mem⟩
        refine ⟨front ++ parts.flatten, rest, (List.append_assoc _ _ rest).symm, ?_, ?_⟩
        · exact Language.mem_kstar.mpr ⟨front :: parts, rfl,
            List.forall_mem_cons.mpr ⟨front_mem, parts_mem⟩⟩
        · rw [List.reverse_append, List.append_assoc]
      · exact ⟨[], after, rfl, Language.nil_mem_kstar language, rfl⟩
  · rintro ⟨text, rest, rfl, inStar, rfl⟩
    rcases Language.mem_kstar.mp inStar with ⟨parts, rfl, parts_mem⟩
    clear inStar
    induction parts generalizing before with
    | nil =>
      rw [again, List.mem_append]
      exact .inr (List.mem_singleton_self _)
    | cons part parts ih =>
      rcases List.forall_mem_cons.mp parts_mem with ⟨part_mem, parts_mem⟩
      have goesOn := @ih (part.reverse ++ before) parts_mem
      rw [again, List.mem_append, List.mem_flatMap]
      refine .inl ⟨_, reads.mpr ⟨part, parts.flatten ++ rest, ?_, part_mem, rfl⟩, ?_⟩
      · rw [List.flatten_cons, List.append_assoc]
      · rw [List.flatten_cons, List.reverse_append, List.append_assoc]
        exact goesOn

end Reads

end Markflow.Regex.Node

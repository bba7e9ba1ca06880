import Markflow.Proofs.Captures.Lookup
import Markflow.Proofs.Captures.Slices
import Markflow.Proofs.Regex.Refusals

/-!
# What captures tell of a match

The captures of a match have its text and the texts of its groups, by index (`Captures.Represents`).
Where the pattern has groups with names they are a record of these, in the order of the numbers
(`Captures.IsRecord`); otherwise they are a sequence of the whole and the groups
(`Captures.IsSequence`).  The names of a record and the numbers of the groups come from the reader
of expressions, which numbers the groups as it opens them (`Regex.numbered_of_read?`).
-/

namespace Markflow

namespace Captures

/-- Captures have the text of a match and the texts of its groups, where an unset group has the
empty text, and an index finds them from either end. -/
structure Represents (m : Match) (count : Nat) (c : Captures) : Prop where
  full : c.full = m.text
  length : c.groups.length = count
  group : ∀ place < count, ∃ group : Option String, m.groups[place]? = some group ∧
    c.groups[place]? = some (group.getD "")
  found : ∀ key index, index? key = some index → ∀ (place : Nat) text,
    (m.text :: c.groups)[place]? = some text →
    (index = place ∨ index = place - (count + 1)) → c.item (.value key) = .ok (.text text)
  missing : ∀ key index, index? key = some index → (index < -(count + 1) ∨ count < index) →
    c.item (.value key) = .error (.capture (.index key))

/-- Captures are the record of the named groups of a pattern.  A name finds the text of the group
with its number. -/
structure IsRecord (pattern : Pattern) (c : Captures) : Prop where
  kind : c.kind = "named"
  items : c.items = pattern.groupNames
  size : c.size = pattern.groupNames.length
  fields : c.fields.map (·.1) = pattern.groupNames
  ordered : pattern.regex.names.Pairwise fun earlier later => earlier.2 < later.2
  distinct : pattern.groupNames.Nodup
  named : ∀ name number, (name, number) ∈ pattern.regex.names →
    0 < number ∧ ∃ text, c.groups[number - 1]? = some text ∧
      c.item (.value (.number number)) = .ok (.text text) ∧
      c.item (.value (.text name)) = .ok (.text text) ∧ c.fields.lookup name = some text

/-- Captures are the sequence of a match and its groups. -/
structure IsSequence (m : Match) (count : Nat) (c : Captures) : Prop where
  kind : c.kind = "positional"
  items : c.items = m.text :: c.groups
  size : c.size = count + 1
  slice : ∀ start stop step, ∃ outcome, SliceOutcome (m.text :: c.groups) start stop step outcome ∧
    c.item (.slice start stop step) = (fun texts => .list (texts.map .text)) <$> outcome

theorem lookup_fields_of_mem {c : Captures}
    (distinct : c.names.Pairwise fun earlier later => earlier.1 ≠ later.1)
    {name : String} {number : Nat} (mem : (name, number) ∈ c.names) :
    c.fields.lookup name = some ((c.groups[number - 1]?).getD "") := by
  rcases List.append_of_mem mem with ⟨before, after, names_eq⟩
  rw [names_eq, List.pairwise_append] at distinct
  rw [List.lookup_eq_some_iff, fields, names_eq, List.map_append, List.map_cons]
  refine ⟨_, _, rfl, ?_⟩
  intro field field_mem
  rcases List.mem_map.mp field_mem with ⟨⟨other, otherNumber⟩, other_mem, rfl⟩
  exact bne_iff_ne.mpr (distinct.2.2 _ other_mem _ List.mem_cons_self).symm

end Captures

namespace Pattern

theorem numbered_of_compile [Host] {source flags owner : Value} {pattern : Pattern}
    (compiled : compile source flags owner = .ok pattern) :
    Regex.Numbered (pattern.regex.groupCount + 1) pattern.regex.names.reverse := by
  rcases of_compile compiled with ⟨rfl, -⟩
  exact Regex.numbered_of_read? (compile_eq_ok_iff.mp compiled).2.2

section Matches

variable {pattern : Pattern} {m : Match}

theorem represents_capturesOf (found : pattern.Matches m) :
    Captures.Represents m pattern.regex.groupCount (pattern.capturesOf m) := by
  have length_eq := length_groups_capturesOf found
  refine ⟨rfl, length_eq, ?_, ?_, ?_⟩
  · intro place inside
    have inside : place < m.groups.length := by
      rwa [← length_eq, capturesOf, Captures.ofMatch, List.length_map] at inside
    refine ⟨m.groups[place], List.getElem?_eq_getElem inside, ?_⟩
    simp [capturesOf, Captures.ofMatch, List.getElem?_eq_getElem inside]
  · intro key index isIndex place text found counts
    rw [← length_eq] at counts
    exact Captures.item_of_place isIndex found counts
  · intro key index isIndex outside
    rw [← length_eq] at outside
    exact Captures.item_of_outside isIndex outside

theorem isRecord_capturesOf (found : pattern.Matches m)
    (numbered : Regex.Numbered (pattern.regex.groupCount + 1) pattern.regex.names.reverse)
    (hasNames : pattern.groupNames ≠ []) : Captures.IsRecord pattern (pattern.capturesOf m) := by
  have named := isNamed_capturesOf_iff (m := m).mpr hasNames
  have ordered := List.pairwise_reverse.mp numbered.ordered
  have represents := represents_capturesOf found
  refine ⟨?_, ?_, ?_, Captures.keys_fields _, ordered.imp And.left, ?_, ?_⟩
  · rw [Captures.kind, if_pos named]
  · rw [Captures.items, if_pos named]
    rfl
  · rw [Captures.size, if_pos named, groupNames, List.length_map]
    rfl
  · rw [groupNames, List.Nodup, List.pairwise_map]
    exact ordered.imp And.right
  · intro name number mem
    rcases numbered.within (name, number) (List.mem_reverse.mpr mem) with
      ⟨(positive : 0 < number), (within : number < _)⟩
    rcases represents.group (number - 1) (by omega) with ⟨group, -, group_eq⟩
    have looked := Captures.lookup_fields_of_mem (c := pattern.capturesOf m) (ordered.imp And.right)
      mem
    rw [group_eq, Option.getD_some] at looked
    refine ⟨positive, _, group_eq, ?_, ?_, looked⟩
    · apply represents.found _ number rfl number _ _ (.inl rfl)
      rw [List.getElem?_cons, if_neg (Nat.ne_of_gt positive)]
      exact group_eq
    · rw [Captures.item_name named, looked]

theorem isSequence_capturesOf (found : pattern.Matches m) (noNames : pattern.groupNames = []) :
    Captures.IsSequence m pattern.regex.groupCount (pattern.capturesOf m) := by
  have unnamed : ¬ (pattern.capturesOf m).isNamed = true := by
    rw [isNamed_capturesOf_iff, not_not]
    exact noNames
  refine ⟨?_, ?_, ?_, ?_⟩
  · rw [Captures.kind, if_neg unnamed]
  · rw [Captures.items, if_neg unnamed]
    rfl
  · rw [Captures.size, if_neg unnamed, length_groups_capturesOf found]
  · intro start stop step
    refine ⟨_, Captures.sliceOutcome_slice _ start stop step, ?_⟩
    rw [Captures.item, if_neg unnamed]
    rfl

end Matches

/-- The captures of a match represent it, whatever pattern it is a match of: as a record of the
named groups where the pattern has some, and otherwise as a sequence of the whole and the groups. -/
theorem captures_represent [Host] {source flags owner : Value} {pattern : Pattern}
    (compiled : compile source flags owner = .ok pattern) {m : Match} (found : pattern.Matches m) :
    Captures.Represents m pattern.regex.groupCount (pattern.capturesOf m) ∧
      (pattern.groupNames ≠ [] → Captures.IsRecord pattern (pattern.capturesOf m)) ∧
      (pattern.groupNames = [] →
        Captures.IsSequence m pattern.regex.groupCount (pattern.capturesOf m)) :=
  ⟨represents_capturesOf found, isRecord_capturesOf found (numbered_of_compile compiled),
    isSequence_capturesOf found⟩

attribute [local instance] Host.standard

/-- A group without a name stands between two with names, the first of which did not take part. -/
theorem captures_represent_unset :
    let pattern : Pattern := ⟨"(?<b>x)?(y)(?<a>z)", .default,
      ⟨.seq (.loop .greedy 0 (some 1) (.group 1 (.one (.single .exact 'x'.toNat))))
        (.seq (.group 2 (.one (.single .exact 'y'.toNat)))
          (.group 3 (.one (.single .exact 'z'.toNat)))),
        3, [("b", 1), ("a", 3)]⟩⟩
    compile (.text "(?<b>x)?(y)(?<a>z)") (.text "g") .null = .ok pattern ∧
      ∃ m ∈ pattern.findIn "yz".toList, (pattern.capturesOf m).groups = ["", "y", "z"] ∧
        (pattern.capturesOf m).items = ["b", "a"] ∧
        (pattern.capturesOf m).item (.value (.text "b")) = .ok (.text "") ∧
        (pattern.capturesOf m).item (.value (.text "a")) = .ok (.text "z") ∧
        (pattern.capturesOf m).item (.value (.number (-1))) = .ok (.text "z") ∧
        (pattern.capturesOf m).item (.value (.number 4)) =
          .error (.capture (.index (.number 4))) := by
  intro pattern
  have reads : Regex.read? Flags.default.mode (Spelling.expand "(?<b>x)?(y)(?<a>z)".toList) =
      .ok pattern.regex := by
    decide +kernel
  have compiles : compile (.text "(?<b>x)?(y)(?<a>z)") (.text "g") .null = .ok pattern :=
    compile_eq_ok_iff.mpr ⟨rfl, rfl, reads⟩
  have groups_eq : (pattern.findIn "yz".toList).map Match.groups =
      [[none, some "y", some "z"]] := by decide +kernel
  rcases List.map_eq_singleton_iff.mp groups_eq with ⟨m, findIn_eq, groups_eq⟩
  have mem : m ∈ pattern.findIn "yz".toList := findIn_eq ▸ List.mem_singleton_self m
  have texts_eq : (pattern.capturesOf m).groups = ["", "y", "z"] := by
    simp [capturesOf, Captures.ofMatch, groups_eq]
  rcases captures_represent compiles (matches_of_mem_findIn mem) with ⟨represents, record, -⟩
  have record := record (List.cons_ne_nil "b" ["a"])
  refine ⟨compiles, m, mem, texts_eq, record.items, ?_, ?_, ?_, ?_⟩
  · rcases record.named "b" 1 (by decide) with ⟨-, text, group_eq, -, item_eq, -⟩
    rw [texts_eq] at group_eq
    cases group_eq
    exact item_eq
  · rcases record.named "a" 3 (by decide) with ⟨-, text, group_eq, -, item_eq, -⟩
    rw [texts_eq] at group_eq
    cases group_eq
    exact item_eq
  · exact represents.found _ (-1) rfl 3 "z" (by rw [texts_eq]; rfl) (.inr rfl)
  · exact represents.missing _ 4 rfl (.inr (by decide))

end Pattern

end Markflow

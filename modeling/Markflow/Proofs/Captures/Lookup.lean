import Markflow.Proofs.Pipeline.Splicing

/-!
# Looking up captures

An index counts the whole match and the groups, from the front or from the end
(`Captures.at?_eq_some_iff`), and a record of named groups also knows their names.  So a lookup in a
record comes to one of three things (`Captures.Answer`).  The ways of looking up agree on them but
for one: whether a record holds an index that no group has is not answered at all
(`Pattern.lookups_agree`).
-/

namespace Markflow

namespace Regex

variable {regex : Regex} {moving : Bool} {cursor : Cursor} {m : Match}

theorem length_groups_of_matchAt? (found : regex.matchAt? moving cursor = some m) :
    m.groups.length = regex.groupCount := by
  rcases Option.map_eq_some_iff.mp found with ⟨s, -, rfl⟩
  simp

theorem Scans.exists_matchAt? {found : List Match} (scans : Scans regex moving cursor found) :
    ∀ m ∈ found, ∃ moving place, regex.matchAt? moving place = some m := by
  induction scans with
  | stop => exact List.forall_mem_nil _
  | next leftmost more ih =>
    rcases leftmost.found with ⟨skipped, -, found⟩
    exact List.forall_mem_cons.mpr ⟨⟨_, _, found⟩, ih⟩

end Regex

namespace Pattern

/-- A match is one of a pattern, at some place of some text. -/
def Matches (pattern : Pattern) (m : Match) : Prop :=
  ∃ moving place, pattern.regex.matchAt? moving place = some m

section Matches

variable {pattern : Pattern} {m : Match}

theorem matches_of_mem_findIn {text : List Char} (mem : m ∈ pattern.findIn text) :
    pattern.Matches m :=
  (pattern.regex.scans_scan text).exists_matchAt? m ((pattern.sublist_scan text).subset mem)

theorem length_groups_capturesOf (found : pattern.Matches m) :
    (pattern.capturesOf m).groups.length = pattern.regex.groupCount := by
  rcases found with ⟨moving, place, found⟩
  simpa [capturesOf, Captures.ofMatch] using Regex.length_groups_of_matchAt? found

theorem isNamed_capturesOf_iff :
    (pattern.capturesOf m).isNamed = true ↔ pattern.groupNames ≠ [] := by
  simp [capturesOf, Captures.ofMatch, Captures.isNamed, groupNames]

end Matches

theorem compile_eq_ok_iff [Host] {source : String} {given owner : Value} {pattern : Pattern} :
    compile (.text source) given owner = .ok pattern ↔
      pattern.source = source ∧ Flags.read given = .ok pattern.flags ∧
      Regex.read? pattern.flags.mode (Spelling.expand source.toList) = .ok pattern.regex := by
  constructor
  · intro compiled
    rcases of_compile compiled with ⟨source_eq, chosen⟩
    cases source_eq
    simp only [compile, chosen, ofFlags] at compiled
    split at compiled
    · next regex reads =>
      refine ⟨rfl, chosen, ?_⟩
      rw [reads, ← Except.ok.inj compiled]
    all_goals cases compiled
  · rintro ⟨rfl, chosen, reads⟩
    simp only [compile, chosen, ofFlags, reads]

end Pattern

namespace Captures

/-- A key that is the name or the number of a group, as far as its kind goes. -/
inductive IsKey : Value → Prop
  | name (name : String) : IsKey (.text name)
  | index {key : Value} {index : Int} (isIndex : index? key = some index) : IsKey key

/-- A key that is one of some names, or an index of a match with `count` groups. -/
def Known (names : List String) (count : Nat) (key : Value) : Prop :=
  (∃ name ∈ names, key = .text name) ∨ ∃ index, index? key = some index ∧ -(count + 1) ≤ index ∧
    index ≤ count

section Known

variable {names : List String} {count : Nat} {key : Value}

theorem known_text_iff {name : String} : Known names count (.text name) ↔ name ∈ names := by
  simp [Known, index?]

theorem known_iff_of_index {index : Int} (isIndex : index? key = some index) :
    Known names count key ↔ -(count + 1) ≤ index ∧ index ≤ count := by
  have noText (name : String) : key ≠ .text name := by
    rintro rfl
    cases isIndex
  simp [Known, isIndex, noText]

end Known

section Places

variable {items : List String} {index : Int} {text : String}

theorem at?_natCast (items : List String) (place : Nat) : at? items place = items[place]? := by
  have notEnd : ¬ (place : Int) < 0 := by omega
  simp only [at?, if_neg notEnd, Int.toNat_natCast]

theorem at?_of_neg (fromEnd : index < 0) :
    at? items index = if index + items.length < 0 then none
      else items[(index + items.length).toNat]? := by
  simp only [at?, if_pos fromEnd]

/-- Every item has two indices, one from the front and one from the end. -/
theorem at?_eq_some_iff : at? items index = some text ↔
    ∃ place : Nat, items[place]? = some text ∧ (index = place ∨ index = place - items.length) := by
  constructor
  · intro found
    rcases Int.lt_or_le index 0 with fromEnd | fromFront
    · rw [at?_of_neg fromEnd] at found
      split at found
      · cases found
      · exact ⟨_, found, by omega⟩
    · rcases Int.eq_ofNat_of_zero_le fromFront with ⟨place, rfl⟩
      rw [at?_natCast] at found
      exact ⟨place, found, .inl rfl⟩
  · rintro ⟨place, found, rfl | rfl⟩
    · rw [at?_natCast, found]
    · have inside : place < items.length := (List.getElem?_eq_some_iff.mp found).1
      rw [at?_of_neg (by omega), if_neg (by omega), Int.sub_add_cancel, Int.toNat_natCast, found]

theorem at?_eq_none_iff :
    at? items index = none ↔ index < -items.length ∨ items.length ≤ index := by
  rcases Int.lt_or_le index 0 with fromEnd | fromFront
  · rw [at?_of_neg fromEnd, ite_eq_left_iff, List.getElem?_eq_none_iff]
    omega
  · rcases Int.eq_ofNat_of_zero_le fromFront with ⟨place, rfl⟩
    rw [at?_natCast, List.getElem?_eq_none_iff]
    omega

end Places

section Items

variable {c : Captures} {key : Value} {index : Int}

theorem length_sequence (c : Captures) : c.sequence.length = c.groups.length + 1 := rfl

theorem item_of_place (isIndex : index? key = some index) {place : Nat} {text : String}
    (found : c.sequence[place]? = some text)
    (counts : index = place ∨ index = place - (c.groups.length + 1)) :
    c.item (.value key) = .ok (.text text) := by
  have at_eq : at? c.sequence index = some text := at?_eq_some_iff.mpr ⟨place, found, counts⟩
  simp only [item, isIndex, positional, at_eq]
  rfl

theorem item_of_outside (isIndex : index? key = some index)
    (outside : index < -(c.groups.length + 1) ∨ c.groups.length < index) :
    c.item (.value key) = .error (.capture (.index key)) := by
  have at_eq : at? c.sequence index = none := at?_eq_none_iff.mpr (by rw [length_sequence]; omega)
  simp only [item, isIndex, positional, at_eq]
  rfl

theorem item_name (named : c.isNamed = true) (name : String) : c.item (.value (.text name)) =
    match c.fields.lookup name with
    | some text => .ok (.text text)
    | none => .error (.capture (.name (.text name))) := by
  simp only [item, index?, named, if_true, Value.asKey, bind, Except.bind, Option.bind_some]
  rcases c.fields.lookup name <;> rfl

theorem keys_fields (c : Captures) : c.fields.map (·.1) = c.names.map (·.1) := by
  simp [fields]

theorem lookup_fields_eq_none_iff {name : String} :
    c.fields.lookup name = none ↔ name ∉ c.names.map (·.1) := by
  rw [← keys_fields, List.lookup_eq_none_iff]
  simp only [bne_iff_ne, List.mem_map, not_exists, not_and]
  exact forall₂_congr fun _ _ => ne_comm

/-- What a record of named groups has for a key. -/
inductive Answer (c : Captures) (key : Value) : Prop
  | found {text : String} (known : Known (c.names.map (·.1)) c.groups.length key)
      (item_eq : c.item (.value key) = .ok (.text text))
  | noName {name : String} (key_eq : key = .text name)
      (unknown : ¬ Known (c.names.map (·.1)) c.groups.length key)
      (item_eq : c.item (.value key) = .error (.capture (.name key)))
  | noIndex {index : Int} (isIndex : index? key = some index)
      (unknown : ¬ Known (c.names.map (·.1)) c.groups.length key)
      (item_eq : c.item (.value key) = .error (.capture (.index key)))

theorem answer (named : c.isNamed = true) (isKey : IsKey key) : c.Answer key := by
  cases isKey with
  | name name =>
    have item_eq := item_name named name
    rcases looked : c.fields.lookup name with _ | text
    · rw [looked] at item_eq
      exact .noName rfl (known_text_iff.not.mpr (lookup_fields_eq_none_iff.mp looked)) item_eq
    · rw [looked] at item_eq
      refine .found (known_text_iff.mpr ?_) item_eq
      by_contra unknown
      cases looked.symm.trans (lookup_fields_eq_none_iff.mpr unknown)
  | @index key index isIndex =>
    rcases at_eq : at? c.sequence index with _ | text
    · rw [at?_eq_none_iff, length_sequence] at at_eq
      refine .noIndex isIndex ?_ (item_of_outside isIndex (by omega))
      rw [known_iff_of_index isIndex]
      omega
    · rcases at?_eq_some_iff.mp at_eq with ⟨place, found, counts⟩
      have inside := (List.getElem?_eq_some_iff.mp found).1
      rw [length_sequence] at inside counts
      refine .found ?_ (item_of_place isIndex found counts)
      rw [known_iff_of_index isIndex]
      omega

end Items

end Captures

namespace Pattern

open Captures (IsKey Known)

/-- In a record of named groups the ways of looking up a name or an index agree.  A key that has a
capture is held, and `get` returns the capture; otherwise `get` returns the value it is given.  A
name without a capture is not held; for an index without one the question whether it is held fails
as the lookup does. -/
theorem lookups_agree {pattern : Pattern} (hasNames : pattern.groupNames ≠ []) {m : Match}
    (found : pattern.Matches m) {key : Value} (isKey : IsKey key) (otherwise : Value) :
    ((pattern.capturesOf m).holds (.value key) = .ok true ↔
        ∃ text, (pattern.capturesOf m).item (.value key) = .ok (.text text)) ∧
      ((pattern.capturesOf m).holds (.value key) = .ok false ↔
        key.isText = true ∧ ∃ fault, (pattern.capturesOf m).item (.value key) = .error fault) ∧
      (∀ fault, (pattern.capturesOf m).holds (.value key) = .error fault ↔
        key.isText = false ∧ (pattern.capturesOf m).item (.value key) = .error fault) ∧
      (pattern.capturesOf m).get (.value key) otherwise =
        .ok (match (pattern.capturesOf m).item (.value key) with
          | .ok value => value
          | .error _ => otherwise) ∧
      ((∃ text, (pattern.capturesOf m).item (.value key) = .ok (.text text)) ↔
        Known pattern.groupNames pattern.regex.groupCount key) := by
  have named := isNamed_capturesOf_iff (m := m).mpr hasNames
  have names_eq : pattern.groupNames = (pattern.capturesOf m).names.map (·.1) := rfl
  rw [← length_groups_capturesOf found, names_eq]
  cases Captures.answer named isKey with
  | found known item_eq =>
    have held : (pattern.capturesOf m).holds (.value key) = .ok true := by
      simp only [Captures.holds, named, if_true, item_eq]
    simpa [item_eq, held, Captures.get] using known
  | @noName name key_eq unknown item_eq =>
    have held : (pattern.capturesOf m).holds (.value key) = .ok false := by
      simp only [Captures.holds, named, if_true, item_eq]
    have isText : key.isText = true := by rw [key_eq, Value.isText]
    simpa [item_eq, held, isText, Captures.get] using unknown
  | @noIndex index isIndex unknown item_eq =>
    have held : (pattern.capturesOf m).holds (.value key) = .error (.capture (.index key)) := by
      simp only [Captures.holds, named, if_true, item_eq]
    have noText : key.isText = false := by
      cases key with
      | text name => cases isIndex
      | _ => rfl
    simpa [item_eq, held, noText, Captures.get] using unknown

attribute [local instance] Host.standard

/-- A group that did not take part is there all the same, by either of its indices. -/
theorem lookups_agree_unset :
    let pattern : Pattern :=
      ⟨"(?<a>x)(y)?", .default, ⟨.seq (.group 1 (.one (.single .exact 'x'.toNat)))
      (.loop .greedy 0 (some 1) (.group 2 (.one (.single .exact 'y'.toNat)))), 2, [("a", 1)]⟩⟩
    compile (.text "(?<a>x)(y)?") (.text "g") .null = .ok pattern ∧
      ∃ m ∈ pattern.findIn "x".toList, m.groups = [some "x", none] ∧
        (pattern.capturesOf m).holds (.value (.text "a")) = .ok true ∧
        (pattern.capturesOf m).holds (.value (.number 2)) = .ok true ∧
        (pattern.capturesOf m).holds (.value (.number (-1))) = .ok true := by
  intro pattern
  have reads : Regex.read? Flags.default.mode (Spelling.expand "(?<a>x)(y)?".toList) =
      .ok pattern.regex := by
    decide +kernel
  have hasNames : pattern.groupNames ≠ [] := List.cons_ne_nil "a" []
  have groups_eq : (pattern.findIn "x".toList).map Match.groups = [[some "x", none]] := by
    decide +kernel
  rcases List.map_eq_singleton_iff.mp groups_eq with ⟨m, findIn_eq, groups_eq⟩
  have mem : m ∈ pattern.findIn "x".toList := findIn_eq ▸ List.mem_singleton_self m
  have found := matches_of_mem_findIn mem
  have held {key : Value} (isKey : IsKey key)
      (known : Known pattern.groupNames pattern.regex.groupCount key) :
      (pattern.capturesOf m).holds (.value key) = .ok true := by
    rcases lookups_agree hasNames found isKey .null with ⟨held_iff, -, -, -, known_iff⟩
    exact held_iff.mpr (known_iff.mpr known)
  refine ⟨compile_eq_ok_iff.mpr ⟨rfl, rfl, reads⟩, m, mem, groups_eq, ?_, ?_, ?_⟩
  · exact held (.name "a") (.inl ⟨"a", List.mem_singleton_self "a", rfl⟩)
  · exact held (.index rfl) (.inr ⟨2, rfl, by decide, by decide⟩)
  · exact held (.index rfl) (.inr ⟨-1, rfl, by decide, by decide⟩)

/-- Whether a record holds an index that no group has is not denied; the question fails. -/
theorem holds_fails_outside :
    let pattern : Pattern :=
      ⟨"(?<a>x)", .default, ⟨.group 1 (.one (.single .exact 'x'.toNat)), 1, [("a", 1)]⟩⟩
    compile (.text "(?<a>x)") (.text "g") .null = .ok pattern ∧
      ∃ m ∈ pattern.findIn "x".toList,
        (pattern.capturesOf m).item (.value (.number 5)) = .error (.capture (.index (.number 5))) ∧
        (pattern.capturesOf m).holds (.value (.number 5)) = .error (.capture (.index (.number 5))) ∧
        (pattern.capturesOf m).get (.value (.number 5)) (.text "") = .ok (.text "") := by
  intro pattern
  have reads : Regex.read? Flags.default.mode (Spelling.expand "(?<a>x)".toList) =
      .ok pattern.regex := by
    decide +kernel
  have groups_eq : (pattern.findIn "x".toList).map Match.groups = [[some "x"]] := by decide +kernel
  rcases List.map_eq_singleton_iff.mp groups_eq with ⟨m, findIn_eq, groups_eq⟩
  have item_eq :
      (pattern.capturesOf m).item (.value (.number 5)) = .error (.capture (.index (.number 5))) :=
    Captures.item_of_outside rfl (by simp [capturesOf, Captures.ofMatch, groups_eq])
  have held :
      (pattern.capturesOf m).holds (.value (.number 5)) =
        .error (.capture (.index (.number 5))) := by
    have named : (pattern.capturesOf m).isNamed = true := rfl
    simp only [Captures.holds, named, if_true, item_eq]
  refine ⟨compile_eq_ok_iff.mpr ⟨rfl, rfl, reads⟩, m, findIn_eq ▸ List.mem_singleton_self m,
    item_eq, held, ?_⟩
  rw [Captures.get, item_eq]

end Pattern

end Markflow

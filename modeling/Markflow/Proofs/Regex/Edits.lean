import Markflow.Pattern.Replace
import Markflow.Proofs.Regex.Extent
import Mathlib.Data.List.Forall2

/-!
# Replacement as a list of edits

A scan for an expression that always moves on goes over a text character by character: at each place
it either keeps the next character or passes over a match, for which something else is written.
`Regex.edits` is that list, and what the matches of a scan are replaced by is read off it
(`splice_scan`).  The places of the matches are then no longer offsets but what stands before and
after them.
-/

namespace Markflow

/-- What a match passes over, and the texts of its groups. -/
structure Found where
  text : List Char
  groups : List (Option (List Char))
  deriving DecidableEq, Inhabited

/-- What becomes of a place of a text. -/
inductive Edit where
  | keep (c : Char)
  | swap (found : Found)
  deriving DecidableEq, Inhabited

namespace Edit

/-- The text that an edit passes over. -/
def source : Edit → List Char
  | keep c => [c]
  | swap found => found.text

/-- The text that an edit writes. -/
def target (write : Found → List Char) : Edit → List Char
  | keep c => [c]
  | swap found => write found

end Edit

/-- The texts of a match. -/
def Match.found (m : Match) : Found where
  text := m.start.between m.stop
  groups := m.groups.map (·.map String.toList)

namespace Regex

/-- The match at the place between two texts, the first of which is given backwards. -/
def findAt? (regex : Regex) (before after : List Char) : Option Found :=
  (regex.root.ways (.begin (.amid before after) regex.groupCount)).head?.map fun s =>
    { text := (Cursor.amid before after).between s.cursor
      groups := (List.range regex.groupCount).map fun i => s.groupText? (i + 1) }

/-- The edits of a scan from the place between two texts on.  They are those of an expression that
always moves on. -/
def edits (regex : Regex) (before : List Char) : List Char → List Edit
  | [] => []
  | c :: after => match regex.findAt? before (c :: after) with
    | some found =>
      .swap found ::
        edits regex ((after.take (found.text.length - 1)).reverse ++ c :: before)
          (after.drop (found.text.length - 1))
    | none => .keep c :: edits regex (c :: before) after
termination_by after => after.length
decreasing_by all_goals simp; try omega

/-- What a scan writes from the place between two texts on. -/
def rewrite (regex : Regex) (write : Found → List Char) (before after : List Char) : List Char :=
  (regex.edits before after).flatMap (Edit.target write)

/-- The match that the first way stands for. -/
theorem findAt?_of_head? {regex : Regex} {before text rest : List Char} {marks : List GroupMark}
    {groups : List (Option (List Char))}
    (first : (regex.root.ways (.begin (.amid before (text ++ rest)) regex.groupCount)).head? =
      some ⟨.amid (text.reverse ++ before) rest, marks⟩)
    (holds : List.Forall₂ GroupMark.Holds marks groups) (count : groups.length = regex.groupCount) :
    regex.findAt? before (text ++ rest) = some ⟨text, groups⟩ := by
  have groups_eq : ((List.range regex.groupCount).map fun i =>
      State.groupText? ⟨.amid (text.reverse ++ before) rest, marks⟩ (i + 1)) = groups := by
    apply List.ext_getElem (by simp [count])
    intro i _ inGroups
    have inMarks : i < marks.length := by rwa [holds.length_eq]
    rw [List.getElem_map, List.getElem_range]
    exact State.groupText?_of_holds (List.getElem?_eq_getElem inMarks) (holds.get inMarks inGroups)
  simp [findAt?, first, groups_eq]

theorem findAt?_eq_none_of_ways {regex : Regex} {before after : List Char}
    (noWay : regex.root.ways (.begin (.amid before after) regex.groupCount) = []) :
    regex.findAt? before after = none := by
  simp [findAt?, noWay]

/-- There is a match where there is a way. -/
theorem exists_findAt?_of_mem {regex : Regex} {before after : List Char} {t : State}
    (mem : t ∈ regex.root.ways (.begin (.amid before after) regex.groupCount)) :
    ∃ found, regex.findAt? before after = some found := by
  obtain ⟨first, others, split⟩ := List.exists_cons_of_ne_nil (List.ne_nil_of_mem mem)
  simp [findAt?, split]

theorem matchAt?_eq_none_iff {regex : Regex} {before after : List Char} :
    regex.matchAt? false (.amid before after) = none ↔ regex.findAt? before after = none := by
  simp [matchAt?_false, findAt?]

@[simp]
theorem edits_nil (regex : Regex) (before : List Char) : regex.edits before [] = [] := by
  rw [edits]

theorem edits_of_none {regex : Regex} {before after : List Char} {c : Char}
    (missed : regex.findAt? before (c :: after) = none) :
    regex.edits before (c :: after) = .keep c :: regex.edits (c :: before) after := by
  rw [edits, missed]

theorem edits_append_of_missed {regex : Regex} {before text after : List Char}
    (missed : ∀ front c back, text = front ++ c :: back →
      regex.findAt? (front.reverse ++ before) (c :: (back ++ after)) = none) :
    regex.edits before (text ++ after) =
      text.map .keep ++ regex.edits (text.reverse ++ before) after := by
  induction text generalizing before with
  | nil => rfl
  | cons c text ih =>
    have here : regex.findAt? before (c :: (text ++ after)) = none := missed [] c text rfl
    have later := @ih (c :: before) fun front d back split => by
      simpa using missed (c :: front) d back (by simp [split])
    rw [List.cons_append, edits_of_none here, later]
    simp

section Rewrite

variable {regex : Regex} {write : Found → List Char}

@[simp]
theorem rewrite_nil (before : List Char) : regex.rewrite write before [] = [] := by
  simp [rewrite]

theorem rewrite_of_none {before after : List Char} {c : Char}
    (missed : regex.findAt? before (c :: after) = none) :
    regex.rewrite write before (c :: after) = c :: regex.rewrite write (c :: before) after := by
  simp [rewrite, edits_of_none missed, Edit.target]

/-- A text in which no match begins is kept. -/
theorem rewrite_append_of_missed {before text after : List Char}
    (missed : ∀ front c back, text = front ++ c :: back →
      regex.findAt? (front.reverse ++ before) (c :: (back ++ after)) = none) :
    regex.rewrite write before (text ++ after) =
      text ++ regex.rewrite write (text.reverse ++ before) after := by
  rw [rewrite, edits_append_of_missed missed, List.flatMap_append]
  simp [rewrite, List.flatMap_map, Edit.target]

end Rewrite

section Consumes

variable {regex : Regex} (consumes : regex.root.consumes = true)

include consumes

/-- A match passes over a text that is not empty. -/
theorem matchAt?_eq_some {before after : List Char} {m : Match}
    (found : regex.matchAt? false (.amid before after) = some m) :
    m.start = .amid before after ∧ regex.findAt? before after = some m.found ∧ m.found.text ≠ [] ∧
      ∃ rest, after = m.found.text ++ rest ∧
        m.stop = .amid (m.found.text.reverse ++ before) rest := by
  rw [matchAt?_false, Option.map_eq_some_iff] at found
  obtain ⟨s, first, rfl⟩ := found
  obtain ⟨text, leads, nonempty⟩ := consumes ▸ Node.reaches_of_mem_ways _ (List.mem_of_head? first)
  have text_eq : (Cursor.amid before after).between s.cursor = text := leads.between_eq
  refine ⟨rfl, ?_, ?_, s.cursor.after, ?_, ?_⟩
  · simp [findAt?, first, Match.found, Option.map_map, Function.comp_def]
  · simpa [Match.found, text_eq] using nonempty rfl
  · simpa [Match.found, text_eq] using leads.1
  · simpa [Match.found, text_eq] using leads.eq_amid.2

theorem findAt?_eq_some {before after : List Char} {found : Found}
    (found_eq : regex.findAt? before after = some found) :
    found.text ≠ [] ∧ ∃ rest, after = found.text ++ rest := by
  obtain ⟨m, m_eq⟩ : ∃ m, regex.matchAt? false (.amid before after) = some m := by
    obtain ⟨s, first, _⟩ := Option.map_eq_some_iff.mp found_eq
    exact ⟨_, by rw [matchAt?_false]; exact Option.map_eq_some_iff.mpr ⟨s, first, rfl⟩⟩
  obtain ⟨_, same, nonempty, rest, after_eq, _⟩ := matchAt?_eq_some consumes m_eq
  obtain rfl : m.found = found := by simpa [same] using found_eq
  exact ⟨nonempty, rest, after_eq⟩

theorem edits_of_some {before after : List Char} {found : Found}
    (found_eq : regex.findAt? before (found.text ++ after) = some found) :
    regex.edits before (found.text ++ after) =
      .swap found :: regex.edits (found.text.reverse ++ before) after := by
  obtain ⟨nonempty, _⟩ := findAt?_eq_some consumes found_eq
  obtain ⟨c, text, text_eq⟩ := List.exists_cons_of_ne_nil nonempty
  rw [text_eq, List.cons_append] at found_eq ⊢
  rw [edits, found_eq]
  simp [text_eq]

theorem rewrite_of_some {write : Found → List Char} {before after : List Char} {found : Found}
    (found_eq : regex.findAt? before (found.text ++ after) = some found) :
    regex.rewrite write before (found.text ++ after) =
      write found ++ regex.rewrite write (found.text.reverse ++ before) after := by
  simp [rewrite, edits_of_some consumes found_eq, Edit.target]

/-- A scan goes over a text as over that text alone when at none of its places a match depends on
what stands around it. -/
theorem rewrite_append_of_findAt?_eq {write : Found → List Char}
    {before before' text tail : List Char} (same : ∀ front back, text = front ++ back → back ≠ [] →
      regex.findAt? (front.reverse ++ before) (back ++ tail) =
        regex.findAt? (front.reverse ++ before') back) :
    regex.rewrite write before (text ++ tail) =
      regex.rewrite write before' text ++ regex.rewrite write (text.reverse ++ before) tail := by
  induction sized : text.length using Nat.strongRecOn generalizing before before' text with
  | _ size ih =>
    rcases text with _ | ⟨c, text⟩
    · rw [rewrite_nil]
      rfl
    have here := same [] (c :: text) rfl (List.cons_ne_nil c text)
    rcases found_eq : regex.findAt? before' (c :: text) with _ | found
    · have missed : regex.findAt? before (c :: (text ++ tail)) = none := here.trans found_eq
      have below := @ih text.length (by rw [← sized]; exact Nat.lt_succ_self _) (c :: before)
        (c :: before') text
        (fun front back split back_ne => by
          simpa using same (c :: front) back (by rw [split]; rfl) back_ne) rfl
      rw [List.cons_append, rewrite_of_none missed, rewrite_of_none found_eq, below]
      simp
    · rcases findAt?_eq_some consumes found_eq with ⟨found_ne, rest, split⟩
      rw [split] at found_eq same here sized ⊢
      have found_eq' : regex.findAt? before (found.text ++ (rest ++ tail)) = some found := by
        rw [← List.append_assoc]
        exact here.trans found_eq
      have shorter : rest.length < size := by
        rw [← sized, List.length_append]
        exact Nat.lt_add_of_pos_left (List.length_pos_iff.mpr found_ne)
      have below :=
        @ih rest.length shorter (found.text.reverse ++ before) (found.text.reverse ++ before') rest
        (fun front back split back_ne => by
          simpa using same (found.text ++ front) back (by simp [split]) back_ne) rfl
      rw [List.append_assoc, rewrite_of_some consumes found_eq', rewrite_of_some consumes found_eq,
        below]
      simp

theorem search?_amid_nil (before : List Char) : regex.search? false (.amid before []) = none := by
  rcases found : regex.matchAt? false (.amid before []) with _ | m
  · simpa [search?, search?.go] using found
  · obtain ⟨_, _, nonempty, rest, after_eq, _⟩ := matchAt?_eq_some consumes found
    exact absurd (List.append_eq_nil_iff.mp after_eq.symm).1 nonempty

omit consumes in
theorem search?_amid_cons (before after : List Char) (c : Char) :
    regex.search? false (.amid before (c :: after)) =
      match regex.matchAt? false (.amid before (c :: after)) with
      | some found => some found
      | none => regex.search? false (.amid (c :: before) after) := rfl

/-- A search finds nothing before the place where it begins. -/
theorem offset_le_of_search? {before after : List Char} {m : Match}
    (found : regex.search? false (.amid before after) = some m) :
    before.length ≤ m.start.offset := by
  induction after generalizing before with
  | nil => simp [search?_amid_nil consumes] at found
  | cons c after ih =>
    rw [search?_amid_cons] at found
    rcases here : regex.matchAt? false (.amid before (c :: after)) with _ | other
    · have later := ih (by simpa [here] using found)
      simp only [List.length_cons] at later
      omega
    · obtain rfl : other = m := by simpa [here] using found
      simp [(matchAt?_eq_some consumes here).1]

omit consumes in
/-- What stands before the first match is kept. -/
theorem splice_amid_cons {before after : List Char} {c : Char} {found : List (Match × String)}
    (later : ∀ one ∈ found.head?, before.length < one.1.start.offset) :
    splice (.amid before (c :: after)) found = c :: splice (.amid (c :: before) after) found := by
  rcases found with _ | ⟨⟨m, output⟩, more⟩
  · rfl
  · have offset_pos := later _ rfl
    obtain ⟨n, offset_eq⟩ : ∃ n, m.start.offset = before.length + 1 + n :=
      ⟨m.start.offset - (before.length + 1), by simp only at offset_pos; omega⟩
    have between_eq : (Cursor.amid before (c :: after)).between m.start =
        c :: (Cursor.amid (c :: before) after).between m.start := by
      have here : m.start.offset - before.length = n + 1 := by omega
      have next : m.start.offset - (before.length + 1) = n := by omega
      simp [Cursor.between, here, next]
    simp [splice, between_eq]

/-- Splicing outputs for the matches that are found from a place on writes what the edits write. -/
theorem splice_matchesFrom {output : Match → String} {write : Found → List Char}
    (writes : ∀ m, (output m).toList = write m.found) {fuel : Nat} (before after : List Char)
    (enough : after.length < fuel) :
    splice (.amid before after)
        ((regex.matchesFrom fuel false (.amid before after)).map fun m => (m, output m)) =
      regex.rewrite write before after := by
  obtain ⟨fuel, rfl⟩ : ∃ less, fuel = less + 1 := ⟨fuel - 1, by omega⟩
  induction sized : after.length using Nat.strongRecOn generalizing before after fuel with
  | _ size ih =>
    rcases after with _ | ⟨c, after⟩
    · simp [matchesFrom, search?_amid_nil consumes, splice, rewrite]
    · rcases here : regex.matchAt? false (.amid before (c :: after)) with _ | m
      · have missed := matchAt?_eq_none_iff.mp here
        have same : regex.matchesFrom (fuel + 1) false (.amid before (c :: after)) =
            regex.matchesFrom (fuel + 1) false (.amid (c :: before) after) := by
          simp [matchesFrom, search?_amid_cons, here]
        have later : ∀ one ∈ ((regex.matchesFrom (fuel + 1) false (.amid (c :: before) after)).map
            fun m => (m, output m)).head?, before.length < one.1.start.offset := by
          intro one mem
          rcases next : regex.search? false (.amid (c :: before) after) with _ | m
          · simp [matchesFrom, next] at mem
          · have := offset_le_of_search? consumes next
            obtain rfl : (m, output m) = one := by simpa [matchesFrom, next] using mem
            exact this
        rw [same, splice_amid_cons later,
          ih after.length (by simp at sized; omega) (c :: before) after fuel
            (by simp at enough; omega) rfl]
        simp [rewrite, edits_of_none missed, Edit.target]
      · obtain ⟨start_eq, found_eq, nonempty, rest, after_eq, stop_eq⟩ :=
          matchAt?_eq_some consumes here
        have shorter : rest.length < size := by
          have := List.length_pos_iff.mpr nonempty
          rw [← sized, after_eq, List.length_append]
          omega
        have moves : m.isEmpty = false := by
          simpa [Match.isEmpty, start_eq, stop_eq] using nonempty
        have found_here : regex.matchesFrom (fuel + 1) false (.amid before (c :: after)) =
            m :: regex.matchesFrom fuel false m.stop := by
          simp [matchesFrom, search?_amid_cons, here, moves]
        have nothing_before : (Cursor.amid before (c :: after)).between m.start = [] := by
          simp [Cursor.between, start_eq]
        obtain ⟨less, rfl⟩ : ∃ less, fuel = less + 1 := ⟨fuel - 1, by omega⟩
        rw [found_here, List.map_cons, splice, nothing_before, stop_eq,
          ih rest.length shorter _ rest less (by omega) rfl]
        rw [after_eq] at found_eq ⊢
        simp [rewrite, edits_of_some consumes found_eq, Edit.target, writes]

/-- Replacing the matches of a scan writes what the edits write. -/
theorem splice_scan {output : Match → String} {write : Found → List Char}
    (writes : ∀ m, (output m).toList = write m.found) (text : List Char) :
    splice (.atStart text) ((regex.scan text).map fun m => (m, output m)) =
      regex.rewrite write [] text :=
  splice_matchesFrom consumes writes [] text (by omega)

end Consumes

end Regex

end Markflow

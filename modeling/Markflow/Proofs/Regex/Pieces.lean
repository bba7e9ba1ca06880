import Markflow.Proofs.Regex.Edits

/-!
# Pieces of a text that a scan leaves alone

A scan leaves a piece of a text alone when no match begins or ends in it, and when a match that goes
over it writes it again, with what else the match keeps around it (`Wraps`).  The piece has a place
in what the scan writes then: what comes before the place and behind it is made of the edits before
and behind the piece (`Regex.Leaves`).
-/

namespace Markflow

/-- What stands before a piece of a text, and what stands behind it. -/
structure Around where
  front : List Char
  back : List Char

/-- The text around a piece, with the piece. -/
def Around.text (around : Around) (piece : List Char) : List Char :=
  around.front ++ (piece ++ around.back)

/-- What some edits pass over. -/
def Edit.sources (edits : List Edit) : List Char :=
  edits.flatMap Edit.source

/-- What some edits write. -/
def Edit.targets (write : Found → List Char) (edits : List Edit) : List Char :=
  edits.flatMap (Edit.target write)

namespace Edit

variable (write : Found → List Char)

@[simp]
theorem sources_append (first second : List Edit) :
    sources (first ++ second) = sources first ++ sources second :=
  List.flatMap_append

@[simp]
theorem targets_append (first second : List Edit) :
    targets write (first ++ second) = targets write first ++ targets write second :=
  List.flatMap_append

@[simp]
theorem sources_cons (edit : Edit) (more : List Edit) :
    sources (edit :: more) = edit.source ++ sources more := rfl

@[simp]
theorem targets_cons (edit : Edit) (more : List Edit) :
    targets write (edit :: more) = edit.target write ++ targets write more := rfl

@[simp]
theorem sources_nil : sources [] = [] := rfl

@[simp]
theorem targets_nil : targets write [] = [] := rfl

@[simp]
theorem sources_map_keep (text : List Char) : sources (text.map keep) = text := by
  simp [sources, List.flatMap_map, source]

@[simp]
theorem targets_map_keep (text : List Char) : targets write (text.map keep) = text := by
  simp [targets, List.flatMap_map, target]

end Edit

/-- A match begins before a piece and ends behind it, and of what is between its beginning and its
end nothing is changed. -/
structure Wraps (write : Found → List Char) (piece : List Char) (found : Found) (inner : Around)
    (opening closing opening' closing' : List Char) : Prop where
  opening_ne : opening ≠ []
  closing_ne : closing ≠ []
  text_eq : found.text = opening ++ (inner.text piece ++ closing)
  written_eq : write found = opening' ++ (inner.text piece ++ closing')

namespace Regex

variable {regex : Regex} {write : Found → List Char} {before piece : List Char}

theorem rewrite_of_edits {text : List Char} {earlier later : List Edit} {found : Found}
    (edits_eq : regex.edits before text = earlier ++ .swap found :: later) :
    regex.rewrite write before text =
      Edit.targets write earlier ++ (write found ++ Edit.targets write later) := by
  rw [rewrite, edits_eq, List.flatMap_append, List.flatMap_cons]
  rfl

/-- The edits of a scan pass over the text. -/
theorem sources_edits (consumes : regex.root.consumes = true) (before text : List Char) :
    Edit.sources (regex.edits before text) = text := by
  induction sized : text.length using Nat.strongRecOn generalizing before text with
  | _ size ih =>
    rcases text with _ | ⟨c, text⟩
    · rw [edits_nil]
      rfl
    · rcases found_eq : regex.findAt? before (c :: text) with _ | found
      · rw [edits_of_none found_eq]
        exact congrArg (List.cons c) (ih text.length (by rw [← sized]; simp) (c :: before) text rfl)
      · rcases findAt?_eq_some consumes found_eq with ⟨found_ne, rest, text_eq⟩
        have shorter : rest.length < size := by
          have := List.length_pos_iff.mpr found_ne
          rw [← sized, text_eq, List.length_append]
          omega
        rw [text_eq] at found_eq ⊢
        rw [edits_of_some consumes found_eq]
        exact congrArg (found.text ++ ·) (ih rest.length shorter _ rest rfl)

/-- A match that a scan swaps is the one that is found at its place. -/
theorem findAt?_of_edits (consumes : regex.root.consumes = true) {text : List Char}
    {earlier later : List Edit}
    {found : Found} (edits_eq : regex.edits before text = earlier ++ .swap found :: later) :
    regex.findAt? ((Edit.sources earlier).reverse ++ before) (found.text ++ Edit.sources later) =
      some found := by
  induction earlier generalizing before text with
  | nil =>
    rcases text with _ | ⟨c, text⟩
    · simp at edits_eq
    rcases found_eq : regex.findAt? before (c :: text) with _ | other
    · rw [edits_of_none found_eq] at edits_eq
      cases (List.cons.inj edits_eq).1
    · rcases findAt?_eq_some consumes found_eq with ⟨-, rest, text_eq⟩
      rw [text_eq] at edits_eq found_eq
      rw [edits_of_some consumes found_eq] at edits_eq
      rcases List.cons.inj edits_eq with ⟨same, rfl⟩
      cases same
      rwa [sources_edits consumes]
  | cons edit earlier ih =>
    rcases text with _ | ⟨c, text⟩
    · simp at edits_eq
    rcases found_eq : regex.findAt? before (c :: text) with _ | other
    · rw [edits_of_none found_eq] at edits_eq
      rcases List.cons.inj edits_eq with ⟨rfl, below⟩
      simpa [Edit.sources, Edit.source] using ih below
    · rcases findAt?_eq_some consumes found_eq with ⟨-, rest, text_eq⟩
      rw [text_eq] at edits_eq found_eq
      rw [edits_of_some consumes found_eq] at edits_eq
      rcases List.cons.inj edits_eq with ⟨rfl, below⟩
      simpa [Edit.sources, Edit.source] using ih below

/-- A scan leaves a piece alone, which has a place in the text and another in what the scan
writes. -/
inductive Leaves (regex : Regex) (write : Found → List Char) (before piece : List Char) :
    Around → Around → Prop where
  /-- No match reaches into the piece. -/
  | beside (earlier later : List Edit) (edits_eq : regex.edits before
        ((⟨Edit.sources earlier, Edit.sources later⟩ : Around).text piece) =
          earlier ++ (piece.map .keep ++ later)) :
      Leaves regex write before piece ⟨Edit.sources earlier, Edit.sources later⟩
        ⟨Edit.targets write earlier, Edit.targets write later⟩
  /-- One match goes over the piece. -/
  | within (earlier : List Edit) (found : Found) (later : List Edit) (inner : Around)
      (opening closing opening' closing' : List Char)
      (wraps : Wraps write piece found inner opening closing opening' closing')
      (edits_eq : regex.edits before ((⟨Edit.sources earlier ++ (opening ++ inner.front),
        inner.back ++ (closing ++ Edit.sources later)⟩ : Around).text piece) =
          earlier ++ .swap found :: later) :
      Leaves regex write before piece
        ⟨Edit.sources earlier ++ (opening ++ inner.front),
          inner.back ++ (closing ++ Edit.sources later)⟩
        ⟨Edit.targets write earlier ++ (opening' ++ inner.front),
          inner.back ++ (closing' ++ Edit.targets write later)⟩

/-- What the scan writes has the piece at its place. -/
theorem Leaves.rewrite_eq {around around' : Around}
    (leaves : Leaves regex write before piece around around') :
    regex.rewrite write before (around.text piece) = around'.text piece := by
  cases leaves with
  | beside earlier later edits_eq =>
    rw [rewrite, edits_eq]
    simp [Around.text, Edit.targets, List.flatMap_map, Edit.target]
  | within earlier found later inner opening closing opening' closing' wraps edits_eq =>
    rw [rewrite, edits_eq]
    simp [Around.text, Edit.targets, Edit.target, wraps.written_eq]

/-- Edits before those of a scan that leaves a piece alone. -/
theorem Leaves.append {around around' : Around} {before' : List Char} (edits : List Edit)
    (leaves : Leaves regex write before' piece around around')
    (edits_eq : regex.edits before (Edit.sources edits ++ around.text piece) =
      edits ++ regex.edits before' (around.text piece)) :
    Leaves regex write before piece ⟨Edit.sources edits ++ around.front, around.back⟩
      ⟨Edit.targets write edits ++ around'.front, around'.back⟩ := by
  cases leaves with
  | beside earlier later edits_here =>
    have leaves := @Leaves.beside regex write before piece (edits ++ earlier) later
    have same := edits_eq.trans (congrArg (edits ++ ·) edits_here)
    simp only [Edit.sources, Edit.targets, List.flatMap_append] at leaves same ⊢
    apply leaves
    simpa [Around.text] using same
  | within earlier found later inner opening closing opening' closing' wraps edits_here =>
    have leaves := @Leaves.within regex write before piece (edits ++ earlier) found later inner
      opening closing opening'
      closing' wraps
    have same := edits_eq.trans (congrArg (edits ++ ·) edits_here)
    simp only [Edit.sources, Edit.targets, List.flatMap_append, List.append_assoc] at leaves same ⊢
    apply leaves
    simpa [Around.text] using same

/-- A match at the beginning that wraps a piece leaves it alone. -/
theorem exists_leaves_of_wraps (consumes : regex.root.consumes = true) {front back rest : List Char}
    {found : Found} {inner : Around} {opening closing opening' closing' : List Char}
    (found_eq : regex.findAt? before (found.text ++ rest) = some found)
    (split : front ++ (piece ++ back) = found.text ++ rest)
    (front_eq : front = opening ++ inner.front)
    (wraps : Wraps write piece found inner opening closing opening' closing') :
    ∃ around', Leaves regex write before piece ⟨front, back⟩ around' := by
  have edits_eq := edits_of_some consumes found_eq
  have back_eq : back = inner.back ++ (closing ++ rest) := by
    have same := split
    rw [front_eq, wraps.text_eq] at same
    simpa [Around.text] using same
  have leaves :=
    @Leaves.within regex write before piece [] found
      (regex.edits (found.text.reverse ++ before) rest) inner
    opening closing opening' closing' wraps
  rw [sources_edits consumes, ← back_eq] at leaves
  rw [← split, front_eq] at edits_eq
  rw [front_eq]
  exact ⟨_, leaves edits_eq⟩

/-- A scan leaves a piece alone in which no match begins, if every match that reaches into it wraps
it. -/
theorem exists_leaves (consumes : regex.root.consumes = true) {front back : List Char}
    (missed : ∀ before near c far, piece = near ++ c :: far →
      regex.findAt? (near.reverse ++ before) (c :: (far ++ back)) = none)
    (wraps : ∀ before near reach rest found, near <:+ front → near ≠ [] → reach ≠ [] →
      found.text = near ++ reach →
      reach ++ rest = piece ++ back → regex.findAt? before (found.text ++ rest) = some found →
        ∃ inner opening closing opening' closing', near = opening ++ inner.front ∧
          Wraps write piece found inner opening closing opening' closing')
    (before : List Char) : ∃ around', Leaves regex write before piece ⟨front, back⟩ around' := by
  induction sized : front.length using Nat.strongRecOn generalizing before front with
  | _ size ih =>
    -- The scan goes on behind some of what comes before the piece.
    have onward : ∀ (edit : Edit) left before', edit.source ≠ [] → front = edit.source ++ left →
        regex.edits before (edit.source ++ (left ++ (piece ++ back))) =
          edit :: regex.edits before' (left ++ (piece ++ back)) →
        ∃ around', Leaves regex write before piece ⟨front, back⟩ around' := by
      intro edit left before' edit_ne split edits_eq
      have shorter : left.length < size := by
        have := List.length_pos_iff.mpr edit_ne
        rw [← sized, split, List.length_append]
        omega
      have wrapsBelow := fun before near reach rest found (isSuffix : near <:+ left) =>
        wraps before near reach rest found (isSuffix.trans ⟨edit.source, split.symm⟩)
      rcases ih left.length shorter wrapsBelow before' rfl with ⟨around', leaves⟩
      have source_eq : Edit.sources [edit] = edit.source := List.flatMap_singleton Edit.source edit
      rw [← source_eq] at split edits_eq
      rw [split]
      exact ⟨_, leaves.append [edit] edits_eq⟩
    rcases front with _ | ⟨c, front⟩
    · have edits_eq : regex.edits before (piece ++ back) =
          piece.map .keep ++ regex.edits (piece.reverse ++ before) back :=
        edits_append_of_missed fun near c far split => missed before near c far split
      have leaves :=
        @Leaves.beside regex write before piece [] (regex.edits (piece.reverse ++ before) back)
      rw [sources_edits consumes] at leaves
      exact ⟨_, leaves edits_eq⟩
    · rcases found_eq : regex.findAt? before (c :: (front ++ (piece ++ back))) with _ | found
      · exact onward (.keep c) front (c :: before) (by simp [Edit.source]) rfl
          (edits_of_none found_eq)
      · rcases findAt?_eq_some consumes found_eq with ⟨found_ne, rest, text_eq⟩
        rw [text_eq] at found_eq
        rw [← List.cons_append] at text_eq
        rcases List.append_eq_append_iff.mp text_eq with ⟨reach, found_text, rest_eq⟩
          | ⟨left, front_eq, rest_eq⟩
        · by_cases reach_nil : reach = []
          · rw [reach_nil, List.append_nil] at found_text
            rw [reach_nil, List.nil_append] at rest_eq
            have edits_eq := edits_of_some consumes found_eq
            rw [← rest_eq] at edits_eq
            exact onward (.swap found) [] _ found_ne (by simp [Edit.source, found_text]) edits_eq
          · rcases wraps before (c :: front) reach rest found (List.suffix_refl _)
              (List.cons_ne_nil c front) reach_nil found_text
              rest_eq.symm found_eq with
                ⟨inner, opening, closing, opening', closing', front_eq, wrapped⟩
            exact exists_leaves_of_wraps consumes found_eq text_eq front_eq wrapped
        · have edits_eq := edits_of_some consumes found_eq
          rw [rest_eq] at edits_eq
          exact onward (.swap found) left _ found_ne front_eq edits_eq

/-- A scan keeps a piece as it is when no match begins in it and none reaches into it. -/
theorem exists_beside (consumes : regex.root.consumes = true) {front back : List Char}
    (missed : ∀ before near c far, piece = near ++ c :: far →
      regex.findAt? (near.reverse ++ before) (c :: (far ++ back)) = none)
    (apart : ∀ before near reach rest found, near <:+ front → near ≠ [] → reach ≠ [] →
      found.text = near ++ reach →
      reach ++ rest = piece ++ back → regex.findAt? before (found.text ++ rest) ≠ some found)
    (before : List Char) : ∃ earlier later, Edit.sources earlier = front ∧
      Edit.sources later = back ∧
      regex.edits before (front ++ (piece ++ back)) = earlier ++ (piece.map .keep ++ later) := by
  have leaves := @exists_leaves regex (fun found => found.text) piece consumes front back missed
    (fun before near reach rest found isSuffix near_ne reach_ne text_eq same found_eq =>
      absurd found_eq (apart before near reach rest found isSuffix near_ne reach_ne text_eq same))
        before
  rcases leaves with ⟨around', leaves⟩
  cases leaves with
  | beside earlier later edits_eq => exact ⟨earlier, later, rfl, rfl, edits_eq⟩
  | within earlier found later inner opening closing opening' closing' wraps edits_eq =>
    have found_eq := findAt?_of_edits consumes edits_eq
    refine absurd found_eq
      (apart _ (opening ++ inner.front) (piece ++ (inner.back ++ closing)) _ found ?_ ?_ ?_ ?_ ?_)
    · exact List.suffix_append _ _
    · exact List.append_ne_nil_of_left_ne_nil wraps.opening_ne _
    · simp [wraps.closing_ne]
    · rw [wraps.text_eq]
      simp [Around.text]
    · simp

end Regex

end Markflow

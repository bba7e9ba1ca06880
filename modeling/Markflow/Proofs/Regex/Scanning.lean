import Markflow.Proofs.Regex.Extent

/-!
# The matches of a scan

`Scans` says which matches a scan finds.  Each is the match at the first place that has one, from
where the one before it ended on; where that one was empty, its own place counts only for a match
that is not empty.  Behind the last match no place has one.  A scan finds just these matches, for
any expression (`scans_scan`): it has enough steps, because every match ends further on than the one
before it, or at the same place where only that one was empty.

How the matches stand in the text follows from the relation alone (`Scans.within`,
`Scans.pairwise_before`).
-/

namespace Markflow

/-- A match stands before another: it ends where the other begins or earlier, and of two matches
that begin at one place the first is the shorter one. -/
def Match.Before (first second : Match) : Prop :=
  first.stop.offset ≤ second.start.offset ∧
    (first.start.offset < second.start.offset ∨
      first.start.offset = second.start.offset ∧ first.stop.offset < second.stop.offset)

namespace Regex

namespace Cursor

theorem Leads.text_eq {c d : Cursor} {text : List Char} (leads : c.Leads text d) :
    d.text = c.text := by
  simp [Cursor.text, leads.1, leads.2]

/-- A text leads nowhere or over the next character. -/
theorem Leads.cases_amid {before after text : List Char} {c : Char} {place : Cursor}
    (leads : (amid before (c :: after)).Leads text place) :
    text = [] ∧ place = amid before (c :: after) ∨
      ∃ rest, text = c :: rest ∧ (amid (c :: before) after).Leads rest place := by
  have place_eq := leads.eq_amid.2
  rcases leads with ⟨split, passed⟩
  rcases text with _ | ⟨x, rest⟩
  · exact .inl ⟨rfl, by rw [place_eq, ← List.nil_append place.after, ← split]; rfl⟩
  · simp only [after_amid, List.cons_append, List.cons.injEq] at split
    rcases split with ⟨rfl, split⟩
    exact .inr ⟨rest, rfl, split, by simpa using passed⟩

theorem leads_amid_cons {before after rest : List Char} {c : Char} {place : Cursor}
    (leads : (amid (c :: before) after).Leads rest place) :
    (amid before (c :: after)).Leads (c :: rest) place :=
  ⟨by simpa using leads.1, by simpa using leads.2⟩

end Cursor

variable {regex : Regex} {moving : Bool} {cursor : Cursor} {m : Match}

/-- A match begins at its place and passes over a text, which is not empty where an empty match does
not count. -/
theorem leads_of_matchAt? (found : regex.matchAt? moving cursor = some m) :
    m.start = cursor ∧ ∃ body, cursor.Leads body m.stop ∧ (moving = true → body ≠ []) := by
  simp only [matchAt?, Node.run_eq_findSome?_ways, Option.map_eq_some_iff] at found
  rcases found with ⟨s, first, rfl⟩
  rcases List.exists_of_findSome?_eq_some first with ⟨t, t_mem, accepted⟩
  rcases Node.reaches_of_mem_ways _ t_mem with ⟨body, leads, -⟩
  split at accepted
  · cases accepted
  case isFalse refused =>
    cases accepted
    refine ⟨rfl, body, leads, ?_⟩
    rintro isMoving rfl
    have same := leads.offset_eq
    simp only [State.begin, List.length_nil, Nat.add_zero] at same
    simp [isMoving, same] at refused

/-- A match is the one at the first place from a cursor on that has one; with `moving` an empty
match at the cursor does not count. -/
structure Leftmost (regex : Regex) (moving : Bool) (cursor : Cursor) (m : Match) : Prop where
  found : ∃ skipped, cursor.Leads skipped m.start ∧
    regex.matchAt? (moving && skipped.isEmpty) m.start = some m
  missed : ∀ skipped place, cursor.Leads skipped place → place.offset < m.start.offset →
    regex.matchAt? (moving && skipped.isEmpty) place = none

/-- No place from a cursor on has a match. -/
def NoMatch (regex : Regex) (moving : Bool) (cursor : Cursor) : Prop :=
  ∀ skipped place, cursor.Leads skipped place →
    regex.matchAt? (moving && skipped.isEmpty) place = none

theorem leftmost_here (found : regex.matchAt? moving cursor = some m) :
    Leftmost regex moving cursor m := by
  have start_eq := (leads_of_matchAt? found).1
  refine ⟨⟨[], ?_, ?_⟩, ?_⟩
  · exact start_eq ▸ .refl m.start
  · simpa [start_eq] using found
  · intro skipped place leads nearer
    have := leads.offset_eq
    rw [start_eq] at nearer
    omega

theorem Leftmost.later {before after : List Char} {c : Char}
    (missed : regex.matchAt? moving (.amid before (c :: after)) = none)
    (leftmost : Leftmost regex false (.amid (c :: before) after) m) :
    Leftmost regex moving (.amid before (c :: after)) m := by
  rcases leftmost.found with ⟨skipped, leads, found⟩
  refine ⟨⟨c :: skipped, Cursor.leads_amid_cons leads, by simpa using found⟩, ?_⟩
  intro skipped place leads nearer
  rcases leads.cases_amid with ⟨rfl, rfl⟩ | ⟨rest, rfl, further⟩
  · simpa using missed
  · simpa using leftmost.missed rest place further nearer

theorem NoMatch.later {before after : List Char} {c : Char}
    (missed : regex.matchAt? moving (.amid before (c :: after)) = none)
    (noMatch : NoMatch regex false (.amid (c :: before) after)) :
    NoMatch regex moving (.amid before (c :: after)) := by
  intro skipped place leads
  rcases leads.cases_amid with ⟨rfl, rfl⟩ | ⟨rest, rfl, further⟩
  · simpa using missed
  · simpa using noMatch rest place further

theorem search?_cons (regex : Regex) (moving : Bool) (before after : List Char) (c : Char) :
    regex.search? moving (.amid before (c :: after)) =
      (regex.matchAt? moving (.amid before (c :: after))).or
        (regex.search? false (.amid (c :: before) after)) := by
  rcases here : regex.matchAt? moving (.amid before (c :: after)) with _ | other <;>
    simp [search?, search?.go, here]

/-- A search finds the leftmost match, or there is none. -/
theorem search?_spec (regex : Regex) (moving : Bool) (cursor : Cursor) :
    (∀ m, regex.search? moving cursor = some m → Leftmost regex moving cursor m) ∧
      (regex.search? moving cursor = none → NoMatch regex moving cursor) := by
  rw [cursor.eq_amid]
  generalize cursor.before = before, cursor.after = after
  induction after generalizing before moving with
  | nil =>
    refine ⟨fun m found => leftmost_here found, ?_⟩
    intro missed skipped place leads
    have ends : skipped = [] ∧ place.after = [] := by simpa using leads.1.symm
    have place_eq : place = .amid before [] := by simpa [ends] using leads.eq_amid.2
    change regex.matchAt? moving _ = none at missed
    rw [place_eq, ends.1]
    simpa using missed
  | cons c after ih =>
    rw [search?_cons]
    rcases here : regex.matchAt? moving (.amid before (c :: after)) with _ | other
    · rcases ih false (c :: before) with ⟨finds, misses⟩
      exact ⟨fun m found => (finds m found).later here, fun missed => (misses missed).later here⟩
    · refine ⟨?_, by simp⟩
      rintro m ⟨⟩
      exact leftmost_here here

/-- The matches of a scan from a cursor on. -/
inductive Scans (regex : Regex) : Bool → Cursor → List Match → Prop
  | stop {moving : Bool} {cursor : Cursor} (noMatch : NoMatch regex moving cursor) :
    Scans regex moving cursor []
  | next {moving : Bool} {cursor : Cursor} {m : Match} {rest : List Match}
    (leftmost : Leftmost regex moving cursor m) (more : Scans regex m.isEmpty m.stop rest) :
    Scans regex moving cursor (m :: rest)

/-- Where a match that is found leaves the scan: not before its start, and further on than the
cursor if an empty match does not count there. -/
theorem Leftmost.bounds (leftmost : Leftmost regex moving cursor m) :
    cursor.offset ≤ m.start.offset ∧ m.start.offset ≤ m.stop.offset ∧
      (moving = true → cursor.offset < m.stop.offset) := by
  rcases leftmost.found with ⟨skipped, leads, found⟩
  rcases leads_of_matchAt? found with ⟨-, body, passes, nonempty⟩
  have toStart := leads.offset_eq
  have toStop := passes.offset_eq
  refine ⟨by omega, by omega, ?_⟩
  intro isMoving
  rcases skipped with _ | ⟨c, skipped⟩
  · have := List.length_pos_iff.mpr (nonempty (by simpa using isMoving))
    omega
  · simp only [List.length_cons] at toStart
    omega

theorem Leftmost.text_eq (leftmost : Leftmost regex moving cursor m) :
    m.start.text = cursor.text ∧ m.stop.text = cursor.text := by
  rcases leftmost.found with ⟨skipped, leads, found⟩
  rcases leads_of_matchAt? found with ⟨-, body, passes, -⟩
  exact ⟨leads.text_eq, passes.text_eq.trans leads.text_eq⟩

theorem Cursor.offset_add_ahead (c : Cursor) : c.offset + c.ahead = c.text.length := by
  simp [Cursor.text, c.offset_eq, c.ahead_eq]

/-- With more steps than twice the characters ahead, and one more where an empty match counts, the
matches are all found. -/
theorem scans_matchesFrom {fuel : Nat} (enough : 2 * cursor.ahead + (!moving).toNat < fuel) :
    Scans regex moving cursor (regex.matchesFrom fuel moving cursor) := by
  induction fuel generalizing moving cursor with
  | zero => omega
  | succ fuel ih =>
    rcases regex.search?_spec moving cursor with ⟨finds, misses⟩
    rcases found : regex.search? moving cursor with _ | m
    · simpa [matchesFrom, found] using Scans.stop (misses found)
    · simp only [matchesFrom, found]
      have leftmost := finds m found
      apply Scans.next leftmost
      apply ih
      -- Either the match moves on, or it is empty and the next one at its place may not be.
      have bounds := leftmost.bounds
      have whole := cursor.offset_add_ahead
      have left := m.stop.offset_add_ahead
      rw [leftmost.text_eq.2] at left
      rcases empty : m.isEmpty with _ | _
      · have differs : m.start.offset ≠ m.stop.offset := by simpa [Match.isEmpty] using empty
        simp only [Bool.not_false, Bool.toNat_true]
        omega
      · simp only [Bool.not_true, Bool.toNat_false]
        cases moving
        · simp only [Bool.not_false, Bool.toNat_true] at enough
          omega
        · have further := bounds.2.2 rfl
          omega

/-- A scan finds all its matches. -/
theorem scans_scan (regex : Regex) (text : List Char) :
    Scans regex false (.atStart text) (regex.scan text) := by
  apply scans_matchesFrom
  simp [Cursor.atStart]

theorem scanOnce_eq_take (regex : Regex) (text : List Char) :
    regex.scanOnce text = (regex.scan text).take 1 := by
  simp only [scanOnce, scan, matchesFrom]
  rcases regex.search? false (.atStart text) with _ | m <;> rfl

namespace Scans

variable {found : List Match}

/-- The matches of a scan are ahead of its cursor, in its text. -/
theorem within (scans : Scans regex moving cursor found) :
    ∀ m ∈ found, cursor.offset ≤ m.start.offset ∧ m.start.offset ≤ m.stop.offset ∧
      (moving = true → cursor.offset < m.stop.offset) ∧
      m.start.text = cursor.text ∧ m.stop.text = cursor.text := by
  induction scans with
  | stop => simp
  | next leftmost more ih =>
    have bounds := leftmost.bounds
    have text_eq := leftmost.text_eq
    intro one one_mem
    rcases List.mem_cons.mp one_mem with rfl | later
    · exact ⟨bounds.1, bounds.2.1, bounds.2.2, text_eq⟩
    · rcases ih one later with ⟨behind, ordered, -, start_eq, stop_eq⟩
      refine ⟨by omega, ordered, ?_, start_eq.trans text_eq.2, stop_eq.trans text_eq.2⟩
      intro isMoving
      have := bounds.2.2 isMoving
      omega

/-- Every match of a scan stands before the later ones. -/
theorem pairwise_before (scans : Scans regex moving cursor found) :
    found.Pairwise Match.Before := by
  induction scans with
  | stop => exact .nil
  | @next _ _ m _ leftmost more ih =>
    refine .cons ?_ ih
    intro later later_mem
    have bounds := leftmost.bounds
    rcases more.within later later_mem with ⟨behind, ordered, moves, -⟩
    refine ⟨behind, ?_⟩
    by_cases empty : m.isEmpty = true
    · have stays : m.start.offset = m.stop.offset := by simpa [Match.isEmpty] using empty
      have further := moves empty
      omega
    · have differs : m.start.offset ≠ m.stop.offset := by simpa [Match.isEmpty] using empty
      omega

end Scans

end Regex

end Markflow

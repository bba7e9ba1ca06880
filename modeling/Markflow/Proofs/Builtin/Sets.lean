import Markflow.Builtin.Render
import Markflow.Proofs.Builtin.Regexes
import Markflow.Proofs.Regex.Spans
import Markflow.Proofs.Text.Cuts

/-!
# The character sets of the built-in transforms

What the sets in the expressions of the built-in transforms hold, and what repeating a set passes
over.
-/

namespace Markflow.Regex

theorem toNat_beq_toNat (c d : Char) : (c.toNat == d.toNat) = (c == d) := by
  by_cases same : c = d
  · simp [same]
  · have differs : c.toNat ≠ d.toNat := fun equal => same (Char.toNat_inj.mp equal)
    simp [same, differs]

@[simp]
theorem holds_allButNewline : CharSet.allButNewline.holds = (· != '\n') := by
  funext x
  have newline : (x.toNat == 0x0A) = (x == '\n') := toNat_beq_toNat x '\n'
  simp [CharSet.allButNewline, CharSet.holds, SetItem.holds, bne, newline]

end Markflow.Regex

namespace Markflow.Builtin

open Regex Regex.Node

@[simp]
theorem holds_only (c : Char) : (only c).holds = (· == c) := by
  funext x
  simp [only, CharSet.single, CharSet.holds, SetItem.holds, toNat_beq_toNat]

@[simp]
theorem holds_allBut (c : Char) : (allBut c).holds = (· != c) := by
  funext x
  simp [allBut, CharSet.holds, SetItem.holds, toNat_beq_toNat, bne]

@[simp]
theorem holds_gapSet : gapSet.holds = isSpaceOrTab := by
  funext x
  have space : (x.toNat == 0x20) = (x == ' ') := toNat_beq_toNat x ' '
  have tab : (x.toNat == 0x09) = (x == '\t') := toNat_beq_toNat x '\t'
  simp [gapSet, CharSet.holds, SetItem.holds, isSpaceOrTab, space, tab]

@[simp]
theorem holds_blankSet : blankSet.holds = Text.isBlank := by
  funext x
  simp [blankSet, CharSet.holds, SetItem.holds, CharKind.holds]

@[simp]
theorem holds_inkSet : inkSet.holds = fun x => !Text.isBlank x := by
  funext x
  simp [inkSet, CharSet.holds, SetItem.holds, CharKind.holds]

@[simp]
theorem holds_lineBlankSet : lineBlankSet.holds = fun x => Text.isBlank x && x != '\n' := by
  funext x
  have newline : (x.toNat == 0x0A) = (x == '\n') := toNat_beq_toNat x '\n'
  simp [lineBlankSet, CharSet.holds, SetItem.holds, CharKind.holds, bne, newline]

theorem isSpaceOrTab_newline : isSpaceOrTab '\n' = false := by decide

theorem isSpaceOrTab_iff {c : Char} : isSpaceOrTab c = true ↔ c = ' ' ∨ c = '\t' := by
  simp [isSpaceOrTab]

theorem isBlank_of_isSpaceOrTab {c : Char} (gap : isSpaceOrTab c = true) :
    Text.isBlank c = true := by
  rcases isSpaceOrTab_iff.mp gap with rfl | rfl <;> decide

/-- Where a line ends no run of characters other than line feeds goes on. -/
theorem stops_of_closesLine {test : Char → Bool} (newline : test '\n' = false) {tail : List Char}
    (closes : closesLine tail = true) : Text.Stops test tail := by
  cases tail with
  | nil => simp
  | cons c tail =>
    obtain rfl : c = '\n' := by simpa using closes
    simpa using newline

theorem ne_newline_of_isSpaceOrTab {c : Char} (holds : isSpaceOrTab c = true) : c ≠ '\n' := by
  rintro rfl
  exact absurd holds (by decide)

/-- A line that ends here has nothing left. -/
theorem closesLine_append {rest tail : List Char} (closes : closesLine tail = true)
    (inLine : '\n' ∉ rest) : closesLine (rest ++ tail) = rest.isEmpty := by
  cases rest with
  | nil => simpa using closes
  | cons c rest =>
    have : c ≠ '\n' := fun same => inLine (by simp [same])
    simpa using this

section Lit

variable (before after : List Char) (marks : List GroupMark) (c x : Char)

@[simp]
theorem ways_lit_nil : (lit c).ways ⟨.amid before [], marks⟩ = [] := rfl

@[simp]
theorem ways_lit_cons :
    (lit c).ways ⟨.amid before (x :: after), marks⟩ =
      if x = c then [⟨.amid (x :: before) after, marks⟩] else [] := by
  simp [lit]

end Lit

section Repetition

variable {set : CharSet} {marks : List GroupMark} {next : State → List State}

/-- A repetition of the characters of a set, where what follows refuses these characters. -/
theorem flatMap_loop_one {greed : Greed} (backtracks : greed ≠ .possessive) {least : Nat}
    {most : Option Nat} (possible : ∀ m ∈ most, least ≤ m)
    (refused : ∀ before c after, set.holds c = true → next ⟨.amid before (c :: after), marks⟩ = [])
    {before text rest : List Char} (passed : ∀ c ∈ text, set.holds c = true)
    (stops : Text.Stops set.holds rest) :
    ((loop greed least most (one set)).ways ⟨.amid before (text ++ rest), marks⟩).flatMap next =
      if allows least most text.length then next ⟨.amid (text.reverse ++ before) rest, marks⟩
        else [] :=
  flatMap_loop_of_refused backtracks rfl (steps_one set) possible refused (passed_one.mpr passed)
    fun c _ split => stops c (by simp [split])

theorem flatMap_many
    (refused : ∀ before c after, set.holds c = true → next ⟨.amid before (c :: after), marks⟩ = [])
    {before text rest : List Char} (passed : ∀ c ∈ text, set.holds c = true)
    (stops : Text.Stops set.holds rest) :
    ((many set).ways ⟨.amid before (text ++ rest), marks⟩).flatMap next =
      next ⟨.amid (text.reverse ++ before) rest, marks⟩ := by
  rw [many, flatMap_loop_one (by simp) (by simp) refused passed stops]
  simp [allows]

theorem flatMap_some1
    (refused : ∀ before c after, set.holds c = true → next ⟨.amid before (c :: after), marks⟩ = [])
    {before text rest : List Char} (passed : ∀ c ∈ text, set.holds c = true)
    (stops : Text.Stops set.holds rest) :
    ((some1 set).ways ⟨.amid before (text ++ rest), marks⟩).flatMap next =
      if text = [] then [] else next ⟨.amid (text.reverse ++ before) rest, marks⟩ := by
  rw [some1, flatMap_loop_one (by simp) (by simp) refused passed stops]
  cases text <;> simp [allows]

/-- No required repetition passes over a character that is not in the set. -/
theorem ways_loop_of_stops {greed : Greed} (backtracks : greed ≠ .possessive) (least : Nat)
    {before rest : List Char} (stops : Text.Stops set.holds rest) :
    (loop greed (least + 1) none (one set)).ways ⟨.amid before rest, marks⟩ = [] := by
  have first := @ways_loop_succ (one set) rfl _ backtracks least none ⟨.amid before rest, marks⟩
  have nothing : (one set).ways ⟨.amid before rest, marks⟩ = [] := by
    rcases rest with _ | ⟨c, after⟩
    · simp
    · simp [Text.stops_cons.mp stops]
  simpa [nothing] using first

theorem ways_some1_of_stops {before rest : List Char} (stops : Text.Stops set.holds rest) :
    (some1 set).ways ⟨.amid before rest, marks⟩ = [] :=
  ways_loop_of_stops (by simp) 0 stops

end Repetition

section First

variable {before text rest : List Char} {marks : List GroupMark}

/-- A repetition that prefers more passes first over all characters of its set. -/
theorem head?_ways_many {set : CharSet} (passed : ∀ c ∈ text, set.holds c = true)
    (stops : Text.Stops set.holds rest) :
    ((many set).ways ⟨.amid before (text ++ rest), marks⟩).head? =
      some ⟨.amid (text.reverse ++ before) rest, marks⟩ := by
  obtain ⟨shorter, spans_eq, _⟩ := spans_append (passed_one.mpr passed)
    (show ∀ c after, rest = c :: after → (fun c _ => set.holds c) c after = false from
      fun c _ split => stops c (by simp [split]))
  rw [many, ways_greedy_of_steps rfl (steps_one set) (by simp), spans_eq]
  simp [allows, State.past]

/-- What is tried behind the first way of an expression decides, if it can go on. -/
theorem head?_flatMap_of_head? {states : List State} {next : State → List State} {s : State}
    (first : states.head? = some s) (goesOn : next s ≠ []) :
    (states.flatMap next).head? = (next s).head? := by
  obtain ⟨others, rfl⟩ := List.head?_eq_some_iff.mp first
  obtain ⟨t, more, next_eq⟩ := List.exists_cons_of_ne_nil goesOn
  simp [next_eq]

end First

/-- An indentation before what refuses a space. -/
theorem flatMap_indent {marks : List GroupMark} {next : State → List State}
    (refused : ∀ before after, next ⟨.amid before (' ' :: after), marks⟩ = [])
    {before line tail : List Char} (closes : closesLine tail = true) :
    (indent.ways ⟨.amid before (line ++ tail), marks⟩).flatMap next =
      (afterIndent? line).elim [] fun text =>
        next ⟨.amid ((line.takeWhile (· == ' ')).reverse ++ before) (text ++ tail), marks⟩ := by
  obtain ⟨spaces, text, rfl, spaces_all, spaces_stops⟩ := Text.exists_cut (· == ' ') line
  have tail_stops : Text.Stops (· == ' ') tail := stops_of_closesLine (by decide) closes
  have spaces_refused : ∀ before c after, (only ' ').holds c = true →
      next ⟨.amid before (c :: after), marks⟩ = [] := by
    intro before c after holds
    obtain rfl : c = ' ' := by simpa using holds
    exact refused before after
  rw [indent, lit, List.append_assoc, flatMap_loop_one (by simp) (by simp) spaces_refused
    (by simpa using spaces_all) (by simpa using spaces_stops.append tail_stops)]
  simp only [afterIndent?, Text.takeWhile_cut spaces_all spaces_stops,
    Text.dropWhile_cut spaces_all spaces_stops]
  by_cases few : spaces.length ≤ 3 <;> simp [allows, few]

/-- An indented line is its spaces and what follows them. -/
theorem eq_append_of_afterIndent? {line text : List Char} (after : afterIndent? line = some text) :
    line = line.takeWhile (· == ' ') ++ text := by
  unfold afterIndent? at after
  split at after
  · obtain rfl : line.dropWhile (· == ' ') = text := by simpa using after
    exact List.takeWhile_append_dropWhile.symm
  · simp at after

theorem ways_optional {body : Node} (consumes : body.consumes = true) (s : State) :
    (optional body).ways s = body.ways s ++ [s] := by
  have once := ways_greedy_zero consumes (some 0) s
  have stopped : (loop .greedy 0 (some 0) body).ways = fun s => [s] :=
    funext fun s => ways_loop_zero_zero (by simp) s
  simpa [optional, stopped] using once

end Markflow.Builtin

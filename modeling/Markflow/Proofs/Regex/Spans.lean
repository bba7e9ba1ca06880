import Markflow.Proofs.Regex.Extent

/-!
# Repetition of single steps

Most repetitions of an expression pass over one character at a time: the characters of a set, or
those of a span that ends before a mark.  `Node.Steps` says which character such a body passes over;
what follows the character may matter too.  The ways of the repetition are then the passed
beginnings of the text ahead (`spans`), the shortest first or last.
-/

namespace Markflow.Regex

/-- In an ordered list a search finds the least item that it accepts. -/
theorem findSome?_eq_some_iff_of_pairwise {α β : Type} {less : α → α → Prop} {items : List α}
    (sorted : items.Pairwise less) (asymm : ∀ first second, less first second → ¬ less second first)
    {accept : α → Option β} {result : β} :
    items.findSome? accept = some result ↔
      ∃ item, item ∈ items ∧ accept item = some result ∧
        ∀ other, other ∈ items → less other item → accept other = none := by
  rw [List.findSome?_eq_some_iff]
  constructor
  · rintro ⟨earlier, item, later, rfl, accepted, refused⟩
    refine ⟨item, by simp, accepted, ?_⟩
    intro other other_mem isLess
    have laterThan := List.pairwise_cons.mp (List.pairwise_append.mp sorted).2.1
    rcases List.mem_append.mp other_mem with inEarlier | atItem
    · exact refused other inEarlier
    · rcases List.mem_cons.mp atItem with rfl | inLater
      · exact absurd isLess (asymm _ _ isLess)
      · exact absurd isLess (asymm _ _ (laterThan.1 other inLater))
  · rintro ⟨item, item_mem, accepted, refused⟩
    obtain ⟨earlier, later, rfl⟩ := List.append_of_mem item_mem
    refine ⟨earlier, item, later, rfl, accepted, ?_⟩
    intro other other_mem
    exact refused other (by simp [other_mem])
      ((List.pairwise_append.mp sorted).2.2 other other_mem item (by simp))

/-- The ways to cut a text behind characters that all satisfy a test together with what follows
them, the shortest beginning first. -/
def spans (passes : Char → List Char → Bool) : List Char → List (List Char × List Char)
  | [] => [([], [])]
  | c :: after =>
    ([], c :: after) ::
      if passes c after then (spans passes after).map fun (text, rest) => (c :: text, rest) else []

/-- Each character of a text that stands before another satisfies a test together with what follows
it. -/
def Passed (passes : Char → List Char → Bool) : (text rest : List Char) → Prop
  | [], _ => True
  | c :: text, rest => passes c (text ++ rest) = true ∧ Passed passes text rest

/-- The state behind a text. -/
def State.past (before : List Char) (marks : List GroupMark) (span : List Char × List Char) :
    State :=
  ⟨.amid (span.1.reverse ++ before) span.2, marks⟩

section Spans

variable {passes : Char → List Char → Bool}

theorem passed_append {first second rest : List Char} :
    Passed passes (first ++ second) rest ↔
      Passed passes first (second ++ rest) ∧ Passed passes second rest := by
  induction first with
  | nil => simp [Passed]
  | cons c first ih => simp [Passed, ih, and_assoc]

theorem passed_one {test : Char → Bool} {text rest : List Char} :
    Passed (fun c _ => test c) text rest ↔ ∀ c ∈ text, test c = true := by
  induction text with
  | nil => simp [Passed]
  | cons c text ih => simp [Passed, ih]

theorem mem_spans {after text rest : List Char} :
    (text, rest) ∈ spans passes after ↔ after = text ++ rest ∧ Passed passes text rest := by
  induction after generalizing text with
  | nil =>
    simp only [spans, List.mem_singleton, Prod.mk.injEq]
    constructor
    · rintro ⟨rfl, rfl⟩
      exact ⟨rfl, trivial⟩
    · rintro ⟨same, _⟩
      simpa using same.symm
  | cons c after ih =>
    cases text with
    | nil => by_cases passed : passes c after <;> simp [spans, Passed, passed, eq_comm]
    | cons d text =>
      by_cases passed : passes c after
      · simp only [spans, passed, if_true, List.mem_cons, Prod.mk.injEq, reduceCtorEq, false_and,
          List.mem_map, Prod.exists, List.cons.injEq, false_or, List.cons_append]
        constructor
        · rintro ⟨text, rest, mem, ⟨rfl, rfl⟩, rfl⟩
          obtain ⟨rfl, holds⟩ := ih.mp mem
          exact ⟨⟨rfl, rfl⟩, passed, holds⟩
        · rintro ⟨⟨rfl, rfl⟩, _, holds⟩
          exact ⟨text, rest, ih.mpr ⟨rfl, holds⟩, ⟨rfl, rfl⟩, rfl⟩
      · simp only [spans, passed, List.mem_cons, Prod.mk.injEq, reduceCtorEq, false_and,
          List.cons.injEq, false_or, List.cons_append, List.not_mem_nil,
          Bool.false_eq_true, if_false, false_iff, not_and]
        rintro ⟨rfl, rfl⟩ holds
        exact passed holds.1

/-- The beginnings that are passed come in the order of their lengths. -/
theorem pairwise_spans (after : List Char) :
    (spans passes after).Pairwise fun first second => first.1.length < second.1.length := by
  induction after with
  | nil => simp [spans]
  | cons c after ih =>
    by_cases passed : passes c after
    · simp only [spans, passed, if_true, List.pairwise_cons, List.mem_map, List.pairwise_map]
      refine ⟨?_, ih.imp ?_⟩
      · rintro _ ⟨span, _, rfl⟩
        simp
      · intro first second shorter
        simpa using shorter
    · simp [spans, passed]

/-- Of a text that is passed as far as possible, the beginnings that are passed are the text itself
and shorter ones, behind which a character is passed. -/
theorem spans_append {text rest : List Char} (passed : Passed passes text rest)
    (stops : ∀ c after, rest = c :: after → passes c after = false) :
    ∃ shorter, spans passes (text ++ rest) = shorter ++ [(text, rest)] ∧
      ∀ span ∈ shorter, ∃ c after, span.2 = c :: after ∧ passes c after = true := by
  induction text with
  | nil =>
    refine ⟨[], ?_, by simp⟩
    rcases rest with _ | ⟨c, after⟩
    · rfl
    · simp [spans, stops c after rfl]
  | cons c text ih =>
    obtain ⟨shorter, spans_eq, within⟩ := ih passed.2
    refine ⟨([], c :: (text ++ rest)) :: shorter.map fun span => (c :: span.1, span.2), ?_, ?_⟩
    · simp [spans, passed.1, spans_eq]
    · rintro span mem
      rcases List.mem_cons.mp mem with rfl | mem
      · exact ⟨c, text ++ rest, rfl, passed.1⟩
      · obtain ⟨shorterSpan, shorterMem, rfl⟩ := List.mem_map.mp mem
        exact within shorterSpan shorterMem

end Spans

namespace Node

/-- An expression passes over one character, if it satisfies a test together with what follows
it. -/
def Steps (body : Node) (passes : Char → List Char → Bool) : Prop :=
  ∀ before marks after, body.ways ⟨.amid before after, marks⟩ = match after with
    | [] => []
    | c :: after => if passes c after then [⟨.amid (c :: before) after, marks⟩] else []

theorem steps_one (set : CharSet) : (one set).Steps fun c _ => set.holds c := by
  intro before marks after
  cases after <;> rfl

variable {body : Node} {passes : Char → List Char → Bool}

/-- Whether a number of repetitions is allowed. -/
def allows (least : Nat) (most : Option Nat) (count : Nat) : Bool :=
  decide (least ≤ count) && most.all (count ≤ ·)

/-- With at most one way for each repetition, preferring more gives the same ways as preferring
fewer, the other way round. -/
theorem loopWays_true_of_length_le_one {body : State → List State}
    (single : ∀ s, (body s).length ≤ 1)
    (least : Nat) (most : Option Nat) (fuel count : Nat) (last : Option Nat) (s : State) :
    loopWays true body least most fuel count last s =
      (loopWays false body least most fuel count last s).reverse := by
  induction fuel generalizing count last s with
  | zero => rfl
  | succ fuel ih =>
    have again : ∀ last, (body s).flatMap (loopWays true body least most fuel (count + 1) last) =
        ((body s).flatMap (loopWays false body least most fuel (count + 1) last)).reverse := by
      intro last
      rcases only : body s with _ | ⟨t, _ | ⟨u, more⟩⟩
      · rfl
      · simp [ih]
      · have := single s
        simp [only] at this
    simp only [loopWays, again]
    by_cases required : count < least
    · simp [required]
    · by_cases more : mayRepeat most count last s <;> simp [required, more]

theorem length_ways_le_one (steps : body.Steps passes) (s : State) : (body.ways s).length ≤ 1 := by
  obtain ⟨cursor, marks⟩ := s
  rw [cursor.eq_amid, steps]
  rcases cursor.after with _ | ⟨c, after⟩
  · simp
  · by_cases passed : passes c after <;> simp [passed]

/-- A bound on a number of repetitions is zero, or it is the bound of one repetition fewer. -/
theorem most_cases (most : Option Nat) :
    most = some 0 ∨ ∃ fewer : Option Nat, most = fewer.map (· + 1) := by
  rcases most with _ | _ | most
  · exact .inr ⟨none, rfl⟩
  · exact .inl rfl
  · exact .inr ⟨some most, rfl⟩

/-- The ways of a repetition that prefers fewer. -/
theorem ways_lazy_of_steps (consumes : body.consumes = true) (steps : body.Steps passes)
    {least : Nat} {most : Option Nat} (possible : ∀ m ∈ most, least ≤ m) (before after : List Char)
    (marks : List GroupMark) :
    (loop .lazy least most body).ways ⟨.amid before after, marks⟩ =
      ((spans passes after).filter fun span => allows least most span.1.length).map
        (State.past before marks) := by
  induction after generalizing least most before with
  | nil =>
    rcases most_cases most with rfl | ⟨fewer, rfl⟩
    · obtain rfl : least = 0 := by simpa using possible
      rw [ways_loop_zero_zero (by simp)]
      simp [spans, allows, State.past]
    · cases least with
      | zero =>
        rw [ways_lazy_zero consumes]
        simp [steps _ _ _, spans, allows, State.past]
      | succ least =>
        rw [ways_loop_succ consumes (by simp)]
        simp [steps _ _ _, spans, allows]
  | cons c after ih =>
    rcases most_cases most with rfl | ⟨fewer, rfl⟩
    · obtain rfl : least = 0 := by simpa using possible
      rw [ways_loop_zero_zero (by simp)]
      by_cases passed : passes c after <;>
        simp [spans, allows, State.past, passed, List.filter_map, Function.comp_def]
    · have fewerPossible : ∀ m ∈ fewer, least - 1 ≤ m := by
        intro m mem
        have := possible (m + 1) (by simpa using mem)
        omega
      have longer : (((spans passes after).map fun span => (c :: span.1, span.2)).filter fun span =>
          allows least (fewer.map (· + 1)) span.1.length).map (State.past before marks) =
            (loop .lazy (least - 1) fewer body).ways ⟨.amid (c :: before) after, marks⟩ := by
        have allowed :
            ∀ n, allows least (fewer.map (· + 1)) (n + 1) = allows (least - 1) fewer n := by
          intro n
          cases fewer <;> simp [allows]
        simp [ih fewerPossible, List.filter_map, Function.comp_def, allowed, State.past]
      cases least with
      | zero =>
        have empty : allows 0 (fewer.map (· + 1)) 0 = true := by simp [allows]
        rw [ways_lazy_zero consumes, steps]
        by_cases passed : passes c after
        · simpa [spans, passed, empty, State.past] using longer.symm
        · simp [spans, empty, State.past, passed]
      | succ least =>
        have empty : allows (least + 1) (fewer.map (· + 1)) 0 = false := by simp [allows]
        rw [ways_loop_succ consumes (by simp), steps]
        by_cases passed : passes c after
        · simpa [spans, passed, empty] using longer.symm
        · simp [spans, empty, passed]

/-- The ways of a repetition that prefers more. -/
theorem ways_greedy_of_steps (consumes : body.consumes = true) (steps : body.Steps passes)
    {least : Nat} {most : Option Nat} (possible : ∀ m ∈ most, least ≤ m) (before after : List Char)
    (marks : List GroupMark) :
    (loop .greedy least most body).ways ⟨.amid before after, marks⟩ =
      (((spans passes after).filter fun span => allows least most span.1.length).map
        (State.past before marks)).reverse := by
  rw [← ways_lazy_of_steps consumes steps possible]
  exact loopWays_true_of_length_le_one (length_ways_le_one steps) _ _ _ _ _ _

section Repetition

variable {greed : Greed} (backtracks : greed ≠ .possessive) (consumes : body.consumes = true)
  (steps : body.Steps passes) {least : Nat} {most : Option Nat} (possible : ∀ m ∈ most, least ≤ m)
  {before after : List Char} {marks : List GroupMark}

include backtracks consumes steps possible

theorem mem_ways_loop_of_steps {t : State} :
    t ∈ (loop greed least most body).ways ⟨.amid before after, marks⟩ ↔
      ∃ text rest, after = text ++ rest ∧ Passed passes text rest ∧
        allows least most text.length = true ∧
          t = ⟨.amid (text.reverse ++ before) rest, marks⟩ := by
  have mem : t ∈ (loop greed least most body).ways ⟨.amid before after, marks⟩ ↔
      t ∈ ((spans passes after).filter fun span => allows least most span.1.length).map
        (State.past before marks) := by
    cases greed with
    | greedy => rw [ways_greedy_of_steps consumes steps possible, List.mem_reverse]
    | lazy => rw [ways_lazy_of_steps consumes steps possible]
    | possessive => exact absurd rfl backtracks
  simp only [mem, List.mem_map, List.mem_filter, Prod.exists, mem_spans, State.past,
    and_assoc, eq_comm]

/-- Where what follows a repetition refuses each character that a further repetition would pass
over, only as many repetitions as possible are left. -/
theorem flatMap_loop_of_refused {next : State → List State}
    (refused : ∀ before c after, passes c after = true →
      next ⟨.amid before (c :: after), marks⟩ = [])
    {text rest : List Char} (passed : Passed passes text rest)
    (stops : ∀ c after, rest = c :: after → passes c after = false) :
    ((loop greed least most body).ways ⟨.amid before (text ++ rest), marks⟩).flatMap next =
      if allows least most text.length then next ⟨.amid (text.reverse ++ before) rest, marks⟩
        else [] := by
  obtain ⟨shorter, spans_eq, within⟩ := spans_append passed stops
  have refusedShorter : ∀ t ∈ (shorter.filter fun span => allows least most span.1.length).map
      (State.past before marks), next t = [] := by
    intro t mem
    obtain ⟨span, span_mem, rfl⟩ := List.mem_map.mp mem
    obtain ⟨c, after, after_eq, passes⟩ := within span (List.mem_filter.mp span_mem).1
    rw [State.past, after_eq]
    exact refused _ _ _ passes
  cases greed with
  | greedy =>
    rw [ways_greedy_of_steps consumes steps possible, spans_eq, List.filter_append, List.map_append,
      List.reverse_append, List.flatMap_append, List.flatMap_eq_nil_iff.mpr fun t mem =>
        refusedShorter t (List.mem_reverse.mp mem)]
    by_cases allowed : allows least most text.length = true <;> simp [allowed, State.past]
  | lazy =>
    rw [ways_lazy_of_steps consumes steps possible, spans_eq, List.filter_append, List.map_append,
      List.flatMap_append, List.flatMap_eq_nil_iff.mpr refusedShorter]
    by_cases allowed : allows least most text.length = true <;> simp [allowed, State.past]
  | possessive => exact absurd rfl backtracks

end Repetition

section First

variable (consumes : body.consumes = true) (steps : body.Steps passes) {least : Nat}
    {most : Option Nat}
  (possible : ∀ m ∈ most, least ≤ m) {before after : List Char} {marks : List GroupMark}
  {next : State → List State} {t : State}

include consumes steps possible

/-- What follows a repetition that prefers fewer is reached behind the shortest text from which it
can go on. -/
theorem head?_flatMap_lazy_eq_some :
    (((loop .lazy least most body).ways ⟨.amid before after, marks⟩).flatMap next).head? = some t ↔
      ∃ text rest, after = text ++ rest ∧ Passed passes text rest ∧
        allows least most text.length = true ∧
        (next ⟨.amid (text.reverse ++ before) rest, marks⟩).head? = some t ∧
        ∀ text' rest', after = text' ++ rest' → Passed passes text' rest' →
          allows least most text'.length = true → text'.length < text.length →
            next ⟨.amid (text'.reverse ++ before) rest', marks⟩ = [] := by
  have sorted : ((spans passes after).filter fun span => allows least most span.1.length).Pairwise
      fun first second => first.1.length < second.1.length :=
    (pairwise_spans after).filter _
  rw [ways_lazy_of_steps consumes steps possible, List.head?_flatMap, List.findSome?_map,
    findSome?_eq_some_iff_of_pairwise sorted (fun _ _ => Nat.lt_asymm)]
  simp only [Prod.exists, Prod.forall, List.mem_filter, mem_spans, State.past, Function.comp_apply,
    and_assoc, and_imp, List.head?_eq_none_iff]

/-- What follows a repetition that prefers more is reached behind the longest text from which it can
go on. -/
theorem head?_flatMap_greedy_eq_some :
    (((loop .greedy least most body).ways ⟨.amid before after, marks⟩).flatMap next).head? =
      some t ↔
      ∃ text rest, after = text ++ rest ∧ Passed passes text rest ∧
        allows least most text.length = true ∧
        (next ⟨.amid (text.reverse ++ before) rest, marks⟩).head? = some t ∧
        ∀ text' rest', after = text' ++ rest' → Passed passes text' rest' →
          allows least most text'.length = true → text.length < text'.length →
            next ⟨.amid (text'.reverse ++ before) rest', marks⟩ = [] := by
  have sorted :
      ((spans passes after).filter fun span => allows least most span.1.length).reverse.Pairwise
      fun first second => second.1.length < first.1.length :=
    List.pairwise_reverse.mpr ((pairwise_spans after).filter _)
  rw [ways_greedy_of_steps consumes steps possible, ← List.map_reverse, List.head?_flatMap,
    List.findSome?_map, findSome?_eq_some_iff_of_pairwise sorted (fun _ _ => Nat.lt_asymm)]
  simp only [Prod.exists, Prod.forall, List.mem_reverse, List.mem_filter, mem_spans, State.past,
    Function.comp_apply, and_assoc, and_imp, List.head?_eq_none_iff]

end First

end Node

end Markflow.Regex

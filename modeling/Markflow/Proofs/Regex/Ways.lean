import Markflow.Regex.Scan

/-!
# The ways of an expression

`Node.run` tries the ways in which an expression matches one after the other and hands the state
that each ends in to the rest.  `Node.ways` lists these states in the same order, so that matching
is a search through the list (`Node.run_eq_findSome?_ways`).  What follows an expression is then no
longer a function inside its definition: the ways of a sequence are the ways of its second part from
each way of its first.
-/

namespace Markflow.Regex

/-- The ways of a repetition: `more` tells whether further repetitions come before stopping or
after. -/
def loopWays (more : Bool) (body : State → List State) (least : Nat) (most : Option Nat) :
    (fuel count : Nat) → (last : Option Nat) → State → List State
  | 0, _, _, _ => []
  | fuel + 1, count, last, s =>
    if count < least then
      (body s).flatMap (loopWays more body least most fuel (count + 1) last)
    else
      let further :=
        if mayRepeat most count last s then
          (body s).flatMap (loopWays more body least most fuel (count + 1) (some s.cursor.offset))
        else []
      if more then further ++ [s] else s :: further

namespace Node

/-- The states that the ways of matching an expression end in, in the order in which they are
tried. -/
def ways : Node → State → List State
  | empty, s => [s]
  | one set, s => match s.cursor.next? with
    | some (c, cursor) => if set.holds c then [{ s with cursor }] else []
    | none => []
  | seq first second, s => (first.ways s).flatMap second.ways
  | either first second, s => first.ways s ++ second.ways s
  | group index body, s => (body.ways (s.enter index)).map (·.leave index)
  | sameAs index mode, s => match s.groupText? index with
    | some text => match s.cursor.skip? mode text with
      | some cursor => [{ s with cursor }]
      | none => []
    | none => []
  | anchor place, s => if place.holds s.cursor then [s] else []
  | loop greed least most body, s => match greed with
    | .greedy => loopWays true body.ways least most (loopFuel least s) 0 none s
    | .lazy => loopWays false body.ways least most (loopFuel least s) 0 none s
    | .possessive =>
      (possessiveLoop (fun rest s => (body.ways s).findSome? rest) least most (loopFuel least s) 0
        none s).toList
  | ahead true body, s => ((body.ways s).head?.map fun t => { t with cursor := s.cursor }).toList
  | ahead false body, s => if (body.ways s).isEmpty then [s] else []
  | behind true width body, s => match s.cursor.backBy? width with
    | some cursor =>
      ((body.ways { s with cursor }).head?.map fun t => { t with cursor := s.cursor }).toList
    | none => []
  | behind false width body, s => match s.cursor.backBy? width with
    | some cursor => if (body.ways { s with cursor }).isEmpty then [s] else []
    | none => [s]
  | atomic body, s => (body.ways s).head?.toList
  | ifGroup index yes no, s => if (s.extent? index).isSome then yes.ways s else no.ways s

end Node

/-- A search through the lists that the items of a list stand for. -/
theorem findSome?_flatMap {α β γ : Type} (items : List α) (f : α → List β) (rest : β → Option γ) :
    (items.flatMap f).findSome? rest = items.findSome? fun item => (f item).findSome? rest := by
  induction items with
  | nil => rfl
  | cons item items ih =>
    simp only [List.flatMap_cons, List.findSome?_append, ih, List.findSome?_cons]
    cases (f item).findSome? rest <;> rfl

theorem findSome?_some_eq_head? {α : Type} (items : List α) :
    items.findSome? some = items.head? := by
  cases items <;> rfl

section Loops

variable {body : Rest → Rest} {ways : State → List State} {least : Nat} {most : Option Nat}

theorem greedyLoop_eq_findSome?_loopWays
    (body_eq : ∀ rest s, body rest s = (ways s).findSome? rest) (rest : Rest) (fuel count : Nat)
    (last : Option Nat) (s : State) :
    greedyLoop body least most rest fuel count last s =
      (loopWays true ways least most fuel count last s).findSome? rest := by
  induction fuel generalizing count last s with
  | zero => rfl
  | succ fuel ih =>
    have again : ∀ last, greedyLoop body least most rest fuel (count + 1) last =
        fun t => (loopWays true ways least most fuel (count + 1) last t).findSome? rest :=
      fun last => funext (ih (count + 1) last)
    simp only [greedyLoop, loopWays, again, body_eq]
    by_cases required : count < least
    · simp [required, findSome?_flatMap]
    · by_cases more : mayRepeat most count last s
      · simp only [required, more, if_true, if_false, List.findSome?_append, findSome?_flatMap]
        cases (ways s).findSome? _ <;> simp
      · simp [required, more]

theorem lazyLoop_eq_findSome?_loopWays
    (body_eq : ∀ rest s, body rest s = (ways s).findSome? rest) (rest : Rest) (fuel count : Nat)
    (last : Option Nat) (s : State) :
    lazyLoop body least most rest fuel count last s =
      (loopWays false ways least most fuel count last s).findSome? rest := by
  induction fuel generalizing count last s with
  | zero => rfl
  | succ fuel ih =>
    have again : ∀ last, lazyLoop body least most rest fuel (count + 1) last =
        fun t => (loopWays false ways least most fuel (count + 1) last t).findSome? rest :=
      fun last => funext (ih (count + 1) last)
    simp only [lazyLoop, loopWays, again, body_eq]
    by_cases required : count < least
    · simp [required, findSome?_flatMap]
    · simp only [required, if_false, Bool.false_eq_true, List.findSome?_cons]
      cases rest s with
      | some done => rfl
      | none =>
        by_cases more : mayRepeat most count last s <;> simp [more, findSome?_flatMap]

end Loops

/-- Matching an expression and then the rest is a search for the first way from which the rest can
be matched. -/
theorem Node.run_eq_findSome?_ways (node : Node) (rest : Rest) (s : State) :
    node.run rest s = (node.ways s).findSome? rest := by
  induction node generalizing rest s with
  | empty => simp [run, ways]
  | one set =>
    simp only [run, ways]
    rcases s.cursor.next? with _ | ⟨c, cursor⟩
    · rfl
    · by_cases holds : set.holds c <;> simp [holds]
  | seq first second ihFirst ihSecond =>
    simp only [run, ways, ihFirst, findSome?_flatMap]
    exact congrArg (List.findSome? · _) (funext (ihSecond rest))
  | either first second ihFirst ihSecond =>
    simp only [run, ways, ihFirst, ihSecond, List.findSome?_append]
    cases (first.ways s).findSome? rest <;> rfl
  | group index body ih => simp [run, ways, ih, List.findSome?_map, Function.comp_def]
  | sameAs index mode =>
    simp only [run, ways]
    rcases s.groupText? index with _ | text
    · rfl
    · simp only
      rcases s.cursor.skip? mode text with _ | cursor <;> simp
  | anchor place =>
    simp only [run, ways]
    by_cases holds : place.holds s.cursor <;> simp [holds]
  | loop greed least most body ih =>
    cases greed with
    | greedy => exact greedyLoop_eq_findSome?_loopWays ih rest _ _ _ _
    | lazy => exact lazyLoop_eq_findSome?_loopWays ih rest _ _ _ _
    | possessive =>
      have body_eq : body.run = fun rest s => (body.ways s).findSome? rest :=
        funext fun rest => funext (ih rest)
      simp only [run, ways, body_eq]
      rcases possessiveLoop _ least most _ 0 none s with _ | t <;> simp
  | ahead holds body ih =>
    cases holds <;> simp only [run, ways, ih, findSome?_some_eq_head?]
    · cases body.ways s <;> simp
    · cases body.ways s <;> simp
  | behind holds width body ih =>
    cases holds <;> simp only [run, ways, ih, findSome?_some_eq_head?] <;>
      rcases s.cursor.backBy? width with _ | cursor
    · simp
    · simp only
      cases body.ways { s with cursor } <;> simp
    · simp
    · simp only
      cases body.ways { s with cursor } <;> simp
  | atomic body ih =>
    simp only [run, ways, ih, findSome?_some_eq_head?]
    cases body.ways s <;> simp
  | ifGroup index yes no ihYes ihNo =>
    simp only [run, ways]
    by_cases isSet : (s.extent? index).isSome <;> simp [isSet, ihYes, ihNo]

/-- The match at a place is the first way from there. -/
theorem matchAt?_false (regex : Regex) (cursor : Cursor) :
    regex.matchAt? false cursor =
      (regex.root.ways (.begin cursor regex.groupCount)).head?.map fun s =>
        { start := cursor
          stop := s.cursor
          groups := (List.range regex.groupCount).map fun i =>
            (s.groupText? (i + 1)).map String.ofList } := by
  simp [matchAt?, Node.run_eq_findSome?_ways, findSome?_some_eq_head?]

end Markflow.Regex

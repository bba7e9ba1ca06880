import Markflow.Data.Key
import Markflow.Regex.Scan

/-!
# Captures

What a match gives to a render function: the matched text, the texts of the groups, where an unset
group has the empty text, and the place of the match.  When the expression has named groups the
captures are a record that is looked up by name; otherwise they are a sequence whose item zero is
the whole match.
-/

namespace Markflow

/-- The captures of a match. -/
structure Captures where
  full : String
  /-- The texts of the groups in the order of their numbers. -/
  groups : List String
  start : Nat
  stop : Nat
  /-- The named groups with their numbers, in the order of the numbers. -/
  names : List (String × Nat)
  deriving Repr, Inhabited

namespace Captures

/-- The captures of a match of an expression with the given named groups. -/
def ofMatch (names : List (String × Nat)) (found : Match) : Captures where
  full := found.text
  groups := found.groups.map (·.getD "")
  start := found.start.offset
  stop := found.stop.offset
  names := names

/-- Whether the captures are a record of named groups. -/
def isNamed (c : Captures) : Bool :=
  !c.names.isEmpty

/-- The whole match and then the groups. -/
def sequence (c : Captures) : List String :=
  c.full :: c.groups

/-- The named groups with their texts. -/
def fields (c : Captures) : List (String × String) :=
  c.names.map fun (name, number) => (name, (c.groups[number - 1]?).getD "")

/-- How many items there are: named groups of a record, else the groups and the whole. -/
def size (c : Captures) : Nat :=
  if c.isNamed then c.names.length else c.groups.length + 1

/-- The items in order: the names of a record, else the whole and the groups. -/
def items (c : Captures) : List String :=
  if c.isNamed then c.names.map (·.1) else c.sequence

/-- The kind of the captures. -/
def kind (c : Captures) : String :=
  if c.isNamed then "named" else "positional"

/-- The form of the captures in a sentence. -/
def written (c : Captures) : String :=
  (if c.isNamed then "NamedCaptures(" else "PositionalCaptures(") ++ Text.quoted c.full ++ ")"

/-- What captures are looked up by. -/
inductive Key where
  | value (value : Value)
  /-- A range of places: its start, its end and its step. -/
  | slice (start stop step : Value)
  deriving Repr, Inhabited

/-- The index that a value is; the two truth values count as one and zero. -/
def index? : Value → Option Int
  | .number n => some n
  | .bool b => some (if b then 1 else 0)
  | _ => none

/-- The item at an index; a negative index counts from the end. -/
def at? (items : List String) (index : Int) : Option String :=
  let place := if index < 0 then index + items.length else index
  if place < 0 then none else items[place.toNat]?

/-- The item of a sequence at an index. -/
def positional (c : Captures) (key : Value) (index : Int) : Except Fault String :=
  match at? c.sequence index with
  | some text => .ok text
  | none => .error (.capture (.index key))

/-- A bound of a slice, if it is given. -/
def bound : Value → Except Fault (Option Int)
  | .null => .ok none
  | value => match index? value with
    | some n => .ok (some n)
    | none => .error (.kind .sliceBound)

/-- The places of a slice of `length` items. -/
def slicePlaces (length : Nat) (start stop : Option Int) (step : Int) : List Nat :=
  let size : Int := length
  let forward := 0 < step
  let low : Int := if forward then 0 else -1
  let high : Int := if forward then size else size - 1
  let clamp (n : Int) : Int :=
    let n := if n < 0 then n + size else n
    max low (min n high)
  let first := match start with
    | some n => clamp n
    | none => if forward then low else high
  let last := match stop with
    | some n => clamp n
    | none => if forward then high else low
  let count : Nat :=
    if forward then ((last - first + step - 1) / step).toNat
    else ((first - last - step - 1) / (-step)).toNat
  (List.range count).map fun (i : Nat) => (first + step * Int.ofNat i).toNat

/-- The items of a slice. -/
def slice (items : List String) (start stop step : Value) : Except Fault (List String) := do
  let step := (← bound step).getD 1
  if step = 0 then throw .zeroStep
  let start ← bound start
  let stop ← bound stop
  return (slicePlaces items.length start stop step).filterMap (items[·]?)

/-- The capture of a key. -/
def item (c : Captures) : Key → Except Fault Value
  | .slice start stop step =>
    if c.isNamed then .error (.kind (.unhashable "slice"))
    else (fun texts => .list (texts.map .text)) <$> slice c.sequence start stop step
  | .value key => match index? key with
    | some index => .text <$> c.positional key index
    | none =>
      if c.isNamed then do
        match (← key.asKey).bind fun name => c.fields.lookup name with
        | some text => return .text text
        | none => throw (.capture (.name key))
      else .error (.capture (.unnamed key))

/-- The capture of a key, or the given value when there is none. -/
def get (c : Captures) (key : Key) (otherwise : Value) : Except Fault Value :=
  match c.item key with
  | .error (.capture _) => .ok otherwise
  | outcome => outcome

/-- Whether captures hold a key: in a record whether there is a capture of that key, in a sequence
whether the key is one of the items. -/
def holds (c : Captures) (key : Key) : Except Fault Bool :=
  if c.isNamed then
    match c.item key with
    | .ok _ => .ok true
    | .error (.capture (.index position)) => .error (.capture (.index position))
    | .error (.capture _) => .ok false
    | .error fault => .error fault
  else match key with
    | .value (.text text) => .ok (c.sequence.contains text)
    | _ => .ok false

/-- The text of a named group. -/
def named (c : Captures) (name : String) : Except Fault String :=
  if c.isNamed then
    match c.fields.lookup name with
    | some text => .ok text
    | none => .error (.capture (.name (.text name)))
  else .error (.capture (.unnamed (.text name)))

/-- The text of a named group, empty when there is none. -/
def namedOrEmpty (c : Captures) (name : String) : String :=
  match c.named name with
  | .ok text => text
  | .error _ => ""

end Captures

end Markflow

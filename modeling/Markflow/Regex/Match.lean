import Markflow.Regex.Basic
import Markflow.Regex.Cursor

/-!
# Matching at a place

Matching tries the ways of an expression in order: the first alternative first, more repetitions
first when greedy and fewer first when lazy.  `Node.run` is given what is still to be matched as a
function of the state that the expression leaves, so that a later failure turns back to the latest
choice.

A repetition beyond the required number is tried only where the one before it has moved on; so a
body that matches the empty text ends its loop.
-/

namespace Markflow.Regex

/-- Where a group was last entered and last left. -/
structure GroupMark where
  opened : Option Cursor := none
  closed : Option Cursor := none
  deriving Inhabited

/-- The extent of a group.  A group that was entered again behind its end has none. -/
def GroupMark.extent? (mark : GroupMark) : Option (Cursor × Cursor) :=
  match mark.opened, mark.closed with
  | some a, some b => if a.offset ≤ b.offset then some (a, b) else none
  | _, _ => none

/-- How far a match has come: a place, and the groups so far. -/
structure State where
  cursor : Cursor
  marks : List GroupMark
  deriving Inhabited

namespace State

/-- A match that begins at a place, with every group unset. -/
def begin (cursor : Cursor) (groupCount : Nat) : State :=
  ⟨cursor, List.replicate groupCount {}⟩

/-- The extent of a group; groups are numbered from one. -/
def extent? (s : State) (index : Nat) : Option (Cursor × Cursor) :=
  (s.marks[index - 1]?).bind GroupMark.extent?

/-- The state after a group is entered. -/
def enter (s : State) (index : Nat) : State :=
  { s with marks := s.marks.modify (index - 1) fun m => { m with opened := some s.cursor } }

/-- The state after a group is left. -/
def leave (s : State) (index : Nat) : State :=
  { s with marks := s.marks.modify (index - 1) fun m => { m with closed := some s.cursor } }

/-- The text of a group. -/
def groupText? (s : State) (index : Nat) : Option (List Char) :=
  (s.extent? index).map fun (a, b) => a.between b

end State

/-- Whether a place is an anchor. -/
def Anchor.holds (place : Anchor) (c : Cursor) : Bool :=
  match place with
  | textStart => c.before.isEmpty
  | textEnd => c.after.isEmpty
  | lastLineEnd => c.after.isEmpty || c.after == ['\n']
  | lineStart => c.before.isEmpty || c.before.head? == some '\n'
  | lineEnd => c.after.isEmpty || c.after.head? == some '\n'
  | wordEdge ascii => inside ascii c.before != inside ascii c.after
  | noWordEdge ascii =>
    inside ascii c.before == inside ascii c.after && !(c.before.isEmpty && c.after.isEmpty)
where
  /-- Whether the neighbour on one side is a word character. -/
  inside (ascii : Bool) (side : List Char) : Bool :=
    (side.head?.map (CharKind.word.holds ascii)).getD false

/-- The place behind the given text, if that text comes next. -/
def Cursor.skip? (mode : CaseMode) : List Char → Cursor → Option Cursor
  | [], c => some c
  | x :: text, c => match c.next? with
    | some (y, d) => if mode.alike x y then skip? mode text d else none
    | none => none

/-- What is still to be matched, as a function of the state so far. -/
abbrev Rest := State → Option State

/-- Whether a repetition may follow `count` others, the last of which began at `last`. -/
def mayRepeat (most : Option Nat) (count : Nat) (last : Option Nat) (s : State) : Bool :=
  most.all (count < ·) && last != some s.cursor.offset

/-- Repetition that prefers more.  `count` repetitions are done; `last` is where the last one
began, if it was not a required one. -/
def greedyLoop (body : Rest → Rest) (least : Nat) (most : Option Nat) (rest : Rest) :
    (fuel count : Nat) → (last : Option Nat) → Rest
  | 0, _, _, _ => none
  | fuel + 1, count, last, s =>
    if count < least then
      body (greedyLoop body least most rest fuel (count + 1) last) s
    else
      let more :=
        if mayRepeat most count last s then
          body (greedyLoop body least most rest fuel (count + 1) (some s.cursor.offset)) s
        else none
      match more with
      | some done => some done
      | none => rest s

/-- Repetition that prefers fewer. -/
def lazyLoop (body : Rest → Rest) (least : Nat) (most : Option Nat) (rest : Rest) :
    (fuel count : Nat) → (last : Option Nat) → Rest
  | 0, _, _, _ => none
  | fuel + 1, count, last, s =>
    if count < least then
      body (lazyLoop body least most rest fuel (count + 1) last) s
    else match rest s with
      | some done => some done
      | none =>
        if mayRepeat most count last s then
          body (lazyLoop body least most rest fuel (count + 1) (some s.cursor.offset)) s
        else none

/-- Repetition that takes each body's first match and goes on as long as there is one. -/
def possessiveLoop (body : Rest → Rest) (least : Nat) (most : Option Nat) :
    (fuel count : Nat) → (last : Option Nat) → Rest
  | 0, _, _, _ => none
  | fuel + 1, count, last, s =>
    if count < least then
      match body some s with
      | some t => possessiveLoop body least most fuel (count + 1) last t
      | none => none
    else if mayRepeat most count last s then
      match body some s with
      | some t => possessiveLoop body least most fuel (count + 1) (some s.cursor.offset) t
      | none => some s
    else some s

/-- More steps than a loop can take from a state: after the required repetitions each one but the
last moves on. -/
def loopFuel (least : Nat) (s : State) : Nat :=
  least + s.cursor.ahead + 2

namespace Node

/-- Matches an expression at the state's place and then the rest, trying the ways in order. -/
def run : Node → Rest → Rest
  | empty, rest, s => rest s
  | one set, rest, s => match s.cursor.next? with
    | some (c, cursor) => if set.holds c then rest { s with cursor } else none
    | none => none
  | seq first second, rest, s => first.run (second.run rest) s
  | either first second, rest, s => match first.run rest s with
    | some done => some done
    | none => second.run rest s
  | group index body, rest, s => body.run (fun t => rest (t.leave index)) (s.enter index)
  | sameAs index mode, rest, s => match s.groupText? index with
    | some text => match s.cursor.skip? mode text with
      | some cursor => rest { s with cursor }
      | none => none
    | none => none
  | anchor place, rest, s => if place.holds s.cursor then rest s else none
  | loop greed least most body, rest, s => match greed with
    | .greedy => greedyLoop body.run least most rest (loopFuel least s) 0 none s
    | .lazy => lazyLoop body.run least most rest (loopFuel least s) 0 none s
    | .possessive => match possessiveLoop body.run least most (loopFuel least s) 0 none s with
      | some t => rest t
      | none => none
  | ahead true body, rest, s => match body.run some s with
    | some t => rest { t with cursor := s.cursor }
    | none => none
  | ahead false body, rest, s => match body.run some s with
    | some _ => none
    | none => rest s
  | behind true width body, rest, s => match s.cursor.backBy? width with
    | some cursor => match body.run some { s with cursor } with
      | some t => rest { t with cursor := s.cursor }
      | none => none
    | none => none
  | behind false width body, rest, s => match s.cursor.backBy? width with
    | some cursor => match body.run some { s with cursor } with
      | some _ => none
      | none => rest s
    | none => rest s
  | atomic body, rest, s => match body.run some s with
    | some t => rest t
    | none => none
  | ifGroup index yes no, rest, s =>
    if (s.extent? index).isSome then yes.run rest s else no.run rest s

end Node

end Markflow.Regex

import Markflow.Regex.CharSet

/-!
# Regular expressions

The form of a regular expression after reading: letter case, line mode and the extent of the
character classes are already settled at each place, so that matching needs no further options.

Groups are numbered from one in the order of their opening parentheses.  The width of an expression
is the least and the greatest number of characters that it can match; it decides which expressions
can look behind.
-/

namespace Markflow.Regex

/-- Places in a text that match no character. -/
inductive Anchor where
  | textStart
  | textEnd
  /-- The end of the text, or the place before a line feed that ends it. -/
  | lastLineEnd
  | lineStart
  | lineEnd
  /-- Between a word character and another character or an end of the text. -/
  | wordEdge (ascii : Bool)
  | noWordEdge (ascii : Bool)
  deriving DecidableEq, Repr, Inhabited

/-- Which numbers of repetitions are tried first, and whether others are tried at all. -/
inductive Greed where
  | greedy
  | lazy
  /-- As many as possible, without giving any back. -/
  | possessive
  deriving DecidableEq, Repr, Inhabited

/-- A regular expression. -/
inductive Node where
  | empty
  | one (set : CharSet)
  | seq (first second : Node)
  | either (first second : Node)
  | group (index : Nat) (body : Node)
  /-- The text of a group once more. -/
  | sameAs (index : Nat) (mode : CaseMode)
  | anchor (place : Anchor)
  | loop (greed : Greed) (least : Nat) (most : Option Nat) (body : Node)
  /-- A condition on the text that follows. -/
  | ahead (holds : Bool) (body : Node)
  /-- A condition on the `width` characters that precede. -/
  | behind (holds : Bool) (width : Nat) (body : Node)
  /-- The first way in which the body matches, and no other. -/
  | atomic (body : Node)
  | ifGroup (index : Nat) (yes no : Node)
  deriving DecidableEq, Repr, Inhabited

namespace Node

/-- One expression after the other. -/
def sequence : List Node → Node
  | [] => empty
  | [node] => node
  | node :: nodes => seq node (sequence nodes)

/-- The first expression that matches. -/
def choice : List Node → Node
  | [] => empty
  | [node] => node
  | node :: nodes => either node (choice nodes)

/-- How many calls inside each other go through an expression.  All that a choice offers is one call
deeper than the choice, which is itself no deeper where it goes on another one (`choosing`). -/
def callsIn : (choosing : Bool) → Node → Nat
  | choosing, either first second =>
    let offered := max (first.callsIn false) (second.callsIn true)
    if choosing then offered else offered + 1
  | _, seq first second => max (first.callsIn false) (second.callsIn false)
  | _, group _ body => body.callsIn false + 1
  | _, loop _ _ _ body => body.callsIn false + 1
  | _, ahead _ body => body.callsIn false + 1
  | _, behind _ _ body => body.callsIn false + 1
  | _, atomic body => body.callsIn false + 1
  | _, ifGroup _ yes no => max (yes.callsIn false) (no.callsIn false) + 1
  | _, empty | _, one _ | _, sameAs _ _ | _, anchor _ => 0

/-- How many calls inside each other go through an expression. -/
def calls (node : Node) : Nat :=
  node.callsIn false

/-- The width of an expression without bound. -/
def widthLimit : Nat := 1 <<< 64

/-- The least and the greatest width of an expression, given those of the groups. -/
def width (groupWidth : Nat → Nat × Nat) : Node → Nat × Nat
  | empty => (0, 0)
  | one _ => (1, 1)
  | seq first second =>
    let (a, b) := first.width groupWidth
    let (c, d) := second.width groupWidth
    (min (a + c) widthLimit, min (b + d) widthLimit)
  | either first second =>
    let (a, b) := first.width groupWidth
    let (c, d) := second.width groupWidth
    (min a c, max b d)
  | group _ body => body.width groupWidth
  | sameAs index _ => groupWidth index
  | anchor _ => (0, 0)
  | loop _ least most body =>
    let (a, b) := body.width groupWidth
    let high := match most with
      | some n => b * n
      | none => if b = 0 then 0 else widthLimit
    (min (a * least) widthLimit, min high widthLimit)
  | ahead _ _ => (0, 0)
  | behind _ _ _ => (0, 0)
  | atomic body => body.width groupWidth
  | ifGroup _ yes no =>
    let (a, b) := yes.width groupWidth
    let (c, d) := no.width groupWidth
    (min a c, max b d)

end Node

end Regex

/-- A regular expression with its groups: how many there are and the numbers of the named ones. -/
structure Regex where
  root : Regex.Node
  groupCount : Nat
  /-- The named groups in the order of their numbers. -/
  names : List (String × Nat)
  deriving DecidableEq, Repr, Inhabited

end Markflow

import Markflow.Regex.Match

/-!
# Scanning a text

A scan finds the matches of an expression from left to right: each is the match at the first place
that has one, from where the last one ended.  Where the last match was empty only a match that is
not empty counts at the same place, so a scan never stands still.
-/

namespace Markflow

/-- A match: its two ends and its groups. -/
structure Match where
  start : Regex.Cursor
  stop : Regex.Cursor
  /-- The texts of the groups in the order of their numbers, `none` for an unset group. -/
  groups : List (Option String)
  deriving Inhabited

namespace Match

/-- The matched text. -/
def text (m : Match) : String :=
  String.ofList (m.start.between m.stop)

/-- The offsets of the two ends. -/
def span (m : Match) : Nat × Nat :=
  (m.start.offset, m.stop.offset)

/-- Whether the match is empty. -/
def isEmpty (m : Match) : Bool :=
  m.start.offset == m.stop.offset

end Match

namespace Regex

/-- The match at a place; with `moving` an empty one does not count. -/
def matchAt? (regex : Regex) (moving : Bool) (cursor : Cursor) : Option Match :=
  let accept (s : State) : Option State :=
    if moving && s.cursor.offset == cursor.offset then none else some s
  (regex.root.run accept (.begin cursor regex.groupCount)).map fun s =>
    { start := cursor
      stop := s.cursor
      groups := (List.range regex.groupCount).map fun i =>
        (s.groupText? (i + 1)).map String.ofList }

/-- The first match at or behind a place; `moving` concerns that place alone. -/
def search? (regex : Regex) (moving : Bool) (cursor : Cursor) : Option Match :=
  go moving cursor.after cursor
where
  /-- Tries the places one after the other, as many as there are characters ahead. -/
  go (moving : Bool) : List Char → Cursor → Option Match
    | [], cursor => regex.matchAt? moving cursor
    | _ :: ahead, cursor => match regex.matchAt? moving cursor with
      | some found => some found
      | none => match cursor.next? with
        | some (_, next) => go false ahead next
        | none => none

/-- The matches from a place on. -/
def matchesFrom (regex : Regex) : (fuel : Nat) → (moving : Bool) → Cursor → List Match
  | 0, _, _ => []
  | fuel + 1, moving, cursor => match regex.search? moving cursor with
    | none => []
    | some found => found :: regex.matchesFrom fuel found.isEmpty found.stop

/-- All matches of a scan.  No place begins more than one empty and one other match. -/
def scan (regex : Regex) (text : List Char) : List Match :=
  regex.matchesFrom (2 * text.length + 2) false (.atStart text)

/-- The first match of a scan, if there is one. -/
def scanOnce (regex : Regex) (text : List Char) : List Match :=
  (regex.search? false (.atStart text)).toList

end Regex

end Markflow

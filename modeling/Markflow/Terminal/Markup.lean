import Markflow.Libraries
import Markflow.Terminal.Style
import Markflow.Text.Blank

/-!
# Marks of style in texts

A title or a cell that is given as a plain text can have marks of style in square brackets.  A mark
with a slash ends the style of its name, or the latest one, which has to be there.
-/

namespace Markflow.Terminal

/-- The mark behind an opening bracket with what follows its closing one, if it is a mark of
style. -/
def markOf? (text : List Char) : Option (List Char × List Char) :=
  match text with
  | c :: _ =>
    if ('a' ≤ c && c ≤ 'z') || ['#', '/', '@'].contains c then
      let mark := text.takeWhile fun c => c != '[' && c != ']'
      match text.drop mark.length with
      | ']' :: rest => some (mark, rest)
      | _ => none
    else none
  | [] => none

/-- The styles that stay open behind a mark. -/
def applyMark (opened : List (List Char)) (mark : List Char) (position : Nat) :
    Except Fault (List (List Char)) :=
  match mark with
  | '/' :: name =>
    let refuse (cause : String) : Except Fault (List (List Char)) :=
      throw (.raised "MarkupError"
        s!"closing tag '[{String.ofList mark}]' at position {position} {cause}")
    match Text.strip name, opened with
    | [], _ :: opened => return opened
    | [], [] => refuse "has nothing to close"
    | name, opened =>
      if opened.contains name then return opened.erase name
      else refuse "doesn't match any open tag"
  | mark => return Text.strip (mark.takeWhile (· != '=')) :: opened

/-- A text without its marks of style.  A backslash keeps a mark from being one. -/
def unmarked : (fuel : Nat) → (opened : List (List Char)) → (position : Nat) → List Char →
    Except Fault (List Char)
  | 0, _, _, text => return text
  | _ + 1, _, _, [] => return []
  | fuel + 1, opened, position, c :: rest =>
    let slashes := (c :: rest).takeWhile (· == '\\')
    match (c :: rest).drop slashes.length with
    | '[' :: behind => match markOf? behind with
      | some (mark, after) => do
        let kept := List.replicate (slashes.length / 2) '\\'
        let length := slashes.length + mark.length + 2
        if slashes.length % 2 = 1 then
          return kept ++ '[' :: mark ++ ']' :: (← unmarked fuel opened (position + length) after)
        let opened ← applyMark opened mark position
        return kept ++ (← unmarked fuel opened (position + length) after)
      | none =>
        return slashes ++ '[' ::
          (← unmarked fuel opened (position + slashes.length + 1) behind)
    | _ =>
      if slashes.isEmpty then return c :: (← unmarked fuel opened (position + 1) rest)
      else return slashes ++
        (← unmarked fuel opened (position + slashes.length) ((c :: rest).drop slashes.length))

/-- What is drawn of a label. -/
def Label.resolve : Label → Except Fault Run
  | text run => return { run with text := withoutControls run.text }
  | markup source => do
    let text ← unmarked (source.length + 1) [] 0 source.toList
    return .plain (withoutControls (String.ofList text))

end Markflow.Terminal

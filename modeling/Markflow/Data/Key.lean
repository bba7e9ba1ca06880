import Markflow.Fault

/-!
# Keys

Names are looked up by values.  A list, a table or a set cannot be a key; any other value can, but
only a text is ever found among names.
-/

namespace Markflow

/-- The name that a value stands for as a key, if it stands for one. -/
def Value.asKey : Value → Except Fault (Option String)
  | .text name => .ok (some name)
  | .list _ => .error (.kind (.unhashable "list"))
  | .table _ => .error (.kind (.unhashable "dict"))
  | .bag "set" _ _ => .error (.kind (.unhashable "set"))
  | _ => .ok none

/-- The form of a value inside a sentence, if it can be written. -/
def Value.form (value : Value) : Except Fault String :=
  if value.isWritable then .ok value.shown else .error (.excess .form)

/-- The position and the kind of the first item that is no text. -/
def firstNoText? : (position : Nat) → List Value → Option (Nat × String)
  | _, [] => none
  | position, .text _ :: items => firstNoText? (position + 1) items
  | position, item :: _ => some (position, item.kindName)

/-- The texts of a list, which has to hold texts alone. -/
def texts (items : List Value) : Except Fault (List String) :=
  match firstNoText? 0 items with
  | some (position, kind) => .error (.kind (.notJoined position kind))
  | none => .ok (items.map Value.shown)

/-- The texts of a list, joined by a separator. -/
def joined (separator : String) (items : List Value) : Except Fault String :=
  separator.intercalate <$> texts items

/-- Some keys in the order of their code points, for a message that lists them. -/
def sortedKeys (keys : List Value) : Except Fault (List String) :=
  match keys.find? Value.isText, keys.find? (!Value.isText ·) with
  | some _, some other => .error (.kind (.notComparable "str" other.kindName))
  | _, _ => (·.mergeSort fun a b => !(b < a)) <$> texts keys

end Markflow

import Markflow.Host
import Markflow.Text.Quoted

/-!
# Plain values

The values that configuration files and the raw fields of a definition are made of.  A table keeps
its entries in the order in which they were written.  Kinds of values that nothing here works with,
such as fractions and dates, are kept as their kind and their text.

Main definitions: `Value.kindName` names the kind of a value in messages, `Value.isSet` says which
values count as given, `Value.written` and `Value.shown` are the two texts of a value.
-/

namespace Markflow

/-- A plain value. -/
inductive Value where
  | null
  | bool (b : Bool)
  | number (n : Int)
  | text (s : String)
  | list (items : List Value)
  | table (entries : List (Value × Value))
  /-- A value to go through that is no list, such as a set: its kind, its text and its items. -/
  | bag (kind : String) (written : String) (items : List Value)
  /-- A value of a kind that nothing here works with: its kind and its text. -/
  | other (kind : String) (written : String)
  deriving Repr, Inhabited

namespace Value

/-- The name of a value's kind. -/
def kindName : Value → String
  | null => "NoneType"
  | bool _ => "bool"
  | number _ => "int"
  | text _ => "str"
  | list _ => "list"
  | table _ => "dict"
  | bag kind _ _ => kind
  | other kind _ => kind

/-- The greatest power of two below one that counts as zero among fractions, as the number of its
halvings. -/
def vanishing : Nat := 1075

/-- Whether the text of a fraction stands for zero, or for so little that it counts as zero. -/
def isZeroFraction (form : List Char) : Bool :=
  let (mantissa, power) := form.span fun c => c != 'e' && c != 'E'
  let digits := mantissa.filter Char.isDigit
  let magnitude := Text.baseValue 10 digits
  let places := ((mantissa.dropWhile (· != '.')).filter Char.isDigit).length
  let exponent := Text.baseValue 10 (power.filter Char.isDigit)
  let raised := if power.contains '-' then 0 else exponent
  let lowered := places + if power.contains '-' then exponent else 0
  if digits.isEmpty then false
  else if magnitude = 0 then true
  else if lowered ≤ raised then false
  -- The second comparison is between numbers of at most so many digits.
  else digits.length + vanishing < lowered - raised
    || magnitude * Nat.pow 2 vanishing ≤ Nat.pow 10 (lowered - raised)

/-- Whether a value counts as given: null, false, zero and everything empty do not. -/
def isSet : Value → Bool
  | null => false
  | bool b => b
  | number n => n != 0
  | text s => s != ""
  | list items => !items.isEmpty
  | table entries => !entries.isEmpty
  | bag _ _ items => !items.isEmpty
  | other kind written => !(kind == "float" && isZeroFraction written.toList)

/-- Whether a value is a text. -/
def isText : Value → Bool
  | text _ => true
  | _ => false

mutual

/-- The exact form of a value: texts are quoted, lists and tables show their items. -/
def written : Value → String
  | null => "None"
  | bool true => "True"
  | bool false => "False"
  | number n => toString n
  | text s => Text.quoted s
  | list items => "[" ++ ", ".intercalate (writtenItems items) ++ "]"
  | table entries => "\x7b" ++ ", ".intercalate (writtenEntries entries) ++ "\x7d"
  | bag _ form _ => form
  | other _ form => form

/-- The exact forms of the items of a list. -/
def writtenItems : List Value → List String
  | [] => []
  | item :: items => written item :: writtenItems items

/-- The exact forms of the entries of a table. -/
def writtenEntries : List (Value × Value) → List String
  | [] => []
  | (key, value) :: entries => (written key ++ ": " ++ written value) :: writtenEntries entries

end

mutual

/-- Whether a value can be written: no number in it has too many digits. -/
def isWritable : Value → Bool
  | number n => n.natAbs < 10 ^ Excess.digitLimit
  | list items => areWritable items
  | table entries => haveWritable entries
  | bag _ _ items => areWritable items
  | _ => true

/-- Whether the items of a list can be written. -/
def areWritable : List Value → Bool
  | [] => true
  | item :: items => isWritable item && areWritable items

/-- Whether the entries of a table can be written. -/
def haveWritable : List (Value × Value) → Bool
  | [] => true
  | (key, value) :: entries => isWritable key && isWritable value && haveWritable entries

end

/-- The form of a value inside a sentence: a text stands for itself, all else has its exact form. -/
def shown : Value → String
  | text s => s
  | value => value.written

mutual

/-- Whether two values are equal: of one kind, with equal parts in one order. -/
def same : Value → Value → Bool
  | null, null => true
  | bool a, bool b => a == b
  | number a, number b => a == b
  | text a, text b => a == b
  | list a, list b => sameItems a b
  | table a, table b => sameEntries a b
  | bag kind form _, bag kind' form' _ => kind == kind' && form == form'
  | other kind form, other kind' form' => kind == kind' && form == form'
  | _, _ => false

/-- Whether two lists have equal items. -/
def sameItems : List Value → List Value → Bool
  | [], [] => true
  | a :: as, b :: bs => same a b && sameItems as bs
  | _, _ => false

/-- Whether two tables have equal entries in one order. -/
def sameEntries : List (Value × Value) → List (Value × Value) → Bool
  | [], [] => true
  | (k, a) :: as, (l, b) :: bs => same k l && same a b && sameEntries as bs
  | _, _ => false

end

instance : BEq Value := ⟨same⟩

end Value

/-- The entries of a table, in the order in which they were written. -/
abbrev Entries := List (Value × Value)

namespace Entries

/-- The value of a key that is a text. -/
def find? (entries : Entries) (key : String) : Option Value :=
  List.lookup (Value.text key) entries

/-- The entries with a key set: a key that is there keeps its place and takes the new value. -/
def set (entries : Entries) (key value : Value) : Entries :=
  if entries.any (·.1 == key) then
    entries.map fun (k, v) => if k == key then (k, value) else (k, v)
  else entries ++ [(key, value)]

/-- The entries of a list of pairs in which a later pair replaces an earlier one of its key. -/
def ofPairs (pairs : List (Value × Value)) : Entries :=
  pairs.foldl (fun entries (key, value) => entries.set key value) []

/-- The entries with those of a second table set one after the other. -/
def merge (entries changes : Entries) : Entries :=
  changes.foldl (fun merged (key, value) => merged.set key value) entries

/-- The entries without the given keys. -/
def without (entries : Entries) (keys : List String) : Entries :=
  entries.filter fun entry => !keys.any fun key => entry.1 == Value.text key

end Entries

end Markflow

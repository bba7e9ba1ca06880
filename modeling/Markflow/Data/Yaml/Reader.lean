import Markflow.Data.Yaml.Lexer
import Markflow.Data.Yaml.Scalar

/-!
# Reading YAML

The value of the one document in a text.  An entry that is left out is null.  A later entry of a
mapping replaces an earlier one of its key, and a key is neither a list nor a mapping.
-/

namespace Markflow.Yaml

/-- A value with the tokens behind it. -/
abbrev Reading := Option (Value × List Token)

/-- Whether a value can be a key. -/
def isKey : Value → Bool
  | .list _ => false
  | .table _ => false
  | _ => true

mutual

/-- Reads the value that comes next.  Blocks count only with `blocks`, and entries without a block
of their own only with `entries`. -/
def readNode : (fuel : Nat) → (blocks entries : Bool) → List Token → Reading
  | 0, _, _, _ => none
  | fuel + 1, blocks, entries, tokens => match tokens with
    | .scalar text plain :: rest => some (if plain then plainValue text else .text text, rest)
    | .flowSequenceStart :: rest => readFlowItems fuel true [] rest
    | .flowMappingStart :: rest => readFlowPairs fuel true [] rest
    | .blockSequenceStart :: rest => if blocks then readItems fuel [] rest else none
    | .blockMappingStart :: rest => if blocks then readPairs fuel [] rest else none
    | .blockEntry :: _ => if entries then readEntries fuel [] tokens else none
    | _ => none

/-- Reads a value, or null where one of the given tokens comes next. -/
def readOr : (fuel : Nat) → (ends : List Token) → (blocks entries : Bool) → List Token → Reading
  | 0, _, _, _, _ => none
  | fuel + 1, ends, blocks, entries, tokens =>
    match tokens with
    | [] => some (.null, [])
    | token :: _ =>
      if ends.contains token then some (.null, tokens) else readNode fuel blocks entries tokens

/-- Reads the items of a block up to its end. -/
def readItems : (fuel : Nat) → (items : List Value) → List Token → Reading
  | 0, _, _ => none
  | fuel + 1, items, tokens => match tokens with
    | .blockEntry :: rest => do
      let (item, rest) ← readOr fuel [.blockEntry, .blockEnd] true false rest
      readItems fuel (items ++ [item]) rest
    | .blockEnd :: rest => some (.list items, rest)
    | _ => none

/-- Reads items that have no block of their own. -/
def readEntries : (fuel : Nat) → (items : List Value) → List Token → Reading
  | 0, _, _ => none
  | fuel + 1, items, tokens => match tokens with
    | .blockEntry :: rest => do
      let (item, rest) ← readOr fuel [.blockEntry, .key, .value, .blockEnd] true false rest
      readEntries fuel (items ++ [item]) rest
    | rest => some (.list items, rest)

/-- Reads the pairs of a block up to its end. -/
def readPairs : (fuel : Nat) → (pairs : List (Value × Value)) → List Token → Reading
  | 0, _, _ => none
  | fuel + 1, pairs, tokens => match tokens with
    | .key :: rest => do
      let (key, rest) ← readOr fuel [.key, .value, .blockEnd] true true rest
      if !isKey key then none
      match rest with
      | .value :: rest => do
        let (value, rest) ← readOr fuel [.key, .value, .blockEnd] true true rest
        readPairs fuel (pairs ++ [(key, value)]) rest
      | rest => readPairs fuel (pairs ++ [(key, .null)]) rest
    | .blockEnd :: rest => some (.table (Entries.ofPairs pairs), rest)
    | _ => none

/-- Reads the items between brackets up to their end; `first` tells that none is read yet. -/
def readFlowItems : (fuel : Nat) → (first : Bool) → (items : List Value) → List Token → Reading
  | 0, _, _, _ => none
  | fuel + 1, first, items, tokens =>
    match first, tokens with
    | _, .flowSequenceEnd :: rest => some (.list items, rest)
    | false, .flowEntry :: .flowSequenceEnd :: rest => some (.list items, rest)
    | false, .flowEntry :: rest => do
      let (item, rest) ← readFlowItem fuel rest
      readFlowItems fuel false (items ++ [item]) rest
    | false, _ => none
    | true, rest => do
      let (item, rest) ← readFlowItem fuel rest
      readFlowItems fuel false (items ++ [item]) rest

/-- Reads an item between brackets, which may be a single pair. -/
def readFlowItem : (fuel : Nat) → List Token → Reading
  | 0, _ => none
  | fuel + 1, tokens => match tokens with
    | .key :: rest => do
      let (key, rest) ← readOr fuel [.value, .flowEntry, .flowSequenceEnd] false false rest
      if !isKey key then none
      match rest with
      | .value :: rest => do
        let (value, rest) ← readOr fuel [.flowEntry, .flowSequenceEnd] false false rest
        return (.table [(key, value)], rest)
      | rest => return (.table [(key, .null)], rest)
    | rest => readNode fuel false false rest

/-- Reads the pairs between braces up to their end; `first` tells that none is read yet. -/
def readFlowPairs : (fuel : Nat) → (first : Bool) → (pairs : List (Value × Value)) →
    List Token → Reading
  | 0, _, _, _ => none
  | fuel + 1, first, pairs, tokens =>
    match first, tokens with
    | _, .flowMappingEnd :: rest => some (.table (Entries.ofPairs pairs), rest)
    | false, .flowEntry :: .flowMappingEnd :: rest => some (.table (Entries.ofPairs pairs), rest)
    | false, .flowEntry :: rest => do
      let (key, value, rest) ← readFlowPair fuel rest
      readFlowPairs fuel false (pairs ++ [(key, value)]) rest
    | false, _ => none
    | true, rest => do
      let (key, value, rest) ← readFlowPair fuel rest
      readFlowPairs fuel false (pairs ++ [(key, value)]) rest

/-- Reads a pair between braces; a key alone has the value null. -/
def readFlowPair : (fuel : Nat) → List Token → Option (Value × Value × List Token)
  | 0, _ => none
  | fuel + 1, tokens => match tokens with
    | .key :: rest => do
      let (key, rest) ← readOr fuel [.value, .flowEntry, .flowMappingEnd] false false rest
      if !isKey key then none
      match rest with
      | .value :: rest => do
        let (value, rest) ← readOr fuel [.flowEntry, .flowMappingEnd] false false rest
        return (key, value, rest)
      | rest => return (key, .null, rest)
    | rest => do
      let (key, rest) ← readNode fuel false false rest
      if !isKey key then none
      return (key, .null, rest)

end

/-- The value of the one document that some tokens make up; null when there is none. -/
def document? (tokens : List Token) : Option Value := do
  let fuel := 4 * tokens.length + 4
  let (value, rest) ← match tokens with
    | [] => pure (Value.null, [])
    | .documentStart :: rest =>
      readOr fuel [.documentStart, .documentEnd] true false rest
    | tokens => readNode fuel true false tokens
  if (rest.dropWhile (· == .documentEnd)).isEmpty then return value else none

/-- The value that a text spells. -/
def read? (text : List Char) : Option Value :=
  tokens? text >>= document?

end Markflow.Yaml

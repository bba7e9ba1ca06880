/-!
# UTF-8

Decoding of bytes, with the place and the kind of the first fault.  The faulty bytes are those of
the sequence that cannot go on: a byte that starts no sequence stands alone, a sequence with a wrong
byte ends before that byte, and a sequence that the text cuts short reaches up to its end.
-/

namespace Markflow.Text

/-- Why some bytes are no character. -/
inductive Utf8Fault where
  | invalidStart
  | invalidContinuation
  | unexpectedEnd
  deriving DecidableEq, Repr, Inhabited

/-- The wording of a fault. -/
def Utf8Fault.message : Utf8Fault → String
  | invalidStart => "invalid start byte"
  | invalidContinuation => "invalid continuation byte"
  | unexpectedEnd => "unexpected end of data"

/-- The first bytes that are no character: their offset, their number, the first of them and the
reason. -/
structure Undecodable where
  offset : Nat
  count : Nat
  byte : UInt8
  fault : Utf8Fault
  deriving DecidableEq, Repr, Inhabited

/-- The wording of a decoding fault with its place. -/
def Undecodable.message (u : Undecodable) : String :=
  let place :=
    if u.count == 1 then
      let digits := Nat.toDigits 16 u.byte.toNat
      let byte := String.ofList (List.replicate (2 - digits.length) '0' ++ digits)
      s!"byte 0x{byte} in position {u.offset}"
    else s!"bytes in position {u.offset}-{u.offset + u.count - 1}"
  s!"'utf-8' codec can't decode {place}: {u.fault.message}"

namespace Utf8

/-- The number of bytes in the sequence that a byte starts, and the range of its second byte. -/
def lead? (b : UInt8) : Option (Nat × UInt8 × UInt8) :=
  if b < 0x80 then some (1, 0x80, 0xBF)
  else if b < 0xC2 then none
  else if b < 0xE0 then some (2, 0x80, 0xBF)
  else if b == 0xE0 then some (3, 0xA0, 0xBF)
  else if b == 0xED then some (3, 0x80, 0x9F)
  else if b < 0xF0 then some (3, 0x80, 0xBF)
  else if b == 0xF0 then some (4, 0x90, 0xBF)
  else if b < 0xF4 then some (4, 0x80, 0xBF)
  else if b == 0xF4 then some (4, 0x80, 0x8F)
  else none

/-- The leading bytes that can follow the first byte of a sequence, at most `count`; `low` and
`high` bound the next one. -/
def continuation (low high : UInt8) : (count : Nat) → List UInt8 → List UInt8
  | 0, _ => []
  | _, [] => []
  | count + 1, b :: rest =>
    if low ≤ b && b ≤ high then b :: continuation 0x80 0xBF count rest else []

/-- The character of a sequence of `width` bytes. -/
def character (width : Nat) (first : UInt8) (more : List UInt8) : Char :=
  let start := match width with
    | 1 => first.toNat
    | 2 => first.toNat % 0x20
    | 3 => first.toNat % 0x10
    | _ => first.toNat % 0x08
  Char.ofNat (more.foldl (fun code b => code * 0x40 + b.toNat % 0x40) start)

/-- Decodes the bytes from an offset on; `characters` are those before it, the latest first. -/
def decodeFrom : (fuel offset : Nat) → (characters : List Char) → List UInt8 →
    Except Undecodable (List Char)
  | _, _, characters, [] => .ok characters.reverse
  | 0, _, characters, _ => .ok characters.reverse
  | fuel + 1, offset, characters, b :: rest =>
    match lead? b with
    | none => .error ⟨offset, 1, b, .invalidStart⟩
    | some (width, low, high) =>
      let more := continuation low high (width - 1) rest
      if more.length + 1 = width then
        decodeFrom fuel (offset + width) (character width b more :: characters)
          (rest.drop more.length)
      else if more.length = rest.length then
        .error ⟨offset, more.length + 1, b, .unexpectedEnd⟩
      else .error ⟨offset, more.length + 1, b, .invalidContinuation⟩

/-- The text of some bytes. -/
def decode (bytes : List UInt8) : Except Undecodable (List Char) :=
  decodeFrom bytes.length 0 [] bytes

end Utf8

end Markflow.Text

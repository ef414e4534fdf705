/-!
# Text/Utf8 — reading bytes as text

A byte string need not be text.  `decode` reads it with a machine that takes one byte at a time and
never stops: a run of bytes that no scalar value begins with becomes one U+FFFD for each **maximal
subpart**, the longest stretch that still could have become a scalar value.  `isValid` holds of the
byte strings that need no such replacement, and `encode` writes text as bytes.
-/

namespace RespClient

/-- Bytes as they travel and as they are stored: lists, which proofs can take apart. -/
abbrev Bytes := List UInt8

namespace Utf8

/-- **Where the reader stands between two bytes**: between scalar values, or inside one, with
`left + 1` bytes due, the next of them from `low` to `high`, and `scalar` read so far. -/
inductive State
  | between
  | inside (left : Nat) (low high : UInt8) (scalar : Nat)
deriving DecidableEq

/-- What a byte between scalar values does: it is a scalar value, it begins one, or it is neither. -/
inductive Lead
  | whole (c : Char)
  | begins (next : State)
  | stray

/-- The scalar value a byte is or begins.  The bounds on the second byte keep out overlong forms
(after `E0` and `F0`), surrogates (after `ED`) and what lies past U+10FFFF (after `F4`). -/
def lead (b : UInt8) : Lead :=
  if b < 0x80 then .whole (Char.ofNat b.toNat)
  else if b < 0xC2 then .stray
  else if b < 0xE0 then .begins (.inside 0 0x80 0xBF (b.toNat % 32))
  else if b < 0xF0 then
    .begins (.inside 1 (if b = 0xE0 then 0xA0 else 0x80) (if b = 0xED then 0x9F else 0xBF)
      (b.toNat % 16))
  else if b < 0xF5 then
    .begins (.inside 2 (if b = 0xF0 then 0x90 else 0x80) (if b = 0xF4 then 0x8F else 0xBF)
      (b.toNat % 8))
  else .stray

/-- The character that stands for bytes which are no text. -/
def replacement : Char := Char.ofNat 0xFFFD

/-- **A reader**: the characters read, whether a replacement is among them, and the state. -/
structure Reader where
  text : String
  replaced : Bool
  state : State

namespace Reader

/-- Nothing read. -/
def empty : Reader := ⟨"", false, .between⟩

/-- Bytes that are no text become one replacement. -/
def replace (r : Reader) : Reader := ⟨r.text.push replacement, true, .between⟩

/-- A byte read between scalar values. -/
def start (r : Reader) (b : UInt8) : Reader :=
  match lead b with
  | .whole c => { r with text := r.text.push c, state := .between }
  | .begins next => { r with state := next }
  | .stray => r.replace

/-- **One more byte.**  A byte that cannot go on with the scalar value at hand ends its maximal
subpart and is read afresh. -/
def push (r : Reader) (b : UInt8) : Reader :=
  match r.state with
  | .between => r.start b
  | .inside left low high scalar =>
    if low ≤ b ∧ b ≤ high then
      let scalar := scalar * 64 + b.toNat % 64
      match left with
      | 0 => { r with text := r.text.push (Char.ofNat scalar), state := .between }
      | left + 1 => { r with state := .inside left 0x80 0xBF scalar }
    else r.replace.start b

/-- The end of the bytes: a scalar value that is cut off becomes a replacement. -/
def finish (r : Reader) : Reader :=
  match r.state with
  | .between => r
  | .inside .. => r.replace

end Reader

/-- The reader after a whole byte string. -/
def read (data : Bytes) : Reader := (data.foldl Reader.push Reader.empty).finish

/-- **Bytes as text**, one U+FFFD for each maximal subpart that is none. -/
def decode (data : Bytes) : String := (read data).text

/-- Whether the bytes are text as they stand. -/
def isValid (data : Bytes) : Bool := !(read data).replaced

/-- Text as bytes. -/
def encode (text : String) : Bytes := text.toUTF8.toList

end Utf8

end RespClient

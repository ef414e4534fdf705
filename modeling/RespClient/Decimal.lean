import RespClient.Text.Utf8

/-!
# Decimal — whole numbers as ASCII digits

Lengths and integers travel as decimal digits.  `ofNat` and `ofInt` write the one canonical form, no
leading zero except for zero itself; `read?` takes any digits with an optional minus sign and refuses
what a signed 64-bit word cannot hold.  `count?` reads a count as people write it, below `2 ^ 64`.
-/

namespace RespClient.Decimal

/-- The ASCII digit of a number below ten. -/
def digit (n : Nat) : UInt8 := UInt8.ofNat (48 + n % 10)

/-- **A natural number in canonical form.** -/
def ofNat (n : Nat) : Bytes :=
  if n < 10 then [digit n] else ofNat (n / 10) ++ [digit n]

/-- The minus sign. -/
def minus : UInt8 := 45

/-- **An integer in canonical form.** -/
def ofInt (n : Int) : Bytes :=
  if n < 0 then minus :: ofNat n.natAbs else ofNat n.natAbs

/-- Whether a byte is an ASCII digit. -/
def isDigit (b : UInt8) : Bool := 48 ≤ b && b ≤ 57

/-- An integer as a signed 64-bit word, if it fits. -/
def word? (n : Int) : Option Int64 :=
  if Int64.minValue.toInt ≤ n ∧ n ≤ Int64.maxValue.toInt then some (Int64.ofInt n) else none

/-- **One more digit** of a number that is `negative` or not: ten times the number so far, then the
digit towards the sign, each step refused when it leaves the word. -/
def extend (negative : Bool) (n : Int64) (b : UInt8) : Option Int64 := do
  guard (isDigit b)
  let tens ← word? (n.toInt * 10)
  let units : Int := (b.toNat - 48 : Nat)
  word? (if negative then tens.toInt - units else tens.toInt + units)

/-- **The integer a line of bytes spells**: an optional minus sign, then one digit or more. -/
def read? (line : Bytes) : Option Int64 :=
  match line with
  | [] => none
  | first :: rest =>
    let (negative, digits) := if first = minus then (true, rest) else (false, line)
    if digits.isEmpty then none else digits.foldlM (extend negative) 0

/-- A number with one more digit, as long as it stays below `2 ^ 64`. -/
def countOn (n : Nat) (b : UInt8) : Option Nat := do
  guard (isDigit b)
  let next := 10 * n + (b.toNat - 48)
  guard (next < UInt64.size)
  return next

/-- **A count**: an optional plus sign, then one digit or more. -/
def count? (text : String) : Option Nat :=
  let digits :=
    match Utf8.encode text with
    | 43 :: rest => rest
    | all => all
  if digits.isEmpty then none else digits.foldlM countOn 0

end RespClient.Decimal

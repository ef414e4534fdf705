/-!
# Address — where a server listens, as text

A socket address is an IPv4 address or an IPv6 address in brackets, then a port.  `parse?` reads every
accepted spelling and looks up no names; `render` writes the one canonical spelling: no leading zeros,
and the longest run of two zero groups or more, the first of equals, written `::`.
-/

namespace RespClient

/-- **A numeric host.** -/
inductive Host
  | v4 (octets : List UInt8)
  /-- Eight groups, and the number of the zone the address belongs to, zero for none. -/
  | v6 (groups : List UInt16) (zone : UInt32)
deriving DecidableEq

/-- **Where a server listens.** -/
structure SocketAddress where
  host : Host
  port : UInt16
deriving DecidableEq

namespace SocketAddress

/-! ## Reading -/

/-- The value of a digit in a base up to sixteen. -/
def digit? (base : Nat) (c : Char) : Option Nat :=
  let value :=
    if '0' ≤ c ∧ c ≤ '9' then c.toNat - '0'.toNat
    else if 'a' ≤ c ∧ c ≤ 'f' then c.toNat - 'a'.toNat + 10
    else if 'A' ≤ c ∧ c ≤ 'F' then c.toNat - 'A'.toNat + 10
    else base
  if value < base then some value else none

/-- The value of digits, the first the most significant. -/
def ofDigits (base : Nat) (digits : List Nat) : Nat := digits.foldl (fun n d => base * n + d) 0

/-- **A number below `bound`** at the front of the text, in at most `most` digits where given, and the
text after it. -/
def number? (base bound : Nat) (most : Option Nat) (text : List Char) : Option (Nat × List Char) :=
  let digits := (text.takeWhile fun c => (digit? base c).isSome).filterMap (digit? base)
  let n := ofDigits base digits
  if digits.isEmpty || most.any (· < digits.length) || bound ≤ n then none
  else some (n, text.drop digits.length)

/-- A character that has to come next. -/
def expect? (c : Char) : List Char → Option (List Char)
  | [] => none
  | d :: rest => if d = c then some rest else none

/-- One part of an IPv4 address: up to three digits, none of them a leading zero. -/
def octet? (text : List Char) : Option (UInt8 × List Char) := do
  let (n, rest) ← number? 10 256 (some 3) text
  guard (text.head? ≠ some '0' || text.length = rest.length + 1)
  return (UInt8.ofNat n, rest)

/-- Four parts with points between them. -/
def ipv4? (text : List Char) : Option (List UInt8 × List Char) := do
  let (a, text) ← octet? text
  let (b, text) ← octet? (← expect? '.' text)
  let (c, text) ← octet? (← expect? '.' text)
  let (d, text) ← octet? (← expect? '.' text)
  return ([a, b, c, d], text)

/-- Two octets make a group. -/
def group (high low : UInt8) : UInt16 := high.toUInt16 * 256 + low.toUInt16

/-- What stands before a group: a colon, unless it is the first. -/
def separator? (first : Bool) (text : List Char) : Option (List Char) :=
  if first then some text else expect? ':' text

/-- **Groups with colons between them**, `room` at most.  Where two groups fit, an IPv4 address may
stand for them, and ends them.  Gives the groups, whether an IPv4 address ended them, and the text
after them. -/
def groups (first : Bool) : Nat → List Char → List UInt16 × Bool × List Char
  | 0, text => ([], false, text)
  | room + 1, text =>
    let embedded := if room = 0 then none else (separator? first text).bind ipv4?
    match embedded with
    | some ([a, b, c, d], rest) => ([group a b, group c d], true, rest)
    | _ =>
      match (separator? first text).bind (number? 16 65536 (some 4)) with
      | none => ([], false, text)
      | some (n, rest) =>
        let (more, ended, rest) := groups false room rest
        (UInt16.ofNat n :: more, ended, rest)

/-- **An IPv6 address**: eight groups, or fewer with `::` where zero groups are left out. -/
def ipv6? (text : List Char) : Option (List UInt16 × List Char) :=
  let (front, ended, rest) := groups true 8 text
  if front.length = 8 then some (front, rest)
  else if ended then none
  else do
    let rest ← expect? ':' (← expect? ':' rest)
    let (back, _, rest) := groups true (7 - front.length) rest
    return (front ++ List.replicate (8 - front.length - back.length) 0 ++ back, rest)

/-- A zone after a percent sign; none is zone zero. -/
def zone (text : List Char) : Nat × List Char :=
  ((expect? '%' text).bind (number? 10 UInt32.size none)).getD (0, text)

/-- A colon and a port, then the end of the text. -/
def port? (text : List Char) : Option UInt16 := do
  let (n, rest) ← number? 10 65536 none (← expect? ':' text)
  guard rest.isEmpty
  return UInt16.ofNat n

/-- **Reads a socket address.** -/
def parse? (text : String) : Option SocketAddress :=
  let text := text.toList
  match ipv4? text with
  | some (octets, rest) => do return ⟨.v4 octets, ← port? rest⟩
  | none => do
    let (groups, rest) ← ipv6? (← expect? '[' text)
    let (zone, rest) := zone rest
    return ⟨.v6 groups (UInt32.ofNat zone), ← port? (← expect? ']' rest)⟩

/-! ## Writing -/

/-- Octets with points between them. -/
def renderOctets (octets : List UInt8) : String :=
  ".".intercalate (octets.map fun b => toString b.toNat)

/-- Groups in base sixteen with colons between them. -/
def renderGroups (groups : List UInt16) : String :=
  ":".intercalate (groups.map fun g => String.ofList (Nat.toDigits 16 g.toNat))

/-- How many zero groups stand at the front. -/
def zerosAhead (groups : List UInt16) : Nat := (groups.takeWhile (· = 0)).length

/-- **The longest run of zero groups**, the first of equals: its place and its length. -/
def longestZeros (groups : List UInt16) : Nat × Nat :=
  (List.range groups.length).foldl (fun best i =>
    let length := zerosAhead (groups.drop i)
    if best.2 < length then (i, length) else best) (0, 0)

/-- An IPv6 address in canonical form; one that stands for an IPv4 address shows that. -/
def renderIpv6 (groups : List UInt16) : String :=
  match groups with
  | [0, 0, 0, 0, 0, 0xFFFF, ab, cd] =>
    "::ffff:" ++ renderOctets
      [(ab / 256).toUInt8, (ab % 256).toUInt8, (cd / 256).toUInt8, (cd % 256).toUInt8]
  | _ =>
    let (start, length) := longestZeros groups
    if 1 < length then
      renderGroups (groups.take start) ++ "::" ++ renderGroups (groups.drop (start + length))
    else renderGroups groups

def isIpv6 (a : SocketAddress) : Bool :=
  match a.host with
  | .v4 _ => false
  | .v6 .. => true

/-- **The canonical spelling.** -/
def render (a : SocketAddress) : String :=
  let host := match a.host with
    | .v4 octets => renderOctets octets
    | .v6 groups zone =>
      "[" ++ renderIpv6 groups ++ (if zone = 0 then "" else "%" ++ toString zone.toNat) ++ "]"
  host ++ ":" ++ toString a.port.toNat

end SocketAddress

end RespClient

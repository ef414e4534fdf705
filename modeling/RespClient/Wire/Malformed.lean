import RespClient.Text.Quoted
import RespClient.Decimal

/-!
# Wire/Malformed — why bytes are no reply

Every cause is final: once bytes do not frame a reply, nothing after them can be told apart.
-/

namespace RespClient

/-- **Why bytes are no reply.** -/
inductive Malformed
  /-- A reply begins with none of the five type bytes. -/
  | typeByte (b : UInt8)
  /-- An integer or a length is empty, no decimal number, or more than a word holds. -/
  | integer (text : String)
  /-- A length below the `-1` that means null. -/
  | length (n : Int64)
  /-- A bulk string beyond what is accepted. -/
  | bulkTooLarge (n : Int64)
  /-- A line that ran past what is accepted, `n` bytes of it seen. -/
  | lineTooLong (n : Nat)
  /-- A CR without its LF, or a bulk string without its CR LF. -/
  | missingTerminator
deriving DecidableEq

namespace Malformed

/-- Two hexadecimal digits. -/
def hex (b : UInt8) : String :=
  String.ofList [Nat.digitChar (b.toNat / 16), Nat.digitChar (b.toNat % 16)]

/-- The cause in words. -/
def message : Malformed → String
  | typeByte b => "invalid type byte 0x" ++ hex b
  | integer text => "invalid integer field " ++ Quoted.quote text
  | length n => "invalid length " ++ toString n.toInt
  | bulkTooLarge n => "bulk string of " ++ toString n.toInt ++ " bytes exceeds limit"
  | lineTooLong n => "line of " ++ toString n ++ " bytes exceeds limit"
  | missingTerminator => "expected CRLF terminator"

end Malformed

end RespClient

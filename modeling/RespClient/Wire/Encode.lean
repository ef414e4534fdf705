import RespClient.Value

/-!
# Wire/Encode — values and commands as bytes

A line is a type byte, its text and CR LF.  A bulk string is a line with its length, then that many
bytes and CR LF, so its bytes may be anything; an array is a line with its length, then its elements.
A command is an array of bulk strings, hence the same bytes as the reply made of those strings
(`reply_array_bytes`).
-/

namespace RespClient.Wire

/-! ## The bytes of the format -/

/-- Carriage return. -/
def cr : UInt8 := 13

/-- Line feed. -/
def lf : UInt8 := 10

/-- The end of a line and of a bulk string. -/
def crlf : Bytes := [cr, lf]

/-- The type byte of a simple string. -/
def simpleMark : UInt8 := 43

/-- The type byte of an error. -/
def errorMark : UInt8 := 45

/-- The type byte of an integer. -/
def integerMark : UInt8 := 58

/-- The type byte of a bulk string. -/
def bulkMark : UInt8 := 36

/-- The type byte of an array. -/
def arrayMark : UInt8 := 42

/-! ## Writing -/

/-- A type byte, the text of a line and its end. -/
def line (mark : UInt8) (text : Bytes) : Bytes := mark :: text ++ crlf

/-- **A bulk string**: its length, its bytes as they are, and CR LF. -/
def bulk (data : Bytes) : Bytes := line bulkMark (Decimal.ofNat data.length) ++ data ++ crlf

/-- **A command**: the array of its arguments, each a bulk string. -/
def command (arguments : List Bytes) : Bytes :=
  line arrayMark (Decimal.ofNat arguments.length) ++ arguments.flatMap bulk

mutual
/-- A reply before some bytes.  Nested arrays write each byte once this way. -/
def replyBefore (rest : Bytes) : Value → Bytes
  | .null => line bulkMark (Decimal.ofInt (-1)) ++ rest
  | .integer n => line integerMark (Decimal.ofInt n.toInt) ++ rest
  | .bytes data => bulk data ++ rest
  | .error message => line errorMark message ++ rest
  | .array items => line arrayMark (Decimal.ofNat items.length) ++ repliesBefore rest items

/-- Replies one after another before some bytes. -/
def repliesBefore (rest : Bytes) : List Value → Bytes
  | [] => rest
  | v :: vs => replyBefore (repliesBefore rest vs) v
end

/-- **A reply**, byte strings as bulk strings and the null value as a bulk string of length `-1`. -/
def reply (v : Value) : Bytes := replyBefore [] v

/-- Replies one after another. -/
def replies (vs : List Value) : Bytes := repliesBefore [] vs

/-- **A simple string**, on one line. -/
def simple (text : Bytes) : Bytes := line simpleMark text

/-! ## Replies stand beside each other -/

mutual
theorem replyBefore_append (rest more : Bytes) (v : Value) :
    replyBefore (rest ++ more) v = replyBefore rest v ++ more := by
  cases v with
  | array items =>
    rw [replyBefore, replyBefore, repliesBefore_append rest more items, List.append_assoc]
  | _ => simp only [replyBefore, List.append_assoc]

theorem repliesBefore_append (rest more : Bytes) (vs : List Value) :
    repliesBefore (rest ++ more) vs = repliesBefore rest vs ++ more := by
  match vs with
  | [] => rfl
  | v :: vs =>
    rw [repliesBefore, repliesBefore, repliesBefore_append rest more vs,
      replyBefore_append _ more v]
end

theorem replyBefore_eq (rest : Bytes) (v : Value) : replyBefore rest v = reply v ++ rest :=
  replyBefore_append [] rest v

/-- **Replies are written one by one.** -/
theorem replies_cons (v : Value) (vs : List Value) : replies (v :: vs) = reply v ++ replies vs :=
  replyBefore_eq (replies vs) v

/-- **An array is its length and its elements.** -/
theorem reply_array (items : List Value) :
    reply (.array items) = line arrayMark (Decimal.ofNat items.length) ++ replies items := rfl

theorem reply_null : reply .null = line bulkMark (Decimal.ofInt (-1)) := List.append_nil _

theorem reply_integer (n : Int64) :
    reply (.integer n) = line integerMark (Decimal.ofInt n.toInt) := List.append_nil _

theorem reply_bytes (data : Bytes) : reply (.bytes data) = bulk data := List.append_nil _

theorem reply_error (message : Bytes) : reply (.error message) = line errorMark message :=
  List.append_nil _

/-! ## A command is a reply of byte strings -/

theorem replies_bytes (arguments : List Bytes) :
    replies (arguments.map Value.bytes) = arguments.flatMap bulk := by
  induction arguments with
  | nil => rfl
  | cons a as ih => rw [List.map_cons, replies_cons, reply_bytes, ih, List.flatMap_cons]

theorem reply_array_bytes (arguments : List Bytes) :
    reply (.array (arguments.map Value.bytes)) = command arguments := by
  rw [reply_array, replies_bytes, List.length_map, command]

end RespClient.Wire

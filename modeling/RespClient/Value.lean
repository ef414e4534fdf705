import RespClient.Decimal

/-!
# Value — what a server replies

A reply is one of five kinds, and an error reply is a value like any other.  The accessors are total:
asked for what a value is not, they give the empty answer of that type.
-/

namespace RespClient

/-- **A reply value.** -/
inductive Value
  /-- No value: an absent string or array. -/
  | null
  | integer (n : Int64)
  /-- A string of bytes, short or long. -/
  | bytes (data : Bytes)
  | array (items : List Value)
  /-- A string of bytes by which the server refuses. -/
  | error (message : Bytes)
deriving Inhabited

namespace Value

/-! ## Equality is decidable -/

mutual
/-- Two values are equal or not. -/
def decEq : (v w : Value) → Decidable (v = w)
  | .null, .null => .isTrue rfl
  | .integer m, .integer n =>
    if h : m = n then .isTrue (h ▸ rfl) else .isFalse fun e => h (by injection e)
  | .bytes a, .bytes b =>
    if h : a = b then .isTrue (h ▸ rfl) else .isFalse fun e => h (by injection e)
  | .error a, .error b =>
    if h : a = b then .isTrue (h ▸ rfl) else .isFalse fun e => h (by injection e)
  | .array vs, .array ws =>
    match decEqList vs ws with
    | .isTrue h => .isTrue (h ▸ rfl)
    | .isFalse h => .isFalse fun e => h (by injection e)
  | .null, .integer _ | .null, .bytes _ | .null, .array _ | .null, .error _
  | .integer _, .null | .integer _, .bytes _ | .integer _, .array _ | .integer _, .error _
  | .bytes _, .null | .bytes _, .integer _ | .bytes _, .array _ | .bytes _, .error _
  | .array _, .null | .array _, .integer _ | .array _, .bytes _ | .array _, .error _
  | .error _, .null | .error _, .integer _ | .error _, .bytes _ | .error _, .array _ =>
    .isFalse fun e => by cases e

/-- Two lists of values are equal or not. -/
def decEqList : (vs ws : List Value) → Decidable (vs = ws)
  | [], [] => .isTrue rfl
  | [], _ :: _ | _ :: _, [] => .isFalse fun e => by cases e
  | v :: vs, w :: ws =>
    match decEq v w, decEqList vs ws with
    | .isTrue h, .isTrue hs => .isTrue (h ▸ hs ▸ rfl)
    | .isFalse h, _ => .isFalse fun e => h (by injection e)
    | _, .isFalse hs => .isFalse fun e => hs (by injection e)
end

instance : DecidableEq Value := decEq

/-! ## What a value is -/

/-- Whether the server refused. -/
def isError : Value → Bool
  | error _ => true
  | _ => false

def isNull : Value → Bool
  | null => true
  | _ => false

def isInteger : Value → Bool
  | integer _ => true
  | _ => false

def isArray : Value → Bool
  | array _ => true
  | _ => false

/-- A string of bytes that is no refusal. -/
def isBytes : Value → Bool
  | bytes _ => true
  | _ => false

/-- A string of bytes that is text. -/
def isText : Value → Bool
  | bytes data => Utf8.isValid data
  | _ => false

/-! ## What a value holds -/

/-- The integer, or zero. -/
def toInt : Value → Int64
  | integer n => n
  | _ => 0

/-- The bytes of a string or of a refusal, or none. -/
def payload : Value → Bytes
  | bytes data => data
  | error message => message
  | _ => []

/-- The bytes of a string or of a refusal as text. -/
def text (v : Value) : String := Utf8.decode v.payload

/-- The elements of an array, or none. -/
def items : Value → List Value
  | array items => items
  | _ => []

/-! ## A value for the eye -/

mutual
/-- Some text, then a value on one line.  Nested arrays write each character once this way. -/
def inspectAfter (text : String) : Value → String
  | null => text ++ "(null)"
  | integer n => text ++ toString n.toInt
  | bytes data => text ++ "\"" ++ Utf8.decode data ++ "\""
  | error message => text ++ "(error) " ++ Utf8.decode message
  | array [] => text ++ "[]"
  | array (v :: vs) => inspectMore (inspectAfter (text ++ "[") v) vs ++ "]"

/-- Some text, then further elements of an array. -/
def inspectMore (text : String) : List Value → String
  | [] => text
  | v :: vs => inspectMore (inspectAfter (text ++ ", ") v) vs
end

/-- **A value on one line**: strings in quotation marks as they are, arrays in brackets. -/
def inspect (v : Value) : String := inspectAfter "" v

instance : ToString Value := ⟨inspect⟩

end Value

end RespClient

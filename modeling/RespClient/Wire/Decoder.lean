import RespClient.Wire.Encode
import RespClient.Wire.Malformed

/-!
# Wire/Decoder — replies out of bytes that arrive in pieces

    input ──advance──▸ advance ──▸ … ──▸ a value  |  all input used  |  malformed

A decoder stands somewhere in a reply (`Phase`) inside the arrays still open around it (`Frame`).
Each step takes one stretch of the input: a type byte, the rest of a line, part of a bulk string, or a
terminator.  A decoder that has completed a value waits until it is taken; one that met malformed
bytes stays so.

Every step shortens the input or leaves a bulk string that wants no more (`advance_effort`), so
`parse` and the loop over it end.
-/

namespace RespClient

/-- The longest bulk string accepted. -/
def maxBulk : Nat := 512 * 1024 * 1024

/-- The longest line accepted, without its type byte and end. -/
def maxLine : Nat := 64 * 1024

/-- What a line is, by its type byte. -/
inductive LineKind
  | simple
  | error
  | integer
  | bulkLength
  | arrayLength
deriving DecidableEq

/-- The kind of line a type byte begins. -/
def LineKind.ofMark? (b : UInt8) : Option LineKind :=
  if b = Wire.simpleMark then some .simple
  else if b = Wire.errorMark then some .error
  else if b = Wire.integerMark then some .integer
  else if b = Wire.bulkMark then some .bulkLength
  else if b = Wire.arrayMark then some .arrayLength
  else none

/-- **Where a decoder stands in a reply.** -/
inductive Phase
  /-- Before a type byte. -/
  | start
  /-- Inside a line, `text` of it read. -/
  | line (kind : LineKind) (text : Array UInt8)
  /-- After the CR of a line. -/
  | lineEnd (kind : LineKind) (text : Array UInt8)
  /-- Inside a bulk string declared as `length` bytes, `data` of them read. -/
  | bulk (length : Nat) (data : Array UInt8)
  /-- After the bytes of a bulk string, CR due. -/
  | bulkEnd (data : Array UInt8)
  /-- After the CR of a bulk string, LF due. -/
  | bulkFeed (data : Array UInt8)
  /-- A value is complete and not yet taken. -/
  | done (value : Value)
  /-- The bytes were malformed. -/
  | poisoned (cause : Malformed)
deriving DecidableEq

/-- **A bulk string of declared `length` with `data` read**: complete, or wanting more. -/
def Phase.ofBulk (length : Nat) (data : Array UInt8) : Phase :=
  if data.size < length then .bulk length data else .bulkEnd data

/-- **An open array**: its declared length and the elements read so far. -/
structure Frame where
  length : Nat
  items : Array Value
deriving DecidableEq

/-- **A decoder of replies**, the innermost open array first. -/
structure Decoder where
  phase : Phase
  frames : List Frame
deriving DecidableEq

/-- What `parse` comes to. -/
inductive Outcome
  /-- A value is ready to be taken. -/
  | completed
  /-- All input is used and the reply goes on. -/
  | incomplete
  /-- The bytes are no reply. -/
  | failed (cause : Malformed)
deriving DecidableEq

namespace Decoder

/-- A decoder before its first byte. -/
def empty : Decoder := ⟨.start, []⟩

/-- How many arrays are open. -/
def depth (d : Decoder) : Nat := d.frames.length

/-- The cause that poisoned the decoder, if any. -/
def cause? (d : Decoder) : Option Malformed :=
  match d.phase with
  | .poisoned cause => some cause
  | _ => none

def isPoisoned (d : Decoder) : Bool := d.cause?.isSome

/-- **The completed value**, handed out once; the decoder is then ready for the next reply. -/
def take (d : Decoder) : Option Value × Decoder :=
  match d.phase with
  | .done v => (some v, ⟨.start, d.frames⟩)
  | _ => (none, d)

/-! ## Closing what is complete -/

/-- **A finished value goes into the innermost open array**, and closes every array it fills. -/
def complete (v : Value) : List Frame → Decoder
  | [] => ⟨.done v, []⟩
  | f :: frames =>
    let items := f.items.push v
    if items.size < f.length then ⟨.start, ⟨f.length, items⟩ :: frames⟩
    else complete (.array items.toList) frames

/-- The number a line spells. -/
def number (text : Array UInt8) : Except Malformed Int64 :=
  match Decimal.read? text.toList with
  | some n => .ok n
  | none => .error (.integer (Utf8.decode text.toList))

/-- **The end of a line**: a value, the head of a bulk string, or the head of an array. -/
def closeLine (kind : LineKind) (text : Array UInt8) (frames : List Frame) :
    Except Malformed Decoder :=
  match kind with
  | .simple => .ok (complete (.bytes text.toList) frames)
  | .error => .ok (complete (.error text.toList) frames)
  | .integer => do
    let n ← number text
    return complete (.integer n) frames
  | .bulkLength => do
    let n ← number text
    if n = -1 then return complete .null frames
    if n < -1 then throw (.length n)
    if (maxBulk : Int) < n.toInt then throw (.bulkTooLarge n)
    return ⟨.ofBulk n.toInt.toNat #[], frames⟩
  | .arrayLength => do
    let n ← number text
    if n = -1 then return complete .null frames
    if n = 0 then return complete (.array []) frames
    if n < -1 then throw (.length n)
    return ⟨.start, ⟨n.toInt.toNat, #[]⟩ :: frames⟩

/-! ## One stretch of input -/

/-- What one stretch of input does: it moves the decoder on, or is malformed; with it, the input left
over. -/
inductive Advance
  | proceeds (next : Decoder) (rest : Bytes)
  | fails (cause : Malformed) (rest : Bytes)

/-- **One stretch of the input `b :: bs`.**  Of a line, the stretch is what comes before a CR, and the
limit is tested before any of it is taken. -/
def advance (d : Decoder) (b : UInt8) (bs : Bytes) : Advance :=
  match d.phase with
  | .start =>
    match LineKind.ofMark? b with
    | some kind => .proceeds { d with phase := .line kind #[] } bs
    | none => .fails (.typeByte b) (b :: bs)
  | .line kind text =>
    let stretch := (b :: bs).takeWhile (· != Wire.cr)
    if maxLine < text.size + stretch.length then
      .fails (.lineTooLong (text.size + stretch.length)) (b :: bs)
    else
      match (b :: bs).dropWhile (· != Wire.cr) with
      | [] => .proceeds { d with phase := .line kind (text ++ stretch) } []
      | _ :: rest => .proceeds { d with phase := .lineEnd kind (text ++ stretch) } rest
  | .lineEnd kind text =>
    if b = Wire.lf then
      match closeLine kind text d.frames with
      | .ok next => .proceeds next bs
      | .error cause => .fails cause bs
    else .fails .missingTerminator (b :: bs)
  | .bulk length data =>
    let wanted := length - data.size
    .proceeds { d with phase := .ofBulk length (data ++ (b :: bs).take wanted) }
      ((b :: bs).drop wanted)
  | .bulkEnd data =>
    if b = Wire.cr then .proceeds { d with phase := .bulkFeed data } bs
    else .fails .missingTerminator (b :: bs)
  | .bulkFeed data =>
    if b = Wire.lf then .proceeds (complete (.bytes data.toList) d.frames) bs
    else .fails .missingTerminator (b :: bs)
  | .done _ | .poisoned _ => .proceeds d bs

/-! ## Every step makes headway -/

/-- A bulk string may turn out to want no more, which takes a step and no input. -/
def slack (d : Decoder) : Nat :=
  match d.phase with
  | .bulk .. => 1
  | _ => 0

/-- **What is left to do**: two for each byte of input, and the slack. -/
def effort (d : Decoder) (input : Bytes) : Nat := 2 * input.length + d.slack

theorem slack_le_one (d : Decoder) : d.slack ≤ 1 := by
  unfold slack
  split <;> omega

theorem effort_lt_of_length_lt {d next : Decoder} {input rest : Bytes}
    (h : rest.length < input.length) : next.effort rest < d.effort input := by
  have := next.slack_le_one
  simp only [effort]
  omega

theorem length_dropWhile_tail {p : UInt8 → Bool} {input : Bytes} {x : UInt8} {rest : Bytes}
    (h : input.dropWhile p = x :: rest) : rest.length < input.length := by
  have := (List.dropWhile_sublist p (l := input)).length_le
  rw [h] at this
  exact this

/-- **A step takes a byte or more**, or leaves a bulk string that wants no more. -/
theorem advance_takes {d next : Decoder} {b : UInt8} {bs rest : Bytes}
    (h : d.advance b bs = .proceeds next rest) :
    rest.length ≤ bs.length ∨
      rest = b :: bs ∧ d.slack = 1 ∧ ∃ data, next.phase = .bulkEnd data := by
  unfold advance at h
  split at h
  case h_1 =>
    split at h <;> cases h
    exact .inl (Nat.le_refl _)
  case h_2 =>
    dsimp only at h
    split at h
    · cases h
    · split at h
      case h_1 => cases h; exact .inl (Nat.zero_le _)
      case h_2 hd => cases h; exact .inl (Nat.le_of_lt_succ (length_dropWhile_tail hd))
  case h_3 =>
    split at h
    · split at h <;> cases h
      exact .inl (Nat.le_refl _)
    · cases h
  case h_4 length data hp =>
    cases h
    by_cases hw : length ≤ data.size
    · have : length - data.size = 0 := by omega
      have hn : ¬ data.size < length := by omega
      exact .inr (by simp [this, Phase.ofBulk, hn, slack, hp])
    · refine .inl ?_
      rw [List.length_drop, List.length_cons]
      omega
  case h_5 => split at h <;> cases h; exact .inl (Nat.le_refl _)
  case h_6 => split at h <;> cases h; exact .inl (Nat.le_refl _)
  case h_7 => cases h; exact .inl (Nat.le_refl _)
  case h_8 => cases h; exact .inl (Nat.le_refl _)

/-- **A step makes headway.** -/
theorem advance_effort {d next : Decoder} {b : UInt8} {bs rest : Bytes}
    (h : d.advance b bs = .proceeds next rest) : next.effort rest < d.effort (b :: bs) := by
  rcases advance_takes h with hr | ⟨rfl, hs, data, hp⟩
  · exact effort_lt_of_length_lt (Nat.lt_succ_of_le hr)
  · have : next.slack = 0 := by rw [slack, hp]
    simp only [effort]
    omega

/-! ## Parsing -/

/-- **Reads until a value is complete, the input is used up or malformed**; gives the outcome, the
input left over and the decoder after it. -/
def parse (d : Decoder) (input : Bytes) : Outcome × Bytes × Decoder :=
  match d.phase with
  | .done _ => (.completed, input, d)
  | .poisoned cause => (.failed cause, input, d)
  | _ =>
    match input with
    | [] => (.incomplete, [], d)
    | b :: bs =>
      match _h : d.advance b bs with
      | .proceeds next rest => next.parse rest
      | .fails cause rest => (.failed cause, rest, ⟨.poisoned cause, []⟩)
termination_by d.effort input
decreasing_by exact advance_effort _h

/-- **Completing a value takes input**, unless the value was there already. -/
theorem length_parse {d : Decoder} {input : Bytes} (h : (d.parse input).1 = .completed) :
    (d.parse input).2.1.length ≤ input.length ∧
      ((∀ v, d.phase ≠ .done v) → (d.parse input).2.1.length < input.length) := by
  fun_induction parse d input with
  | case1 d input v hd => exact ⟨Nat.le_refl _, fun hn => absurd hd (hn v)⟩
  | case2 => cases h
  | case3 => cases h
  | case4 d b bs next rest hs _ _ ih =>
    obtain ⟨hle, hlt⟩ := ih h
    have : (next.parse rest).2.1.length < (b :: bs).length := by
      rcases advance_takes hs with hr | ⟨rfl, _, data, hp⟩
      · exact Nat.lt_of_le_of_lt hle (Nat.lt_succ_of_le hr)
      · exact hlt fun v hv => by rw [hp] at hv; cases hv
    exact ⟨Nat.le_of_lt this, fun _ => this⟩
  | case5 => cases h

/-! ## Reading one value after another -/

/-- What is left to do for a reader of values: two for each byte of input, and one for a value that
waits to be taken. -/
def backlog (d : Decoder) (input : Bytes) : Nat :=
  2 * input.length + match d.phase with
    | .done _ => 1
    | _ => 0

/-- **Taking a completed value is headway.** -/
theorem backlog_lt_of_take {d d₁ d₂ : Decoder} {input rest : Bytes} {v : Value}
    (hp : d.parse input = (.completed, rest, d₁)) (ht : d₁.take = (some v, d₂)) :
    d₂.backlog rest < d.backlog input := by
  have hd₂ : d₂.backlog rest = 2 * rest.length := by
    unfold take at ht
    split at ht <;> cases ht
    rfl
  have hl := length_parse (show (d.parse input).1 = .completed by rw [hp])
  rw [hp] at hl
  rw [hd₂]
  unfold backlog
  split
  · have := hl.1
    dsimp only at this
    omega
  · rename_i hn
    have := hl.2 hn
    dsimp only at this
    omega

/-- **What reading values comes to**: the values, the outcome of the last parse, the input left over
and the decoder. -/
structure Reading where
  values : Array Value
  outcome : Outcome
  rest : Bytes
  decoder : Decoder

/-- Reads on, after some values and the outcome of the parse before. -/
def readOn (d : Decoder) (input : Bytes) (values : Array Value) (last : Outcome) : Reading :=
  if input.isEmpty then ⟨values, last, [], d⟩
  else
    match _hp : d.parse input with
    | (.completed, rest, d) =>
      match _ht : d.take with
      | (some v, d) => d.readOn rest (values.push v) .completed
      | (none, d) => ⟨values, .completed, rest, d⟩
    | (outcome, rest, d) => ⟨values, outcome, rest, d⟩
termination_by d.backlog input
decreasing_by exact backlog_lt_of_take _hp _ht

/-- **Reads every value the input completes**, up to its end or the first malformed byte. -/
def readAll (d : Decoder) (input : Bytes) : Reading := d.readOn input #[] .incomplete

end Decoder

end RespClient

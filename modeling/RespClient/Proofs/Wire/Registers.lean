import RespClient.Proofs.Wire.Grammar
import Mathlib.Data.List.Forall2

/-!
# Proofs/Wire/Registers — a decoder that counts down

    decoder      phase, with what it holds                 frames, with their length
    registers    mode · line · bulk · value · cause        slots, with what they still want

A decoder holds in its phase what belongs there, and nothing else.  Registers hold everything side by side: a
buffer for lines, one for bulk strings, a place for a value and one for a cause, and for every open array the
count of what it still wants.  Nothing in their type keeps a count from going below zero, or a value from being
held where none is complete: a step that cannot be made is a fault.

Registers **stand for** a decoder when each holds what the other does and every slot still wants something
(`Stands`).  A step from there has no fault and goes where the decoder goes (`Stands.advance`), hence so do a
parse (`Stands.parse`) and whatever is asked, in any order (`Stands.respondAll`).  So the registers answer as the
decoder does, and are sound all along (`respondAll_sound`).
-/

namespace RespClient

/-! ## What is asked of a decoder -/

namespace Decoder

/-- **What may be asked of a decoder.** -/
inductive Demand
  | parse (chunk : Bytes)
  | take
deriving DecidableEq

/-- **What it answers**: the outcome and how many bytes were used, or the value handed out. -/
inductive Response
  | parsed (outcome : Outcome) (used : Nat)
  | took (value? : Option Value)
deriving DecidableEq

def respond (d : Decoder) : Demand → Response × Decoder
  | .parse chunk => (.parsed (d.parse chunk).1 (d.consumed chunk), (d.parse chunk).2.2)
  | .take => (.took d.take.1, d.take.2)

/-- **One demand after another**, in any order. -/
def respondAll (d : Decoder) : List Demand → List Response × Decoder
  | [] => ([], d)
  | demand :: demands =>
    let (response, next) := d.respond demand
    let (responses, last) := next.respondAll demands
    (response :: responses, last)

/-- Where nothing can be read any more nothing changes. -/
theorem respondAll_poisoned {d : Decoder} {cause : Malformed} (h : d.phase = .poisoned cause)
    (demands : List Demand) : (d.respondAll demands).2 = d := by
  induction demands with
  | nil => rfl
  | cons demand demands ih =>
    have hsame : (d.respond demand).2 = d := by
      cases demand with
      | parse chunk => rw [respond, parse_poisoned h]
      | take => rw [respond, take, h]
    rw [respondAll]
    dsimp only
    rw [hsame]
    exact ih

/-- **There is but one failure**, and it is for ever. -/
theorem phase_of_respondAll {d : Decoder} {demands : List Demand} {cause : Malformed} {used : Nat}
    (h : .parsed (.failed cause) used ∈ (d.respondAll demands).1) :
    (d.respondAll demands).2.phase = .poisoned cause := by
  induction demands generalizing d with
  | nil => exact absurd h List.not_mem_nil
  | cons demand demands ih =>
    rcases List.mem_cons.mp h with hnow | hlater
    · have hd : (d.respond demand).2.phase = .poisoned cause := by
        cases demand with
        | parse chunk =>
          have houtcome : (d.parse chunk).1 = .failed cause := (Response.parsed.inj hnow).1.symm
          exact phase_of_failed (Prod.ext houtcome rfl)
        | take => cases hnow
      rw [respondAll]
      dsimp only
      rw [respondAll_poisoned hd]
      exact hd
    · exact ih hlater

end Decoder

open Decoder (Demand Response)

/-! ## Registers -/

/-- **Where registers stand in a reply.** -/
inductive Registers.Mode
  | start
  | line (kind : LineKind)
  | lineEnd (kind : LineKind)
  /-- Inside a bulk string that wants so many bytes more. -/
  | bulk (wanted : Nat)
  | bulkEnd
  | bulkFeed
  | done
  | poisoned
deriving DecidableEq

/-- **An open array**: how many elements it still wants, and those it has. -/
structure Registers.Slot where
  wanted : Nat
  items : Array Value
deriving DecidableEq

/-- **The registers of a decoder**, the innermost open array first. -/
structure Registers where
  mode : Registers.Mode := .start
  line : Array UInt8 := #[]
  bulk : Array UInt8 := #[]
  slots : List Registers.Slot := []
  value? : Option Value := none
  cause? : Option Malformed := none
deriving DecidableEq

namespace Registers

/-- The innermost open array comes off, if there is one. -/
def pop? : List Slot → Option (Slot × List Slot)
  | [] => none
  | s :: slots => some (s, slots)

/-- **A finished value goes into the innermost open array**, which is counted down, and closes every array it
fills.  A count of zero cannot be counted down, and a filled array must be there to come off. -/
def complete (r : Registers) (v : Value) (slots : List Slot) : Option Registers :=
  match slots with
  | [] => some { r with mode := .done, value? := some v, slots := [] }
  | s :: outer =>
    match s.wanted with
    | 0 => none
    | wanted + 1 =>
      let inner : Slot := ⟨wanted, s.items.push v⟩
      if 0 < wanted then some { r with mode := .start, slots := inner :: outer }
      else
        match _h : pop? (inner :: outer) with
        | some (filled, outer) => r.complete (.array filled.items.toList) outer
        | none => none
termination_by slots.length
decreasing_by
  cases _h
  exact Nat.lt_succ_self _

/-- **The end of a line.** -/
def closeLine (r : Registers) (kind : LineKind) : Except Malformed (Option Registers) :=
  match kind with
  | .simple => .ok ({ r with line := #[] }.complete (.bytes r.line.toList) r.slots)
  | .error => .ok ({ r with line := #[] }.complete (.error r.line.toList) r.slots)
  | .integer => do
    let n ← Decoder.number r.line
    return r.complete (.integer n) r.slots
  | .bulkLength => do
    let n ← Decoder.number r.line
    if n = -1 then return r.complete .null r.slots
    if n < -1 then throw (.length n)
    if (maxBulk : Int) < n.toInt then throw (.bulkTooLarge n)
    let length := n.toInt.toNat
    return some { r with bulk := #[], mode := if length = 0 then .bulkEnd else .bulk length }
  | .arrayLength => do
    let n ← Decoder.number r.line
    if n = -1 then return r.complete .null r.slots
    if n = 0 then return r.complete (.array []) r.slots
    if n < -1 then throw (.length n)
    return some { r with mode := .start, slots := ⟨n.toInt.toNat, #[]⟩ :: r.slots }

/-- **What one stretch of input does.** -/
inductive Advance
  | proceeds (next : Registers) (rest : Bytes)
  | fails (cause : Malformed) (rest : Bytes)
  /-- A count would go below zero, or what is to come off is not there, or nothing may be read. -/
  | faults

/-- **One stretch of the input `b :: bs`.** -/
def advance (r : Registers) (b : UInt8) (bs : Bytes) : Advance :=
  match r.mode with
  | .start =>
    match LineKind.ofMark? b with
    | some kind => .proceeds { r with line := #[], mode := .line kind } bs
    | none => .fails (.typeByte b) (b :: bs)
  | .line kind =>
    let stretch := (b :: bs).takeWhile (· != Wire.cr)
    if maxLine < r.line.size + stretch.length then
      .fails (.lineTooLong (r.line.size + stretch.length)) (b :: bs)
    else
      match (b :: bs).dropWhile (· != Wire.cr) with
      | [] => .proceeds { r with line := r.line ++ stretch } []
      | _ :: rest => .proceeds { r with line := r.line ++ stretch, mode := .lineEnd kind } rest
  | .lineEnd kind =>
    if b = Wire.lf then
      match r.closeLine kind with
      | .ok (some next) => .proceeds next bs
      | .ok none => .faults
      | .error cause => .fails cause bs
    else .fails .missingTerminator (b :: bs)
  | .bulk wanted =>
    let stretch := (b :: bs).take wanted
    let mode := if stretch.length = wanted then .bulkEnd else .bulk (wanted - stretch.length)
    .proceeds { r with bulk := r.bulk ++ stretch, mode } ((b :: bs).drop wanted)
  | .bulkEnd =>
    if b = Wire.cr then .proceeds { r with mode := .bulkFeed } bs
    else .fails .missingTerminator (b :: bs)
  | .bulkFeed =>
    if b = Wire.lf then
      match { r with bulk := #[] }.complete (.bytes r.bulk.toList) r.slots with
      | some next => .proceeds next bs
      | none => .faults
    else .fails .missingTerminator (b :: bs)
  | .done | .poisoned => .faults

/-- A bulk string that wants no more takes a step and no input. -/
def slack (r : Registers) : Nat :=
  match r.mode with
  | .bulk _ => 1
  | _ => 0

/-- **What is left to do**: two for each byte of input, and the slack. -/
def effort (r : Registers) (input : Bytes) : Nat := 2 * input.length + r.slack

theorem effort_lt_of_length_lt {r next : Registers} {input rest : Bytes}
    (h : rest.length < input.length) : next.effort rest < r.effort input := by
  have hslack : next.slack ≤ 1 := by
    unfold slack
    split <;> omega
  simp only [effort]
  omega

/-- **A step makes headway.** -/
theorem advance_effort {r next : Registers} {b : UInt8} {bs rest : Bytes}
    (h : r.advance b bs = .proceeds next rest) : next.effort rest < r.effort (b :: bs) := by
  have htail : bs.length < (b :: bs).length := Nat.lt_succ_self _
  unfold advance at h
  split at h
  case h_1 =>
    split at h <;> cases h
    exact effort_lt_of_length_lt htail
  case h_2 =>
    dsimp only at h
    split at h
    · cases h
    · split at h <;> cases h
      · exact effort_lt_of_length_lt (Nat.succ_pos _)
      · rename_i hdrop
        exact effort_lt_of_length_lt (Decoder.length_dropWhile_tail hdrop)
  case h_3 =>
    split at h
    · split at h <;> cases h
      exact effort_lt_of_length_lt htail
    · cases h
  case h_4 wanted hmode =>
    cases h
    rcases wanted with _ | wanted
    · simp [effort, slack, hmode]
    · refine effort_lt_of_length_lt ?_
      rw [List.length_drop, List.length_cons]
      omega
  case h_5 =>
    split at h <;> cases h
    exact effort_lt_of_length_lt htail
  case h_6 =>
    split at h
    · split at h <;> cases h
      exact effort_lt_of_length_lt htail
    · cases h
  case h_7 => cases h
  case h_8 => cases h

/-- **Reads until a value is complete, the input is used up or malformed.** -/
def parse (r : Registers) (input : Bytes) : Option (Outcome × Bytes × Registers) :=
  match r.mode with
  | .done => some (.completed, input, r)
  | .poisoned => some (.failed (r.cause?.getD .missingTerminator), input, r)
  | _ =>
    match input with
    | [] => some (.incomplete, [], r)
    | b :: bs =>
      match _h : r.advance b bs with
      | .proceeds next rest => next.parse rest
      | .fails cause rest =>
        some (.failed cause, rest, { r with mode := .poisoned, cause? := some cause, slots := [] })
      | .faults => none
termination_by r.effort input
decreasing_by exact advance_effort _h

/-- **The value that is held**, if one is, handed out; the registers are then ready for the next reply. -/
def take (r : Registers) : Option Value × Registers :=
  match r.value? with
  | some v => (some v, { r with value? := none, mode := .start })
  | none => (none, r)

def respond (r : Registers) : Demand → Option (Response × Registers)
  | .parse chunk => (r.parse chunk).map fun p => (.parsed p.1 (chunk.length - p.2.1.length), p.2.2)
  | .take => some (.took r.take.1, r.take.2)

/-- **One demand after another**, up to a fault. -/
def respondAll (r : Registers) : List Demand → Option (List Response × Registers)
  | [] => some ([], r)
  | demand :: demands => do
    let (response, next) ← r.respond demand
    let (responses, last) ← next.respondAll demands
    return (response :: responses, last)

/-- A count of zero is a fault. -/
example : complete {} .null [⟨0, #[]⟩] = none := by rw [complete]

/-! ## Registers that stand for a decoder -/

/-- **The slot of an open array**, which still wants something. -/
structure Slot.Of (s : Slot) (f : Frame) : Prop where
  items : s.items = f.items
  pos : 0 < s.wanted
  count : s.items.size + s.wanted = f.length

/-- **What a phase holds is in its register.** -/
def Holds (r : Registers) : Phase → Prop
  | .start => r.mode = .start
  | .line kind text => r.mode = .line kind ∧ r.line = text
  | .lineEnd kind text => r.mode = .lineEnd kind ∧ r.line = text
  | .bulk length data => ∃ wanted, r.mode = .bulk wanted ∧ r.bulk = data ∧ 0 < wanted ∧
      data.size + wanted = length ∧ length ≤ maxBulk
  | .bulkEnd data => r.mode = .bulkEnd ∧ r.bulk = data
  | .bulkFeed data => r.mode = .bulkFeed ∧ r.bulk = data
  | .done _ => r.mode = .done
  | .poisoned _ => r.mode = .poisoned

/-- **Registers that stand for a decoder**: each holds what the other does. -/
structure Stands (r : Registers) (d : Decoder) : Prop where
  holds : r.Holds d.phase
  slots : List.Forall₂ Slot.Of r.slots d.frames
  line : r.line.size ≤ maxLine
  value : r.value? = d.take.1
  cause : r.cause? = d.cause?
  ended : d.reading = false → d.frames = []

theorem stands_empty : ({} : Registers).Stands .empty :=
  ⟨rfl, .nil, Nat.zero_le _, rfl, rfl, nofun⟩

/-- Registers that read on hold no value and no cause. -/
theorem stands_reading {r : Registers} {phase : Phase} {frames : List Frame}
    (hreads : Decoder.reading ⟨phase, frames⟩) (hholds : r.Holds phase)
    (hslots : List.Forall₂ Slot.Of r.slots frames) (hline : r.line.size ≤ maxLine)
    (hvalue : r.value? = none) (hcause : r.cause? = none) : r.Stands ⟨phase, frames⟩ := by
  refine ⟨hholds, hslots, hline, hvalue.trans ?_, hcause.trans ?_,
    fun h => absurd (hreads.symm.trans h) nofun⟩
  · cases phase <;> first | rfl | cases hreads
  · cases phase <;> first | rfl | cases hreads

/-- **A value complete**: the counts are there to be counted down. -/
theorem exists_complete {r : Registers} {slots : List Slot} {frames : List Frame}
    (h : List.Forall₂ Slot.Of slots frames) (hline : r.line.size ≤ maxLine) (hvalue : r.value? = none)
    (hcause : r.cause? = none) (v : Value) :
    ∃ next, r.complete v slots = some next ∧ next.Stands (Decoder.complete v frames) := by
  induction h generalizing v with
  | nil =>
    rw [complete, Decoder.complete]
    exact ⟨_, rfl, rfl, .nil, hline, rfl, hcause, fun _ => rfl⟩
  | @cons s f slots frames hs hall ih =>
    obtain ⟨_ | wanted, items⟩ := s
    · exact absurd hs.pos (Nat.lt_irrefl 0)
    · obtain ⟨rfl, -, hcount⟩ := hs
      dsimp only at hcount
      have hsize : (f.items.push v).size + wanted = f.length := by
        rw [Array.size_push]
        omega
      rw [complete, Decoder.complete]
      dsimp only
      by_cases hmore : 0 < wanted
      · rw [if_pos hmore, if_pos (by omega)]
        exact ⟨_, rfl, stands_reading rfl rfl (.cons ⟨rfl, hmore, hsize⟩ hall) hline hvalue hcause⟩
      · rw [if_neg hmore, if_neg (by omega)]
        exact ih _

/-- **A bulk string** that wants so many bytes more, or is at its end. -/
theorem stands_ofBulk {r : Registers} {frames : List Frame} {length : Nat} (wanted : Nat)
    (hmode : r.mode = if wanted = 0 then .bulkEnd else .bulk wanted)
    (hcount : r.bulk.size + wanted = length) (hmax : length ≤ maxBulk)
    (hslots : List.Forall₂ Slot.Of r.slots frames) (hline : r.line.size ≤ maxLine)
    (hvalue : r.value? = none) (hcause : r.cause? = none) :
    r.Stands ⟨.ofBulk length r.bulk, frames⟩ := by
  rw [Phase.ofBulk]
  by_cases hfull : wanted = 0
  · rw [if_pos hfull] at hmode
    rw [if_neg (by omega)]
    exact stands_reading rfl ⟨hmode, rfl⟩ hslots hline hvalue hcause
  · rw [if_neg hfull] at hmode
    rw [if_pos (by omega)]
    exact stands_reading rfl ⟨wanted, hmode, rfl, Nat.pos_of_ne_zero hfull, hcount, hmax⟩ hslots hline
      hvalue hcause

/-- **A line that ends as the decoder's does**, without a fault. -/
inductive ClosesAs : Except Malformed (Option Registers) → Except Malformed Decoder → Prop
  | ok {next : Registers} {d : Decoder} (h : next.Stands d) : ClosesAs (.ok (some next)) (.ok d)
  | error (cause : Malformed) : ClosesAs (.error cause) (.error cause)

/-- Two choices by one condition. -/
theorem rel_ite {σ τ : Type} {R : σ → τ → Prop} {p : Prop} [Decidable p] {x x' : σ} {y y' : τ}
    (h : p → R x y) (h' : ¬ p → R x' y') : R (if p then x else x') (if p then y else y') := by
  by_cases hp : p
  · rw [if_pos hp, if_pos hp]
    exact h hp
  · rw [if_neg hp, if_neg hp]
    exact h' hp

/-- **The end of a line** does to the registers what it does to the decoder. -/
theorem Stands.closeLine {r : Registers} {kind : LineKind} {frames : List Frame}
    (h : r.Stands ⟨.lineEnd kind r.line, frames⟩) :
    ClosesAs (r.closeLine kind) (Decoder.closeLine kind r.line frames) := by
  have hcomplete (line : Array UInt8) (hline : line.size ≤ maxLine) (v : Value) :
      ClosesAs (.ok ({ r with line }.complete v r.slots)) (.ok (Decoder.complete v frames)) := by
    obtain ⟨next, hnext, hstands⟩ :=
      exists_complete (r := { r with line }) h.slots hline h.value h.cause v
    exact hnext ▸ .ok hstands
  cases kind with
  | simple => exact hcomplete #[] (Nat.zero_le _) (.bytes r.line.toList)
  | error => exact hcomplete #[] (Nat.zero_le _) (.error r.line.toList)
  | integer =>
    rw [Decoder.closeLine, Registers.closeLine]
    cases Decoder.number r.line with
    | error cause => exact .error cause
    | ok n => exact hcomplete r.line h.line (.integer n)
  | bulkLength =>
    rw [Decoder.closeLine, Registers.closeLine]
    cases Decoder.number r.line with
    | error cause => exact .error cause
    | ok n =>
      refine rel_ite (fun _ => hcomplete r.line h.line .null) fun hnull => ?_
      refine rel_ite (fun _ => .error (.length n)) fun hlow => ?_
      refine rel_ite (fun _ => .error (.bulkTooLarge n)) fun hhigh => ?_
      exact .ok (stands_ofBulk (r := { r with bulk := #[], mode := _ }) _ rfl (Nat.zero_add _) (by omega)
        h.slots h.line h.value h.cause)
  | arrayLength =>
    rw [Decoder.closeLine, Registers.closeLine]
    cases Decoder.number r.line with
    | error cause => exact .error cause
    | ok n =>
      refine rel_ite (fun _ => hcomplete r.line h.line .null) fun hnull => ?_
      refine rel_ite (fun _ => hcomplete r.line h.line (.array [])) fun hzero => ?_
      refine rel_ite (fun _ => .error (.length n)) fun hlow => ?_
      have hpos : 0 < n.toInt.toNat := by
        rw [Decoder.eq_neg_one_iff] at hnull
        rw [Decoder.eq_zero_iff] at hzero
        rw [Decoder.lt_neg_one_iff] at hlow
        omega
      exact .ok (stands_reading rfl rfl (.cons ⟨rfl, hpos, Nat.zero_add _⟩ h.slots) h.line h.value h.cause)

/-! ## A step, a parse, and whatever is asked -/

/-- **A step that goes as the decoder's does**, without a fault. -/
inductive GoesAs : Advance → Decoder.Advance → Prop
  | proceeds {next : Registers} {d : Decoder} (h : next.Stands d) (rest : Bytes) :
      GoesAs (.proceeds next rest) (.proceeds d rest)
  | fails (cause : Malformed) (rest : Bytes) : GoesAs (.fails cause rest) (.fails cause rest)

/-! One step, by where the registers stand. -/

section

variable {r : Registers} {frames : List Frame} (b : UInt8) (bs : Bytes)

/-- A type byte begins a line, in an empty buffer. -/
theorem goesAs_start (h : r.Stands ⟨.start, frames⟩) :
    GoesAs (r.advance b bs) (Decoder.advance ⟨.start, frames⟩ b bs) := by
  obtain ⟨mode, line, bulk, slots, value?, cause?⟩ := r
  obtain ⟨rfl, hslots, -, hvalue, hcause, -⟩ := h
  rw [advance, Decoder.advance]
  cases LineKind.ofMark? b with
  | none => exact .fails _ _
  | some kind =>
    refine .proceeds ?_ bs
    exact stands_reading rfl ⟨rfl, rfl⟩ hslots (Nat.zero_le _) hvalue hcause

/-- More of a line, within the limit. -/
theorem goesAs_line {kind : LineKind} {text : Array UInt8} (h : r.Stands ⟨.line kind text, frames⟩) :
    GoesAs (r.advance b bs) (Decoder.advance ⟨.line kind text, frames⟩ b bs) := by
  obtain ⟨mode, line, bulk, slots, value?, cause?⟩ := r
  obtain ⟨⟨rfl, rfl⟩, hslots, -, hvalue, hcause, -⟩ := h
  rw [advance, Decoder.advance]
  refine rel_ite (fun _ => .fails _ _) fun hshort => ?_
  dsimp only at hshort ⊢
  have hline : (line ++ (b :: bs).takeWhile (· != Wire.cr)).size ≤ maxLine := by
    rw [Decoder.size_append_stretch]
    omega
  cases (b :: bs).dropWhile (· != Wire.cr) with
  | nil =>
    refine .proceeds ?_ []
    exact stands_reading rfl ⟨rfl, rfl⟩ hslots hline hvalue hcause
  | cons x rest =>
    refine .proceeds ?_ rest
    exact stands_reading rfl ⟨rfl, rfl⟩ hslots hline hvalue hcause

theorem goesAs_lineEnd {kind : LineKind} {text : Array UInt8}
    (h : r.Stands ⟨.lineEnd kind text, frames⟩) :
    GoesAs (r.advance b bs) (Decoder.advance ⟨.lineEnd kind text, frames⟩ b bs) := by
  obtain ⟨hmode, rfl⟩ : r.mode = .lineEnd kind ∧ r.line = text := h.holds
  rw [advance, hmode, Decoder.advance]
  refine rel_ite (fun _ => ?_) fun _ => .fails _ _
  have hcloses := h.closeLine
  generalize r.closeLine kind = x at hcloses ⊢
  generalize Decoder.closeLine _ _ _ = y at hcloses ⊢
  cases hcloses with
  | ok hnext => exact .proceeds hnext bs
  | error cause => exact .fails cause bs

/-- Bytes of a bulk string are counted off. -/
theorem goesAs_bulk {length : Nat} {data : Array UInt8} (h : r.Stands ⟨.bulk length data, frames⟩) :
    GoesAs (r.advance b bs) (Decoder.advance ⟨.bulk length data, frames⟩ b bs) := by
  obtain ⟨mode, line, bulk, slots, value?, cause?⟩ := r
  obtain ⟨⟨wanted, rfl, rfl, hpos, hcount, hmax⟩, hslots, hline, hvalue, hcause, -⟩ := h
  rw [advance, Decoder.advance]
  dsimp only at hcount ⊢
  have hwanted : length - bulk.size = wanted := by omega
  have htook : ((b :: bs).take wanted).length ≤ wanted := by
    rw [List.length_take]
    exact Nat.min_le_left ..
  rw [hwanted]
  refine .proceeds ?_ _
  refine stands_ofBulk (wanted - ((b :: bs).take wanted).length) ?_ ?_ hmax hslots hline hvalue hcause
  · exact if_congr (by omega) rfl rfl
  · rw [Decoder.size_append_stretch]
    omega

theorem goesAs_bulkEnd {data : Array UInt8} (h : r.Stands ⟨.bulkEnd data, frames⟩) :
    GoesAs (r.advance b bs) (Decoder.advance ⟨.bulkEnd data, frames⟩ b bs) := by
  obtain ⟨mode, line, bulk, slots, value?, cause?⟩ := r
  obtain ⟨⟨rfl, rfl⟩, hslots, hline, hvalue, hcause, -⟩ := h
  rw [advance, Decoder.advance]
  refine rel_ite (fun _ => .proceeds ?_ bs) fun _ => .fails _ _
  exact stands_reading rfl ⟨rfl, rfl⟩ hslots hline hvalue hcause

/-- The LF of a bulk string completes it, and empties its buffer. -/
theorem goesAs_bulkFeed {data : Array UInt8} (h : r.Stands ⟨.bulkFeed data, frames⟩) :
    GoesAs (r.advance b bs) (Decoder.advance ⟨.bulkFeed data, frames⟩ b bs) := by
  obtain ⟨hmode, rfl⟩ : r.mode = .bulkFeed ∧ r.bulk = data := h.holds
  rw [advance, hmode, Decoder.advance]
  refine rel_ite (fun _ => ?_) fun _ => .fails _ _
  obtain ⟨next, hnext, hstands⟩ := exists_complete (r := { r with bulk := #[] }) h.slots h.line h.value
    h.cause (.bytes r.bulk.toList)
  rw [hmode] at hnext
  dsimp only
  rw [hnext]
  exact .proceeds hstands bs

end

/-- **A step goes where the decoder's does.** -/
theorem Stands.advance {r : Registers} {d : Decoder} (h : r.Stands d) (hd : d.reading) (b : UInt8)
    (bs : Bytes) : GoesAs (r.advance b bs) (d.advance b bs) := by
  obtain ⟨phase, frames⟩ := d
  cases phase with
  | start => exact goesAs_start b bs h
  | line kind text => exact goesAs_line b bs h
  | lineEnd kind text => exact goesAs_lineEnd b bs h
  | bulk length data => exact goesAs_bulk b bs h
  | bulkEnd data => exact goesAs_bulkEnd b bs h
  | bulkFeed data => exact goesAs_bulkFeed b bs h
  | done v => cases hd
  | poisoned cause => cases hd

/-- Registers that read on go where their next step leads. -/
theorem parse_of_ne {r : Registers} (hdone : r.mode ≠ .done) (hpoisoned : r.mode ≠ .poisoned)
    (input : Bytes) :
    r.parse input = match input with
      | [] => some (.incomplete, [], r)
      | b :: bs => match r.advance b bs with
        | .proceeds next rest => next.parse rest
        | .fails cause rest =>
          some (.failed cause, rest, { r with mode := .poisoned, cause? := some cause, slots := [] })
        | .faults => none := by
  rw [parse.eq_def]
  split
  · rename_i hmode
    exact absurd hmode hdone
  · rename_i hmode
    exact absurd hmode hpoisoned
  · cases input with
    | nil => rfl
    | cons b bs =>
      dsimp only
      split <;> rename_i hs <;> rw [hs]

theorem parse_done {r : Registers} (h : r.mode = .done) (input : Bytes) :
    r.parse input = some (.completed, input, r) := by
  obtain ⟨mode, line, bulk, slots, value?, cause?⟩ := r
  subst h
  rw [parse.eq_def]

theorem parse_poisoned {r : Registers} {cause : Malformed} (h : r.mode = .poisoned)
    (hcause : r.cause? = some cause) (input : Bytes) :
    r.parse input = some (.failed cause, input, r) := by
  obtain ⟨mode, line, bulk, slots, value?, cause?⟩ := r
  subst h hcause
  rw [parse.eq_def]
  rfl

section

variable {r : Registers} {d : Decoder} (h : r.Stands d)

include h

/-- Registers are at the mode of the phase. -/
theorem Stands.done_iff : r.mode = .done ↔ ∃ v, d.phase = .done v := by
  have hholds := h.holds
  obtain ⟨phase, frames⟩ := d
  cases phase <;> simp only [Holds] at hholds <;> grind

theorem Stands.poisoned_iff : r.mode = .poisoned ↔ ∃ cause, d.phase = .poisoned cause := by
  have hholds := h.holds
  obtain ⟨phase, frames⟩ := d
  cases phase <;> simp only [Holds] at hholds <;> grind

/-- Registers read on where the decoder does. -/
theorem Stands.mode_ne (hd : d.reading) : r.mode ≠ .done ∧ r.mode ≠ .poisoned := by
  constructor
  · intro hmode
    obtain ⟨v, hv⟩ := h.done_iff.mp hmode
    rw [Decoder.reading, hv] at hd
    cases hd
  · intro hmode
    obtain ⟨cause, hcause⟩ := h.poisoned_iff.mp hmode
    rw [Decoder.reading, hcause] at hd
    cases hd

/-- **A value is held where one is complete.** -/
theorem Stands.value_eq_some_iff {v : Value} : r.value? = some v ↔ d.phase = .done v := by
  rw [h.value, Decoder.take]
  cases d.phase with
  | done w => exact ⟨fun hw => congrArg Phase.done (Option.some.inj hw), fun hw => by cases hw; rfl⟩
  | _ => exact ⟨fun hw => (by cases hw), fun hw => (by cases hw)⟩

theorem Stands.cause_of_poisoned {cause : Malformed} (hd : d.phase = .poisoned cause) :
    r.mode = .poisoned ∧ r.cause? = some cause :=
  ⟨h.poisoned_iff.mpr ⟨cause, hd⟩, by rw [h.cause, Decoder.cause?, hd]⟩

end

/-- **A parse comes to what the decoder's does**, without a fault. -/
theorem Stands.parse {r : Registers} {d : Decoder} (h : r.Stands d) (input : Bytes) :
    ∃ next, r.parse input = some ((d.parse input).1, (d.parse input).2.1, next) ∧
      next.Stands (d.parse input).2.2 := by
  fun_induction Decoder.parse d input generalizing r with
  | case1 d input v hd => exact ⟨r, parse_done (h.done_iff.mpr ⟨v, hd⟩) input, h⟩
  | case2 d input cause hd =>
    obtain ⟨hmode, hcause⟩ := h.cause_of_poisoned hd
    exact ⟨r, parse_poisoned hmode hcause input, h⟩
  | case3 d hdone hpoisoned =>
    obtain ⟨hdone, hpoisoned⟩ := h.mode_ne (Decoder.reading_of_not hdone hpoisoned)
    exact ⟨r, parse_of_ne hdone hpoisoned [], h⟩
  | case4 d b bs next rest hs hdone hpoisoned ih =>
    have hd := Decoder.reading_of_not hdone hpoisoned
    obtain ⟨hdone, hpoisoned⟩ := h.mode_ne hd
    have hgoes := h.advance hd b bs
    rw [hs] at hgoes
    rw [parse_of_ne hdone hpoisoned]
    dsimp only
    generalize r.advance b bs = step at hgoes ⊢
    cases hgoes with
    | proceeds hnext => exact ih hnext
  | case5 d b bs cause rest hs hdone hpoisoned =>
    have hd := Decoder.reading_of_not hdone hpoisoned
    obtain ⟨hdone, hpoisoned⟩ := h.mode_ne hd
    have hgoes := h.advance hd b bs
    rw [hs] at hgoes
    rw [parse_of_ne hdone hpoisoned]
    dsimp only
    have hvalue : r.value? = none := Option.eq_none_iff_forall_ne_some.mpr fun v hv =>
      hdone (h.done_iff.mpr ⟨v, h.value_eq_some_iff.mp hv⟩)
    generalize r.advance b bs = step at hgoes ⊢
    cases hgoes with
    | fails =>
      refine ⟨_, rfl, ?_⟩
      exact ⟨rfl, .nil, h.line, hvalue, rfl, fun _ => rfl⟩

/-- **What is handed out** is what the decoder hands out. -/
theorem Stands.take {r : Registers} {d : Decoder} (h : r.Stands d) :
    r.take.1 = d.take.1 ∧ r.take.2.Stands d.take.2 := by
  cases hv : r.value? with
  | none =>
    have hnot : ∀ v, d.phase ≠ .done v := fun v hd => by
      cases hv.symm.trans (h.value_eq_some_iff.mpr hd)
    rw [Registers.take, hv, Decoder.take_of_not_done hnot]
    exact ⟨rfl, h⟩
  | some v =>
    have hd := h.value_eq_some_iff.mp hv
    have hframes : d.frames = [] := h.ended (by rw [Decoder.reading, hd])
    have hslots := h.slots
    have hcause : r.cause? = none := by rw [h.cause, Decoder.cause?, hd]
    rw [Registers.take, hv, Decoder.take_of_done hd, hframes]
    rw [hframes] at hslots
    exact ⟨rfl, stands_reading rfl rfl hslots h.line rfl hcause⟩

/-- **Whatever is asked**, registers answer as the decoder does, without a fault. -/
theorem Stands.respondAll {r : Registers} {d : Decoder} (h : r.Stands d) (demands : List Demand) :
    ∃ next, r.respondAll demands = some ((d.respondAll demands).1, next) ∧
      next.Stands (d.respondAll demands).2 := by
  induction demands generalizing r d with
  | nil => exact ⟨r, rfl, h⟩
  | cons demand demands ih =>
    have hone : ∃ next, r.respond demand = some ((d.respond demand).1, next) ∧
        next.Stands (d.respond demand).2 := by
      cases demand with
      | parse chunk =>
        obtain ⟨next, hparse, hstands⟩ := h.parse chunk
        exact ⟨next, by rw [Registers.respond, hparse]; rfl, hstands⟩
      | take => exact ⟨r.take.2, by rw [Registers.respond, h.take.1]; rfl, h.take.2⟩
    obtain ⟨next, hrespond, hstands⟩ := hone
    obtain ⟨last, hall, hlast⟩ := ih hstands
    refine ⟨last, ?_, hlast⟩
    rw [Registers.respondAll, hrespond]
    dsimp only [bind, Option.bind]
    rw [hall]
    rfl

/-! ## At the end of a reply, or of all -/

/-- What is asked with no effect leaves the registers. -/
theorem respondAll_same {r : Registers} {answer : Demand → Response} {demands : List Demand}
    (h : ∀ demand ∈ demands, r.respond demand = some (answer demand, r)) :
    r.respondAll demands = some (demands.map answer, r) := by
  induction demands with
  | nil => rfl
  | cons demand demands ih =>
    rw [List.forall_mem_cons] at h
    rw [respondAll, h.1]
    dsimp only [bind, Option.bind]
    rw [ih h.2]
    rfl

/-- **The value waits** through any number of parses, which use nothing, and is handed out once: the registers
are then as new. -/
def HandsOut (r : Registers) (v : Value) : Prop :=
  (∀ chunks : List Bytes,
    r.respondAll (chunks.map .parse) = some (chunks.map fun _ => .parsed .completed 0, r)) ∧
  ∃ next, r.respond .take = some (.took (some v), next) ∧ next.mode = .start ∧
    ∀ demands, (next.respondAll demands).map Prod.fst = some (Decoder.empty.respondAll demands).1

/-- What is answered where nothing can be read any more: the cause, or no value. -/
def refusal (cause : Malformed) : Demand → Response
  | .parse _ => .parsed (.failed cause) 0
  | .take => .took none

/-- **Whatever is asked is refused**, and nothing changes. -/
def Refuses (r : Registers) (cause : Malformed) : Prop :=
  ∀ demands, r.respondAll demands = some (demands.map (refusal cause), r)

section

variable {r : Registers} {d : Decoder} (h : r.Stands d)

include h

theorem Stands.handsOut {v : Value} (hd : d.phase = .done v) : r.HandsOut v := by
  have hmode := h.done_iff.mpr ⟨v, hd⟩
  constructor
  · intro chunks
    have hsame : ∀ demand ∈ chunks.map Demand.parse,
        r.respond demand = some (.parsed .completed 0, r) := fun demand hdemand => by
      obtain ⟨chunk, -, rfl⟩ := List.mem_map.mp hdemand
      rw [respond, parse_done hmode, Option.map_some, Nat.sub_self]
    rw [respondAll_same hsame, List.map_map]
    rfl
  · have htake := h.take
    rw [Decoder.take_of_done hd, h.ended (by rw [Decoder.reading, hd])] at htake
    refine ⟨r.take.2, by rw [respond, htake.1], htake.2.holds, fun demands => ?_⟩
    obtain ⟨last, hlast, -⟩ := htake.2.respondAll demands
    rw [hlast]
    rfl

theorem Stands.refuses {cause : Malformed} (hd : d.phase = .poisoned cause) : r.Refuses cause := by
  obtain ⟨hmode, hcause⟩ := h.cause_of_poisoned hd
  have hvalue : r.value? = none := by rw [h.value, Decoder.take, hd]
  refine fun demands => respondAll_same fun demand _ => ?_
  cases demand with
  | parse chunk =>
    rw [respond, parse_poisoned hmode hcause, Option.map_some, Nat.sub_self]
    rfl
  | take =>
    rw [respond, Registers.take, hvalue]
    rfl

end

/-! ## The statement -/

/-- **Registers that are sound**, beside the decoder that was asked the same. -/
structure Sound (r : Registers) (d : Decoder) : Prop where
  /-- A value is held where one is complete. -/
  held : r.value?.isSome ↔ r.mode = .done
  /-- Every open array wants something more, which with what it has makes its length. -/
  slots : List.Forall₂ Slot.Of r.slots d.frames
  line : r.line.size ≤ maxLine
  /-- A bulk string wants something more, which with what there is makes its length. -/
  bulk : ∀ wanted, r.mode = .bulk wanted → 0 < wanted ∧
    d.phase = .bulk (r.bulk.size + wanted) r.bulk ∧ r.bulk.size + wanted ≤ maxBulk
  ended : r.mode = .done ∨ r.mode = .poisoned → r.slots = []
  done : r.mode = .done → ∃ v, r.value? = some v ∧ r.HandsOut v
  poisoned : r.mode = .poisoned → ∃ cause, r.cause? = some cause ∧ r.Refuses cause

theorem Stands.sound {r : Registers} {d : Decoder} (h : r.Stands d) : r.Sound d := by
  have hended : r.mode = .done ∨ r.mode = .poisoned → d.reading = false := by
    rintro (hmode | hmode)
    · obtain ⟨v, hv⟩ := h.done_iff.mp hmode
      rw [Decoder.reading, hv]
    · obtain ⟨cause, hcause⟩ := h.poisoned_iff.mp hmode
      rw [Decoder.reading, hcause]
  refine ⟨?_, h.slots, h.line, fun wanted hmode => ?_, fun hmode => ?_, fun hmode => ?_, fun hmode => ?_⟩
  · rw [Option.isSome_iff_exists, h.done_iff]
    exact exists_congr fun v => h.value_eq_some_iff
  · have hholds := h.holds
    cases hphase : d.phase <;> rw [hphase] at hholds <;> simp only [Holds] at hholds <;> grind
  · have hslots := h.slots
    rw [h.ended (hended hmode)] at hslots
    exact List.forall₂_nil_right_iff.mp hslots
  · obtain ⟨v, hv⟩ := h.done_iff.mp hmode
    exact ⟨v, h.value_eq_some_iff.mpr hv, h.handsOut hv⟩
  · obtain ⟨cause, hcause⟩ := h.poisoned_iff.mp hmode
    exact ⟨cause, (h.cause_of_poisoned hcause).2, h.refuses hcause⟩

/-- **Whatever is asked of new registers, in any order**, has no fault: no count goes below zero.  The answers are
those of a decoder, the registers are sound, and after a failure they refuse for its cause. -/
theorem respondAll_sound (demands : List Demand) :
    ∃ r, respondAll {} demands = some ((Decoder.empty.respondAll demands).1, r) ∧
      r.Sound (Decoder.empty.respondAll demands).2 ∧
      ∀ cause used, .parsed (.failed cause) used ∈ (Decoder.empty.respondAll demands).1 →
        r.mode = .poisoned ∧ r.cause? = some cause := by
  obtain ⟨r, hr, hstands⟩ := stands_empty.respondAll demands
  exact ⟨r, hr, hstands.sound, fun cause used hfailed =>
    hstands.cause_of_poisoned (Decoder.phase_of_respondAll hfailed)⟩

/-- Taken too early, completed, left waiting, taken; then malformed bytes, and bytes that would be a reply. -/
def untimely : List Demand :=
  [.parse (Utf8.encode "*2\r\n$3\r\nab"), .take, .parse (Utf8.encode "c\r\n:1\r\n+OK"),
    .parse (Utf8.encode "+OK\r\n"), .take, .parse (Utf8.encode "?"), .take, .parse (Utf8.encode "+OK\r\n")]

theorem respondAll_sound_untimely :
    ∃ r, respondAll {} untimely = some
        ([.parsed .incomplete 10, .took none, .parsed .completed 7, .parsed .completed 0,
          .took (some (.array [.bytes (Utf8.encode "abc"), .integer 1])),
          .parsed (.failed (.typeByte 63)) 0, .took none, .parsed (.failed (.typeByte 63)) 0], r) ∧
      r.mode = .poisoned ∧ r.cause? = some (.typeByte 63) := by
  obtain ⟨r, hr, -, hfailed⟩ := respondAll_sound untimely
  have hanswers : (Decoder.empty.respondAll untimely).1
      = [.parsed .incomplete 10, .took none, .parsed .completed 7, .parsed .completed 0,
        .took (some (.array [.bytes (Utf8.encode "abc"), .integer 1])),
        .parsed (.failed (.typeByte 63)) 0, .took none, .parsed (.failed (.typeByte 63)) 0] := by
    decide +kernel
  rw [hanswers] at hr hfailed
  exact ⟨r, hr, hfailed (.typeByte 63) 0 (by decide)⟩

end Registers

end RespClient

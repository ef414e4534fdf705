import RespClient.Proofs.Connection.Feeding
import RespClient.Proofs.Connection.Effect
import RespClient.Proofs.Wire.Bytewise
import RespClient.Proofs.Wire.Places

/-!
# Proofs/Connection/Headway — the loops over the input end

    input     ├── value ──┼── value ──┼ ─ ─ ─ ┼── rest ──┤        a byte or more for each
    feeding   parse, take, dispatch │ parse, take, dispatch │ … │ parse

A feed parses what is left of its input, takes the value that is complete and dispatches it, until the input is
empty.  Nothing in the loop makes it end: a decoder that holds a value completes without a byte, and one that
completed and holds none would do so for ever.  So the loop is given rounds (`pump`).

The decoder of a connection was asked to parse and to hand out, and holds no value back (`settled_run`).  From
there a value costs a byte (`Decoder.Vacant.length_values`), a round uses one, and the loop comes to what the feed
does in as many rounds as the input has bytes (`pump_eq`).
-/

namespace RespClient

namespace Decoder

/-! ## A decoder that holds no value back -/

/-- **A decoder that new decoders become**, by what they are asked. -/
def Reached (d : Decoder) : Prop := ∃ demands, (empty.respondAll demands).2 = d

theorem respondAll_append (d : Decoder) (xs ys : List Demand) :
    (d.respondAll (xs ++ ys)).2 = ((d.respondAll xs).2.respondAll ys).2 := by
  induction xs generalizing d with
  | nil => rfl
  | cons x xs ih => exact ih (d.respond x).2

/-- One demand more. -/
theorem Reached.respond {d : Decoder} (h : d.Reached) (demand : Demand) : (d.respond demand).2.Reached := by
  obtain ⟨demands, rfl⟩ := h
  exact ⟨demands ++ [demand], respondAll_append empty demands [demand]⟩

/-- **Where readings leave a decoder**: new ones become it, and every value it completed was handed out. -/
structure Settled (d : Decoder) : Prop where
  reached : d.Reached
  vacant : d.Vacant

theorem settled_empty : empty.Settled := ⟨⟨[], rfl⟩, vacant_start []⟩

/-- A reading asks for parses, and takes what they complete. -/
theorem Reached.after {d : Decoder} (h : d.Reached) (input : Bytes) : (d.after input).Reached := by
  induction d, input using reading_induction with
  | nil d =>
    rw [(read_nil d).2.2]
    exact h
  | stopped d e input rest outcome hi hp ho =>
    have hparsed := h.respond (.parse input)
    rw [(read_stopped hi hp ho).2.2]
    rw [Decoder.respond, hp] at hparsed
    exact hparsed
  | value d e input rest v hi hp hv ih =>
    have htaken := (h.respond (.parse input)).respond .take
    rw [(read_value hi hp hv).2.2]
    rw [Decoder.respond, Decoder.respond, hp, take_of_done hv] at htaken
    exact ih htaken

theorem Settled.after {d : Decoder} (h : d.Settled) (input : Bytes) : (d.after input).Settled :=
  ⟨h.reached.after input, h.vacant.after input⟩

/-- **A value costs a byte.** -/
theorem Vacant.length_values {d : Decoder} (h : d.Vacant) (input : Bytes) :
    (d.values input).length ≤ input.length := by
  induction d, input using reading_induction with
  | nil d =>
    rw [(read_nil d).1]
    exact Nat.le_refl 0
  | stopped d e input rest outcome hi hp ho =>
    rw [(read_stopped hi hp ho).1]
    exact Nat.zero_le _
  | value d e input rest v hi hp hv ih =>
    have hlt := (length_parse (congrArg Prod.fst hp)).2 h
    have hrest := ih (vacant_start e.frames)
    rw [hp] at hlt
    rw [(read_value hi hp hv).1, List.length_cons]
    exact Nat.lt_of_le_of_lt hrest hlt

end Decoder

namespace Connection

variable {κ α : Type}

/-! ## The decoder of a connection -/

/-- **An operation keeps the decoder, reads with it or empties it.** -/
theorem settled_perform {c : Connection κ α} (h : c.decoder.Settled) (op : Op κ α) :
    (c.perform op).1.decoder.Settled := by
  have hends {c c' : Connection κ α} (he : c.Ends c') (h : c.decoder.Settled) : c'.decoder.Settled := by
    obtain ⟨-, rfl⟩ | ⟨batches, rfl⟩ := he
    · exact h
    · exact Decoder.settled_empty
  by_cases ha : op.asks
  · rw [(perform_effect c ha).places.decoder]
    exact h
  · cases op with
    | feed input =>
      rw [perform]
      by_cases hc : c.stage = .closed
      · rw [(feed_closed hc input).1]
        exact h
      · rw [feed_dispatched hc, dispatched]
        cases c.decoder.fault? input with
        | none => exact h.after input
        | some cause => exact hends (ends_fail _ _) (h.after input)
    | written n => exact h
    | fail failure => exact hends (ends_fail c failure) h
    | close => exact hends (ends_close c) h
    | _ => exact absurd rfl ha

/-- **Whatever is done**, the decoder holds no value back. -/
theorem settled_run {c : Connection κ α} (h : c.decoder.Settled) (ops : List (Op κ α)) :
    (c.run ops).1.decoder.Settled := by
  induction ops generalizing c with
  | nil => exact h
  | cons op ops ih => exact ih (settled_perform h op)

/-! ## The loop of a feed -/

/-- **Round after round**, so many at most: how many values were dispatched by then, and what the feed comes to.
A decoder that completed and hands out nothing goes round again. -/
def pump : Nat → Connection κ α → Bytes → Nat → Option (Nat × Fed κ α)
  | _, c, [], routed => some (routed, ⟨.ok routed, [], c, []⟩)
  | 0, _, _ :: _, _ => none
  | rounds + 1, c, b :: bs, routed =>
    if c.stage = .closed then some (routed, ⟨.error .connectionClosed, [], c, []⟩)
    else
      match c.decoder.parse (b :: bs) with
      | (.completed, rest, d) =>
        match d.take with
        | (some v, d) => do
          let turn := (c.reading d).dispatch v
          let (routed, fed) ← pump rounds turn.1 rest (routed + 1)
          return (routed, ⟨fed.result, fed.rest, fed.turn.1, turn.2 ++ fed.turn.2⟩)
        | (none, d) => pump rounds (c.reading d) rest routed
      | (.incomplete, rest, d) => some (routed, ⟨.ok routed, rest, c.reading d, []⟩)
      | (.failed cause, _, d) =>
        some (routed, ⟨.error (.protocol cause), [], (c.reading d).fail (.protocol cause)⟩)

/-- What a feed comes to where so many values were counted before. -/
def Fed.behind (fed : Fed κ α) (before : Nat) : Fed κ α := { fed with result := fed.result.map (before + ·) }

theorem Fed.behind_zero (fed : Fed κ α) : fed.behind 0 = fed := by
  obtain ⟨result, rest, turn⟩ := fed
  simp only [behind, Nat.zero_add]
  cases result <;> rfl

theorem pump_nil (rounds : Nat) (c : Connection κ α) (before : Nat) :
    pump rounds c [] before = some (before, ⟨.ok before, [], c, []⟩) := by
  cases rounds <;> rfl

/-- A closed connection takes nothing. -/
theorem pump_closed {c : Connection κ α} (hc : c.stage = .closed) {input : Bytes} {rounds : Nat}
    (hrounds : input.length ≤ rounds) (before : Nat) :
    pump rounds c input before = some (before, (c.feed input).behind before) := by
  cases input with
  | nil =>
    rw [pump_nil, feed_nil]
    rfl
  | cons b bs =>
    obtain ⟨rounds, rfl⟩ := Nat.exists_eq_add_one_of_ne_zero (Nat.ne_zero_of_lt hrounds)
    rw [pump, if_pos hc, feed_of_closed hc (List.cons_ne_nil b bs)]
    rfl

/-- **The loop comes to the feed** in as many rounds as there are bytes, where no value waits. -/
theorem pump_eq {c : Connection κ α} (hc : c.stage ≠ .closed) (h : c.decoder.Vacant) {input : Bytes}
    {rounds : Nat} (hrounds : input.length ≤ rounds) (before : Nat) :
    pump rounds c input before =
      some (before + (c.decoder.values input).length, (c.feed input).behind before) := by
  induction hd : c.decoder, input using Decoder.reading_induction generalizing c rounds before with
  | nil d =>
    rw [pump_nil, feed_nil, (Decoder.read_nil d).1]
    rfl
  | stopped d e input rest outcome hi hp ho =>
    obtain ⟨b, bs, rfl⟩ := List.exists_cons_of_ne_nil hi
    obtain ⟨rounds, rfl⟩ := Nat.exists_eq_add_one_of_ne_zero (Nat.ne_zero_of_lt hrounds)
    rw [pump, if_neg hc, hd, hp, (Decoder.read_stopped hi hp ho).1]
    rcases outcome with _ | _ | cause
    · exact absurd rfl ho
    · rw [feed_incomplete hc hi (hd ▸ hp)]
      rfl
    · rw [feed_failed hc hi (hd ▸ hp)]
      rfl
  | value d e input rest v hi hp hv ih =>
    have hlt := (Decoder.length_parse (congrArg Prod.fst hp)).2 (hd ▸ h)
    rw [hp] at hlt
    have hstage : ((c.reading ⟨.start, e.frames⟩).dispatch v).1.stage ≠ .closed := fun h =>
      hc ((dispatch_stage (c.reading ⟨.start, e.frames⟩) v).2.mp h)
    have hdec := dispatch_decoder (c.reading ⟨.start, e.frames⟩) v
    obtain ⟨b, bs, rfl⟩ := List.exists_cons_of_ne_nil hi
    obtain ⟨rounds, rfl⟩ := Nat.exists_eq_add_one_of_ne_zero (Nat.ne_zero_of_lt hrounds)
    have hnext := ih hstage (hdec ▸ Decoder.vacant_start e.frames)
      (Nat.le_of_lt_succ (Nat.lt_of_lt_of_le hlt hrounds)) (before + 1) hdec
    rw [pump, if_neg hc, hd, hp]
    dsimp only
    rw [Decoder.take_of_done hv]
    dsimp only
    rw [hnext, feed_value hc hi (hd ▸ hp) hv, (Decoder.read_value hi hp hv).1]
    dsimp only [bind, Option.bind, pure]
    rw [List.length_cons, Nat.add_right_comm, ← Nat.add_assoc, Fed.behind, Fed.behind]
    dsimp only
    cases (((c.reading ⟨.start, e.frames⟩).dispatch v).1.feed rest).result with
    | error failure => rfl
    | ok n => simp only [Except.map, Nat.add_assoc, Nat.add_comm 1 n]

/-! ## The statement -/

/-- **A feed that makes headway**: its loop ends within as many rounds as the input has bytes, and has dispatched
no more values. -/
structure Headway (c : Connection κ α) (input : Bytes) : Prop where
  /-- Registers that new ones become stand for its decoder, hold no value, and end on every chunk. -/
  vacant : ∃ demands responses r, Registers.respondAll {} demands = some (responses, r) ∧
    r.Stands c.decoder ∧ r.value? = none ∧ ∀ chunk, r.EndsWithin c.decoder chunk
  ends : ∃ routed ≤ input.length, pump input.length c input 0 = some (routed, c.feed input)

theorem headway_of_settled {c : Connection κ α} (h : c.decoder.Settled) (input : Bytes) : c.Headway input := by
  obtain ⟨⟨demands, hdemands⟩, hvacant⟩ := h
  obtain ⟨r, hr, hstands⟩ := Registers.stands_empty.respondAll demands
  rw [hdemands] at hstands
  have hvalue : r.value? = none := by rw [hstands.value, Decoder.take_of_not_done hvacant]
  refine ⟨⟨demands, _, r, hr, hstands, hvalue, hstands.endsWithin⟩, ?_⟩
  by_cases hc : c.stage = .closed
  · have hpump := pump_closed hc (Nat.le_refl input.length) 0
    rw [Fed.behind_zero] at hpump
    exact ⟨0, Nat.zero_le _, hpump⟩
  · have hpump := pump_eq hc hvacant (Nat.le_refl input.length) 0
    rw [Fed.behind_zero, Nat.zero_add] at hpump
    exact ⟨_, hvacant.length_values input, hpump⟩

/-- **Both loops end.**  The registers of a decoder, whatever they were asked before, parse any chunk in one round
more than it has bytes at most, and look at nothing outside.  A connection, whatever was done to it before, holds
no value back in its decoder, and feeds on any input in one round at most for each of its bytes. -/
theorem loops_end (demands : List Decoder.Demand) (chunk : Bytes) (ops : List (Op κ α)) (input : Bytes) :
    (∃ r, Registers.respondAll {} demands = some ((Decoder.empty.respondAll demands).1, r) ∧
      r.EndsWithin (Decoder.empty.respondAll demands).2 chunk) ∧
    (run {} ops).1.Headway input := by
  obtain ⟨r, hr, hstands⟩ := Registers.stands_empty.respondAll demands
  exact ⟨⟨r, hr, hstands.endsWithin chunk⟩,
    headway_of_settled (settled_run Decoder.settled_empty ops) input⟩

end Connection

end RespClient

import RespClient.Connection
import RespClient.Proofs.Wire.Reading

/-!
# Proofs/Connection/Operation — a run, operation by operation

A run of a connection is a list of operations (`Op`), each of which turns one connection into the next
and causes events (`perform`, `run`).  Two facts make runs tractable.

* An operation that only tidies up touches little: `refresh` changes the stage, and not whether the
  connection is open or closed; `settle` changes the batches, `acknowledge` the registry, the stage and
  the count of answers owed.
* **Feeding is dispatching** (`feed_eq`): the values that the bytes complete are dispatched one after
  another, and then, if the bytes are malformed, the connection fails.  Where the bytes are cut plays
  no part in what a value does.
-/

namespace RespClient

/-- **An operation of the client**, with the handler it passes in. -/
inductive Op (κ α : Type)
  | beginConnect
  | connectSucceeded
  | connectFailed (failure : Failure)
  | observe (name : Option String)
  | submit (command : Command) (handler : κ)
  | submitBatch (commands : List Command) (handler : κ)
  | register (topic : Topic) (persistence : Persistence) (listener : α) (handler : κ)
  | unsubscribe (h : Handle) (handler : κ)
  | abandon (h : Handle)
  /-- Bytes that were read. -/
  | feed (input : Bytes)
  /-- Outbound bytes that were written, and are dropped. -/
  | written (n : Nat)
  | fail (failure : Failure)
  | close

/-- The handler that an operation passes in, if it passes one. -/
def Op.handler? {κ α : Type} : Op κ α → Option κ
  | submit _ k | submitBatch _ k | register _ _ _ k | unsubscribe _ k => some k
  | _ => none

/-- The handler that an event calls, if it calls one. -/
def Event.called? {κ α : Type} : Event κ α → Option κ
  | replied k _ => some k
  | _ => none

/-- **The handlers that are called**, in order. -/
def called {κ α : Type} (events : List (Event κ α)) : List κ := events.filterMap Event.called?

namespace Connection

variable {κ α : Type}

/-- **An operation is done.** -/
def perform (c : Connection κ α) : Op κ α → Turn κ α
  | .beginConnect => c.beginConnect.2
  | .connectSucceeded => (c.connectSucceeded, [])
  | .connectFailed failure => c.connectFailed failure
  | .observe name => ({ c with observer := name }, [])
  | .submit command k => c.submit command (.handler k)
  | .submitBatch commands k => c.submitBatch commands k
  | .register topic persistence listener k => (c.register topic persistence listener (.handler k)).2
  | .unsubscribe h k => c.unsubscribe h (.handler k)
  | .abandon h => (c.abandon h, [])
  | .feed input => (c.feed input).turn
  | .written n => (c.written n, [])
  | .fail failure => c.fail failure
  | .close => c.close

/-- **Operations are done** one after another. -/
def run (c : Connection κ α) : List (Op κ α) → Turn κ α
  | [] => (c, [])
  | op :: ops =>
    let turn := c.perform op
    let more := turn.1.run ops
    (more.1, turn.2 ++ more.2)

/-- One operation is a run of one. -/
theorem run_singleton (c : Connection κ α) (op : Op κ α) : c.run [op] = c.perform op := by
  rw [run, run, List.append_nil]

/-- The message that a value passes on, where it is taken for one. -/
def pushed? (c : Connection κ α) (v : Value) : Option Push :=
  if c.routesPushes then Push.ofValue? v else none

theorem dispatch_pushed {c : Connection κ α} {v : Value} {push : Push}
    (h : c.pushed? v = some push) : c.dispatch v = c.deliver push := by
  rw [pushed?] at h
  rw [dispatch, h]

theorem dispatch_reply {c : Connection κ α} {v : Value} (h : c.pushed? v = none) :
    c.dispatch v = c.answer v := by
  rw [pushed?] at h
  rw [dispatch, h]

/-! ## What an operation leaves alone -/

theorem refresh_eq (c : Connection κ α) : c.refresh = { c with stage := c.refresh.stage } := by
  rw [refresh]
  split
  · split <;> rfl
  · split <;> rfl
  · rfl

@[simp] theorem refresh_pending (c : Connection κ α) : c.refresh.pending = c.pending := by
  rw [refresh_eq]

@[simp] theorem refresh_batches (c : Connection κ α) : c.refresh.batches = c.batches := by
  rw [refresh_eq]

@[simp] theorem refresh_nextBatch (c : Connection κ α) : c.refresh.nextBatch = c.nextBatch := by
  rw [refresh_eq]

@[simp] theorem refresh_registry (c : Connection κ α) : c.refresh.registry = c.registry := by
  rw [refresh_eq]

@[simp] theorem refresh_nextHandle (c : Connection κ α) : c.refresh.nextHandle = c.nextHandle := by
  rw [refresh_eq]

@[simp] theorem refresh_acksOwed (c : Connection κ α) : c.refresh.acksOwed = c.acksOwed := by
  rw [refresh_eq]

@[simp] theorem refresh_outbound (c : Connection κ α) : c.refresh.outbound = c.outbound := by
  rw [refresh_eq]

/-- **The stage keeps its side**: an open connection stays open, a closed one closed. -/
theorem refresh_stage (c : Connection κ α) :
    c.refresh.isOpen = c.isOpen ∧ (c.refresh.stage = .closed ↔ c.stage = .closed) := by
  rw [refresh]
  split
  · rename_i h
    split <;> simp [isOpen, h, Lifecycle.isOpen]
  · rename_i h
    split <;> simp [isOpen, h, Lifecycle.isOpen]
  · exact ⟨rfl, Iff.rfl⟩

theorem settle_eq (c : Connection κ α) (target : Target κ) (result : Except Failure Value) :
    (c.settle target result).1 = { c with batches := (c.settle target result).1.batches } := by
  unfold settle
  split
  · rfl
  · rfl
  · split
    · rfl
    · split <;> rfl

/-- Where a result goes depends on the batches alone. -/
theorem settle_congr (target : Target κ) (result : Except Failure Value) {c c' : Connection κ α}
    (h : c.batches = c'.batches) :
    (c.settle target result).1.batches = (c'.settle target result).1.batches ∧
      (c.settle target result).2 = (c'.settle target result).2 := by
  unfold settle
  rw [h]
  split
  · exact ⟨h, rfl⟩
  · exact ⟨h, rfl⟩
  · split
    · exact ⟨h, rfl⟩
    · split <;> exact ⟨rfl, rfl⟩

theorem acknowledge_eq (c : Connection κ α) (expects : Expect) (v : Value) :
    c.acknowledge expects v = { c with
      stage := (c.acknowledge expects v).stage
      registry := (c.acknowledge expects v).registry
      acksOwed := (c.acknowledge expects v).acksOwed } := by
  unfold acknowledge
  split
  · rfl
  · split
    · split
      · rw [refresh_eq]
      · rfl
    · rfl
  · rfl

@[simp] theorem acknowledge_pending (c : Connection κ α) (expects : Expect) (v : Value) :
    (c.acknowledge expects v).pending = c.pending := by
  rw [acknowledge_eq]

@[simp] theorem acknowledge_batches (c : Connection κ α) (expects : Expect) (v : Value) :
    (c.acknowledge expects v).batches = c.batches := by
  rw [acknowledge_eq]

@[simp] theorem acknowledge_nextBatch (c : Connection κ α) (expects : Expect) (v : Value) :
    (c.acknowledge expects v).nextBatch = c.nextBatch := by
  rw [acknowledge_eq]

@[simp] theorem acknowledge_nextHandle (c : Connection κ α) (expects : Expect) (v : Value) :
    (c.acknowledge expects v).nextHandle = c.nextHandle := by
  rw [acknowledge_eq]

@[simp] theorem acknowledge_outbound (c : Connection κ α) (expects : Expect) (v : Value) :
    (c.acknowledge expects v).outbound = c.outbound := by
  rw [acknowledge_eq]

theorem acknowledge_acksOwed (c : Connection κ α) (expects : Expect) (v : Value) :
    (c.acknowledge expects v).acksOwed
      = c.acksOwed - if expects = .unsubscribeAck then 1 else 0 := by
  unfold acknowledge
  split
  · rfl
  · split
    · split
      · exact refresh_acksOwed _
      · rfl
    · rfl
  · rfl

theorem acknowledge_stage (c : Connection κ α) (expects : Expect) (v : Value) :
    (c.acknowledge expects v).isOpen = c.isOpen ∧
      ((c.acknowledge expects v).stage = .closed ↔ c.stage = .closed) := by
  unfold acknowledge
  split
  · exact ⟨rfl, Iff.rfl⟩
  · split
    · split
      · exact refresh_stage _
      · exact ⟨rfl, Iff.rfl⟩
    · exact ⟨rfl, Iff.rfl⟩
  · exact ⟨rfl, Iff.rfl⟩

theorem deliver_stage (c : Connection κ α) (push : Push) :
    (c.deliver push).1.isOpen = c.isOpen ∧
      ((c.deliver push).1.stage = .closed ↔ c.stage = .closed) := by
  rw [deliver]
  dsimp only
  split
  · exact refresh_stage _
  · exact ⟨rfl, Iff.rfl⟩

theorem answer_stage (c : Connection κ α) (v : Value) :
    (c.answer v).1.isOpen = c.isOpen ∧ ((c.answer v).1.stage = .closed ↔ c.stage = .closed) := by
  rw [answer]
  split
  · exact ⟨rfl, Iff.rfl⟩
  · rw [settle_eq]
    exact acknowledge_stage _ _ v

/-- **A value opens and closes nothing.** -/
theorem dispatch_stage (c : Connection κ α) (v : Value) :
    (c.dispatch v).1.isOpen = c.isOpen ∧
      ((c.dispatch v).1.stage = .closed ↔ c.stage = .closed) := by
  rw [dispatch]
  split
  · exact deliver_stage c _
  · exact answer_stage c v

/-! ## The decoder plays no part -/

/-- The connection with another decoder. -/
def reading (c : Connection κ α) (d : Decoder) : Connection κ α := { c with decoder := d }

theorem refresh_reading (c : Connection κ α) (d : Decoder) :
    (c.reading d).refresh = c.refresh.reading d := by
  obtain ⟨stage, _, _, _, registry, _, _, _, _, _⟩ := c
  cases stage with
  | connected => unfold refresh reading; cases registry.isEmpty <;> rfl
  | subscribed => unfold refresh reading; cases registry.isEmpty <;> rfl
  | _ => rfl

theorem settle_reading (c : Connection κ α) (d : Decoder) (target : Target κ)
    (result : Except Failure Value) :
    (c.reading d).settle target result
      = ((c.settle target result).1.reading d, (c.settle target result).2) := by
  cases target with
  | nobody => rfl
  | handler k => rfl
  | slot number index =>
    unfold settle
    dsimp only [reading]
    cases c.batches.lookup number with
    | none => rfl
    | some batch =>
      dsimp only
      cases batch.record index result <;> rfl

theorem acknowledge_reading (c : Connection κ α) (d : Decoder) (expects : Expect) (v : Value) :
    (c.reading d).acknowledge expects v = (c.acknowledge expects v).reading d := by
  cases expects with
  | reply => rfl
  | unsubscribeAck => rfl
  | subscribeAck h =>
    unfold acknowledge
    dsimp only [reading]
    cases v.isError with
    | false => rfl
    | true =>
      cases c.registry.remove? h with
      | none => rfl
      | some registry => exact refresh_reading { c with registry } d

theorem deliver_reading (c : Connection κ α) (d : Decoder) (push : Push) :
    (c.reading d).deliver push = ((c.deliver push).1.reading d, (c.deliver push).2) := by
  unfold deliver
  dsimp only [reading]
  split
  · have h := refresh_reading (sendUnsubscribe
      { c with registry := c.registry.spend push.topic } push.topic .nobody) d
    exact congrArg (·, _) h
  · rfl

theorem answer_reading (c : Connection κ α) (d : Decoder) (v : Value) :
    (c.reading d).answer v = ((c.answer v).1.reading d, (c.answer v).2) := by
  unfold answer
  dsimp only [reading]
  split
  · rfl
  · rename_i p ps _
    have h := acknowledge_reading { c with pending := ps } d p.expects v
    exact (congrArg (settle · p.target (.ok v)) h).trans (settle_reading _ d p.target (.ok v))

/-- **What a value does** does not depend on the decoder. -/
theorem dispatch_reading (c : Connection κ α) (d : Decoder) (v : Value) :
    (c.reading d).dispatch v = ((c.dispatch v).1.reading d, (c.dispatch v).2) := by
  unfold dispatch
  rw [show (c.reading d).routesPushes = c.routesPushes from rfl]
  split
  · exact deliver_reading c d _
  · exact answer_reading c d v

/-! ## The end -/

theorem failAll_eq (failure : Failure) (ps : List (Pending κ)) (c : Connection κ α) :
    (failAll failure ps c).1 = { c with batches := (failAll failure ps c).1.batches } := by
  induction ps generalizing c with
  | nil => rfl
  | cons p ps ih =>
    rw [failAll]
    dsimp only
    rw [ih, settle_eq]

/-- Whom a failure reaches depends on the batches alone. -/
theorem failAll_congr (failure : Failure) (ps : List (Pending κ)) {c d : Connection κ α}
    (h : c.batches = d.batches) :
    (failAll failure ps c).1.batches = (failAll failure ps d).1.batches ∧
      (failAll failure ps c).2 = (failAll failure ps d).2 := by
  induction ps generalizing c d with
  | nil => exact ⟨h, rfl⟩
  | cons p ps ih =>
    obtain ⟨hb, he⟩ := settle_congr p.target (.error failure) h
    obtain ⟨ib, ie⟩ := ih hb
    simp only [failAll, he, ie, ib, and_self]

/-- Nothing is left of the conversation but what the observer and the numbers were. -/
def ended (c : Connection κ α) (batches : List (Nat × Batch κ)) : Connection κ α :=
  { stage := .closed, batches, nextBatch := c.nextBatch, nextHandle := c.nextHandle,
    observer := c.observer }

theorem close_eq {c : Connection κ α} (h : c.stage ≠ .closed) :
    c.close = (c.ended (failAll .connectionClosed c.pending c).1.batches,
      (failAll .connectionClosed c.pending c).2) := by
  rw [close]
  rw [if_neg h, drain]
  dsimp only
  have hf := failAll_congr .connectionClosed c.pending
    (c := { c with stage := .closed, pending := [] }) (d := c) rfl
  rw [failAll_eq, hf.1, hf.2]
  rfl

/-- **A failure ends the connection**: it is reported, then every waiting command fails with it. -/
theorem fail_eq {c : Connection κ α} (h : c.stage ≠ .closed) (failure : Failure) :
    c.fail failure = (c.ended (failAll failure c.pending c).1.batches,
      c.report failure :: (failAll failure c.pending c).2) := by
  have hf := failAll_congr failure c.pending (c := { c with pending := [] }) (d := c) rfl
  have he := failAll_eq failure c.pending { c with pending := [] }
  rw [fail]
  rw [if_neg h, drain]
  dsimp only
  rw [close_eq (by rw [he]; exact h), he, hf.1, hf.2]
  simp [failAll, ended, report]

/-- **The connection has ended**: it was closed before and is as it was, or nothing is left of it. -/
def Ends (c c' : Connection κ α) : Prop := c.stage = .closed ∧ c' = c ∨ ∃ batches, c' = c.ended batches

theorem Ends.closed {c c' : Connection κ α} (h : c.Ends c') : c'.stage = .closed := by
  obtain ⟨hc, rfl⟩ | ⟨batches, rfl⟩ := h
  · exact hc
  · rfl

theorem ends_close (c : Connection κ α) : c.Ends c.close.1 := by
  by_cases hc : c.stage = .closed
  · rw [close, if_pos hc]
    exact .inl ⟨hc, rfl⟩
  · rw [close_eq hc]
    exact .inr ⟨_, rfl⟩

theorem ends_fail (c : Connection κ α) (failure : Failure) : c.Ends (c.fail failure).1 := by
  by_cases hc : c.stage = .closed
  · rw [fail, if_pos hc]
    exact .inl ⟨hc, rfl⟩
  · rw [fail_eq hc]
    exact .inr ⟨_, rfl⟩

/-! ## Feeding is dispatching -/

/-- **Values are dispatched** one after another. -/
def dispatchAll (c : Connection κ α) : List Value → Turn κ α
  | [] => (c, [])
  | v :: vs =>
    let turn := c.dispatch v
    let more := turn.1.dispatchAll vs
    (more.1, turn.2 ++ more.2)

theorem dispatchAll_reading (c : Connection κ α) (d : Decoder) (vs : List Value) :
    (c.reading d).dispatchAll vs = ((c.dispatchAll vs).1.reading d, (c.dispatchAll vs).2) := by
  induction vs generalizing c with
  | nil => rfl
  | cons v vs ih =>
    rw [dispatchAll, dispatchAll, dispatch_reading]
    dsimp only
    rw [ih]

theorem dispatchAll_stage (c : Connection κ α) (vs : List Value) :
    (c.dispatchAll vs).1.isOpen = c.isOpen ∧
      ((c.dispatchAll vs).1.stage = .closed ↔ c.stage = .closed) := by
  induction vs generalizing c with
  | nil => exact ⟨rfl, Iff.rfl⟩
  | cons v vs ih =>
    obtain ⟨h₁, h₂⟩ := ih (c.dispatch v).1
    obtain ⟨k₁, k₂⟩ := dispatch_stage c v
    exact ⟨h₁.trans k₁, h₂.trans k₂⟩

theorem feed_nil (c : Connection κ α) : c.feed [] = ⟨.ok 0, [], c, []⟩ := by
  rw [feed]
  rfl

/-- A closed connection dispatches nothing. -/
theorem feed_closed {c : Connection κ α} (h : c.stage = .closed) (input : Bytes) :
    (c.feed input).turn = (c, []) ∧ (c.feed input).result.toOption.getD 0 = 0 := by
  rw [feed]
  split
  · exact ⟨rfl, rfl⟩
  · exact ⟨rfl, rfl⟩

/-- The rest of the bytes holds no whole value. -/
theorem feed_incomplete {c : Connection κ α} {d : Decoder} {input rest : Bytes}
    (hc : c.stage ≠ .closed) (hi : input ≠ []) (h : c.decoder.parse input = (.incomplete, rest, d)) :
    c.feed input = ⟨.ok 0, rest, c.reading d, []⟩ := by
  rw [feed, if_neg (by simpa using hi), if_neg hc]
  split
  · rename_i hp
    cases h.symm.trans hp
  · rename_i hp
    cases h.symm.trans hp
    rfl
  · rename_i hp
    cases h.symm.trans hp

theorem feed_failed {c : Connection κ α} {d : Decoder} {input rest : Bytes} {cause : Malformed}
    (hc : c.stage ≠ .closed) (hi : input ≠ [])
    (h : c.decoder.parse input = (.failed cause, rest, d)) :
    c.feed input = ⟨.error (.protocol cause), [], (c.reading d).fail (.protocol cause)⟩ := by
  rw [feed, if_neg (by simpa using hi), if_neg hc]
  split
  · rename_i hp
    cases h.symm.trans hp
  · rename_i hp
    cases h.symm.trans hp
  · rename_i hp
    cases h.symm.trans hp
    rfl

theorem feed_value {c : Connection κ α} {d : Decoder} {input rest : Bytes} {v : Value}
    (hc : c.stage ≠ .closed) (hi : input ≠ []) (h : c.decoder.parse input = (.completed, rest, d))
    (hv : d.phase = .done v) :
    c.feed input =
      let turn := (c.reading ⟨.start, d.frames⟩).dispatch v
      let fed := turn.1.feed rest
      ⟨fed.result.map (· + 1), fed.rest, fed.turn.1, turn.2 ++ fed.turn.2⟩ := by
  rw [feed, if_neg (by simpa using hi), if_neg hc]
  split
  · rename_i hp
    cases h.symm.trans hp
    split
    · rename_i ht
      cases (Decoder.take_of_done hv).symm.trans ht
      rfl
    · rename_i ht
      cases (Decoder.take_of_done hv).symm.trans ht
  · rename_i hp
    cases h.symm.trans hp
  · rename_i hp
    cases h.symm.trans hp

/-- Reading stops: at the end of the bytes, or because they are malformed. -/
def stop (c : Connection κ α) : Option Malformed → Turn κ α
  | none => (c, [])
  | some cause => c.fail (.protocol cause)

/-- **Feeding is dispatching**: the values that the bytes complete are dispatched in order, and if the
bytes are malformed behind them, the connection fails. -/
theorem feed_eq {c : Connection κ α} (hc : c.stage ≠ .closed) (input : Bytes) :
    let turn := c.dispatchAll (c.decoder.values input)
    let last := (turn.1.reading (c.decoder.after input)).stop (c.decoder.fault? input)
    (c.feed input).turn = (last.1, turn.2 ++ last.2) ∧
      (c.decoder.fault? input = none →
        (c.feed input).result = .ok (c.decoder.values input).length) := by
  induction hd : c.decoder, input using Decoder.reading_induction generalizing c with
  | nil d =>
    obtain ⟨h₁, h₂, h₃⟩ := Decoder.read_nil d
    rw [h₁, h₂, h₃, feed_nil, ← hd]
    exact ⟨rfl, fun _ => rfl⟩
  | stopped d e input rest outcome hi hp ho =>
    obtain ⟨h₁, h₂, h₃⟩ := Decoder.read_stopped hi hp ho
    rw [h₁, h₂, h₃]
    cases outcome with
    | completed => exact absurd rfl ho
    | incomplete =>
      rw [feed_incomplete hc hi (hd ▸ hp)]
      exact ⟨rfl, fun _ => rfl⟩
    | failed cause =>
      rw [feed_failed hc hi (hd ▸ hp)]
      exact ⟨rfl, fun h => by cases h⟩
  | value d e input rest v hi hp hv ih =>
    obtain ⟨h₁, h₂, h₃⟩ := Decoder.read_value hi hp hv
    rw [h₁, h₂, h₃, feed_value hc hi (hd ▸ hp) hv]
    have hstage : ((c.reading ⟨.start, e.frames⟩).dispatch v).1.stage ≠ .closed := fun h =>
      hc ((dispatch_stage (c.reading ⟨.start, e.frames⟩) v).2.mp h)
    have hdec := dispatch_decoder (c.reading ⟨.start, e.frames⟩) v
    obtain ⟨i₁, i₂⟩ := ih hstage hdec
    refine ⟨?_, fun h => ?_⟩
    · dsimp only
      rw [i₁, dispatch_reading, dispatchAll_reading]
      simp only [dispatchAll, List.append_assoc]
      rfl
    · dsimp only
      rw [i₂ h]
      rfl

end Connection

end RespClient

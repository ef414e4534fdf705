import RespClient.Proofs.Blocking.Course

/-!
# Proofs/Blocking/Script — calls one after another

    connected ──command──▸ ──pipelined──▸ ──readMessages──▸ ──disconnect──▸

Whatever is called (`Invocation`), a client leads along the trail of the call (`invoke_leads`), and so
along the trail of a whole script of calls (`script_leads`).  From the moment a client is connected, what
its connection was led through is a run from the beginning (`history_run`), and all that crossed its
transport is in it (`history_tape`), as the transport itself says (`script_crosses`).
-/

namespace RespClient.BlockingClient

variable {α : Type}

/-! ## Calls as data -/

/-- **A call of a client.** -/
inductive Invocation (α : Type)
  | command (command : Command)
  | pipelined (commands : List Command)
  | publish (channel message : Bytes)
  | subscribe (topic : Topic) (persistence : Persistence) (listener : α)
  | unsubscribe (h : Handle)
  | readMessages (time : Duration)
  | connectTo (network : Network) (endpoint : Endpoint)
  | connect (network : Network)
  | connectOver (transport : Transport)
  | disconnect
  | observe (observer : Option String)

/-- **What a call returns.** -/
inductive Returned
  | value (result : Except Failure Value)
  | handle (result : Except Failure Handle)
  | count (result : Except Failure Nat)
  | unit (result : Except Failure Unit)

/-- **A call is made.** -/
def invoke (c : BlockingClient α) : Invocation α → Returned × BlockingClient α × Log α
  | .command command => let done := c.command command; (.value done.1, done.2)
  | .pipelined commands => let done := c.pipelined commands; (.value done.1, done.2)
  | .publish channel message => let done := c.publish channel message; (.value done.1, done.2)
  | .subscribe topic persistence listener =>
    let done := c.subscribe topic persistence listener
    (.handle done.1, done.2)
  | .unsubscribe h => let done := c.unsubscribe h; (.value done.1, done.2)
  | .readMessages time => let done := c.readMessages time; (.count done.1, done.2)
  | .connectTo network endpoint => let done := c.connectTo network endpoint; (.unit done.1, done.2)
  | .connect network => let done := c.connect network; (.unit done.1, done.2)
  | .connectOver transport => let done := c.connectOver transport; (.unit done.1, done.2)
  | .disconnect => (.unit (.ok ()), c.disconnect)
  | .observe observer => (.unit (.ok ()), c.observe observer, [])

/-- **Calls are made one after another.** -/
def script (c : BlockingClient α) : List (Invocation α) → List Returned × BlockingClient α × Log α
  | [] => ([], c, [])
  | i :: is =>
    let done := c.invoke i
    let more := done.2.1.script is
    (done.1 :: more.1, more.2.1, done.2.2 ++ more.2.2)

/-! ## The trail of a call -/

/-- A missed deadline is reported; on a connection that has begun, an attempt that fails says the same. -/
def lateTrail (failure : Failure) : Trail Nat α :=
  if failure.isTimeout then ⟨[.connectFailed failure], []⟩ else {}

def waitTrail (c : BlockingClient α) (call : Nat) : Option (Except Failure Value) → Trail Nat α
  | some _ => {}
  | none =>
    let r := c.course (expires c.config.commandTimeout) (hasResult call)
    match r.failure? with
    | some failure => r.trail.andThen (lateTrail failure)
    | none => r.trail

/-- The trail of an operation, and then of waiting for its result. -/
def awaitTrail (c : BlockingClient α) (op : Op Nat α) : Trail Nat α :=
  let turn := c.connection.perform op
  let client : BlockingClient α := { c with connection := turn.1, nextCall := c.nextCall + 1 }
  Trail.andThen ⟨[op], []⟩ (client.waitTrail c.nextCall (resultOf c.nextCall turn.2))

/-- **The trail of a call**, on a client that has begun. -/
def invocationTrail (c : BlockingClient α) : Invocation α → Trail Nat α
  | .command command => c.awaitTrail (.submit command c.nextCall)
  | .pipelined commands => c.awaitTrail (.submitBatch commands c.nextCall)
  | .publish channel message => c.awaitTrail (.submit (.publish channel message) c.nextCall)
  | .subscribe topic persistence listener =>
    let op : Op Nat α := .register topic persistence listener c.nextCall
    match c.connection.register topic persistence listener (.handler c.nextCall) with
    | (.error _, _) => ⟨[op], []⟩
    | (.ok h, turn) =>
      match (c.await turn).1 with
      | .ok _ => c.awaitTrail op
      | .error _ => (c.awaitTrail op).andThen ⟨[.abandon h], []⟩
  | .unsubscribe h => c.awaitTrail (.unsubscribe h c.nextCall)
  | .readMessages time => (c.course time.isZero fun _ => false).trail
  | .connectTo _ _ | .connectOver _ => ⟨[.beginConnect], []⟩
  | .connect _ =>
    match Endpoint.parse c.config.endpoint with
    | .ok _ => ⟨[.beginConnect], []⟩
    | .error failure => ⟨[.connectFailed failure], []⟩
  | .disconnect => ⟨[.close], []⟩
  | .observe observer => ⟨[.observe observer], []⟩

/-- **The trail of a script.** -/
def scriptTrail (c : BlockingClient α) : List (Invocation α) → Trail Nat α
  | [] => {}
  | i :: is => (c.invocationTrail i).andThen ((c.invoke i).2.1.scriptTrail is)

/-! ## Calls lead along their trails -/

theorem Underway.refl {c : BlockingClient α} (h : c.Underway) : Leads c c [] {} :=
  h.idle (c.transport.crosses_nothing _)

/-- Of a connection that has begun, a failed attempt is only reported. -/
theorem Underway.report {c : BlockingClient α} (h : c.Underway) (failure : Failure) :
    c.connection.perform (.connectFailed failure) = (c.connection, [c.connection.report failure]) := by
  have hstage : c.connection.stage ≠ .connecting := by
    intro hs
    obtain ho | hc := h.begun
    · rw [Connection.isOpen, hs] at ho
      cases ho
    · cases hs.symm.trans hc
  rw [Connection.perform, Connection.connectFailed, if_neg hstage]

/-- …and a second attempt is refused. -/
theorem Underway.beginConnect {c : BlockingClient α} (h : c.Underway) :
    c.connection.beginConnect = (.error (c.connection.notNow "connect"), c.connection,
      [c.connection.report (c.connection.notNow "connect")]) := by
  have hstage : c.connection.stage ≠ .unconnected := by
    intro hs
    obtain ho | hc := h.begun
    · rw [Connection.isOpen, hs] at ho
      cases ho
    · cases hs.symm.trans hc
  rw [Connection.beginConnect, if_neg hstage]

theorem Underway.late {c : BlockingClient α} (h : c.Underway) (failure : Failure) :
    Leads c c (c.lateness failure) (lateTrail failure) := by
  rw [lateness, lateTrail]
  split
  · have hleads := h.perform (.connectFailed failure) rfl c.nextCall
    rwa [h.report] at hleads
  · exact h.refl

theorem wait_leads {c : BlockingClient α} (h : c.Underway) (call : Nat)
    (result? : Option (Except Failure Value)) :
    Leads c (c.wait call result?).2.1 (c.wait call result?).2.2 (c.waitTrail call result?) := by
  cases result? with
  | some result =>
    rw [wait_some]
    exact h.refl
  | none =>
    have hcourse := course_leads h (expires c.config.commandTimeout) (hasResult call)
    rw [wait_none h, waitTrail]
    dsimp only
    cases (c.course (expires c.config.commandTimeout) (hasResult call)).failure? with
    | some failure => exact hcourse.trans (hcourse.underway.late failure)
    | none => exact hcourse

/-- **A call that waits** leads along its operation and what comes after it. -/
theorem await_leads {c : BlockingClient α} (h : c.Underway) (op : Op Nat α) (ha : op.asks) :
    Leads c (c.await (c.connection.perform op)).2.1 (c.await (c.connection.perform op)).2.2
      (c.awaitTrail op) := by
  have hfirst := h.perform op ha (c.nextCall + 1)
  exact hfirst.trans (wait_leads hfirst.underway _ _)

theorem subscribe_leads {c : BlockingClient α} (h : c.Underway) (topic : Topic)
    (persistence : Persistence) (listener : α) :
    Leads c (c.subscribe topic persistence listener).2.1 (c.subscribe topic persistence listener).2.2
      (c.invocationTrail (.subscribe topic persistence listener)) := by
  have hperform : c.connection.perform (.register topic persistence listener c.nextCall)
      = (c.connection.register topic persistence listener (.handler c.nextCall)).2 := rfl
  have hrefused := h.perform (.register topic persistence listener c.nextCall) rfl (c.nextCall + 1)
  have hasked := await_leads h (.register topic persistence listener c.nextCall) rfl
  rw [hperform] at hrefused hasked
  rw [subscribe, invocationTrail]
  rcases hr : c.connection.register topic persistence listener (.handler c.nextCall) with
    ⟨failure | hd, turn⟩
  · rw [hr] at hrefused
    exact hrefused
  · rw [hr] at hasked
    dsimp only at hasked ⊢
    rcases hw : c.await turn with ⟨failure | ack, d, log⟩
    · rw [hw] at hasked
      have hgone := hasked.trans
        (hasked.underway.perform (.abandon hd) rfl d.nextCall)
      rwa [Connection.perform, List.append_nil] at hgone
    · rw [hw] at hasked
      exact hasked

/-- **A call leads along its trail.** -/
theorem invoke_leads {c : BlockingClient α} (h : c.Underway) (i : Invocation α) :
    Leads c (c.invoke i).2.1 (c.invoke i).2.2 (c.invocationTrail i) := by
  have hbegun := h.perform .beginConnect rfl c.nextCall
  rw [Connection.perform, h.beginConnect] at hbegun
  cases i with
  | command command => exact await_leads h (.submit command c.nextCall) rfl
  | pipelined commands => exact await_leads h (.submitBatch commands c.nextCall) rfl
  | publish channel message =>
    exact await_leads h (.submit (.publish channel message) c.nextCall) rfl
  | subscribe topic persistence listener => exact subscribe_leads h topic persistence listener
  | unsubscribe hd => exact await_leads h (.unsubscribe hd c.nextCall) rfl
  | readMessages time =>
    have hcourse := course_leads h time.isZero fun _ => false
    rw [invoke, readMessages, readUntil_eq]
    exact hcourse
  | connectTo network endpoint =>
    rw [invoke, connectTo, h.beginConnect]
    exact hbegun
  | connect network =>
    rw [invoke, connect, invocationTrail]
    rcases Endpoint.parse c.config.endpoint with failure | endpoint
    · have hreport := h.perform (.connectFailed failure) rfl c.nextCall
      rwa [h.report] at hreport
    · dsimp only
      rw [connectTo, h.beginConnect]
      exact hbegun
  | connectOver transport =>
    rw [invoke, connectOver, h.beginConnect]
    exact hbegun
  | disconnect =>
    exact leads_ends (c.transport.crosses_nothing _) .close rfl (Connection.ends_close c.connection).closed
  | observe observer => exact h.perform (.observe observer) rfl c.nextCall

/-- **A script leads along its trail.** -/
theorem script_leads {c : BlockingClient α} (h : c.Underway) (is : List (Invocation α)) :
    Leads c (c.script is).2.1 (c.script is).2.2 (c.scriptTrail is) := by
  induction is generalizing c with
  | nil => exact h.refl
  | cons i is ih =>
    have hfirst := invoke_leads h i
    exact hfirst.trans (ih hfirst.underway)

/-! ## From the beginning -/

/-- **A client just connected** over a transport. -/
def connected (config : Config) (transport : Transport) : BlockingClient α :=
  ((new config).connectOver transport).2.1

theorem connected_underway (config : Config) (transport : Transport) :
    (connected config transport : BlockingClient α).Underway := ⟨rfl, .inl rfl, rfl⟩

/-- **What is done to a connection** from its beginning to the end of a script. -/
def history (config : Config) (transport : Transport) (is : List (Invocation α)) : List (Op Nat α) :=
  .beginConnect :: .connectSucceeded :: ((connected config transport).scriptTrail is).ops

theorem history_run (config : Config) (transport : Transport) (is : List (Invocation α)) :
    Connection.run {} (history config transport is)
      = (((connected config transport).script is).2.1.connection,
        ((connected config transport).script is).2.2) :=
  (script_leads (connected_underway config transport) is).run

theorem history_tape (config : Config) (transport : Transport) (is : List (Invocation α)) :
    (Journal.run {} (history config transport is)).tape
      = ((connected config transport).scriptTrail is).tape :=
  (Journal.tape_run {} (history config transport is)).trans
    (script_leads (connected_underway config transport) is).tape

/-- **What the tape of a script holds crossed the transport.** -/
theorem script_crosses (config : Config) (transport : Transport) (is : List (Invocation α)) :
    let client := ((connected config transport : BlockingClient α).script is).2.1
    transport.Crosses client.config.readBufferSize.toNat
      ((connected config transport : BlockingClient α).scriptTrail is).tape client.transport := by
  have hleads := script_leads (connected_underway (α := α) config transport) is
  have hcrosses := hleads.crosses
  rw [← hleads.config] at hcrosses
  exact hcrosses

end RespClient.BlockingClient

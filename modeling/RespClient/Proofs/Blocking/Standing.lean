import RespClient.Proofs.Blocking.Verdict
import RespClient.Proofs.Connection.Life

/-!
# Proofs/Blocking/Standing — a client between two calls

    new ──connect──▸ ──command──▸ ──subscribe──▸ … ──disconnect──▸        any calls, in any order

Between two calls a client stands (`Standing`): its connection came about by operations, its transport is
there exactly while the connection is open, nothing that was read is left over, no attempt to connect is
under way, and whoever waits in the queue is a call that was made before.  Whatever is called, a client
stands again after it (`Standing.invoke`), so every client that calls can lead to does (`standing_script`).

On a connection that has not begun, every request is refused and only an attempt to connect does anything;
on one that has, a call leads along its trail.
-/

namespace RespClient

namespace Connection

variable {κ α : Type}

/-- **Whoever waits after a run** waited before it, or was brought by it. -/
theorem Accounted.waiting_run {c : Connection κ α} (h : c.Accounted) {ops : List (Op κ α)} {k : κ}
    (hk : k ∈ (c.run ops).1.waiting) : k ∈ c.waiting ∨ ∃ op ∈ ops, op.handler? = some k := by
  have hmem := (h.called_append_waiting ops).subset (List.mem_append_right _ hk)
  exact (List.mem_append.mp hmem).imp_right List.mem_filterMap.mp

end Connection

theorem Op.handler?_of_isPassive {κ α : Type} {op : Op κ α} (h : op.isPassive) :
    op.handler? = none := by
  cases op <;> first | rfl | cases h

namespace BlockingClient

variable {α : Type}

/-- **A client between two calls.** -/
structure Standing (c : BlockingClient α) : Prop where
  came : ∃ ops, (Connection.run {} ops).1 = c.connection
  attached : c.attached = c.connection.isOpen
  settled : c.connection.stage ≠ .connecting
  buffer : c.buffer = []
  /-- The calls that wait were made before. -/
  numbers : ∀ k ∈ c.connection.waiting, k < c.nextCall

theorem standing_new (config : Config) : (new config : BlockingClient α).Standing :=
  ⟨⟨[], rfl⟩, rfl, nofun, rfl, nofun⟩

namespace Standing

variable {c d : BlockingClient α}

theorem accounted (h : c.Standing) : c.connection.Accounted := by
  obtain ⟨ops, hops⟩ := h.came
  exact hops ▸ Connection.accounted_new.run ops

theorem tidy (h : c.Standing) : c.connection.Tidy := by
  obtain ⟨ops, hops⟩ := h.came
  exact hops ▸ Connection.tidy_new.run ops

/-- The client after operations that bring no calls but those that were made. -/
theorem went (h : c.Standing) (ops : List (Op Nat α))
    (hd : (c.connection.run ops).1 = d.connection) (ha : d.attached = d.connection.isOpen)
    (hs : d.connection.stage ≠ .connecting) (hb : d.buffer = []) (hn : c.nextCall ≤ d.nextCall)
    (hk : ∀ op ∈ ops, ∀ k, op.handler? = some k → k < d.nextCall) : d.Standing := by
  obtain ⟨before, hbefore⟩ := h.came
  refine ⟨⟨before ++ ops, ?_⟩, ha, hs, hb, fun k hwait => ?_⟩
  · rw [Connection.run_append, hbefore, hd]
  · rw [← hd] at hwait
    obtain hwait | ⟨op, hop, hhandler⟩ := h.accounted.waiting_run hwait
    · exact Nat.lt_of_lt_of_le (h.numbers k hwait) hn
    · exact hk op hop k hhandler

/-- Nothing happens but to the transport and to the number of the next call. -/
theorem rests (h : c.Standing) (hd : d.connection = c.connection) (ha : d.attached = c.attached)
    (hb : d.buffer = c.buffer) (hn : c.nextCall ≤ d.nextCall) : d.Standing :=
  h.went [] hd.symm (by rw [ha, hd, h.attached]) (hd ▸ h.settled) (hb.trans h.buffer) hn
    nofun

/-! ## A connection that has begun -/

theorem underway (h : c.Standing) (hbegun : c.connection.stage ≠ .unconnected) : c.Underway := by
  refine ⟨h.attached, ?_, h.buffer⟩
  have hsettled := h.settled
  rw [Connection.isOpen]
  cases hs : c.connection.stage with
  | unconnected => exact absurd hs hbegun
  | connecting => exact absurd hs hsettled
  | connected => exact .inl rfl
  | subscribed => exact .inl rfl
  | closed => exact .inr rfl

theorem underway_of_isOpen (h : c.Standing) (ho : c.connection.isOpen) : c.Underway := by
  refine h.underway fun hs => ?_
  rw [Connection.isOpen, hs] at ho
  cases ho

end Standing

/-- What is led along a trail stands, if the trail brings no calls but those that were made. -/
theorem Standing.leads {c d : BlockingClient α} {log : Log α} {t : Trail Nat α} (h : c.Standing)
    (hleads : Leads c d log t) (hn : c.nextCall ≤ d.nextCall)
    (hk : ∀ op ∈ t.ops, ∀ k, op.handler? = some k → k < d.nextCall) : d.Standing := by
  refine h.went _ (congrArg Prod.fst hleads.run) hleads.underway.attached (fun hs => ?_)
    hleads.underway.buffer hn hk
  obtain ho | hc := hleads.underway.begun
  · rw [Connection.isOpen, hs] at ho
    cases ho
  · cases hs.symm.trans hc

/-- **A call brings its own number** and no other. -/
theorem handler_awaitTrail (c : BlockingClient α) (op : Op Nat α) :
    ∀ op' ∈ (c.awaitTrail op).ops, ∀ k, op'.handler? = some k → op.handler? = some k := by
  intro op' hop' k hk
  obtain rfl | hwaits := List.mem_cons.mp hop'
  · exact hk
  · cases (Op.handler?_of_isPassive (passive_waitTrail _ _ _ op' hwaits)).symm.trans hk

/-- **A call that waits for its operation** stands at its end. -/
theorem Standing.awaited {c : BlockingClient α} (h : c.Standing) (hunder : c.Underway) (op : Op Nat α)
    (ha : op.asks) (hk : op.handler? = some c.nextCall) :
    (c.await (c.connection.perform op)).2.1.Standing := by
  have hn := nextCall_await hunder ha
  refine h.leads (await_leads hunder op ha) (hn ▸ Nat.le_succ _) fun op' hop' k hk' => ?_
  have hown := handler_awaitTrail c op op' hop' k hk'
  obtain rfl : c.nextCall = k := Option.some.inj (hk.symm.trans hown)
  exact hn ▸ Nat.lt_succ_self _

theorem nextCall_subscribe {c : BlockingClient α} (h : c.Underway) (topic : Topic)
    (persistence : Persistence) (listener : α) :
    (c.subscribe topic persistence listener).2.1.nextCall = c.nextCall + 1 := by
  have hnext := nextCall_await h
    (show (Op.register topic persistence listener c.nextCall : Op Nat α).asks from rfl)
  rw [Connection.perform] at hnext
  rw [subscribe]
  rcases hr : c.connection.register topic persistence listener (.handler c.nextCall) with
    ⟨failure | hd, turn⟩
  · rfl
  · rw [hr] at hnext
    dsimp only at hnext ⊢
    rcases hw : c.await turn with ⟨failure | ack, d, log⟩ <;> rw [hw] at hnext <;> exact hnext

/-- The trail of a subscription is that of its operation, and perhaps of giving it up. -/
theorem ops_subscribe (c : BlockingClient α) (topic : Topic) (persistence : Persistence)
    (listener : α) :
    ∀ op ∈ (c.invocationTrail (.subscribe topic persistence listener)).ops,
      op ∈ (c.awaitTrail (.register topic persistence listener c.nextCall)).ops ∨
        ∃ h, op = .abandon h := by
  intro op hop
  rw [invocationTrail] at hop
  split at hop
  · exact .inl (List.mem_cons.mpr (.inl (List.mem_singleton.mp hop)))
  · split at hop
    · exact .inl hop
    · exact (List.mem_append.mp hop).imp_right fun hlast => ⟨_, List.mem_singleton.mp hlast⟩

theorem Standing.invoke_begun {c : BlockingClient α} (h : c.Standing)
    (hbegun : c.connection.stage ≠ .unconnected) (i : Invocation α) : (c.invoke i).2.1.Standing := by
  have hunder := h.underway hbegun
  have hleads := invoke_leads hunder i
  cases i with
  | command command => exact h.awaited hunder (.submit command c.nextCall) rfl rfl
  | pipelined commands => exact h.awaited hunder (.submitBatch commands c.nextCall) rfl rfl
  | publish channel message =>
    exact h.awaited hunder (.submit (.publish channel message) c.nextCall) rfl rfl
  | unsubscribe hd => exact h.awaited hunder (.unsubscribe hd c.nextCall) rfl rfl
  | subscribe topic persistence listener =>
    have hn := nextCall_subscribe hunder topic persistence listener
    refine h.leads hleads (Nat.le_of_lt (hn ▸ Nat.lt_succ_self _)) fun op hop k hk => ?_
    obtain hop | ⟨hd, rfl⟩ := ops_subscribe c topic persistence listener op hop
    · have hown := handler_awaitTrail c _ op hop k hk
      obtain rfl : c.nextCall = k := Option.some.inj hown
      exact hn ▸ Nat.lt_succ_self _
    · cases hk
  | readMessages time =>
    have hn : (c.invoke (.readMessages time)).2.1.nextCall = c.nextCall := by
      rw [invoke, readMessages, readUntil_eq]
      exact nextCall_course c _ _
    refine h.leads hleads (Nat.le_of_eq hn.symm) fun op hop k hk => ?_
    cases (Op.handler?_of_isPassive (passive_course c _ _ op hop)).symm.trans hk
  | connectTo network endpoint =>
    refine h.rests ?_ ?_ ?_ ?_ <;> rw [invoke, connectTo, hunder.beginConnect]
  | connect network =>
    rw [invoke, connect]
    rcases Endpoint.parse c.config.endpoint with failure | endpoint
    · exact h
    · dsimp only
      rw [connectTo, hunder.beginConnect]
      exact h
  | connectOver transport =>
    rw [invoke, connectOver, hunder.beginConnect]
    exact h
  | disconnect =>
    refine h.leads hleads (Nat.le_refl _) fun op hop k hk => ?_
    cases List.mem_singleton.mp hop
    cases hk
  | observe observer =>
    refine h.leads hleads (Nat.le_refl _) fun op hop k hk => ?_
    cases List.mem_singleton.mp hop
    cases hk

/-! ## A connection that has not begun -/

/-- **A refused operation** fails its call at once. -/
theorem await_denied {c : BlockingClient α} {op : Op Nat α} {failure : Failure}
    (hk : op.handler? = some c.nextCall) (h : c.connection.denial? op = some failure) :
    (c.await (c.connection.perform op)).1 = .error failure ∧
      (c.await (c.connection.perform op)).2.1 = { c with nextCall := c.nextCall + 1 } := by
  have hresult : resultOf c.nextCall (c.connection.perform op).2 = some (.error failure) := by
    rw [Connection.perform_denied h, hk, resultOf, Connection.report]
    simp
  rw [await, after, hresult, wait_some, Connection.perform_denied h]
  exact ⟨rfl, rfl⟩

theorem denied_of_not_isOpen {c : Connection Nat α} (hc : ¬ c.isOpen) {op : Op Nat α} {k : Nat}
    (hk : op.handler? = some k) : ∃ failure, c.denial? op = some failure := by
  have hchecked : op.checked := by
    cases op <;> first | rfl | cases hk
  refine (Connection.refused_iff _ hchecked).mp ?_
  cases op with
  | submit command k => exact Connection.refused_submit_iff.mpr (Connection.not_takes_iff.mpr (.inl hc))
  | submitBatch commands k =>
    refine Connection.refused_batch_iff.mpr ?_
    split
    · exact hc
    · rename_i hne
      obtain ⟨command, hmem⟩ := List.exists_mem_of_ne_nil _ hne
      exact ⟨command, hmem, Connection.refused_submit_iff.mpr (Connection.not_takes_iff.mpr (.inl hc))⟩
  | register topic persistence listener k =>
    exact (Connection.refused_iff_of_closedTo? rfl rfl).mpr hc
  | unsubscribe hd k => exact (Connection.refused_iff_of_closedTo? rfl rfl).mpr hc
  | _ => cases hk

/-- The failure that meets a subscription where the connection is not open. -/
theorem subscribe_denied {c : BlockingClient α} (hc : ¬ c.connection.isOpen) (topic : Topic)
    (persistence : Persistence) (listener : α) :
    (c.subscribe topic persistence listener).1
        = .error (c.connection.notNow topic.kind.subscribe) ∧
      (c.subscribe topic persistence listener).2.1 = { c with nextCall := c.nextCall + 1 } := by
  rw [subscribe, Connection.register, Connection.closedTo?, if_neg hc]
  exact ⟨rfl, rfl⟩

/-- Without a transport there is nothing to read. -/
theorem readMessages_detached {c : BlockingClient α} (ha : c.attached = false) (time : Duration) :
    (c.readMessages time).2 = (c, []) := by
  have hstep : ∃ failure, c.step time.isZero = (.error failure, c, []) := by
    rw [step, ha]
    cases time.isZero with
    | true => exact ⟨_, rfl⟩
    | false => exact ⟨_, rfl⟩
  obtain ⟨failure, hs⟩ := hstep
  rw [readMessages, readUntil_eq, course_error hs]

/-- **An attempt to connect** comes to a connection, or to nothing. -/
theorem Standing.attempt {c : BlockingClient α} (h : c.Standing)
    (hs : c.connection.stage = .unconnected) (transport : Transport) :
    ({ c with connection := c.connection.beginConnect.2.1 }.attach transport).Standing := by
  have hbegin : c.connection.beginConnect.2.1 = { c.connection with stage := .connecting } := by
    rw [Connection.beginConnect, if_pos hs]
  rw [hbegin]
  refine h.went [.beginConnect, .connectSucceeded] ?_ rfl (fun hn => by cases hn) h.buffer (Nat.le_refl _)
    ?_
  · rw [Connection.run, Connection.perform, hbegin]
    rfl
  · exact List.forall_mem_cons.mpr
      ⟨fun _ hk => (by cases hk), List.forall_mem_singleton.mpr fun _ hk => by cases hk⟩

theorem Standing.connectTo {c : BlockingClient α} (h : c.Standing)
    (hs : c.connection.stage = .unconnected) (network : Network) (endpoint : Endpoint) :
    (c.connectTo network endpoint).2.1.Standing := by
  have hattempt := h.attempt hs
  rw [Connection.beginConnect, if_pos hs] at hattempt
  rw [BlockingClient.connectTo, Connection.beginConnect, if_pos hs]
  dsimp only
  cases openStream network endpoint c.config.connectTimeout with
  | ok transport => exact hattempt transport
  | error failure =>
    -- the attempt is over, and the connection is what it was
    refine h.rests ?_ rfl rfl (Nat.le_refl _)
    unfold Connection.connectFailed
    dsimp only
    rw [if_pos rfl, ← hs]

theorem Standing.invoke_unconnected {c : BlockingClient α} (h : c.Standing)
    (hs : c.connection.stage = .unconnected) (i : Invocation α) : (c.invoke i).2.1.Standing := by
  have hclosed : ¬ c.connection.isOpen := by
    rw [Connection.isOpen, hs]
    exact Bool.false_ne_true
  have hdenied (op : Op Nat α) (hk : op.handler? = some c.nextCall) :
      (c.await (c.connection.perform op)).2.1.Standing := by
    obtain ⟨failure, hd⟩ := denied_of_not_isOpen hclosed hk
    rw [(await_denied hk hd).2]
    exact h.rests rfl rfl rfl (Nat.le_succ _)
  cases i with
  | command command => exact hdenied (.submit command c.nextCall) rfl
  | pipelined commands => exact hdenied (.submitBatch commands c.nextCall) rfl
  | publish channel message => exact hdenied (.submit (.publish channel message) c.nextCall) rfl
  | unsubscribe hd => exact hdenied (.unsubscribe hd c.nextCall) rfl
  | subscribe topic persistence listener =>
    rw [invoke, (subscribe_denied hclosed topic persistence listener).2]
    exact h.rests rfl rfl rfl (Nat.le_succ _)
  | readMessages time =>
    rw [invoke, readMessages_detached (h.attached.trans (Bool.eq_false_iff.mpr hclosed))]
    exact h
  | connectTo network endpoint => exact h.connectTo hs network endpoint
  | connect network =>
    rw [invoke, connect]
    rcases Endpoint.parse c.config.endpoint with failure | endpoint
    · exact h
    · exact h.connectTo hs network endpoint
  | connectOver transport =>
    have hattempt := h.attempt hs transport
    rw [Connection.beginConnect, if_pos hs] at hattempt
    rw [invoke, connectOver, Connection.beginConnect, if_pos hs]
    exact hattempt
  | disconnect =>
    have hclose := (Connection.ends_close c.connection).closed
    refine h.went [.close] rfl ?_ ?_ rfl (Nat.le_refl _)
      (List.forall_mem_singleton.mpr fun _ hk => by cases hk)
    · exact (Bool.eq_false_iff.mpr (Connection.not_isOpen_of_closed hclose)).symm
    · exact fun hn => by cases hclose.symm.trans hn
  | observe observer =>
    refine h.went [.observe observer] rfl ?_ ?_ ?_ (Nat.le_refl _)
      (List.forall_mem_singleton.mpr fun _ hk => by cases hk)
    · exact h.attached
    · exact h.settled
    · exact h.buffer

/-! ## Any calls -/

/-- **A client stands again after every call.** -/
theorem Standing.invoke {c : BlockingClient α} (h : c.Standing) (i : Invocation α) :
    (c.invoke i).2.1.Standing := by
  by_cases hs : c.connection.stage = .unconnected
  · exact h.invoke_unconnected hs i
  · exact h.invoke_begun hs i

theorem Standing.script {c : BlockingClient α} (h : c.Standing) (is : List (Invocation α)) :
    (c.script is).2.1.Standing := by
  induction is generalizing c with
  | nil => exact h
  | cons i is ih => exact ih (h.invoke i)

/-- **Every client that calls lead to stands.** -/
theorem standing_script (config : Config) (is : List (Invocation α)) :
    ((new config).script is).2.1.Standing := (standing_new config).script is

end BlockingClient

end RespClient

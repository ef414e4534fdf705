import RespClient.Proofs.Blocking.Standing

/-!
# Proofs/Blocking/Custody — what becomes of a transport

    attached ──▸ read, write, … ──▸ closed          with the connection, and once
                  └ each with room for a byte

A client takes a transport into **custody** when it connects and gives it up when its connection ends.  It
connects over one at most, holds it exactly while the connection is open, closes it once, and leaves no
bytes between two calls (`custody_script`).

That a transport is closed once is a sum that no step changes (`Entrusted`): how often it had been closed
when it came, and once more if the connection has ended.  That a read of no bytes means the end of the
stream comes from the configuration, which no call touches: it is made fit when the client is made, so
every read that the transport has written down since it came has **room** (`Transport.Used.issued`).
-/

namespace RespClient

namespace Transport

/-! ## Reads and writes close nothing -/

theorem closes_read (t : Transport) (limit : Nat) : (t.read limit).2.closes = t.closes := rfl

theorem closes_write (t : Transport) (offered : Bytes) :
    (t.write offered).2.closes = t.closes := by
  unfold write
  split
  · rfl
  · split <;> rfl

end Transport

namespace Reading

/-- **The stream is at its end**: what the read meets is that it ended, or a piece of no bytes. -/
def AtEnd (r : Reading) : Prop := r.meets = some .endOfStream ∨ r.meets = some (.data [])

/-- A read that has room finds no bytes only at the end of the stream. -/
theorem atEnd_of_answer {r : Reading} (hroom : 0 < r.room) (h : r.answer = .ok []) : r.AtEnd := by
  rw [answer.eq_def] at h
  split at h
  · cases h
  · rename_i bytes hmeets
    obtain hzero | rfl := List.take_eq_nil_iff.mp (Except.ok.inj h)
    · omega
    · exact .inr hmeets
  · rename_i hmeets
    exact .inl hmeets
  · cases h

end Reading

namespace BlockingClient

variable {α : Type}

/-! ## Closed once -/

/-- **The transport is in good hands**: closed as often as when it came, and once more if the connection
has ended. -/
def Entrusted (n : Nat) (c : BlockingClient α) : Prop :=
  c.transport.closes = n + if c.connection.stage = .closed then 1 else 0

namespace Entrusted

variable {n : Nat} {c d : BlockingClient α}

/-- What neither ends the connection nor closes the transport leaves it in the same hands. -/
theorem keeps (h : Entrusted n c) (ht : d.transport.closes = c.transport.closes)
    (hs : d.connection.stage = .closed ↔ c.connection.stage = .closed) : Entrusted n d := by
  rw [Entrusted, ht, h]
  simp only [hs]

theorem performs (h : Entrusted n c) (op : Op Nat α) (ha : op.asks) (nextCall : Nat) :
    Entrusted n { c with connection := (c.connection.perform op).1, nextCall } :=
  h.keeps rfl (Connection.perform_stage c.connection ha).2

/-- **At the end the transport is closed**, if it was not before. -/
theorem ends (h : Entrusted n c) (hunder : c.Underway) {t : Transport}
    (ht : t.closes = c.transport.closes) {connection : Connection Nat α}
    (hclosed : connection.stage = .closed) :
    Entrusted n { c with connection, transport := t }.detach := by
  rw [Entrusted] at h
  rw [Entrusted, detach, hunder.attached]
  dsimp only
  rw [if_pos hclosed]
  by_cases hc : c.connection.stage = .closed
  · have hgone : ¬ c.connection.isOpen := Connection.not_isOpen_of_closed hc
    rw [if_neg hgone, ht, h, if_pos hc]
  · have ho : c.connection.isOpen := hunder.begun.resolve_right hc
    rw [if_pos ho, Transport.close]
    dsimp only
    rw [ht, h, if_neg hc]

theorem fatal (h : Entrusted n c) (hunder : c.Underway) {t : Transport}
    (ht : t.closes = c.transport.closes) (failure : Failure) :
    Entrusted n ({ c with transport := t }.fatal failure : Done α Nat).2.1 :=
  h.ends hunder ht (Connection.ends_fail c.connection failure).closed

/-- A fault of the transport is passed over, or it is a missed deadline, or it is the end. -/
theorem fault (h : Entrusted n c) (hunder : c.Underway) {t : Transport}
    (ht : t.closes = c.transport.closes) (fault : StreamFault) :
    let done : Done α Nat := if fault.kind = .interrupted then (.ok 0, { c with transport := t }, [])
      else { c with transport := t }.faulted fault
    Entrusted n done.2.1 := by
  dsimp only
  split
  · exact h.keeps ht Iff.rfl
  · rw [faulted]
    split
    · exact h.keeps ht Iff.rfl
    · exact h.fatal hunder ht _

theorem writeOnce (h : Entrusted n c) (hunder : c.Underway) : Entrusted n c.writeOnce.2.1 := by
  have ht := c.transport.closes_write c.connection.outbound
  rw [BlockingClient.writeOnce]
  rcases hw : c.transport.write c.connection.outbound with ⟨fault | written, t⟩ <;> rw [hw] at ht
  · exact h.fault hunder ht fault
  · cases written with
    | zero => exact h.fatal hunder ht _
    | succ written => exact h.keeps ht Iff.rfl

theorem readOnce (h : Entrusted n c) (hunder : c.Underway) (ho : c.connection.isOpen) :
    Entrusted n c.readOnce.2.1 := by
  have hstage : c.connection.stage ≠ .closed := fun hn => Connection.not_isOpen_of_closed hn ho
  have ht := c.transport.closes_read c.config.readBufferSize.toNat
  rw [BlockingClient.readOnce]
  rcases hr : c.transport.read c.config.readBufferSize.toNat with ⟨fault | bytes, t⟩ <;>
    rw [hr] at ht
  · exact h.fault hunder ht fault
  · cases bytes with
    | nil => exact h.fatal hunder ht _
    | cons b bytes =>
      have hresult := Connection.feed_result ho (c.buffer ++ b :: bytes)
      dsimp only
      rcases hf : (c.connection.feed (c.buffer ++ b :: bytes)).result with failure | count
      · rw [hf] at hresult
        exact h.ends hunder ht hresult
      · rw [hf] at hresult
        refine h.keeps ht (iff_of_false (fun hn => ?_) hstage)
        exact Connection.not_isOpen_of_closed hn hresult

/-- **Every step leaves the transport in the same hands.** -/
theorem step (h : Entrusted n c) (hunder : c.Underway) (expired : Bool) :
    Entrusted n (c.step expired).2.1 := by
  rw [BlockingClient.step, hunder.attached]
  cases expired with
  | true => exact h
  | false =>
    by_cases ho : c.connection.isOpen
    · simp only [ho, Bool.false_eq_true, if_false, Bool.not_true]
      split
      · exact h.readOnce hunder ho
      · exact h.writeOnce hunder
    · simp only [ho, Bool.false_eq_true, if_false, Bool.not_false, if_true]
      exact h

theorem course (h : Entrusted n c) (hunder : c.Underway) (expired : Bool) (enough : Log α → Bool) :
    Entrusted n (c.course expired enough).client := by
  induction c using course_induction expired enough with
  | fails c failure d log hs =>
    have hstep := h.step hunder expired
    rw [hs] at hstep
    rw [course_error hs]
    exact hstep
  | goesOn c count d log hs ih =>
    have hstep := h.step hunder expired
    have hunderway := (step_leads hunder expired).underway
    rw [hs] at hstep hunderway
    rw [course_ok hs]
    cases he : enough log with
    | true => exact hstep
    | false => exact ih he hstep hunderway

/-- **A call that waits** leaves the transport in the same hands. -/
theorem await (h : Entrusted n c) (hunder : c.Underway) (op : Op Nat α) (ha : op.asks) :
    Entrusted n (c.await (c.connection.perform op)).2.1 := by
  have hfirst := h.performs op ha (c.nextCall + 1)
  have hunderway := (hunder.perform op ha (c.nextCall + 1)).underway
  rw [BlockingClient.await, after]
  dsimp only
  cases resultOf c.nextCall (c.connection.perform op).2 with
  | some result =>
    rw [wait_some]
    exact hfirst
  | none =>
    have hcourse := hfirst.course hunderway (expires c.config.commandTimeout) (hasResult c.nextCall)
    rw [wait_none hunderway]
    dsimp only
    split
    · exact hcourse
    · exact hcourse

theorem subscribe (h : Entrusted n c) (hunder : c.Underway) (topic : Topic)
    (persistence : Persistence) (listener : α) :
    Entrusted n (c.subscribe topic persistence listener).2.1 := by
  have hrefused := h.performs (.register topic persistence listener c.nextCall) rfl (c.nextCall + 1)
  have hasked := h.await hunder (.register topic persistence listener c.nextCall) rfl
  rw [Connection.perform] at hrefused hasked
  rw [BlockingClient.subscribe]
  rcases hr : c.connection.register topic persistence listener (.handler c.nextCall) with
    ⟨failure | hd, turn⟩
  · rw [hr] at hrefused
    exact hrefused
  · rw [hr] at hasked
    dsimp only at hasked ⊢
    rcases hw : c.await turn with ⟨failure | ack, d, log⟩
    · rw [hw] at hasked
      exact hasked.performs (.abandon hd) rfl d.nextCall
    · rw [hw] at hasked
      exact hasked

/-- **A call on a connection that has begun** leaves the transport in the same hands. -/
theorem invoke (h : Entrusted n c) (hunder : c.Underway) (i : Invocation α) :
    Entrusted n (c.invoke i).2.1 := by
  have hto (network : Network) (endpoint : Endpoint) :
      Entrusted n (c.connectTo network endpoint).2.1 := by
    rw [connectTo, hunder.beginConnect]
    exact h
  cases i with
  | command command => exact h.await hunder (.submit command c.nextCall) rfl
  | pipelined commands => exact h.await hunder (.submitBatch commands c.nextCall) rfl
  | publish channel message => exact h.await hunder (.submit (.publish channel message) c.nextCall) rfl
  | subscribe topic persistence listener => exact h.subscribe hunder topic persistence listener
  | unsubscribe hd => exact h.await hunder (.unsubscribe hd c.nextCall) rfl
  | readMessages time =>
    rw [BlockingClient.invoke, readMessages, readUntil_eq]
    exact h.course hunder time.isZero fun _ => false
  | connectTo network endpoint => exact hto network endpoint
  | connect network =>
    rw [BlockingClient.invoke, connect]
    rcases Endpoint.parse c.config.endpoint with failure | endpoint
    · exact h
    · exact hto network endpoint
  | connectOver transport =>
    rw [BlockingClient.invoke, connectOver, hunder.beginConnect]
    exact h
  | disconnect => exact h.ends hunder rfl (Connection.ends_close c.connection).closed
  | observe observer => exact h.keeps rfl Iff.rfl

end Entrusted

/-! ## Transports that come -/

/-- The transport that a call would bring to a client that is not connected. -/
def Invocation.brings? (config : Config) : Invocation α → Option Transport
  | connectOver transport => some transport
  | connectTo network endpoint => (openStream network endpoint config.connectTimeout).toOption
  | connect network =>
    (Endpoint.parse config.endpoint).toOption.bind fun endpoint =>
      (openStream network endpoint config.connectTimeout).toOption
  | _ => none

/-- **The transport that a call attaches**, if it attaches one. -/
def attaches? (c : BlockingClient α) (i : Invocation α) : Option Transport :=
  if c.connection.stage = .unconnected then i.brings? c.config else none

/-- **The transports that a script attaches**, in order. -/
def attachments (c : BlockingClient α) : List (Invocation α) → List Transport
  | [] => []
  | i :: is => (c.attaches? i).toList ++ (c.invoke i).2.1.attachments is

/-- **What a call does to a client that is not connected**: the client takes the transport that the call
brings, or it goes without one. -/
inductive Adopts (c d : BlockingClient α) : Option Transport → Prop
  | comes (t : Transport) (is : d = { c with
      connection := { c.connection with stage := .connected }, transport := t, attached := true }) :
    Adopts c d (some t)
  | goesWithout (attached : d.attached = false) (config : d.config = c.config)
    (transport : d.transport = c.transport) : Adopts c d none

theorem adopts_attach {c : BlockingClient α} (hs : c.connection.stage = .unconnected)
    (transport : Transport) :
    c.Adopts ({ c with connection := c.connection.beginConnect.2.1 }.attach transport)
      (some transport) := by
  refine .comes transport ?_
  rw [Connection.beginConnect, if_pos hs]
  rfl

theorem adopts_connectTo {c : BlockingClient α} (ha : c.attached = false)
    (hs : c.connection.stage = .unconnected) (network : Network) (endpoint : Endpoint) :
    c.Adopts (c.connectTo network endpoint).2.1
      (openStream network endpoint c.config.connectTimeout).toOption := by
  have hattach := adopts_attach hs
  rw [Connection.beginConnect, if_pos hs] at hattach
  rw [connectTo, Connection.beginConnect, if_pos hs]
  dsimp only
  cases openStream network endpoint c.config.connectTimeout with
  | ok transport => exact hattach transport
  | error failure => exact .goesWithout ha rfl rfl

theorem adopts_unconnected {c : BlockingClient α} (ha : c.attached = false)
    (hs : c.connection.stage = .unconnected) (i : Invocation α) :
    c.Adopts (c.invoke i).2.1 (i.brings? c.config) := by
  have hclosed : ¬ c.connection.isOpen := by
    rw [Connection.isOpen, hs]
    exact Bool.false_ne_true
  have hdenied (op : Op Nat α) (hk : op.handler? = some c.nextCall) :
      c.Adopts (c.await (c.connection.perform op)).2.1 none := by
    obtain ⟨failure, hd⟩ := denied_of_not_isOpen hclosed hk
    rw [(await_denied hk hd).2]
    exact .goesWithout ha rfl rfl
  cases i with
  | command command => exact hdenied (.submit command c.nextCall) rfl
  | pipelined commands => exact hdenied (.submitBatch commands c.nextCall) rfl
  | publish channel message => exact hdenied (.submit (.publish channel message) c.nextCall) rfl
  | unsubscribe hd => exact hdenied (.unsubscribe hd c.nextCall) rfl
  | subscribe topic persistence listener =>
    rw [invoke, (subscribe_denied hclosed topic persistence listener).2]
    exact .goesWithout ha rfl rfl
  | readMessages time =>
    rw [invoke, readMessages_detached ha]
    exact .goesWithout ha rfl rfl
  | connectTo network endpoint => exact adopts_connectTo ha hs network endpoint
  | connect network =>
    rw [invoke, connect, Invocation.brings?]
    rcases Endpoint.parse c.config.endpoint with failure | endpoint
    · exact .goesWithout ha rfl rfl
    · exact adopts_connectTo ha hs network endpoint
  | connectOver transport =>
    have hattach := adopts_attach hs transport
    rw [Connection.beginConnect, if_pos hs] at hattach
    rw [invoke, connectOver, Connection.beginConnect, if_pos hs]
    exact hattach
  | disconnect =>
    refine .goesWithout rfl rfl ?_
    rw [invoke, disconnect]
    dsimp only [detach]
    rw [ha]
    rfl
  | observe observer => exact .goesWithout ha rfl rfl

/-- **What a client holds** of the transports that were attached: nothing came, or one that is still in
good hands; and it was used, with the room that is configured. -/
structure Holds (c : BlockingClient α) (attached : List Transport) : Prop where
  hands : attached = [] ∧ c.attached = false ∨
    ∃ t, attached = [t] ∧ c.connection.stage ≠ .unconnected ∧ Entrusted t.closes c
  used : (attached.head?.getD {}).Used c.config.readBufferSize.toNat c.transport

theorem holds_new (config : Config) : (new config : BlockingClient α).Holds [] :=
  ⟨.inl ⟨rfl, rfl⟩, .unused⟩

theorem Adopts.holds {c d : BlockingClient α} {t? : Option Transport} (h : c.Adopts d t?)
    (hc : c.Holds []) : d.Holds t?.toList := by
  cases h with
  | comes t is =>
    subst is
    exact ⟨.inr ⟨t, rfl, nofun, rfl⟩, .unused⟩
  | goesWithout attached config transport =>
    refine ⟨.inl ⟨rfl, attached⟩, ?_⟩
    rw [transport, config]
    exact hc.used

theorem Adopts.config {c d : BlockingClient α} {t? : Option Transport} (h : c.Adopts d t?) :
    d.config = c.config := by
  cases h with
  | comes t is => rw [is]
  | goesWithout attached config => exact config

theorem Standing.attached_of_unconnected {c : BlockingClient α} (h : c.Standing)
    (hs : c.connection.stage = .unconnected) : c.attached = false := by
  rw [h.attached, Connection.isOpen, hs]
  rfl

/-- **A call adds the transport it attaches** to what the client holds. -/
theorem Holds.invoke {c : BlockingClient α} {attached : List Transport} (h : c.Holds attached)
    (hstands : c.Standing) (i : Invocation α) :
    (c.invoke i).2.1.Holds (attached ++ (c.attaches? i).toList) := by
  by_cases hs : c.connection.stage = .unconnected
  · obtain ⟨rfl, -⟩ | ⟨t, -, hbegun, -⟩ := h.hands
    · rw [attaches?, if_pos hs]
      exact (adopts_unconnected (hstands.attached_of_unconnected hs) hs i).holds h
    · exact absurd hs hbegun
  · have hunder := hstands.underway hs
    have hleads := invoke_leads hunder i
    have hused := h.used.trans hleads.crosses.used
    rw [← hleads.config] at hused
    rw [attaches?, if_neg hs, Option.toList_none, List.append_nil]
    refine ⟨?_, hused⟩
    obtain ⟨rfl, ha⟩ | ⟨t, rfl, -, hkept⟩ := h.hands
    · -- nothing came, so the connection has ended, and it stays so
      have hclosed : c.connection.stage = .closed :=
        hunder.begun.resolve_left (Bool.eq_false_iff.mp (hunder.attached.symm.trans ha))
      have hends := Connection.run_closed hclosed (c.invocationTrail i).ops
      rw [hleads.run] at hends
      exact .inl ⟨rfl, hleads.underway.attached.trans
        (Bool.eq_false_iff.mpr (Connection.not_isOpen_of_closed hends))⟩
    · refine .inr ⟨t, rfl, fun hn => ?_, hkept.invoke hunder i⟩
      obtain ho | hc := hleads.underway.begun
      · rw [Connection.isOpen, hn] at ho
        cases ho
      · cases hn.symm.trans hc

theorem Holds.script {c : BlockingClient α} {attached : List Transport} (h : c.Holds attached)
    (hstands : c.Standing) (is : List (Invocation α)) :
    (c.script is).2.1.Holds (attached ++ c.attachments is) := by
  induction is generalizing c attached with
  | nil =>
    rw [attachments, List.append_nil]
    exact h
  | cons i is ih =>
    rw [attachments, ← List.append_assoc]
    exact ih (h.invoke hstands i) (hstands.invoke i)

/-! ## The statement -/

theorem Standing.config_invoke {c : BlockingClient α} (h : c.Standing) (i : Invocation α) :
    (c.invoke i).2.1.config = c.config := by
  by_cases hs : c.connection.stage = .unconnected
  · exact (adopts_unconnected (h.attached_of_unconnected hs) hs i).config
  · exact (invoke_leads (h.underway hs) i).config

/-- **No call touches the configuration.** -/
theorem Standing.config_script {c : BlockingClient α} (h : c.Standing) (is : List (Invocation α)) :
    (c.script is).2.1.config = c.config := by
  induction is generalizing c with
  | nil => rfl
  | cons i is ih => exact (ih (h.invoke i)).trans (h.config_invoke i)

/-- **What a client has done with its transports**, and with the reads that they wrote down. -/
structure Custody (c : BlockingClient α) (attached : List Transport) : Prop where
  /-- It holds a transport exactly while its connection is open. -/
  held : c.attached ↔ c.connection.stage = .connected ∨ c.connection.stage = .subscribed
  /-- One transport came at most, and without one it holds none. -/
  once : attached.length ≤ 1 ∧ (attached = [] → c.attached = false)
  /-- The one that came was closed once if the connection has ended, and not before. -/
  closed : ∀ t ∈ attached,
    c.transport.closes = t.closes + if c.connection.stage = .closed then 1 else 0
  /-- Nothing is left over. -/
  buffer : c.buffer = []
  /-- Every read since it came had room, so that no bytes meant the end of the stream. -/
  room : ∃ issued, c.transport.issued = (attached.head?.getD {}).issued ++ issued ∧
    ∀ r ∈ issued, 0 < r.room ∧ (r.answer = .ok [] → r.AtEnd)

/-- **Whatever is called, in any configuration and over any transports**, a client takes care of them. -/
theorem custody_script (config : Config) (is : List (Invocation α)) :
    ((new config).script is).2.1.Custody ((new config).attachments is) := by
  have hstands : (new config : BlockingClient α).Standing := standing_new config
  have hafter := hstands.script is
  have hholds : ((new config).script is).2.1.Holds ((new config).attachments is) :=
    (holds_new config).script hstands is
  refine ⟨?_, ?_, fun t ht => ?_, hafter.buffer, ?_⟩
  · rw [hafter.attached, Connection.isOpen]
    cases ((new config).script is).2.1.connection.stage <;> decide
  · obtain ⟨hnone, ha⟩ | ⟨t, hone, -⟩ := hholds.hands
    · rw [hnone]
      exact ⟨Nat.zero_le _, fun _ => ha⟩
    · rw [hone]
      exact ⟨Nat.le_refl _, fun hn => by cases hn⟩
  · obtain ⟨hnone, -⟩ | ⟨t', hone, -, hkept⟩ := hholds.hands
    · rw [hnone] at ht
      cases ht
    · rw [hone] at ht
      rw [List.mem_singleton.mp ht]
      exact hkept
  · obtain ⟨issued, heq, hroom⟩ := hholds.used.issued
    have hpos : 0 < ((new config : BlockingClient α).script is).2.1.config.readBufferSize.toNat := by
      rw [hstands.config_script is]
      refine Nat.pos_of_ne_zero fun hzero => config.sanitized_readBufferSize_ne_zero ?_
      exact UInt64.toNat_inj.mp hzero
    refine ⟨issued, heq, fun r hr => ?_⟩
    have hfits : 0 < r.room := hroom r hr ▸ hpos
    exact ⟨hfits, Reading.atEnd_of_answer hfits⟩

end BlockingClient

end RespClient

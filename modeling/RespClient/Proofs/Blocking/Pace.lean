import RespClient.Proofs.Blocking.Script

/-!
# Proofs/Blocking/Pace — how a stream doles out its bytes does not show

    written in one go      write 14              read …
    doled out              write 5 · interrupted · write 1 · write 8 · interrupted · read …

Two transports that differ only in how much each write takes, and in interruptions, are *calm* alike
(`Transport.calm`).  A partial write and an interruption are steps that do not show: they leave the client
as it would be with all its outbound bytes taken (`flushed`, `step_unsettled`).  Every other step is a read
that counts, and it goes the same way on both sides (`step_settled`).  So courses agree (`course_alike`),
and with them calls and scripts (`KeepsPace.script`).
-/

namespace RespClient

namespace BlockingClient

variable {α : Type}

/-! ## Steps that do not show -/

/-- The client but for how its transport doles out bytes. -/
def calm (c : BlockingClient α) : BlockingClient α := { c with transport := c.transport.calm }

/-- **The client with its outbound bytes taken.** -/
def flushed (c : BlockingClient α) : BlockingClient α :=
  { c with
      connection := { c.connection with outbound := [] }
      transport := c.transport.flush c.connection.outbound }

/-- Whether the next step is a read that counts. -/
def Settled (c : BlockingClient α) : Prop := c.connection.outbound = [] ∧ c.transport.Quiet

/-- **A step that does not show**: some bytes are written, or there is an interruption. -/
theorem step_unsettled {c : BlockingClient α} (hs : c.transport.Steady) (ha : c.attached)
    (h : ¬ c.Settled) : ∃ d, c.step false = (.ok 0, d, []) ∧ d.flushed.calm = c.flushed.calm ∧
      d.transport.Steady := by
  rw [step, ha]
  simp only [Bool.false_eq_true, if_false, Bool.not_true]
  by_cases hout : c.connection.outbound = []
  · have hloud : ¬ c.transport.Quiet := fun hq => h ⟨hout, hq⟩
    obtain ⟨f, t, hr, hf, hcalm, hwrites, hpeer⟩ :=
      Transport.read_interrupted hloud c.config.readBufferSize.toNat
    refine ⟨{ c with transport := t }, ?_, ?_, ⟨hwrites ▸ hs.writes, hpeer ▸ hs.peer⟩⟩
    · rw [hout, List.isEmpty_nil, if_pos rfl, readOnce, hr]
      exact if_pos hf
    · rw [calm, calm, flushed, flushed, hout]
      exact congrArg (fun t => ({ c with
        connection := { c.connection with outbound := [] }, transport := t } : BlockingClient α)) hcalm
  · have hsome : c.connection.outbound.isEmpty = false := by rwa [List.isEmpty_eq_false_iff]
    have hflush (t : Transport) (out : Bytes)
        (hcalm : (t.flush out).calm = (c.transport.flush c.connection.outbound).calm) :
        ({ c with connection := { c.connection with outbound := out }, transport := t } :
          BlockingClient α).flushed.calm = c.flushed.calm := by
      rw [calm, calm, flushed, flushed]
      exact congrArg (fun t => ({ c with
        connection := { c.connection with outbound := [] }, transport := t } : BlockingClient α)) hcalm
    rw [hsome]
    simp only [Bool.false_eq_true, if_false]
    obtain ⟨n, t, hw, ht, hcalm⟩ | ⟨f, t, hw, hf, ht, hcalm⟩ := hs.write hout
    · exact ⟨_, by rw [writeOnce, hw]; rfl, hflush t _ hcalm, ht⟩
    · exact ⟨_, by rw [writeOnce, hw]; exact if_pos hf, hflush t _ hcalm, ht⟩

/-! ## Two clients at their own pace -/

/-- **Two clients differ only in how their transports dole out bytes.** -/
def KeepsPace (c d : BlockingClient α) : Prop :=
  ∃ u, d = { c with transport := u } ∧ c.transport.calm = u.calm ∧ c.transport.Steady ∧ u.Steady

/-- **Two calls come to the same.** -/
structure Alike {ρ : Type} (r s : ρ × BlockingClient α × Log α) : Prop where
  result : r.1 = s.1
  log : r.2.2 = s.2.2
  client : KeepsPace r.2.1 s.2.1

namespace KeepsPace

variable {c d : BlockingClient α}

theorem connection (h : KeepsPace c d) : d.connection = c.connection := by
  obtain ⟨u, rfl, -⟩ := h
  rfl

theorem attached (h : KeepsPace c d) : d.attached = c.attached := by
  obtain ⟨u, rfl, -⟩ := h
  rfl

theorem steady (h : KeepsPace c d) : c.transport.Steady ∧ d.transport.Steady := by
  obtain ⟨u, rfl, -, ht, hu⟩ := h
  exact ⟨ht, hu⟩

theorem calm (h : KeepsPace c d) : c.calm = d.calm := by
  obtain ⟨u, rfl, hcalm, -⟩ := h
  exact congrArg (fun t => ({ c with transport := t } : BlockingClient α)) hcalm

/-- What is done to the connection alone is done alike. -/
theorem turn (h : KeepsPace c d) (connection : Connection Nat α) :
    KeepsPace { c with connection } { d with connection } := by
  obtain ⟨u, rfl, hrest⟩ := h
  exact ⟨u, rfl, hrest⟩

theorem asked (h : KeepsPace c d) (connection : Connection Nat α) :
    KeepsPace { c with connection, nextCall := c.nextCall + 1 }
      { d with connection, nextCall := d.nextCall + 1 } := by
  obtain ⟨u, rfl, hrest⟩ := h
  exact ⟨u, rfl, hrest⟩

theorem detach (h : KeepsPace c d) : KeepsPace c.detach d.detach := by
  obtain ⟨u, rfl, hcalm, ht, hu⟩ := h
  rw [BlockingClient.detach, BlockingClient.detach]
  cases c.attached with
  | false => exact ⟨u, rfl, hcalm, ht, hu⟩
  | true =>
    refine ⟨u.close, rfl, ?_, ⟨ht.writes, ht.peer⟩, ⟨hu.writes, hu.peer⟩⟩
    exact congrArg (fun t => ({ t with closes := t.closes + 1 } : Transport)) hcalm

theorem fatal {τ : Type} (h : KeepsPace c d) (failure : Failure) :
    Alike (c.fatal failure : Done α τ) (d.fatal failure) := by
  rw [BlockingClient.fatal, BlockingClient.fatal, h.connection]
  exact ⟨rfl, rfl, (h.turn (c.connection.fail failure).1).detach⟩

theorem faulted {τ : Type} (h : KeepsPace c d) (fault : StreamFault) :
    Alike (c.faulted fault : Done α τ) (d.faulted fault) := by
  rw [BlockingClient.faulted, BlockingClient.faulted]
  split
  · exact ⟨rfl, rfl, h⟩
  · exact h.fatal _

/-- **A read that counts** goes the same way. -/
theorem readOnce (h : KeepsPace c d) (hc : c.transport.Quiet) (hd : d.transport.Quiet) :
    Alike c.readOnce d.readOnce := by
  obtain ⟨u, rfl, hcalm, ht, hu⟩ := h
  have hsteady := ht.read c.config.readBufferSize.toNat
  have hsteady' := hu.read c.config.readBufferSize.toNat
  obtain ⟨hresult, hcalm'⟩ := Transport.read_congr hcalm hc hd c.config.readBufferSize.toNat
  rw [BlockingClient.readOnce, BlockingClient.readOnce]
  rcases hr : c.transport.read c.config.readBufferSize.toNat with ⟨r, t'⟩
  rcases hr' : u.read c.config.readBufferSize.toNat with ⟨r', u'⟩
  rw [hr] at hsteady hresult hcalm'
  rw [hr'] at hsteady' hresult hcalm'
  obtain rfl : r = r' := hresult
  have hnext : KeepsPace { c with transport := t' } { c with transport := u' } :=
    ⟨u', rfl, hcalm', hsteady, hsteady'⟩
  rcases r with fault | _ | ⟨b, bytes⟩
  · dsimp only
    split
    · exact ⟨rfl, rfl, hnext⟩
    · exact hnext.faulted fault
  · exact hnext.fatal _
  · have hfed : KeepsPace
        { c with
          transport := t', connection := (c.connection.feed (c.buffer ++ b :: bytes)).turn.1,
          buffer := (c.connection.feed (c.buffer ++ b :: bytes)).rest }
        { c with
          transport := u', connection := (c.connection.feed (c.buffer ++ b :: bytes)).turn.1,
          buffer := (c.connection.feed (c.buffer ++ b :: bytes)).rest } :=
      ⟨u', rfl, hcalm', hsteady, hsteady'⟩
    dsimp only
    split
    · exact ⟨rfl, rfl, hfed⟩
    · exact ⟨rfl, rfl, hfed.detach⟩

end KeepsPace

/-! ## Courses agree -/

/-- **Two courses come to the same**, whatever steps they took. -/
structure Course.Alike (r s : Course α) : Prop where
  failure : r.failure? = s.failure?
  count : r.count = s.count
  log : r.log = s.log
  client : KeepsPace r.client s.client

/-- A step that succeeds leaves the transport where it is. -/
theorem attached_of_step {c d : BlockingClient α} {expired : Bool} {n : Nat} {log : Log α}
    (h : c.step expired = (.ok n, d, log)) : d.attached := by
  have hfault {t : Transport} {fault : StreamFault} (ha : c.attached)
      (h : (if fault.kind = .interrupted then (.ok 0, { c with transport := t }, [])
        else ({ c with transport := t }.faulted fault : Done α Nat)) = (.ok n, d, log)) : d.attached := by
    split at h
    · cases h
      exact ha
    · exact (faulted_not_ok h).elim
  rw [step] at h
  split at h
  · cases h
  · split at h
    · cases h
    · rename_i ha
      have ha : c.attached := by simpa using ha
      split at h
      · rw [readOnce] at h
        split at h
        · exact (fatal_not_ok h).elim
        · dsimp only at h
          split at h
          · cases h
            exact ha
          · cases h
        · exact hfault ha h
      · rw [writeOnce] at h
        split at h
        · exact (fatal_not_ok h).elim
        · cases h
          exact ha
        · exact hfault ha h

/-- What is not outbound is not taken away. -/
theorem with_outbound_nil {κ : Type} {c : Connection κ α} (h : c.outbound = []) :
    { c with outbound := [] } = c := by
  cases c
  cases h
  rfl

/-- Settled clients that agree once all is taken keep pace. -/
theorem keepsPace_of_settled {c d : BlockingClient α} (hc : c.Settled) (hd : d.Settled)
    (h : c.flushed.calm = d.flushed.calm) (hsc : c.transport.Steady) (hsd : d.transport.Steady) :
    KeepsPace c d := by
  obtain ⟨cn, t, a, b, cf, n⟩ := c
  obtain ⟨dn, u, a', b', df, m⟩ := d
  rw [flushed, flushed, hc.1, hd.1, with_outbound_nil hc.1, with_outbound_nil hd.1] at h
  obtain ⟨rfl, ht, rfl, rfl, rfl, rfl⟩ := BlockingClient.mk.inj h
  exact ⟨u, rfl, ht, hsc, hsd⟩

theorem KeepsPace.flushed {c d : BlockingClient α} (h : KeepsPace c d) :
    c.flushed.calm = d.flushed.calm := by
  obtain ⟨u, rfl, hcalm, -⟩ := h
  exact congrArg (fun t => ({ c with
    connection := { c.connection with outbound := [] }, transport := t } : BlockingClient α))
    (Transport.calm_flush hcalm c.connection.outbound)

theorem step_of_settled {c : BlockingClient α} (h : c.Settled) (ha : c.attached) :
    c.step false = c.readOnce := by
  rw [step, ha, h.1]
  rfl

/-- **A step that shows** goes the same way. -/
theorem step_settled {c d : BlockingClient α} (h : KeepsPace c d) (hc : c.Settled) (hd : d.Settled)
    (ha : c.attached) : Alike (c.step false) (d.step false) := by
  rw [step_of_settled hc ha, step_of_settled hd (h.attached.trans ha)]
  exact h.readOnce hc.2 hd.2

variable {enough : Log α → Bool}

/-- **Steps that do not show come to an end**: a course is that of a client that is settled. -/
theorem exists_settled (hnil : enough [] = false) {c : BlockingClient α} (hs : c.transport.Steady)
    (ha : c.attached) : ∃ (d : BlockingClient α) (t : Trail Nat α), d.Settled ∧
      d.flushed.calm = c.flushed.calm ∧ d.transport.Steady ∧
      c.course false enough = { d.course false enough with trail := t } := by
  induction c using course_induction false enough with
  | fails c failure d log hstep =>
    by_cases hc : c.Settled
    · exact ⟨c, _, hc, rfl, hs, rfl⟩
    · obtain ⟨e, hgoes, -⟩ := step_unsettled hs ha hc
      cases hstep.symm.trans hgoes
  | goesOn c n d log hstep ih =>
    by_cases hc : c.Settled
    · exact ⟨c, _, hc, rfl, hs, rfl⟩
    · obtain ⟨e, hgoes, hcalm, he⟩ := step_unsettled hs ha hc
      cases hstep.symm.trans hgoes
      obtain ⟨f, t, hf, hcalm', hsf, hcourse⟩ := ih hnil he (attached_of_step hgoes)
      refine ⟨f, (c.trail false).andThen t, hf, hcalm'.trans hcalm, hsf, ?_⟩
      rw [course_ok hgoes, hnil, if_neg Bool.false_ne_true, hcourse, Course.behind]
      simp only [Nat.zero_add, List.nil_append]

/-- **Courses agree**, once all that is outbound is taken. -/
theorem course_alike (hnil : enough [] = false) {c d : BlockingClient α} (ha : c.attached)
    (hsc : c.transport.Steady) (hsd : d.transport.Steady) (h : c.flushed.calm = d.flushed.calm) :
    (c.course false enough).Alike (d.course false enough) := by
  induction c using course_induction false enough generalizing d with
  | fails c failure c' log hstep =>
    have hc : c.Settled := by
      by_contra hc
      obtain ⟨e, hgoes, -⟩ := step_unsettled hsc ha hc
      cases hstep.symm.trans hgoes
    have hd : d.attached := (congrArg BlockingClient.attached h).symm.trans ha
    obtain ⟨e, t, he, hcalm, hse, hcourse⟩ := exists_settled hnil hsd hd
    have hsame := step_settled (keepsPace_of_settled hc he (h.trans hcalm.symm) hsc hse) hc he ha
    rcases hstep' : e.step false with ⟨r, e', log'⟩
    rw [hstep, hstep'] at hsame
    obtain rfl : .error failure = r := hsame.result
    rw [hcourse, course_error hstep, course_error hstep']
    exact ⟨rfl, rfl, hsame.log, hsame.client⟩
  | goesOn c n c' log hstep ih =>
    by_cases hc : c.Settled
    · have hd : d.attached := (congrArg BlockingClient.attached h).symm.trans ha
      obtain ⟨e, t, he, hcalm, hse, hcourse⟩ := exists_settled hnil hsd hd
      have hsame := step_settled (keepsPace_of_settled hc he (h.trans hcalm.symm) hsc hse) hc he ha
      rcases hstep' : e.step false with ⟨r, e', log'⟩
      rw [hstep, hstep'] at hsame
      obtain rfl : .ok n = r := hsame.result
      obtain rfl : log = log' := hsame.log
      rw [hcourse, course_ok hstep, course_ok hstep']
      cases hmore : enough log with
      | true => exact ⟨rfl, rfl, rfl, hsame.client⟩
      | false =>
        have hrest := ih hmore (attached_of_step hstep) hsame.client.steady.1 hsame.client.steady.2
          hsame.client.flushed
        rw [if_neg Bool.false_ne_true, if_neg Bool.false_ne_true]
        exact ⟨hrest.failure, congrArg (n + ·) hrest.count, congrArg (log ++ ·) hrest.log, hrest.client⟩
    · obtain ⟨e, hgoes, hcalm, he⟩ := step_unsettled hsc ha hc
      cases hstep.symm.trans hgoes
      have hrest := ih hnil (attached_of_step hgoes) he hsd (hcalm.trans h)
      rw [course_ok hgoes, hnil, if_neg Bool.false_ne_true]
      exact ⟨hrest.failure, (Nat.zero_add _).trans hrest.count, hrest.log, hrest.client⟩

/-! ## Calls agree -/

namespace KeepsPace

variable {c d : BlockingClient α}

theorem underway (h : KeepsPace c d) (hc : c.Underway) : d.Underway := by
  obtain ⟨u, rfl, -⟩ := h
  exact ⟨hc.attached, hc.begun, hc.buffer⟩

/-- **Courses from clients that keep pace** agree. -/
theorem course (h : KeepsPace c d) (enough : Log α → Bool) (hnil : enough [] = false) (expired : Bool) :
    (c.course expired enough).Alike (d.course expired enough) := by
  have hfails (failure : Failure) (hc : c.step expired = (.error failure, c, []))
      (hd : d.step expired = (.error failure, d, [])) :
      (c.course expired enough).Alike (d.course expired enough) := by
    rw [course_error hc, course_error hd]
    exact ⟨rfl, rfl, rfl, h⟩
  cases expired with
  | true => exact hfails _ rfl rfl
  | false =>
    cases ha : c.attached with
    | true => exact course_alike hnil ha h.steady.1 h.steady.2 h.flushed
    | false =>
      have hd := h.attached.trans ha
      exact hfails .connectionClosed (by rw [step, ha]; rfl) (by rw [step, hd]; rfl)

theorem config (h : KeepsPace c d) : d.config = c.config := by
  obtain ⟨u, rfl, -⟩ := h
  rfl

theorem nextCall (h : KeepsPace c d) : d.nextCall = c.nextCall := by
  obtain ⟨u, rfl, -⟩ := h
  rfl

theorem lateness (h : KeepsPace c d) (failure : Failure) : c.lateness failure = d.lateness failure := by
  obtain ⟨u, rfl, -⟩ := h
  rfl

theorem wait (h : KeepsPace c d) (hc : c.Underway) (call : Nat)
    (result? : Option (Except Failure Value)) : Alike (c.wait call result?) (d.wait call result?) := by
  cases result? with
  | some result =>
    rw [wait_some, wait_some]
    exact ⟨rfl, rfl, h⟩
  | none =>
    have hcourse := h.course (hasResult call) rfl (expires c.config.commandTimeout)
    rw [wait_none hc, wait_none (h.underway hc), h.config]
    dsimp only
    rw [← hcourse.failure, ← hcourse.log]
    cases (c.course (expires c.config.commandTimeout) (hasResult call)).failure? with
    | none => exact ⟨rfl, rfl, hcourse.client⟩
    | some failure => exact ⟨rfl, congrArg (_ ++ ·) (hcourse.client.lateness failure), hcourse.client⟩

/-- **A call that waits** comes to the same. -/
theorem await (h : KeepsPace c d) (hc : c.Underway) (op : Op Nat α) (ha : op.asks) :
    Alike (c.await (c.connection.perform op)) (d.await (d.connection.perform op)) := by
  have hasked := (hc.perform op ha (c.nextCall + 1)).underway
  have hwait := (h.asked (c.connection.perform op).1).wait hasked c.nextCall
    (resultOf c.nextCall (c.connection.perform op).2)
  rw [BlockingClient.await, BlockingClient.await, h.connection, h.nextCall]
  rw [h.nextCall] at hwait
  exact ⟨hwait.result, congrArg ((c.connection.perform op).2 ++ ·) hwait.log, hwait.client⟩

theorem subscribe (h : KeepsPace c d) (hc : c.Underway) (topic : Topic) (persistence : Persistence)
    (listener : α) :
    Alike (c.subscribe topic persistence listener) (d.subscribe topic persistence listener) := by
  have hawait := h.await hc (.register topic persistence listener c.nextCall) rfl
  rw [h.connection, Connection.perform] at hawait
  obtain ⟨u, rfl, hrest⟩ := h
  rw [BlockingClient.subscribe, BlockingClient.subscribe]
  dsimp only at hawait ⊢
  rcases hr : c.connection.register topic persistence listener (.handler c.nextCall) with
    ⟨failure | hd, turn⟩
  · exact ⟨rfl, rfl, u, rfl, hrest⟩
  · rw [hr] at hawait
    dsimp only at hawait ⊢
    rcases hw : c.await turn with ⟨r, c', log⟩
    rcases hw' : BlockingClient.await { c with transport := u } turn with ⟨r', d', log'⟩
    rw [hw, hw'] at hawait
    obtain rfl : r = r' := hawait.result
    obtain rfl : log = log' := hawait.log
    have hgone := hawait.client.turn (c'.connection.abandon hd)
    have hconnection : d'.connection = c'.connection := hawait.client.connection
    cases r with
    | ok ack => exact ⟨rfl, rfl, hawait.client⟩
    | error failure =>
      dsimp only
      rw [hconnection]
      exact ⟨rfl, rfl, hgone⟩

theorem readMessages (h : KeepsPace c d) (time : Duration) :
    Alike (c.readMessages time) (d.readMessages time) := by
  have hcourse := h.course (fun _ => false) rfl time.isZero
  rw [BlockingClient.readMessages, BlockingClient.readMessages, readUntil_eq, readUntil_eq]
  dsimp only
  rw [← hcourse.failure, ← hcourse.count]
  exact ⟨rfl, hcourse.log, hcourse.client⟩

theorem connectTo (h : KeepsPace c d) (hc : c.Underway) (network : Network) (endpoint : Endpoint) :
    Alike (c.connectTo network endpoint) (d.connectTo network endpoint) := by
  have hd := (h.underway hc).beginConnect
  rw [h.connection] at hd
  rw [BlockingClient.connectTo, BlockingClient.connectTo, hc.beginConnect, h.connection, hd]
  exact ⟨rfl, rfl, h.turn c.connection⟩

/-- **A call comes to the same.** -/
theorem invoke (h : KeepsPace c d) (hc : c.Underway) (i : Invocation α) :
    Alike (c.invoke i) (d.invoke i) := by
  have hd := (h.underway hc).beginConnect
  have hvalue (op : Op Nat α) (ha : op.asks) :
      Alike (Returned.value (c.await (c.connection.perform op)).1, (c.await (c.connection.perform op)).2)
        (Returned.value (d.await (d.connection.perform op)).1,
          (d.await (d.connection.perform op)).2) :=
    ⟨congrArg Returned.value (h.await hc op ha).result, (h.await hc op ha).log, (h.await hc op ha).client⟩
  cases i with
  | command command =>
    have hsame := hvalue (.submit command c.nextCall) rfl
    rw [BlockingClient.invoke, BlockingClient.invoke, BlockingClient.command, BlockingClient.command,
      h.nextCall]
    exact hsame
  | pipelined commands =>
    have hsame := hvalue (.submitBatch commands c.nextCall) rfl
    rw [BlockingClient.invoke, BlockingClient.invoke, BlockingClient.pipelined,
      BlockingClient.pipelined, h.nextCall]
    exact hsame
  | publish channel message =>
    have hsame := hvalue (.submit (.publish channel message) c.nextCall) rfl
    rw [BlockingClient.invoke, BlockingClient.invoke, BlockingClient.publish, BlockingClient.publish,
      BlockingClient.command, BlockingClient.command, h.nextCall]
    exact hsame
  | subscribe topic persistence listener =>
    have hsame := h.subscribe hc topic persistence listener
    exact ⟨congrArg Returned.handle hsame.result, hsame.log, hsame.client⟩
  | unsubscribe hd =>
    have hsame := hvalue (.unsubscribe hd c.nextCall) rfl
    rw [BlockingClient.invoke, BlockingClient.invoke, BlockingClient.unsubscribe,
      BlockingClient.unsubscribe, h.nextCall]
    exact hsame
  | readMessages time =>
    have hsame := h.readMessages time
    exact ⟨congrArg Returned.count hsame.result, hsame.log, hsame.client⟩
  | connectTo network endpoint =>
    have hsame := h.connectTo hc network endpoint
    exact ⟨congrArg Returned.unit hsame.result, hsame.log, hsame.client⟩
  | connect network =>
    rw [BlockingClient.invoke, BlockingClient.invoke, connect, connect, h.config]
    rcases Endpoint.parse c.config.endpoint with failure | endpoint
    · exact ⟨rfl, congrArg (fun x => [x.report failure]) h.connection.symm, h⟩
    · have hsame := h.connectTo hc network endpoint
      exact ⟨congrArg Returned.unit hsame.result, hsame.log, hsame.client⟩
  | connectOver transport =>
    rw [h.connection] at hd
    rw [BlockingClient.invoke, BlockingClient.invoke, connectOver, connectOver, hc.beginConnect,
      h.connection, hd]
    exact ⟨rfl, rfl, h.turn c.connection⟩
  | disconnect =>
    rw [BlockingClient.invoke, BlockingClient.invoke, disconnect, disconnect, h.connection]
    exact ⟨rfl, rfl, (h.turn c.connection.close.1).detach⟩
  | observe observer =>
    rw [BlockingClient.invoke, BlockingClient.invoke, observe, observe, h.connection]
    exact ⟨rfl, rfl, h.turn _⟩

/-- **A script comes to the same.** -/
theorem script (h : KeepsPace c d) (hc : c.Underway) (is : List (Invocation α)) :
    Alike (c.script is) (d.script is) := by
  induction is generalizing c d with
  | nil => exact ⟨rfl, rfl, h⟩
  | cons i is ih =>
    have hfirst := h.invoke hc i
    have hrest := ih hfirst.client (invoke_leads hc i).underway
    rw [BlockingClient.script, BlockingClient.script, hfirst.result, hfirst.log, hrest.result, hrest.log]
    exact ⟨rfl, rfl, hrest.client⟩

end KeepsPace

end BlockingClient

end RespClient

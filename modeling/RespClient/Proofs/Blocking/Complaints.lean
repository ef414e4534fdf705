import RespClient.Proofs.Blocking.Overdue

/-!
# Proofs/Blocking/Complaints — what the observer hears of a call that fails

    refused at once       ──▸  a report, and the failure
    a step that ends it   ──▸  a report, and the failure
    a missed deadline     ──▸  the failure, and a report behind the wait
    nothing to read from  ──▸  the failure alone

A call that fails has its failure **reported once**, to the observer of that moment, and nothing else is
but replies that nobody waited for (`complaints`).  Two failures are not reported: a subscription that the
server refuses, which is an answer, and a reading of messages where there is no transport
(`complains_iff`).

The report of a fatal failure is in the step that meets it (`heard_step`); that of a missed deadline comes
behind the last step of a wait (`voiced_wait`).  The observer is who it was all through the call.
-/

namespace RespClient

/-- What a call has to voice of its failure: a refusal of the server is an answer. -/
def toVoice (failure? : Option Failure) : Option Failure := failure?.filter fun f => !f.isRejection

/-- Where the server refused nothing, all of it is to be voiced. -/
theorem Voiced.whole {κ α : Type} {observer : Option String} {failure? : Option Failure}
    {log : List (Event κ α)} (h : Voiced observer failure? log) :
    Voiced observer (toVoice failure?) log := by
  have hsame : toVoice failure? = failure? := by
    cases failure? with
    | none => rfl
    | some failure =>
      rw [toVoice, Option.filter_some, h.accepted failure rfl]
      rfl
  exact hsame.symm ▸ h

namespace BlockingClient

variable {α : Type}

/-! ## Steps -/

/-- What is voiced in a step: a missed deadline is not, yet. -/
def atOnce (failure? : Option Failure) : Option Failure := failure?.filter fun f => !f.isTimeout

/-- **A step is heard**: its failure is voiced, and the observer stays. -/
structure Heard (c : BlockingClient α) (failure? : Option Failure) (d : BlockingClient α)
    (log : Log α) : Prop where
  voiced : Voiced c.connection.observer (atOnce failure?) log
  observer : d.connection.observer = c.connection.observer

/-- A fatal failure is voiced at once. -/
theorem atOnce_fatal {failure : Failure} (hf : failure.isFatal) :
    atOnce (some failure) = some failure := by
  rw [atOnce, Option.filter_some, (Failure.only_fatal hf).1]
  rfl

theorem heard_fatal {c : BlockingClient α} (hc : c.connection.stage ≠ .closed) (t : Transport)
    {failure : Failure} (hf : failure.isFatal) :
    let done : Done α Nat := { c with transport := t }.fatal failure
    c.Heard (failureOf done.1) done.2.1 done.2.2 := by
  refine ⟨?_, Connection.fail_observer c.connection failure⟩
  dsimp only [fatal, failureOf]
  rw [atOnce_fatal hf]
  exact Connection.voiced_fail hc hf

/-- A fault of the transport is passed over, or it is a missed deadline, or it is the end. -/
theorem heard_fault {c : BlockingClient α} (hc : c.connection.stage ≠ .closed) (t : Transport)
    (fault : StreamFault) :
    let done : Done α Nat := if fault.kind = .interrupted then (.ok 0, { c with transport := t }, [])
      else { c with transport := t }.faulted fault
    c.Heard (failureOf done.1) done.2.1 done.2.2 := by
  dsimp only
  split
  · exact ⟨voiced_nil, rfl⟩
  · rw [faulted]
    by_cases hlate : fault.isTimeout
    · rw [show Failure.ofFault fault .command = .timeout .command from if_pos hlate]
      exact ⟨voiced_nil, rfl⟩
    · rw [show Failure.ofFault fault .command = .stream fault from if_neg hlate]
      exact heard_fatal hc t rfl

theorem heard_readOnce {c : BlockingClient α} (hc : c.connection.stage ≠ .closed) :
    c.Heard (failureOf c.readOnce.1) c.readOnce.2.1 c.readOnce.2.2 := by
  rw [readOnce]
  split
  · exact heard_fatal hc _ rfl
  · rename_i bytes t _ _
    obtain ⟨hvoiced, hobserver, hfatal⟩ := Connection.voiced_feed hc (c.buffer ++ bytes)
    dsimp only
    cases hf : (c.connection.feed (c.buffer ++ bytes)).result with
    | ok n =>
      rw [hf] at hvoiced
      exact ⟨hvoiced, hobserver⟩
    | error failure =>
      rw [hf] at hvoiced
      refine ⟨?_, hobserver⟩
      dsimp only [failureOf] at hvoiced ⊢
      rw [atOnce_fatal (hfatal failure hf)]
      exact hvoiced
  · exact heard_fault hc _ _

theorem heard_writeOnce {c : BlockingClient α} (hc : c.connection.stage ≠ .closed) :
    c.Heard (failureOf c.writeOnce.1) c.writeOnce.2.1 c.writeOnce.2.2 := by
  rw [writeOnce]
  split
  · exact heard_fatal hc _ rfl
  · exact ⟨voiced_nil, rfl⟩
  · exact heard_fault hc _ _

/-- **Every step of an open client is heard.** -/
theorem heard_step {c : BlockingClient α} (h : c.Underway) (ho : c.connection.isOpen)
    (expired : Bool) :
    c.Heard (failureOf (c.step expired).1) (c.step expired).2.1 (c.step expired).2.2 := by
  have hc : c.connection.stage ≠ .closed := fun hn => Connection.not_isOpen_of_closed hn ho
  rw [step, h.attached, ho]
  cases expired with
  | true => exact ⟨voiced_nil, rfl⟩
  | false =>
    simp only [Bool.false_eq_true, if_false, Bool.not_true]
    split
    · exact heard_readOnce hc
    · exact heard_writeOnce hc

/-- **A course is heard**: its last step may fail, and no other does. -/
theorem heard_course {c : BlockingClient α} (h : c.Underway) (ho : c.connection.isOpen)
    (expired : Bool) (enough : Log α → Bool) :
    c.Heard (c.course expired enough).failure? (c.course expired enough).client
      (c.course expired enough).log := by
  induction c using course_induction expired enough with
  | fails c failure d log hs =>
    have hstep := heard_step h ho expired
    rw [hs] at hstep
    rw [course_error hs]
    exact hstep
  | goesOn c n d log hs ih =>
    have hstep := heard_step h ho expired
    have hunderway := (step_leads h expired).underway
    have hopen := ((candid_step h ho expired).ok n (by rw [hs])).1
    rw [hs] at hstep hunderway hopen
    rw [course_ok hs]
    cases he : enough log with
    | true => exact hstep
    | false =>
      obtain ⟨hvoiced, hobserver⟩ := ih he hunderway hopen
      rw [hstep.observer] at hvoiced
      exact ⟨hstep.voiced.append hvoiced, hobserver.trans hstep.observer⟩

/-! ## Calls on an open connection -/

/-- The report of a missed deadline makes up for what no step said. -/
theorem voiced_late {c d : BlockingClient α} {failure : Failure} {log : Log α}
    (h : c.Heard (some failure) d log) :
    Voiced c.connection.observer (some failure) (log ++ d.lateness failure) := by
  obtain ⟨hvoiced, hobserver⟩ := h
  rw [atOnce, Option.filter_some] at hvoiced
  rw [lateness]
  cases hlate : failure.isTimeout with
  | true =>
    rw [hlate] at hvoiced
    refine hvoiced.append ?_
    have hstray : failure.isStray = false := by cases failure <;> first | rfl | cases hlate
    exact hobserver ▸ Connection.voiced_report hstray (Failure.not_rejection_of_timeout hlate)
  | false =>
    rw [hlate] at hvoiced
    exact hvoiced.then voiced_nil

/-- **Waiting voices its failure**, be it a missed deadline. -/
theorem voiced_wait {c : BlockingClient α} (h : c.Underway) (ho : c.connection.isOpen) (call : Nat) :
    Voiced c.connection.observer (failureOf (c.wait call none).1) (c.wait call none).2.2 := by
  have hheard := heard_course h ho (expires c.config.commandTimeout) (hasResult call)
  have hcourse := course_candid h ho (expires c.config.commandTimeout) (hasResult call)
  rw [wait_none h]
  dsimp only
  cases hf : (c.course (expires c.config.commandTimeout) (hasResult call)).failure? with
  | some failure =>
    rw [hf] at hheard
    exact voiced_late hheard
  | none =>
    rw [hf] at hheard
    obtain ⟨hnobody, before, last, hlast, henough⟩ := hcourse.ok hf
    obtain hnone | ⟨v, hv⟩ := resultOf_of_fails call hnobody
    · rw [hlast, resultOf_append, Option.or_eq_none_iff] at hnone
      rw [hasResult, hnone.2] at henough
      cases henough
    · rw [hv]
      exact hheard.voiced

/-- A refused operation leaves its call nothing to wait for. -/
theorem log_await_denied {c : BlockingClient α} {op : Op Nat α} {failure : Failure}
    (hk : op.handler? = some c.nextCall) (h : c.connection.denial? op = some failure) :
    (c.await (c.connection.perform op)).2.2 = (c.connection.perform op).2 := by
  have hresult : resultOf c.nextCall (c.connection.perform op).2 = some (.error failure) := by
    rw [Connection.perform_denied h, hk, resultOf, Connection.report]
    simp
  rw [await, after, hresult, wait_some]
  exact List.append_nil _

/-- **A call that waits voices its failure**: that of its operation, or that of the wait. -/
theorem voiced_await {c : BlockingClient α} (h : c.Standing) (op : Op Nat α)
    (hk : op.handler? = some c.nextCall) :
    Voiced c.connection.observer (failureOf (c.await (c.connection.perform op)).1)
      (c.await (c.connection.perform op)).2.2 := by
  have hop : op.checked := by cases op <;> first | rfl | cases hk
  have hperform := Connection.voiced_perform c.connection op hop
  cases hd : c.connection.denial? op with
  | some failure =>
    rw [log_await_denied hk hd, (await_denied hk hd).1]
    rwa [hd] at hperform
  | none =>
    rw [hd] at hperform
    have ho : c.connection.isOpen := by
      by_contra hclosed
      obtain ⟨failure, hdenied⟩ := denied_of_not_isOpen hclosed hk
      cases hd.symm.trans hdenied
    have hunder := ((h.underway_of_isOpen ho).perform op (asks_of_checked hop)
      (c.nextCall + 1)).underway
    have hopen := (Connection.perform_stage c.connection (asks_of_checked hop)).1 ho
    rw [await, after]
    dsimp only
    cases hr : resultOf c.nextCall (c.connection.perform op).2 with
    | none =>
      have hwait := voiced_wait hunder hopen c.nextCall
      rw [Connection.perform_observer c.connection hop] at hwait
      exact hperform.append hwait
    | some result =>
      obtain ⟨k, v, hv⟩ := Connection.perform_granted hop hd _ (mem_of_resultOf hr)
      cases hv
      rw [wait_some]
      exact hperform.then voiced_nil

theorem voiced_subscribe {c : BlockingClient α} (h : c.Standing) (topic : Topic)
    (persistence : Persistence) (listener : α) :
    Voiced c.connection.observer (toVoice (failureOf (c.subscribe topic persistence listener).1))
      (c.subscribe topic persistence listener).2.2 := by
  by_cases ho : c.connection.isOpen
  · have hawait := voiced_await h (.register topic persistence listener c.nextCall) rfl
    rw [subscribe_eq ho]
    dsimp only
    rcases hr : (c.await (c.connection.perform
      (.register topic persistence listener c.nextCall))).1 with failure | ack
    · rw [hr] at hawait
      exact hawait.whole
    · rw [hr] at hawait
      obtain ⟨hack, -⟩ | ⟨reply, hack, -⟩ :=
        Connection.outcome_cases ⟨c.connection.nextHandle, topic⟩ ack
      all_goals
        dsimp only
        rw [hack]
        exact hawait
  · have hlog : (c.subscribe topic persistence listener).2.2
        = (c.connection.perform (.register topic persistence listener c.nextCall)).2 := by
      rw [subscribe, Connection.perform, Connection.register, Connection.closedTo?, if_neg ho]
    have hdenied : c.connection.denial? (.register topic persistence listener c.nextCall)
        = some (c.connection.notNow topic.kind.subscribe) := if_neg ho
    have hperform := Connection.voiced_perform c.connection
      (.register topic persistence listener c.nextCall) rfl
    rw [hdenied] at hperform
    rw [hlog, (subscribe_denied ho topic persistence listener).1]
    exact hperform.whole

/-- **Reading messages voices its failure**, if there is a transport. -/
theorem voiced_readMessages {c : BlockingClient α} (h : c.Underway) (ho : c.connection.isOpen)
    (time : Duration) :
    Voiced c.connection.observer (failureOf (c.readMessages time).1) (c.readMessages time).2.2 := by
  have hcourse := (heard_course h ho time.isZero fun _ => false).voiced
  rw [readMessages, readUntil_eq]
  dsimp only
  cases hf : (c.course time.isZero fun _ => false).failure? with
  | none =>
    rw [hf] at hcourse
    exact hcourse
  | some failure =>
    rw [hf, atOnce, Option.filter_some] at hcourse
    dsimp only
    cases hlate : failure.isTimeout with
    | true =>
      rw [hlate] at hcourse
      exact hcourse
    | false =>
      rw [hlate] at hcourse
      exact hcourse

/-! ## Connecting -/

/-- What keeps a stream from being opened is a missed deadline or a fault of the stream. -/
theorem openStream_failure {network : Network} {endpoint : Endpoint} {deadline : Option Duration}
    {failure : Failure} (h : openStream network endpoint deadline = .error failure) :
    failure.isStray = false ∧ failure.isRejection = false := by
  unfold openStream at h
  dsimp only at h
  split at h
  · cases h
    exact (Failure.ofFault_told _ .connect).2
  · cases h
    split
    · exact ⟨rfl, rfl⟩
    · exact (Failure.ofFault_told _ .connect).2
  · split at h
    · cases h
      exact ⟨rfl, rfl⟩
    · split at h <;> cases h
      exact ⟨rfl, rfl⟩
  · cases h
    exact ⟨rfl, rfl⟩
  · cases h
    exact ⟨rfl, rfl⟩
  · cases h

theorem parse_failure {text : String} {failure : Failure}
    (h : Endpoint.parse text = .error failure) : failure = .invalidAddress text := by
  unfold Endpoint.parse at h
  split at h
  · split at h <;> cases h
    rfl
  · split at h <;> cases h
    rfl

/-- An attempt that may not begin is voiced. -/
theorem voiced_beginConnect {c : Connection Nat α} (hs : c.stage ≠ .unconnected) :
    c.beginConnect = (.error (c.notNow "connect"), c, [c.report (c.notNow "connect")]) ∧
      Voiced c.observer (some (c.notNow "connect")) [c.report (c.notNow "connect")] := by
  refine ⟨?_, Connection.voiced_report rfl rfl⟩
  rw [Connection.beginConnect, if_neg hs]

theorem voiced_connectTo (c : BlockingClient α) (network : Network) (endpoint : Endpoint) :
    Voiced c.connection.observer (failureOf (c.connectTo network endpoint).1)
      (c.connectTo network endpoint).2.2 := by
  by_cases hs : c.connection.stage = .unconnected
  · rw [connectTo, Connection.beginConnect, if_pos hs]
    dsimp only
    cases hopen : openStream network endpoint c.config.connectTimeout with
    | ok transport => exact voiced_nil
    | error failure =>
      obtain ⟨hstray, hrejection⟩ := openStream_failure hopen
      exact Connection.voiced_report (c := c.connection) hstray hrejection
  · obtain ⟨hbegin, hvoiced⟩ := voiced_beginConnect hs
    rw [connectTo, hbegin]
    exact hvoiced

theorem voiced_connect (c : BlockingClient α) (network : Network) :
    Voiced c.connection.observer (failureOf (c.connect network).1) (c.connect network).2.2 := by
  rw [connect]
  cases hp : Endpoint.parse c.config.endpoint with
  | ok endpoint => exact voiced_connectTo c network endpoint
  | error failure =>
    cases parse_failure hp
    exact Connection.voiced_report rfl rfl

theorem voiced_connectOver (c : BlockingClient α) (transport : Transport) :
    Voiced c.connection.observer (failureOf (c.connectOver transport).1)
      (c.connectOver transport).2.2 := by
  by_cases hs : c.connection.stage = .unconnected
  · rw [connectOver, Connection.beginConnect, if_pos hs]
    exact voiced_nil
  · obtain ⟨hbegin, hvoiced⟩ := voiced_beginConnect hs
    rw [connectOver, hbegin]
    exact hvoiced

theorem voiced_disconnect (c : BlockingClient α) :
    Voiced c.connection.observer none c.disconnect.2 := by
  rw [disconnect]
  by_cases hc : c.connection.stage = .closed
  · rw [Connection.close, if_pos hc]
    exact voiced_nil
  · rw [Connection.close_eq hc]
    exact Connection.voiced_of_reports (Connection.reports_failAll _ _ _)

/-! ## Any call -/

/-- Whether the call reads messages. -/
def Invocation.reads : Invocation α → Bool
  | readMessages _ => true
  | _ => false

/-- **Every call voices its failure**, but for a reading of messages where there is no transport. -/
theorem voiced_invoke {c : BlockingClient α} (h : c.Standing) {i : Invocation α}
    (hi : i.reads → c.connection.isOpen) :
    Voiced c.connection.observer (toVoice (c.invoke i).1.failure?) (c.invoke i).2.2 := by
  cases i with
  | command command => exact (voiced_await h (.submit command c.nextCall) rfl).whole
  | pipelined commands => exact (voiced_await h (.submitBatch commands c.nextCall) rfl).whole
  | publish channel message =>
    exact (voiced_await h (.submit (.publish channel message) c.nextCall) rfl).whole
  | subscribe topic persistence listener => exact voiced_subscribe h topic persistence listener
  | unsubscribe hd => exact (voiced_await h (.unsubscribe hd c.nextCall) rfl).whole
  | readMessages time =>
    have ho := hi rfl
    exact (voiced_readMessages (h.underway_of_isOpen ho) ho time).whole
  | connectTo network endpoint => exact (voiced_connectTo c network endpoint).whole
  | connect network => exact (voiced_connect c network).whole
  | connectOver transport => exact (voiced_connectOver c transport).whole
  | disconnect => exact (voiced_disconnect c).whole
  | observe observer => exact voiced_nil

/-- **The call complains**: a failure that it returns, other than a refusal of the server, was reported to
the observer once. -/
def Complains (c : BlockingClient α) (i : Invocation α) : Prop :=
  ∀ failure, (c.invoke i).1.failure? = some failure → failure.isRejection = false →
    (reports (c.invoke i).2.2).count (c.connection.observer, failure) = 1

/-- A failure that was voiced was complained of. -/
theorem complains_of_voiced {c : BlockingClient α} {i : Invocation α}
    (h : Voiced c.connection.observer (toVoice (c.invoke i).1.failure?) (c.invoke i).2.2) :
    c.Complains i := by
  intro failure hf hr
  rw [hf, toVoice, Option.filter_some, hr] at h
  exact h.count

/-- Without a transport, a reading of messages that may take some time fails without a word. -/
theorem silent_readMessages {c : BlockingClient α} (ha : c.attached = false) {time : Duration}
    (ht : time.isZero = false) : ¬ c.Complains (.readMessages time) := by
  intro h
  have hfailure : (c.invoke (.readMessages time)).1.failure? = some .connectionClosed := by
    have hstep : c.step time.isZero = (.error .connectionClosed, c, []) := by
      rw [step, ht, ha]
      rfl
    rw [invoke, readMessages, readUntil_eq, course_error hstep]
    rfl
  have hcount := h _ hfailure rfl
  have hlog : (c.invoke (.readMessages time)).2.2 = [] :=
    congrArg Prod.snd (readMessages_detached ha time)
  rw [hlog] at hcount
  cases hcount

/-- **When a call complains of its failure**, whatever was called before: whenever the connection is open,
and where it is not, unless messages are to be read for some time.  But for stray replies, the reports of a
call are those of its failure. -/
theorem complains_iff (config : Config) (is : List (Invocation α)) (i : Invocation α) :
    let c := ((new config).script is).2.1
    (c.Complains i ↔ c.connection.isOpen ∨ ∀ time, i = .readMessages time → time.isZero) ∧
      complaints (c.invoke i).2.2 = if i.reads ∧ ¬ c.connection.isOpen then []
        else (toVoice (c.invoke i).1.failure?).toList.map (c.connection.observer, ·) := by
  intro c
  have hstands : c.Standing := standing_script config is
  by_cases hsilent : i.reads ∧ ¬ c.connection.isOpen
  · obtain ⟨hreads, hclosed⟩ := hsilent
    have ha : c.attached = false := hstands.attached.trans (Bool.eq_false_iff.mpr hclosed)
    rw [if_pos ⟨hreads, hclosed⟩]
    cases i with
    | readMessages time =>
      have hlog : (c.invoke (.readMessages time)).2.2 = [] :=
        congrArg Prod.snd (readMessages_detached ha time)
      refine ⟨⟨fun hcomplains => .inr fun time' he => ?_, fun hor => ?_⟩, ?_⟩
      · cases he
        by_contra ht
        exact silent_readMessages ha (Bool.eq_false_iff.mpr ht) hcomplains
      · have hzero := (hor.resolve_left hclosed) time rfl
        intro failure hf
        have hstep : c.step time.isZero = (.error (.timeout .command), c, []) := by
          rw [step, hzero]
          rfl
        rw [invoke, readMessages, readUntil_eq, course_error hstep] at hf
        cases hf
      · rw [hlog]
        rfl
    | _ => cases hreads
  · have hvoiced := voiced_invoke hstands fun hreads => by_contra fun hn => hsilent ⟨hreads, hn⟩
    rw [if_neg hsilent]
    refine ⟨iff_of_true (complains_of_voiced hvoiced) ?_, hvoiced.complaints⟩
    by_contra hnot
    obtain ⟨hclosed, hsome⟩ := not_or.mp hnot
    refine hsome fun time he => absurd ⟨?_, hclosed⟩ hsilent
    rw [he]
    rfl

/-- A client that was never connected has no messages to read, and its observer does not hear so. -/
theorem not_complains_unconnected :
    ¬ ((new {}).observe (some "observer") : BlockingClient Nat).Complains
      (.readMessages (.ofMillis 60000)) := silent_readMessages rfl rfl

end BlockingClient

end RespClient

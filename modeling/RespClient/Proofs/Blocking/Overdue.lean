import RespClient.Proofs.Blocking.Standing
import RespClient.Proofs.Connection.Stretch

/-!
# Proofs/Blocking/Overdue — what a call leaves behind

    queue     ├─ waited before ─┤─ the call's own ─┤─ on nobody's behalf ─┤
              └──── answered ────┘└──── still waits ─────────────────────┘

However a call ends, its result tells whether the connection is still open (`Connection.Verdict`).  A call
that missed its deadline has taken nothing back: what is gone from the queue was answered from the front
by replies that came in meanwhile, the last of the call's own commands still waits, and every byte of what
was asked for was written or is still to be written (`Ledger.Outstanding`).
-/

namespace RespClient.BlockingClient

variable {α : Type}

/-! ## Calls that talk to the server -/

/-- Whether the call talks to the server. -/
def Invocation.talks : Invocation α → Bool
  | command _ | pipelined _ | publish _ _ | subscribe _ _ _ | unsubscribe _ | readMessages _ => true
  | connectTo _ _ | connect _ | connectOver _ | disconnect | observe _ => false

/-- The operation that a call under this number begins with, if it asks for something. -/
def Invocation.op? (call : Nat) : Invocation α → Option (Op Nat α)
  | command cmd => some (.submit cmd call)
  | pipelined commands => some (.submitBatch commands call)
  | publish channel message => some (.submit (.publish channel message) call)
  | subscribe topic persistence listener => some (.register topic persistence listener call)
  | unsubscribe h => some (.unsubscribe h call)
  | _ => none

/-- The failure that a call returns, if it fails. -/
def Returned.failure? : Returned → Option Failure
  | value result => failureOf result
  | handle result => failureOf result
  | count result => failureOf result
  | unit result => failureOf result

/-! ## The verdict of a call -/

theorem readMessages_verdict {c : BlockingClient α} (h : c.Underway) (ho : c.connection.isOpen)
    (time : Duration) :
    (c.readMessages time).2.1.connection.Verdict (failureOf (c.readMessages time).1) := by
  have hcourse := (course_candid h ho time.isZero fun _ => false).verdict
  rw [readMessages, readUntil_eq]
  dsimp only
  cases hf : (c.course time.isZero fun _ => false).failure? with
  | none =>
    rw [hf] at hcourse
    exact hcourse
  | some failure =>
    rw [hf] at hcourse
    dsimp only
    by_cases hlate : failure.isTimeout
    · -- a missed deadline is the end of the time to read, and no failure
      have hfatal : (some failure).any Failure.isFatal = false := Failure.not_fatal_of_timeout hlate
      rw [if_pos hlate]
      exact Connection.verdict_open (hcourse.isOpen.mpr (Bool.eq_false_iff.mp hfatal)) rfl
    · rw [if_neg hlate]
      exact hcourse

theorem register_of_isOpen {c : Connection Nat α} (ho : c.isOpen) (topic : Topic)
    (persistence : Persistence) (listener : α) (k : Nat) :
    c.register topic persistence listener (.handler k)
      = (.ok ⟨c.nextHandle, topic⟩, c.perform (.register topic persistence listener k)) := by
  rw [Connection.perform, Connection.register, Connection.closedTo?, if_pos ho]

/-- **A subscription is asked for, and given up if it comes to nothing.** -/
theorem subscribe_eq {c : BlockingClient α} (ho : c.connection.isOpen) (topic : Topic)
    (persistence : Persistence) (listener : α) :
    c.subscribe topic persistence listener =
      let h : Handle := ⟨c.connection.nextHandle, topic⟩
      let done := c.await (c.connection.perform (.register topic persistence listener c.nextCall))
      match done.1 with
      | .ok ack => (Connection.outcome h ack, done.2)
      | .error failure => (.error failure,
        { done.2.1 with connection := done.2.1.connection.abandon h }, done.2.2) := by
  rw [subscribe, register_of_isOpen ho]
  dsimp only
  rcases c.await _ with ⟨failure | ack, d, log⟩ <;> rfl

theorem abandon_verdict {c : Connection Nat α} {failure? : Option Failure} (h : c.Verdict failure?)
    (hd : Handle) : (c.abandon hd).Verdict failure? := by
  obtain ⟨hopen, hclosed⟩ := Connection.perform_stage c (show (Op.abandon hd : Op Nat α).asks from rfl)
  by_cases hf : failure?.any Failure.isFatal
  · have hstage := hclosed.mpr (h.closed.mpr hf)
    exact ⟨iff_of_true hstage hf,
      iff_of_false (Connection.not_isOpen_of_closed hstage) (not_not_intro hf)⟩
  · exact Connection.verdict_open (hopen (h.isOpen.mpr hf)) (Bool.eq_false_iff.mpr hf)

theorem subscribe_verdict {c : BlockingClient α} (h : c.Underway) (ho : c.connection.isOpen)
    (topic : Topic) (persistence : Persistence) (listener : α) :
    (c.subscribe topic persistence listener).2.1.connection.Verdict
      (failureOf (c.subscribe topic persistence listener).1) := by
  have hawait := await_verdict h ho (.register topic persistence listener c.nextCall) rfl
  rw [subscribe_eq ho]
  dsimp only
  rcases hr : (c.await (c.connection.perform
    (.register topic persistence listener c.nextCall))).1 with failure | ack
  · rw [hr] at hawait
    exact abandon_verdict hawait _
  · rw [hr] at hawait
    have hopen := hawait.isOpen.mpr Bool.false_ne_true
    obtain ⟨hack, -⟩ | ⟨reply, hack, -⟩ := Connection.outcome_cases ⟨c.connection.nextHandle, topic⟩ ack
    all_goals
      dsimp only
      rw [hack]
      exact Connection.verdict_open hopen rfl

theorem verdict_of_talks {c : BlockingClient α} (h : c.Underway) (ho : c.connection.isOpen)
    {i : Invocation α} (hi : i.talks) : (c.invoke i).2.1.connection.Verdict (c.invoke i).1.failure? := by
  cases i with
  | command command => exact await_verdict h ho (.submit command c.nextCall) rfl
  | pipelined commands => exact await_verdict h ho (.submitBatch commands c.nextCall) rfl
  | publish channel message =>
    exact await_verdict h ho (.submit (.publish channel message) c.nextCall) rfl
  | subscribe topic persistence listener => exact subscribe_verdict h ho topic persistence listener
  | unsubscribe hd => exact await_verdict h ho (.unsubscribe hd c.nextCall) rfl
  | readMessages time => exact readMessages_verdict h ho time
  | _ => cases hi

/-! ## A missed deadline -/

theorem called_append (log more : Log α) : called (log ++ more) = called log ++ called more :=
  List.filterMap_append

theorem not_called_flatten {call : Nat} {logs : List (Log α)}
    (h : ∀ log ∈ logs, hasResult call log = false) : call ∉ called logs.flatten := by
  induction logs with
  | nil => exact List.not_mem_nil
  | cons log logs ih =>
    rw [List.forall_mem_cons] at h
    have hfirst : resultOf call log = none := Option.isNone_iff_eq_none.mp (by
      rw [← Option.not_isSome, ← hasResult, h.1]
      rfl)
    rw [List.flatten_cons, called_append, List.mem_append, not_or]
    exact ⟨resultOf_eq_none_iff.mp hfirst, ih h.2⟩

/-- **A call that missed its deadline** was not called with a result. -/
theorem not_called_of_late {c : BlockingClient α} (h : c.Underway) (ho : c.connection.isOpen)
    {op : Op Nat α} (hop : op.checked) {deadline : Deadline}
    (hlate : (c.await (c.connection.perform op)).1 = .error (.timeout deadline)) :
    c.nextCall ∉ called (c.await (c.connection.perform op)).2.2 := by
  have hfirst := (h.perform op (asks_of_checked hop) (c.nextCall + 1)).underway
  have hopen := (Connection.perform_stage c.connection (asks_of_checked hop)).1 ho
  rw [await, after] at hlate ⊢
  dsimp only at hlate ⊢
  generalize hd : ({ c with connection := (c.connection.perform op).1, nextCall := c.nextCall + 1 } :
    BlockingClient α) = d at hfirst hlate ⊢
  replace hopen : d.connection.isOpen := hd ▸ hopen
  cases hr : resultOf c.nextCall (c.connection.perform op).2 with
  | none =>
    rw [hr, wait_none hfirst] at hlate
    rw [wait_none hfirst]
    dsimp only at hlate ⊢
    have hcourse := course_candid hfirst hopen (expires d.config.commandTimeout) (hasResult c.nextCall)
    cases hf : (d.course (expires d.config.commandTimeout) (hasResult c.nextCall)).failure? with
    | some failure =>
      rw [hf] at hlate
      obtain rfl : failure = .timeout deadline := Except.error.inj hlate
      obtain ⟨logs, hlogs, hnone⟩ := hcourse.late _ hf rfl
      simp only [called_append, List.mem_append, not_or]
      refine ⟨resultOf_eq_none_iff.mp hr, hlogs ▸ not_called_flatten hnone, ?_⟩
      exact List.not_mem_nil
    | none =>
      rw [hf] at hlate
      obtain ⟨hnobody, before, last, hlast, henough⟩ := hcourse.ok hf
      obtain hnone | ⟨v, hv⟩ := resultOf_of_fails c.nextCall hnobody
      · rw [hlast, resultOf_append, Option.or_eq_none_iff] at hnone
        rw [hasResult, hnone.2] at henough
        cases henough
      · rw [hv] at hlate
        cases hlate
  | some result =>
    rw [hr, wait_some] at hlate
    obtain ⟨v, rfl⟩ | ⟨operation, rfl⟩ := Connection.result_at_once hop (mem_of_resultOf hr)
    · cases hlate
    · cases hlate

/-- **What a call leaves behind that missed its deadline.**  Its own commands and what waited before it
were answered from the front by values that came in meanwhile, the last of its own waits, and all bytes of
what was asked for are written or outbound; the transport has those that were written. -/
structure Overdue (c : BlockingClient α) (i : Invocation α) : Prop where
  asked : ∃ op, i.op? c.nextCall = some op ∧
    Ledger.Outstanding c.connection op ((Ledger.opened c.connection).run (c.invocationTrail i).ops)
  now : ((Ledger.opened c.connection).run (c.invocationTrail i).ops).now
    = (c.invoke i).2.1.connection
  replies : (((Ledger.opened c.connection).run (c.invocationTrail i).ops).answered.map
    Prod.snd).Sublist (Journal.run { now := c.connection } (c.invocationTrail i).ops).routed
  written : (c.invoke i).2.1.transport.taken = c.transport.taken
    ++ ((Ledger.opened c.connection).run (c.invocationTrail i).ops).drained

/-- **A call is overdue** that was led on without its result. -/
theorem Standing.overdue {c : BlockingClient α} (h : c.Standing) {i : Invocation α}
    (hleads : Leads c (c.invoke i).2.1 (c.invoke i).2.2 (c.invocationTrail i))
    (hopen : (c.invoke i).2.1.connection.isOpen) (op : Op Nat α) (hop : op.checked)
    (hi : i.op? c.nextCall = some op) (hk : op.handler? = some c.nextCall) {ops : List (Op Nat α)}
    (hops : (c.invocationTrail i).ops = op :: ops) (hquiet : ∀ op ∈ ops, op.handler? = none)
    (hcalled : c.nextCall ∉ called (c.invoke i).2.2) : c.Overdue i := by
  obtain ⟨before, hbefore⟩ := h.came
  have hrun := hleads.run
  have hstage : (c.invoke i).2.1.connection.stage ≠ .closed := fun hn =>
    Connection.not_isOpen_of_closed hn hopen
  have hout := Ledger.outstanding hbefore (asks_of_checked hop) ops hk hquiet
    (by rw [← hops, hrun]; exact hcalled) (by rw [← hops, hrun]; exact hstage)
  rw [← hops] at hout
  have hmatches := Journal.Matches.run (j := { now := c.connection })
    (l := Ledger.opened c.connection) ⟨rfl, rfl, rfl⟩ (c.invocationTrail i).ops
  refine ⟨⟨op, hi, hout⟩, ?_, ?_, ?_⟩
  · exact (Ledger.now_run _ _).trans (congrArg Prod.fst hrun)
  · exact Ledger.answers_run (l := Ledger.opened c.connection) (j := { now := c.connection }) rfl
      .slnil _
  · rw [hleads.crosses.taken, hmatches.drained, Journal.tape_run, ← hleads.tape]
    rfl

theorem overdue_await {c : BlockingClient α} (h : c.Standing) (ho : c.connection.isOpen)
    {i : Invocation α} (op : Op Nat α) (hop : op.checked) (hi : i.op? c.nextCall = some op)
    (hk : op.handler? = some c.nextCall) (htrail : c.invocationTrail i = c.awaitTrail op)
    (hdone : (c.invoke i).2 = (c.await (c.connection.perform op)).2) {deadline : Deadline}
    (hlate : (c.await (c.connection.perform op)).1 = .error (.timeout deadline)) : c.Overdue i := by
  have hunder := h.underway_of_isOpen ho
  have hverdict := await_verdict hunder ho op hop
  rw [hlate] at hverdict
  refine h.overdue (invoke_leads hunder i) ?_ op hop hi hk (congrArg Trail.ops htrail) (fun op' hop' => ?_) ?_
  · rw [hdone]
    exact hverdict.isOpen.mpr Bool.false_ne_true
  · exact Op.handler?_of_isPassive (passive_waitTrail _ _ _ op' hop')
  · rw [hdone]
    exact not_called_of_late hunder ho hop hlate

theorem trail_subscribe {c : BlockingClient α} (ho : c.connection.isOpen) (topic : Topic)
    (persistence : Persistence) (listener : α) :
    c.invocationTrail (.subscribe topic persistence listener) =
      let op : Op Nat α := .register topic persistence listener c.nextCall
      match (c.await (c.connection.perform op)).1 with
      | .ok _ => c.awaitTrail op
      | .error _ => (c.awaitTrail op).andThen ⟨[.abandon ⟨c.connection.nextHandle, topic⟩], []⟩ := by
  cases hr : (c.await (c.connection.perform
      (.register topic persistence listener c.nextCall))).1 with
  | ok ack => simp only [invocationTrail, register_of_isOpen ho, hr]
  | error failure => simp only [invocationTrail, register_of_isOpen ho, hr]

theorem overdue_subscribe {c : BlockingClient α} (h : c.Standing) (ho : c.connection.isOpen)
    {topic : Topic} {persistence : Persistence} {listener : α} {deadline : Deadline}
    (hlate : (c.subscribe topic persistence listener).1 = .error (.timeout deadline)) :
    c.Overdue (.subscribe topic persistence listener) := by
  have hunder := h.underway_of_isOpen ho
  have hverdict := subscribe_verdict hunder ho topic persistence listener
  rw [hlate] at hverdict
  have hopen := hverdict.isOpen.mpr Bool.false_ne_true
  have htrail := trail_subscribe ho topic persistence listener
  have hresult := subscribe_eq ho topic persistence listener
  dsimp only at htrail hresult
  cases hr : (c.await (c.connection.perform
      (.register topic persistence listener c.nextCall))).1 with
  | ok ack =>
    rw [hr] at hresult
    rw [hresult] at hlate
    obtain ⟨hack, -⟩ | ⟨reply, hack, -⟩ := Connection.outcome_cases ⟨c.connection.nextHandle, topic⟩ ack
    · cases hack.symm.trans hlate
    · cases hack.symm.trans hlate
  | error failure =>
    rw [hr] at hresult htrail
    rw [hresult] at hlate
    obtain rfl : failure = .timeout deadline := Except.error.inj hlate
    have hlog : (c.invoke (.subscribe topic persistence listener)).2.2
        = (c.await (c.connection.perform (.register topic persistence listener c.nextCall))).2.2 :=
      congrArg (fun done => done.2.2) hresult
    refine h.overdue (invoke_leads hunder _) hopen (.register topic persistence listener c.nextCall)
      rfl rfl rfl (congrArg Trail.ops htrail) (fun op hop => ?_) ?_
    · obtain hop | hop := List.mem_append.mp hop
      · exact Op.handler?_of_isPassive (passive_waitTrail _ _ _ op hop)
      · rw [List.mem_singleton.mp hop]
        rfl
    · rw [hlog]
      exact not_called_of_late hunder ho rfl hr

/-- **What is overdue after a call that returned so.** -/
theorem Standing.overdue_of_talks {c : BlockingClient α} (h : c.Standing) (ho : c.connection.isOpen)
    {i : Invocation α} (hi : i.talks) {deadline : Deadline}
    (hlate : (c.invoke i).1.failure? = some (.timeout deadline)) : c.Overdue i := by
  have hresult {τ : Type} {r : Except Failure τ} (hr : failureOf r = some (.timeout deadline)) :
      r = .error (.timeout deadline) := by
    cases r with
    | ok _ => cases hr
    | error failure => exact congrArg Except.error (Option.some.inj hr)
  cases i with
  | command command =>
    exact overdue_await h ho (.submit command c.nextCall) rfl rfl rfl rfl rfl (hresult hlate)
  | pipelined commands =>
    exact overdue_await h ho (.submitBatch commands c.nextCall) rfl rfl rfl rfl rfl
      (hresult hlate)
  | publish channel message =>
    exact overdue_await h ho (.submit (.publish channel message) c.nextCall) rfl rfl rfl rfl rfl
      (hresult hlate)
  | subscribe topic persistence listener => exact overdue_subscribe h ho (hresult hlate)
  | unsubscribe hd =>
    exact overdue_await h ho (.unsubscribe hd c.nextCall) rfl rfl rfl rfl rfl (hresult hlate)
  | readMessages time =>
    -- reading ends with its time, and that is no failure
    have hread := hresult hlate
    rw [readMessages, readUntil_eq] at hread
    dsimp only at hread
    cases hf : (c.course time.isZero fun _ => false).failure? with
    | none =>
      rw [hf] at hread
      cases hread
    | some failure =>
      rw [hf] at hread
      dsimp only at hread
      split at hread
      · cases hread
      · rename_i htime
        rw [Except.error.inj hread] at htime
        exact absurd rfl htime
  | _ => cases hi

/-! ## Any call of any client -/

/-- **The result of a call tells what became of the connection**, and a missed deadline takes nothing
back: for every client that calls lead to, with every transport. -/
theorem script_verdict (config : Config) (is : List (Invocation α)) (i : Invocation α) (hi : i.talks) :
    let c : BlockingClient α := ((new config).script is).2.1
    c.connection.isOpen →
      let done := c.invoke i
      done.2.1.connection.Verdict done.1.failure? ∧ done.2.1.attached = done.2.1.connection.isOpen ∧
        ∀ deadline, done.1.failure? = some (.timeout deadline) → c.Overdue i := by
  intro c ho done
  have hstands : c.Standing := standing_script config is
  refine ⟨verdict_of_talks (hstands.underway_of_isOpen ho) ho hi, (hstands.invoke i).attached, ?_⟩
  exact fun deadline hlate => hstands.overdue_of_talks ho hi hlate

/-- Half a reply comes, and then nothing in time. -/
def halting : Transport where
  reads := [.data (Utf8.encode "+o"), .fault ⟨.timedOut, none⟩]

/-- A client connected over it. -/
def halted : BlockingClient Nat := ((new {}).script [.connectOver halting]).2.1

theorem within_halted : ((halted.asking (.one getA)).courseWithin
    (expires halted.config.commandTimeout) (hasResult halted.nextCall) 4).isSome := by decide +kernel

theorem late_halted : (halted.invoke (.command getA)).1.failure? = some (.timeout .command) := by
  have hunder : halted.Underway := (standing_script {} _).underway_of_isOpen (by decide +kernel)
  have hasked : (halted.asking (.one getA)).Underway :=
    (hunder.perform (.submit getA halted.nextCall) rfl (halted.nextCall + 1)).underway
  have hr : resultOf halted.nextCall
      (halted.connection.submit getA (.handler halted.nextCall)).2 = none := by decide +kernel
  have hlate : (Option.get _ within_halted).failure? = some (.timeout .command) := by decide +kernel
  have hwait : (halted.invoke (.command getA)).1
      = .value ((halted.asking (.one getA)).wait halted.nextCall none).1 := by
    rw [invoke, command, await, after, hr]
    rfl
  rw [hwait, wait_none hasked]
  dsimp only
  rw [show (halted.asking (.one getA)).config = halted.config from rfl, course_of_within within_halted,
    hlate]
  rfl

theorem script_verdict_halted :
    (Invocation.command getA : Invocation Nat).talks ∧ halted.connection.isOpen ∧
      (halted.invoke (.command getA)).1.failure? = some (.timeout .command) ∧
      (halted.invoke (.command getA)).2.1.connection.Verdict (some (.timeout .command)) ∧
      halted.Overdue (.command getA) := by
  have hopen : halted.connection.isOpen := by decide +kernel
  obtain ⟨hverdict, -, hlate⟩ := script_verdict {} [.connectOver halting] (.command getA) rfl hopen
  have hfailure : (halted.invoke (.command getA)).1.failure? = some (.timeout .command) := late_halted
  exact ⟨rfl, hopen, late_halted, hfailure ▸ hverdict, hlate _ hfailure⟩

end RespClient.BlockingClient

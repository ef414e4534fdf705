import RespClient.Proofs.Blocking.Deadlines
import RespClient.Proofs.Connection.Voicing

/-!
# Proofs/Blocking/Verdict — what the result of a call says of its connection

    a value             ──▸  the connection is open
    a fatal failure     ──▸  it is closed
    any other failure   ──▸  it is open

Failures come from two sides.  A step that fails has missed a deadline, and then nothing happened, or the
connection ended with the failure (`Candid`).  The handler of a call gets a failure only with the end of
the connection, which is a step that fails too, or at once, and then the operation was refused and the
connection is what it was (`await_verdict`).
-/

namespace RespClient

namespace Connection

variable {κ α : Type}

/-! ## The verdict -/

/-- **What a result says of the connection**: a fatal failure that it is closed, anything else that it is
open. -/
structure Verdict (c : Connection κ α) (failure? : Option Failure) : Prop where
  closed : c.stage = .closed ↔ failure?.any Failure.isFatal
  isOpen : c.isOpen ↔ ¬ failure?.any Failure.isFatal

theorem verdict_open {c : Connection κ α} (hc : c.isOpen) {failure? : Option Failure}
    (hf : failure?.any Failure.isFatal = false) : c.Verdict failure? := by
  have hstage : c.stage ≠ .closed := fun hn => not_isOpen_of_closed hn hc
  rw [← Bool.not_eq_true] at hf
  exact ⟨iff_of_false hstage hf, iff_of_true hc hf⟩

theorem verdict_closed {c : Connection κ α} (hc : c.stage = .closed) {failure : Failure}
    (hf : failure.isFatal) : c.Verdict (some failure) :=
  ⟨iff_of_true hc hf, iff_of_false (not_isOpen_of_closed hc) (not_not_intro hf)⟩

/-- **A handler that is called at once** gets a value, or hears that this is not the time. -/
theorem result_at_once {c : Connection κ α} {op : Op κ α} (hop : op.checked) {k : κ}
    {result : Except Failure Value} (h : .replied k result ∈ (c.perform op).2) :
    (∃ v, result = .ok v) ∨ ∃ operation, result = .error (c.notNow operation) := by
  cases hd : c.denial? op with
  | none =>
    obtain ⟨k', v, hv⟩ := perform_granted hop hd _ h
    cases hv
    exact .inl ⟨v, rfl⟩
  | some failure =>
    obtain ⟨operation, rfl⟩ := exists_notNow hd
    rw [perform_denied hd] at h
    obtain hreport | hreply := List.mem_cons.mp h
    · cases hreport
    · obtain ⟨k', -, hk'⟩ := List.mem_map.mp hreply
      cases hk'
      exact .inr ⟨operation, rfl⟩

end Connection

namespace BlockingClient

variable {α : Type}

/-! ## One step -/

/-- **A step is candid**: where it succeeds the connection is open and nobody has failed; where it fails,
a deadline was missed and nothing has happened to the connection, or it has ended. -/
structure Candid (c : BlockingClient α) (done : Done α Nat) : Prop where
  ok : ∀ n, done.1 = .ok n → done.2.1.connection.isOpen ∧ ∀ e ∈ done.2.2, e.fails = false
  error : ∀ failure, done.1 = .error failure →
    failure.isTimeout ∧ done.2.1.connection = c.connection ∧ done.2.2 = [] ∨
      failure.isFatal ∧ done.2.1.connection.stage = .closed

/-- Nothing happens but to the transport. -/
theorem candid_idle {c : BlockingClient α} (ho : c.connection.isOpen) (t : Transport) (n : Nat) :
    c.Candid (.ok n, { c with transport := t }, []) :=
  ⟨fun _ _ => ⟨ho, List.forall_mem_nil _⟩, nofun⟩

theorem candid_fatal (c c' : BlockingClient α) {failure : Failure} (hf : failure.isFatal) :
    c.Candid (c'.fatal failure) := by
  refine ⟨nofun, fun failure' he => .inr ?_⟩
  obtain rfl : failure = failure' := Except.error.inj he
  exact ⟨hf, (Connection.ends_fail c'.connection failure).closed⟩

theorem candid_faulted (c : BlockingClient α) (t : Transport) (fault : StreamFault) :
    c.Candid ({ c with transport := t }.faulted fault) := by
  rw [faulted]
  by_cases hlate : (Failure.ofFault fault .command).isTimeout
  · rw [if_pos hlate]
    refine ⟨fun _ hok => (by cases hok), fun failure he => .inl ?_⟩
    obtain rfl := Except.error.inj he
    exact ⟨hlate, rfl, rfl⟩
  · rw [if_neg hlate]
    refine candid_fatal c _ ?_
    rw [Failure.ofFault] at hlate ⊢
    by_cases hf : fault.isTimeout
    · rw [if_pos hf] at hlate
      exact absurd rfl hlate
    · rw [if_neg hf]
      rfl

/-- A fault of the transport is passed over if it is an interruption. -/
theorem candid_fault {c : BlockingClient α} (ho : c.connection.isOpen) (t : Transport)
    (fault : StreamFault) :
    c.Candid (if fault.kind = .interrupted then (.ok 0, { c with transport := t }, [])
      else { c with transport := t }.faulted fault) := by
  split
  · exact candid_idle ho t 0
  · exact candid_faulted c t fault

theorem candid_writeOnce {c : BlockingClient α} (ho : c.connection.isOpen) :
    c.Candid c.writeOnce := by
  rw [writeOnce]
  split
  · exact candid_fatal c _ rfl
  · exact ⟨fun _ _ => ⟨ho, List.forall_mem_nil _⟩, fun _ he => by cases he⟩
  · exact candid_fault ho _ _

theorem candid_readOnce {c : BlockingClient α} (ho : c.connection.isOpen) : c.Candid c.readOnce := by
  have hstage : c.connection.stage ≠ .closed := fun hn => Connection.not_isOpen_of_closed hn ho
  rw [readOnce]
  split
  · exact candid_fatal c _ rfl
  · rename_i bytes t _ _
    have hresult := Connection.feed_result ho (c.buffer ++ bytes)
    dsimp only
    rcases hf : (c.connection.feed (c.buffer ++ bytes)).result with failure | n
    · rw [hf] at hresult
      refine ⟨fun _ hok => (by cases hok), fun failure' he => .inr ?_⟩
      obtain rfl : failure = failure' := Except.error.inj he
      refine ⟨?_, hresult⟩
      -- of an open connection, a feed fails for malformed bytes only
      cases hfault : c.connection.decoder.fault? (c.buffer ++ bytes) with
      | none => cases hf.symm.trans ((Connection.feed_eq hstage _).2 hfault)
      | some cause =>
        rw [Except.error.inj (hf.symm.trans ((Connection.feed_ends hstage _).2 cause hfault))]
        rfl
    · rw [hf] at hresult
      exact ⟨fun _ _ => ⟨hresult, Connection.feed_fails hstage hf⟩, fun _ he => by cases he⟩
  · exact candid_fault ho _ _

/-- **Every step of an open client is candid.** -/
theorem candid_step {c : BlockingClient α} (h : c.Underway) (ho : c.connection.isOpen)
    (expired : Bool) : c.Candid (c.step expired) := by
  rw [step, h.attached, ho]
  cases expired with
  | true =>
    refine ⟨fun _ hok => (by cases hok), fun failure he => .inl ?_⟩
    obtain rfl := Except.error.inj he
    exact ⟨rfl, rfl, rfl⟩
  | false =>
    simp only [Bool.false_eq_true, if_false, Bool.not_true]
    split
    · exact candid_readOnce ho
    · exact candid_writeOnce ho

/-! ## Steps one after another -/

variable {expired : Bool} {enough : Log α → Bool}

/-- **What a course says of the connection**, and whom it fails. -/
structure Course.Candid (enough : Log α → Bool) (r : Course α) : Prop where
  verdict : r.client.connection.Verdict r.failure?
  /-- Where no step failed there was enough at the end, and nobody has failed. -/
  ok : r.failure? = none → (∀ e ∈ r.log, e.fails = false) ∧
    ∃ before last, r.log = before ++ last ∧ enough last
  /-- A deadline is missed before there is enough. -/
  late : ∀ failure, r.failure? = some failure → failure.isTimeout →
    ∃ logs : List (Log α), r.log = logs.flatten ∧ ∀ log ∈ logs, enough log = false

theorem course_candid {c : BlockingClient α} (h : c.Underway) (ho : c.connection.isOpen)
    (expired : Bool) (enough : Log α → Bool) : (c.course expired enough).Candid enough := by
  induction c using course_induction expired enough with
  | fails c failure d log hs =>
    have hstep := (candid_step h ho expired).error failure (by rw [hs])
    rw [hs] at hstep
    rw [course_error hs]
    obtain ⟨hlate, hsame, hlog⟩ | ⟨hfatal, hclosed⟩ := hstep
    · dsimp only at hsame hlog
      refine ⟨Connection.verdict_open ?_ (Failure.not_fatal_of_timeout hlate), nofun,
        fun _ _ _ => ⟨[], hlog, nofun⟩⟩
      exact hsame ▸ ho
    · refine ⟨Connection.verdict_closed hclosed hfatal, nofun, fun failure' he hlate => ?_⟩
      obtain rfl : failure = failure' := Option.some.inj he
      cases (Failure.not_fatal_of_timeout hlate).symm.trans hfatal
  | goesOn c n d log hs ih =>
    obtain ⟨hopen, hnobody⟩ := (candid_step h ho expired).ok n (by rw [hs])
    have hunderway := (step_leads h expired).underway
    rw [hs] at hopen hnobody hunderway
    dsimp only at hopen hnobody
    rw [course_ok hs]
    cases he : enough log with
    | true =>
      exact ⟨Connection.verdict_open hopen rfl, fun _ => ⟨hnobody, [], log, rfl, he⟩, nofun⟩
    | false =>
      obtain ⟨hverdict, hok, hlate⟩ := ih he hunderway hopen
      refine ⟨hverdict, fun hnone => ?_, fun failure hfailure htime => ?_⟩
      · obtain ⟨hmore, before, last, hlast, henough⟩ := hok hnone
        exact ⟨List.forall_mem_append.mpr ⟨hnobody, hmore⟩, log ++ before, last,
          (congrArg (log ++ ·) hlast).trans (List.append_assoc _ _ _).symm, henough⟩
      · obtain ⟨logs, hlogs, hnone⟩ := hlate failure hfailure htime
        exact ⟨log :: logs, congrArg (log ++ ·) hlogs, List.forall_mem_cons.mpr ⟨he, hnone⟩⟩

/-- A call has no result as long as its handler is not called. -/
theorem resultOf_eq_none_iff {call : Nat} {log : Log α} :
    resultOf call log = none ↔ call ∉ called log := by
  constructor
  · intro h hmem
    obtain ⟨e, he, hcalled⟩ := List.mem_filterMap.mp hmem
    have hnone := List.findSome?_eq_none_iff.mp h e he
    cases e with
    | replied k result =>
      obtain rfl : k = call := Option.some.inj hcalled
      simp at hnone
    | _ => cases hcalled
  · intro h
    by_contra hsome
    obtain ⟨result, hresult⟩ := Option.ne_none_iff_exists'.mp hsome
    exact h (List.mem_filterMap.mpr ⟨_, mem_of_resultOf hresult, rfl⟩)

/-- A result that did not fail is a value. -/
theorem resultOf_of_fails (call : Nat) {log : Log α} (hlog : ∀ e ∈ log, e.fails = false) :
    resultOf call log = none ∨ ∃ v, resultOf call log = some (.ok v) := by
  cases hr : resultOf call log with
  | none => exact .inl rfl
  | some result =>
    have hmem := hlog _ (mem_of_resultOf hr)
    cases result with
    | error failure => cases hmem
    | ok v => exact .inr ⟨v, rfl⟩

/-- **What waiting says of the connection.** -/
theorem wait_verdict {c : BlockingClient α} (h : c.Underway) (ho : c.connection.isOpen) (call : Nat) :
    (c.wait call none).2.1.connection.Verdict (failureOf (c.wait call none).1) := by
  have hcourse := course_candid h ho (expires c.config.commandTimeout) (hasResult call)
  rw [wait_none h]
  dsimp only
  cases hf : (c.course (expires c.config.commandTimeout) (hasResult call)).failure? with
  | some failure =>
    have hverdict := hcourse.verdict
    rw [hf] at hverdict
    exact hverdict
  | none =>
    obtain ⟨hnobody, before, last, hlast, henough⟩ := hcourse.ok hf
    have hverdict := hcourse.verdict
    rw [hf] at hverdict
    obtain hnone | ⟨v, hv⟩ := resultOf_of_fails call hnobody
    · rw [hlast, resultOf_append, Option.or_eq_none_iff] at hnone
      rw [hasResult, hnone.2] at henough
      cases henough
    · rw [hv]
      exact hverdict

/-! ## Calls -/

theorem asks_of_checked {op : Op Nat α} (h : op.checked) : op.asks := by
  cases op <;> first | rfl | cases h

/-- **What a call that waits says of the connection.** -/
theorem await_verdict {c : BlockingClient α} (h : c.Underway) (ho : c.connection.isOpen)
    (op : Op Nat α) (hop : op.checked) :
    (c.await (c.connection.perform op)).2.1.connection.Verdict
      (failureOf (c.await (c.connection.perform op)).1) := by
  have hfirst := (h.perform op (asks_of_checked hop) (c.nextCall + 1)).underway
  have hopen := (Connection.perform_stage c.connection (asks_of_checked hop)).1 ho
  rw [await, after]
  dsimp only
  cases hr : resultOf c.nextCall (c.connection.perform op).2 with
  | none => exact wait_verdict hfirst hopen c.nextCall
  | some result =>
    rw [wait_some]
    refine Connection.verdict_open hopen ?_
    obtain ⟨v, rfl⟩ | ⟨operation, rfl⟩ := Connection.result_at_once hop (mem_of_resultOf hr)
    · rfl
    · rfl

end BlockingClient

end RespClient

import RespClient.Blocking.Calls
import RespClient.Proofs.Connection.Journal
import RespClient.Proofs.Stream.Calm

/-!
# Proofs/Blocking/Course — what a call does, step after step

    step        step        …      step
    written 7   feed "+P"          feed "ONG\r\n"      operations of the connection
    sent        received           received            what crosses the transport

A step of a blocking client is an operation of its connection or none (`trail`), and all that crosses the
transport is in it (`step_leads`): the tape of the trail is what the transport itself wrote down
(`Leads.crosses`).  A call steps until it has what it waits for or a step fails; both loops, `wait` and
`readUntil`, are one (`course`), so a course leads along its trail too (`course_leads`).
-/

namespace RespClient

namespace BlockingClient

variable {α : Type}

/-! ## The trail of a step -/

/-- A fault ends the connection, unless it is an interruption or a missed deadline. -/
def faultTrail (fault : StreamFault) : Trail Nat α :=
  if fault.kind = .interrupted ∨ (Failure.ofFault fault .command).isTimeout then {}
  else ⟨[.fail (.ofFault fault .command)], []⟩

def writeTrail (c : BlockingClient α) : Trail Nat α :=
  match (c.transport.write c.connection.outbound).1 with
  | .ok 0 => ⟨[.fail (.stream ⟨.writeZero, none⟩)], []⟩
  | .ok n => ⟨[.written n], [.sent (c.connection.outbound.take n)]⟩
  | .error fault => faultTrail fault

def readTrail (c : BlockingClient α) : Trail Nat α :=
  match (c.transport.read c.config.readBufferSize.toNat).1 with
  | .ok [] => ⟨[.fail .endOfStream], []⟩
  | .ok bytes => ⟨[.feed (c.buffer ++ bytes)], [.received bytes]⟩
  | .error fault => faultTrail fault

/-- **The trail of a step.** -/
def trail (c : BlockingClient α) (expired : Bool) : Trail Nat α :=
  if expired || !c.attached then {}
  else if c.connection.outbound.isEmpty then c.readTrail
  else c.writeTrail

/-- **A client that has begun**: its transport is there exactly while its connection is open, and nothing
that was read waits to be fed. -/
structure Underway (c : BlockingClient α) : Prop where
  attached : c.attached = c.connection.isOpen
  begun : c.connection.isOpen ∨ c.connection.stage = .closed
  buffer : c.buffer = []

/-- **One client leads to another** along a trail: its connection by the operations, with the events of
the log, and its transport by being used, so that it let the tape cross. -/
structure Leads (c d : BlockingClient α) (log : Log α) (t : Trail Nat α) : Prop where
  run : c.connection.run t.ops = (d.connection, log)
  tape : c.connection.tape t.ops = t.tape
  crosses : c.transport.Crosses c.config.readBufferSize.toNat t.tape d.transport
  underway : d.Underway
  config : d.config = c.config

/-- Nothing happens but to the transport. -/
theorem Underway.idle {c : BlockingClient α} (h : c.Underway) {t : Transport}
    (ht : c.transport.Crosses c.config.readBufferSize.toNat [] t) :
    Leads c { c with transport := t } [] {} :=
  ⟨rfl, rfl, ht, ⟨h.attached, h.begun, h.buffer⟩, rfl⟩

theorem Leads.trans {c d e : BlockingClient α} {log more : Log α} {s t : Trail Nat α}
    (h : Leads c d log s) (k : Leads d e more t) : Leads c e (log ++ more) (s.andThen t) := by
  have hrun : (c.connection.run s.ops).1 = d.connection := congrArg Prod.fst h.run
  refine ⟨?_, ?_, h.crosses.trans (h.config ▸ k.crosses), k.underway, k.config.trans h.config⟩
  · rw [Trail.andThen, Connection.run_append, hrun, k.run, h.run]
  · rw [Trail.andThen, Connection.tape_append, hrun, h.tape, k.tape]

/-- **An operation that crosses nothing** leaves the client underway, if it keeps the connection open. -/
theorem Underway.perform {c : BlockingClient α} (h : c.Underway) (op : Op Nat α) (ha : op.asks)
    (n : Nat) :
    Leads c { c with connection := (c.connection.perform op).1, nextCall := n }
      (c.connection.perform op).2 ⟨[op], []⟩ := by
  obtain ⟨hopen, hclosed⟩ := Connection.perform_stage c.connection ha
  refine ⟨?_, ?_, c.transport.crosses_nothing _, ⟨?_, ?_, h.buffer⟩, rfl⟩
  · rw [Connection.run_singleton]
  · cases op <;> first | rfl | cases ha
  · refine h.attached.trans ?_
    obtain ho | hc := h.begun
    · exact ho.trans (hopen ho).symm
    · rw [Bool.eq_false_iff.mpr (Connection.not_isOpen_of_closed hc),
        Bool.eq_false_iff.mpr (Connection.not_isOpen_of_closed (hclosed.mpr hc))]
  · exact h.begun.imp hopen hclosed.mpr

/-- **The end**: an operation closes the connection, and the transport goes. -/
theorem leads_ends {c : BlockingClient α} {t : Transport}
    (ht : c.transport.Crosses c.config.readBufferSize.toNat [] t)
    (op : Op Nat α) (hop : c.connection.transfers op = [])
    (hclosed : (c.connection.perform op).1.stage = .closed) :
    Leads c { c with connection := (c.connection.perform op).1, transport := t }.detach
      (c.connection.perform op).2 ⟨[op], []⟩ := by
  refine ⟨?_, ?_, ?_, ⟨?_, .inr hclosed, rfl⟩, rfl⟩
  · rw [Connection.run_singleton]
    rfl
  · rw [Connection.tape, hop]
    rfl
  · rw [detach]
    cases c.attached with
    | true => exact ht.close
    | false => exact ht
  · exact (Bool.eq_false_iff.mpr (Connection.not_isOpen_of_closed hclosed)).symm

theorem leads_fatal {c : BlockingClient α} {t : Transport}
    (ht : c.transport.Crosses c.config.readBufferSize.toNat [] t) (failure : Failure) :
    Leads c { c with connection := (c.connection.fail failure).1, transport := t }.detach
      (c.connection.fail failure).2 ⟨[.fail failure], []⟩ :=
  leads_ends ht (.fail failure) rfl (Connection.ends_fail c.connection failure).closed

theorem Underway.faulted {c : BlockingClient α} (h : c.Underway) {t : Transport}
    (ht : c.transport.Crosses c.config.readBufferSize.toNat [] t) {fault : StreamFault}
    (hf : fault.kind ≠ .interrupted) :
    let done : Done α Nat := { c with transport := t }.faulted fault
    Leads c done.2.1 done.2.2 (faultTrail fault) := by
  rw [BlockingClient.faulted, faultTrail]
  by_cases hlate : (Failure.ofFault fault .command).isTimeout
  · rw [if_pos hlate, if_pos (.inr hlate)]
    exact h.idle ht
  · rw [if_neg hlate, if_neg (not_or.mpr ⟨hf, hlate⟩)]
    exact leads_fatal ht _

theorem writeOnce_leads {c : BlockingClient α} (h : c.Underway) :
    Leads c c.writeOnce.2.1 c.writeOnce.2.2 c.writeTrail := by
  have ht := c.transport.crosses_write c.config.readBufferSize.toNat c.connection.outbound
  rcases hw : c.transport.write c.connection.outbound with ⟨fault | n, t⟩ <;>
    rw [hw] at ht <;> rw [writeOnce, writeTrail, hw]
  · dsimp only
    by_cases hi : fault.kind = .interrupted
    · rw [if_pos hi, faultTrail, if_pos (.inl hi)]
      exact h.idle ht
    · rw [if_neg hi]
      exact h.faulted ht hi
  · cases n with
    | zero => exact leads_fatal ht _
    | succ n => exact ⟨rfl, rfl, ht, ⟨h.attached, h.begun, h.buffer⟩, rfl⟩

theorem readOnce_leads {c : BlockingClient α} (h : c.Underway) (ha : c.attached) :
    Leads c c.readOnce.2.1 c.readOnce.2.2 c.readTrail := by
  have ht := c.transport.crosses_read c.config.readBufferSize.toNat
  rcases hr : c.transport.read c.config.readBufferSize.toNat with ⟨fault | bytes, t⟩ <;>
    rw [hr] at ht <;> rw [readOnce, readTrail, hr]
  · dsimp only
    by_cases hi : fault.kind = .interrupted
    · rw [if_pos hi, faultTrail, if_pos (.inl hi)]
      exact h.idle ht
    · rw [if_neg hi]
      exact h.faulted ht hi
  · cases bytes with
    | nil => exact leads_fatal ht _
    | cons b bytes =>
      have hopen : c.connection.isOpen := h.attached ▸ ha
      have hstage : c.connection.stage ≠ .closed := fun hn =>
        Connection.not_isOpen_of_closed hn hopen
      have hresult := Connection.feed_result hopen (c.buffer ++ b :: bytes)
      have hrest := (Connection.feed_ends hstage (c.buffer ++ b :: bytes)).1
      have hrun : c.connection.run [.feed (c.buffer ++ b :: bytes)]
          = (c.connection.feed (c.buffer ++ b :: bytes)).turn := Connection.run_singleton _ _
      have htape : c.connection.tape [.feed (c.buffer ++ b :: bytes)] = [.received (b :: bytes)] := by
        rw [h.buffer]
        rfl
      dsimp only
      rcases hf : (c.connection.feed (c.buffer ++ b :: bytes)).result with failure | n
      · rw [hf] at hresult
        refine ⟨hrun, htape, ?_, ⟨?_, .inr hresult, rfl⟩, rfl⟩
        · rw [detach, ha]
          exact ht.close
        · exact (Bool.eq_false_iff.mpr (Connection.not_isOpen_of_closed hresult)).symm
      · rw [hf] at hresult
        exact ⟨hrun, htape, ht, ⟨ha.trans hresult.symm, .inl hresult, hrest⟩, rfl⟩

/-- **A step leads along its trail.** -/
theorem step_leads {c : BlockingClient α} (h : c.Underway) (expired : Bool) :
    Leads c (c.step expired).2.1 (c.step expired).2.2 (c.trail expired) := by
  rw [step, trail]
  cases expired with
  | true => exact h.idle (c.transport.crosses_nothing _)
  | false =>
    cases ha : c.attached with
    | false => exact h.idle (c.transport.crosses_nothing _)
    | true =>
      simp only [Bool.false_eq_true, if_false, Bool.not_true, Bool.or_false]
      split
      · exact readOnce_leads h ha
      · exact writeOnce_leads h

/-! ## Steps one after another -/

/-- **What steps come to**: why they stopped, unless there was enough; how many values came; and the client
after them, with its log and its trail. -/
structure Course (α : Type) where
  failure? : Option Failure
  count : Nat
  client : BlockingClient α
  log : Log α
  trail : Trail Nat α

/-- The course goes on behind a step. -/
def Course.behind (n : Nat) (log : Log α) (t : Trail Nat α) (r : Course α) : Course α :=
  { r with count := n + r.count, log := log ++ r.log, trail := t.andThen r.trail }

/-- **Steps until there is enough** in the log of one, or one fails. -/
def course (c : BlockingClient α) (expired : Bool) (enough : Log α → Bool) : Course α :=
  match _h : c.step expired with
  | (.error failure, d, log) => ⟨some failure, 0, d, log, c.trail expired⟩
  | (.ok n, d, log) =>
    if enough log then ⟨none, n, d, log, c.trail expired⟩
    else (d.course expired enough).behind n log (c.trail expired)
termination_by c.effort
decreasing_by exact (step_headway _h).lex

variable {expired : Bool} {enough : Log α → Bool}

theorem course_error {c d : BlockingClient α} {failure : Failure} {log : Log α}
    (h : c.step expired = (.error failure, d, log)) :
    c.course expired enough = ⟨some failure, 0, d, log, c.trail expired⟩ := by
  rw [course]
  split
  · rename_i hs
    cases h.symm.trans hs
    rfl
  · rename_i hs
    cases h.symm.trans hs

theorem course_ok {c d : BlockingClient α} {n : Nat} {log : Log α}
    (h : c.step expired = (.ok n, d, log)) :
    c.course expired enough = if enough log then ⟨none, n, d, log, c.trail expired⟩
      else (d.course expired enough).behind n log (c.trail expired) := by
  rw [course]
  split
  · rename_i hs
    cases h.symm.trans hs
  · rename_i hs
    cases h.symm.trans hs
    rfl

/-- **Induction along a course**: a step that fails, one that is enough, and one that others follow. -/
theorem course_induction (expired : Bool) (enough : Log α → Bool) {P : BlockingClient α → Prop}
    (fails : ∀ c failure d log, c.step expired = (.error failure, d, log) → P c)
    (goesOn : ∀ c n d log, c.step expired = (.ok n, d, log) → (enough log = false → P d) → P c)
    (c : BlockingClient α) : P c := by
  induction c using WellFounded.induction
    (InvImage.wf effort (Prod.lex Nat.lt_wfRel (Prod.lex Nat.lt_wfRel Nat.lt_wfRel)).wf) with
  | h c ih =>
    rcases hs : c.step expired with ⟨failure | n, d, log⟩
    · exact fails c failure d log hs
    · exact goesOn c n d log hs fun _ => ih d (step_headway hs).lex

/-- **A course leads along its trail.** -/
theorem course_leads {c : BlockingClient α} (h : c.Underway) (expired : Bool) (enough : Log α → Bool) :
    Leads c (c.course expired enough).client (c.course expired enough).log
      (c.course expired enough).trail := by
  induction c using course_induction expired enough with
  | fails c failure d log hs =>
    have hstep := step_leads h expired
    rw [hs] at hstep
    rw [course_error hs]
    exact hstep
  | goesOn c n d log hs ih =>
    have hstep := step_leads h expired
    rw [hs] at hstep
    rw [course_ok hs]
    cases he : enough log with
    | true => exact hstep
    | false => exact hstep.trans (ih he hstep.underway)

/-! ## The two loops are courses -/

/-- Where a call's result is enough. -/
def hasResult (call : Nat) (log : Log α) : Bool := (resultOf call log).isSome

theorem resultOf_append (call : Nat) (log more : Log α) :
    resultOf call (log ++ more) = (resultOf call log).or (resultOf call more) :=
  List.findSome?_append

/-- The report of a missed deadline. -/
def lateness (c : BlockingClient α) (failure : Failure) : Log α :=
  if failure.isTimeout then [c.connection.report failure] else []

theorem wait_some (c : BlockingClient α) (call : Nat) (result : Except Failure Value) :
    c.wait call (some result) = (result, c, []) := by
  rw [wait]

/-- **Waiting is a course**: it ends with the call's result, or with the failure of a step, which is
reported if it is a missed deadline. -/
theorem wait_none {c : BlockingClient α} (h : c.Underway) (call : Nat) :
    c.wait call none =
      let r := c.course (expires c.config.commandTimeout) (hasResult call)
      match r.failure? with
      | some failure => (.error failure, r.client, r.log ++ r.client.lateness failure)
      | none => ((resultOf call r.log).getD (.error .connectionClosed), r.client, r.log) := by
  generalize he : expires c.config.commandTimeout = expired
  induction c using course_induction expired (hasResult call) with
  | fails c failure d log hs =>
    rw [wait, course_error hs]
    dsimp only
    split
    · rename_i hs'
      cases hs.symm.trans (he ▸ hs')
    · rename_i hs'
      cases hs.symm.trans (he ▸ hs')
      rw [lateness]
      split <;> simp
  | goesOn c n d log hs ih =>
    have hstep := step_leads h expired
    rw [hs] at hstep
    rw [wait, course_ok hs]
    dsimp only
    split
    · rename_i hs'
      cases hs.symm.trans (he ▸ hs')
      cases hr : resultOf call log with
      | some result =>
        rw [hasResult, hr, wait_some, after]
        simp [hr]
      | none =>
        have hmore := ih (by rw [hasResult, hr]; rfl) hstep.underway (hstep.config ▸ he)
        rw [hasResult, hr, hmore, after]
        simp only [Option.isSome_none, Bool.false_eq_true, if_false, Course.behind]
        cases (d.course expired (hasResult call)).failure? with
        | some failure => simp
        | none => simp [resultOf_append, hr]
    · rename_i hs'
      cases hs.symm.trans (he ▸ hs')

/-- **Reading messages is a course** that only a failure ends. -/
theorem readUntil_eq (c : BlockingClient α) (routed : Nat) :
    c.readUntil expired routed =
      let r := c.course expired fun _ => false
      (match r.failure? with
        | some failure => if failure.isTimeout then .ok (routed + r.count) else .error failure
        | none => .ok (routed + r.count), r.client, r.log) := by
  induction c using course_induction expired (fun _ => false)
    generalizing routed with
  | fails c failure d log hs =>
    rw [readUntil, course_error hs]
    split
    · rename_i hs'
      cases hs.symm.trans hs'
    · rename_i hs'
      cases hs.symm.trans hs'
      rfl
  | goesOn c n d log hs ih =>
    rw [readUntil, course_ok hs]
    split
    · rename_i hs'
      cases hs.symm.trans hs'
      rw [ih rfl, after]
      simp only [Bool.false_eq_true, if_false, Course.behind, Nat.add_assoc]
    · rename_i hs'
      cases hs.symm.trans hs'

end BlockingClient

end RespClient

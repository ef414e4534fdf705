import RespClient.Proofs.Connection.Voicing
import RespClient.Proofs.Shared.Chronicle

/-!
# Proofs/Shared/Closing — with which words a shared connection ends

    the stream answers        observer, and all that wait        the connection
    bytes, or room            —                                  goes on
    the end, or no room       that the stream failed             is closed
    malformed bytes           what is wrong with them            is closed
    a fault                   the fault                          is closed
    not in time               that a deadline was missed         is closed

Whatever ends a connection while its task reads or writes, the observer hears of it, and all that wait get the
same failure, in their order (`EndsWith`).  That failure is fatal, but for the last row: a task sets itself no
deadline, so to it a stream that is late is a stream at fault, and still the failure says that a deadline was
missed — after which a connection can be used.  This is the one end that is not told as what it is
(`ends_fatally_iff`).
-/

namespace RespClient

namespace Task

variable {α : Type} {t : Task α}

/-! ## What the stream answers -/

/-- **What a task goes to its stream for.** -/
inductive Errand
  | read
  | write

def goFor (t : Task α) : Errand → Step α
  | .read => t.read
  | .write => t.write

/-- The fault that the stream answers with, if it is at fault. -/
def fault? (t : Task α) : Errand → Option StreamFault
  | .read =>
    match (t.pipe.read t.window.ready.room).1 with
    | .ok _ => none
    | .error fault => some fault
  | .write =>
    match (t.pipe.write t.connection.outbound).1 with
    | .ok _ => none
    | .error fault => some fault

/-- **The failure with which the answer ends the connection**, if it does. -/
def ending? (t : Task α) : Errand → Option Failure
  | .read =>
    match (t.pipe.read t.window.ready.room).1 with
    | .ok [] => some .endOfStream
    | .ok bytes => (t.connection.decoder.fault? (t.buffer ++ bytes)).map .protocol
    | .error fault => some (.ofFault fault .command)
  | .write =>
    match (t.pipe.write t.connection.outbound).1 with
    | .ok 0 => some (.stream ⟨.writeZero, none⟩)
    | .ok _ => none
    | .error fault => some (.ofFault fault .command)

/-- Whether the stream only says that nothing came, or went, in time. -/
def isLate (t : Task α) (x : Errand) : Bool := (t.fault? x).any StreamFault.isTimeout

/-- **Every end is fatal but that of a stream that is late.** -/
theorem isFatal_ending {x : Errand} {failure : Failure} (h : t.ending? x = some failure) :
    failure.isFatal = !t.isLate x ∧ failure.isStray = false := by
  cases x with
  | read =>
    rw [ending?] at h
    rw [isLate, fault?]
    rcases hr : (t.pipe.read t.window.ready.room).1 with fault | bytes <;> rw [hr] at h
    · cases h
      obtain ⟨hfatal, hstray, -⟩ := Failure.ofFault_told fault .command
      exact ⟨hfatal, hstray⟩
    · cases bytes with
      | nil =>
        cases h
        exact ⟨rfl, rfl⟩
      | cons b bytes =>
        obtain ⟨cause, -, rfl⟩ := Option.map_eq_some_iff.mp h
        exact ⟨rfl, rfl⟩
  | write =>
    rw [ending?] at h
    rw [isLate, fault?]
    rcases hw : (t.pipe.write t.connection.outbound).1 with fault | n <;> rw [hw] at h
    · cases h
      obtain ⟨hfatal, hstray, -⟩ := Failure.ofFault_told fault .command
      exact ⟨hfatal, hstray⟩
    · cases n with
      | zero =>
        cases h
        exact ⟨rfl, rfl⟩
      | succ n => cases h

/-! ## How a step ends -/

/-- **A step ends the connection with a failure.**  A handler that breaks the task cuts short what is told. -/
structure EndsWith (t : Task α) (failure : Failure) (s : Step α) : Prop where
  lost : ¬ s.1.connection.isOpen
  told : ∃ routed waiting, called routed ++ waiting = t.connection.waiting ∧
    (∀ e ∈ routed, e.failure? = none) ∧
    events s.2 <+: routed ++ Connection.lastWords t.connection.observer waiting failure ∧
    (s.1.running →
      events s.2 = routed ++ Connection.lastWords t.connection.observer waiting failure)

/-- **A step lets the connection go on**, unless a handler breaks the task. -/
structure GoesOn (s : Step α) : Prop where
  isOpen : s.1.running → s.1.connection.isOpen
  told : ∀ e ∈ events s.2, e.failure? = none

section

variable {s : Step α} {op : Op Caller α} {tape : List Transfer}

/-- A step that leads along one operation ends as the operation does. -/
theorem Leads.endsWith (h : Leads t s.1 s.2 ⟨[op], tape⟩) {failure : Failure}
    (hends : t.connection.EndsWith failure (t.connection.perform op)) : t.EndsWith failure s := by
  obtain ⟨routed, waiting, hcalled, hrouted, hturn⟩ := hends.told
  have htold := h.told
  rw [Connection.run_singleton, hturn] at htold
  refine ⟨?_, routed, waiting, hcalled, hrouted, htold, fun hr => ?_⟩
  · cases hr : s.1.running with
    | false => exact h.lost hr
    | true =>
      have hrun := (h.goesOn hr).2
      rw [Connection.run_singleton] at hrun
      have hclosed := hends.closed
      rw [hrun] at hclosed
      exact Connection.not_isOpen_of_closed hclosed
  · have hrun := (h.goesOn hr).2
    rw [Connection.run_singleton] at hrun
    rw [← hturn, hrun]

/-- …and goes on as the operation does. -/
theorem Leads.lets (h : Leads t s.1 s.2 ⟨[op], tape⟩) (hopen : (t.connection.perform op).1.isOpen)
    (hsilent : ∀ e ∈ (t.connection.perform op).2, e.failure? = none) : GoesOn s := by
  have htold := h.told
  rw [Connection.run_singleton] at htold
  refine ⟨fun hr => ?_, fun e he => hsilent e (htold.subset he)⟩
  have hrun := (h.goesOn hr).2
  rw [Connection.run_singleton] at hrun
  rwa [hrun] at hopen

end

/-- **What the stream answers decides** how the step ends. -/
theorem AtWork.goFor (h : t.AtWork) (hacc : t.connection.Accounted) (ho : t.connection.isOpen)
    (x : Errand) :
    match t.ending? x with
    | none => GoesOn (t.goFor x)
    | some failure => t.EndsWith failure (t.goFor x) := by
  have hopen : t.connection.stage ≠ .closed := fun hn => Connection.not_isOpen_of_closed hn ho
  have hfail {s : Step α} {tape : List Transfer} (failure : Failure)
      (hleads : Leads t s.1 s.2 ⟨[.fail failure], tape⟩) : t.EndsWith failure s :=
    hleads.endsWith (hacc.endsWith_fail hopen failure)
  cases x with
  | read =>
    have hleads := h.read (h.attached.trans ho)
    rw [readTrail] at hleads
    rw [ending?]
    rcases hr : (t.pipe.read t.window.ready.room).1 with fault | bytes <;> rw [hr] at hleads
    · exact hfail _ hleads
    · cases bytes with
      | nil => exact hfail _ hleads
      | cons b bytes =>
        dsimp only at hleads ⊢
        cases hf : t.connection.decoder.fault? (t.buffer ++ b :: bytes) with
        | none =>
          obtain ⟨hstill, hsilent⟩ := Connection.feed_goesOn ho hf
          exact hleads.lets hstill hsilent
        | some cause => exact hleads.endsWith (hacc.endsWith_feed hopen hf)
  | write =>
    have hleads := h.write
    rw [writeTrail] at hleads
    rw [ending?]
    rcases hw : (t.pipe.write t.connection.outbound).1 with fault | n <;> rw [hw] at hleads
    · exact hfail _ hleads
    · cases n with
      | zero => exact hfail _ hleads
      | succ n => exact hleads.lets ho (List.forall_mem_nil _)

/-! ## A stream that is late -/

/-- **A step that ends the connection says so**: each failure that it brings is fatal. -/
def EndsFatally (s : Step α) : Prop :=
  ¬ s.1.connection.isOpen →
    ∀ e ∈ events s.2, ∀ failure, e.failure? = some failure → failure.isFatal

theorem GoesOn.endsFatally {s : Step α} (h : GoesOn s) : EndsFatally s := fun _ e he failure hf => by
  cases (h.told e he).symm.trans hf

theorem EndsWith.endsFatally {s : Step α} {failure : Failure} (h : t.EndsWith failure s)
    (hf : failure.isFatal) (hs : failure.isStray = false) : EndsFatally s := by
  obtain ⟨routed, waiting, -, hrouted, htold, -⟩ := h.told
  intro _ e he failure' hfailure'
  obtain hearly | hlast := List.mem_append.mp (htold.subset he)
  · cases (hrouted e hearly).symm.trans hfailure'
  · cases (Connection.failure?_of_mem_lastWords hs hlast).symm.trans hfailure'
    exact hf

/-- **The observer hears of a failure first**, before a handler can break the task. -/
theorem report_mem_fail (hc : t.connection.stage ≠ .closed) (failure : Failure) :
    t.connection.report failure ∈ events (publish (t.fail failure)).2 := by
  have hpublish (s : Step α) : (publish s).2 = s.2 := by
    rw [publish]
    split <;> rfl
  have htake : t.connection.report failure ∈ events (t.take (t.connection.fail failure)).2 := by
    have hsafe : breaks (t.connection.report failure) = false := rfl
    rw [Connection.fail_eq hc, take, upToBreak, hsafe, if_neg Bool.false_ne_true]
    rcases upToBreak _ with _ | told
    · rw [Option.map_none, events_happened]
      exact List.mem_cons_self
    · rw [Option.map_some, events_append, events_happened]
      exact List.mem_cons_self
  rw [hpublish, fail, andThen]
  split
  · rw [events_append]
    exact List.mem_append_left _ htake
  · exact htake

/-- **A stream that is late** is told as a missed deadline. -/
theorem goFor_late {x : Errand} (h : t.isLate x) :
    t.ending? x = some (.timeout .command) ∧ ∃ pipe window,
      t.goFor x = publish (({ t with pipe, window } : Task α).fail (.timeout .command)) := by
  have htimeout {fault : StreamFault} (hlate : fault.isTimeout) :
      Failure.ofFault fault .command = .timeout .command := if_pos hlate
  cases x with
  | read =>
    rw [isLate, fault?] at h
    rw [ending?, goFor, Task.read]
    rcases hr : t.pipe.read t.window.ready.room with ⟨fault | bytes, pipe⟩ <;> rw [hr] at h
    · dsimp only [received]
      rw [htimeout h]
      exact ⟨rfl, pipe, _, rfl⟩
    · cases h
  | write =>
    rw [isLate, fault?] at h
    rw [ending?, goFor, Task.write]
    rcases hw : t.pipe.write t.connection.outbound with ⟨fault | n, pipe⟩ <;> rw [hw] at h
    · dsimp only [wrote]
      rw [htimeout h]
      exact ⟨rfl, pipe, t.window, rfl⟩
    · cases h

end Task

namespace Chronicle

variable {α : Type}

/-- **With which failure a conversation ends.**  Wherever a task stands with its connection open, and whatever
its pipe answers when the task reads or writes: either the connection goes on, and nobody gets a failure; or it
is closed, and the observer and all that wait get the one failure of it.  That failure is fatal exactly where
the stream was not late. -/
theorem ends_fatally_iff (b : Beginning) (xs : List (Happening α)) (pipe : Pipe) (x : Task.Errand)
    (ho : ((begin b : Chronicle α).run xs).client.task.connection.isOpen) :
    let t : Task α := { ((begin b : Chronicle α).run xs).client.task with pipe }
    (Task.EndsFatally (t.goFor x) ↔ t.isLate x = false) ∧
      match t.ending? x with
      | none => Task.GoesOn (t.goFor x)
      | some failure => failure.isFatal = !t.isLate x ∧ t.EndsWith failure (t.goFor x) := by
  intro t
  have hwire : ((begin b : Chronicle α).run xs).OnWire := (onWire_begin b).run xs
  obtain ⟨hwork, hnow⟩ := hwire.atWork (hwire.running ho)
  have hw : t.AtWork := ⟨hwork.running, hwork.attached, hwork.settled, hwork.tidy, hwork.buffer⟩
  have hacc : t.connection.Accounted := by
    rw [journal, Journal.now_run] at hnow
    exact hnow ▸ Connection.accounted_new.run _
  have hends := hw.goFor hacc ho x
  cases hending : t.ending? x with
  | none =>
    rw [hending] at hends
    refine ⟨iff_of_true hends.endsFatally (Bool.eq_false_iff.mpr fun hlate => ?_), hends⟩
    cases hending.symm.trans (Task.goFor_late hlate).1
  | some failure =>
    rw [hending] at hends
    obtain ⟨hfatal, hstray⟩ := Task.isFatal_ending hending
    refine ⟨⟨fun hfatally => Bool.eq_false_iff.mpr fun hlate => ?_, fun hlate => ?_⟩, hfatal, hends⟩
    · -- the observer hears of a missed deadline, and the connection is closed
      obtain ⟨-, pipe', window, hstep⟩ := Task.goFor_late hlate
      have hopen : t.connection.stage ≠ .closed := fun hn => Connection.not_isOpen_of_closed hn ho
      have hreport :=
        Task.report_mem_fail (t := { t with pipe := pipe', window }) hopen (.timeout .command)
      have hmissed : (Failure.timeout .command).isFatal :=
        hfatally hends.lost _ (hstep ▸ hreport) _ rfl
      cases hmissed
    · exact hends.endsFatally (by rw [hfatal, hlate]; rfl) hstray

/-- A caller waits, and nothing of its command is written. -/
def unsent : List (Happening Nat) := [.call (.one (get 97)) 1, .move .request]

/-- A stream that is reset is told as what it is; one that takes no bytes in time is not. -/
theorem ends_fatally_unsent :
    let t := ((begin (.connected {} {} (.isolated []) .plain)).run unsent).client.task
    t.connection.isOpen ∧
      Task.EndsFatally ({ t with pipe := ⟨⟨[.fault ⟨.connectionReset, none⟩], [], {}, #[], 0⟩, .takes none⟩ } :
        Task Nat).read ∧
      ¬ Task.EndsFatally ({ t with pipe := ⟨{}, .fault ⟨.timedOut, none⟩⟩ } : Task Nat).write := by
  intro t
  have ho : t.connection.isOpen := by decide +kernel
  refine ⟨ho, (ends_fatally_iff _ unsent _ .read ho).1.mpr (by decide +kernel), ?_⟩
  exact mt (ends_fatally_iff _ unsent _ .write ho).1.mp (by decide +kernel)

/-- **A caller is told of a missed deadline while its connection is closed under it**, when a stream says that
nothing came in time. -/
theorem not_ends_fatally_late :
    let t := ((begin (.connected {} {} (.isolated []) .plain)).run
      (unsent ++ [.move .write, .arrive [.fault ⟨.timedOut, none⟩]])).client.task
    t.canRead ∧ t.read.1.connection.stage = .closed ∧
      .replied (.call 1) (.error (.timeout .command)) ∈ Task.events t.read.2 ∧
      ¬ Task.EndsFatally t.read := by
  intro t
  have hclosed : t.read.1.connection.stage = .closed := by decide +kernel
  have hevents : Task.events t.read.2 = Connection.lastWords none [.call 1] (.timeout .command) := rfl
  have hreplied : .replied (.call 1) (.error (.timeout .command)) ∈ Task.events t.read.2 :=
    hevents ▸ List.mem_cons_of_mem _ List.mem_cons_self
  refine ⟨by decide +kernel, hclosed, hreplied, fun hfatally => ?_⟩
  have hmissed : (Failure.timeout .command).isFatal :=
    hfatally (Connection.not_isOpen_of_closed hclosed) _ hreplied _ rfl
  cases hmissed

end Chronicle

end RespClient

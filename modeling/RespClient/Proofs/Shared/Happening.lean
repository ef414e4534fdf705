import RespClient.Proofs.Shared.Course
import RespClient.Proofs.Session.Solitary

/-!
# Proofs/Shared/Happening — what can happen to a client, one thing at a time

    callers     call · subscribe · giveUp · cancel · …     requests join the queue
    task        read · write · request · stop              the oldest request leaves it
    the world   arrive · gate · schedule · elapse · …      the pipe is ready, or it is not

Anything may happen at any time (`Happening`), but that the task reads and writes when its pipe is ready,
and comes to its end when nobody is left to ask it for anything (`allows`).

What the task does is a deed (`deed?`): it leads along a trail (`Deed.Of.leads`), and then callers hear of
it.  A call that hears of something asks for no more than its own end (`Modest`), and it gives its caller no
value but that of a reply (`value_concern?`).
-/

namespace RespClient

variable {α : Type}

/-! ## What can happen -/

/-- **What can happen to a client.** -/
inductive Happening (α : Type)
  /-- A caller begins a call for data. -/
  | call (data : DataCall) (id : Nat)
  | commandWith (handler : Nat) (faulty : Bool) (command : Command)
  | subscribe (id : Nat) (topic : Topic) (persistence : Persistence) (listener : α)
  | unsubscribe (id : Nat) (h : Handle)
  | connect (id : Nat)
  | connectTo (id : Nat) (endpoint : Endpoint)
  | waitFor (id : Nat) (target : Lifecycle)
  | disconnect
  | observe (observer : Option String)
  /-- The deadline of a call passes. -/
  | giveUp (id : Nat)
  /-- A caller drops its call. -/
  | cancel (id : Nat)
  | release
  | elapse (milliseconds : Nat)
  /-- There is more to be read. -/
  | arrive (reads : List Inbound)
  /-- The pipe takes bytes in another way from now on. -/
  | gate (g : Gate)
  /-- The peer's script grows. -/
  | schedule (more : List Exchange)
  /-- Streams are opened to other sites from now on. -/
  | reroute (network : Network)
  | move (m : SharedClient.Move)

namespace Happening

/-- The number of the call that begins. -/
def id? : Happening α → Option Nat
  | call _ id | subscribe id _ _ _ | unsubscribe id _ | connect id | connectTo id _ | waitFor id _ =>
    some id
  | _ => none

/-- Whether a listener is to be registered. -/
def registers : Happening α → Bool
  | subscribe .. => true
  | _ => false

/-- **The commands that are asked for**, and by whom. -/
def owned? : Happening α → Option (Caller × List Command)
  | call data id => some (.call id, data.commands)
  | commandWith handler faulty command => some (.callback handler faulty, [command])
  | subscribe id topic _ _ => some (.call id, [topic.subscribe])
  | unsubscribe id h => some (.call id, [h.topic.unsubscribe])
  | _ => none

/-- **Calls have numbers of their own.** -/
theorem eq_of_id? {xs : List (Happening α)} (h : (xs.filterMap id?).Nodup) {x y : Happening α}
    (hx : x ∈ xs) (hy : y ∈ xs) {n : Nat} (hxn : x.id? = some n) (hyn : y.id? = some n) : x = y := by
  induction xs with
  | nil => cases hx
  | cons z xs ih =>
    have hnew (w : Happening α) (hw : w ∈ xs) (hwn : w.id? = some n) : z.id? ≠ some n := by
      intro hz
      rw [List.filterMap_cons_some hz, List.nodup_cons] at h
      exact h.1 (List.mem_filterMap.mpr ⟨w, hw, hwn⟩)
    have hrest : (xs.filterMap id?).Nodup := by
      cases hz : z.id? with
      | none => rwa [List.filterMap_cons_none hz] at h
      | some m =>
        rw [List.filterMap_cons_some hz] at h
        exact h.of_cons
    obtain rfl | hxs := List.mem_cons.mp hx
    · obtain rfl | hys := List.mem_cons.mp hy
      · rfl
      · exact absurd hxn (hnew y hys hyn)
    · obtain rfl | hys := List.mem_cons.mp hy
      · exact absurd hyn (hnew x hxs hxn)
      · exact ih hrest hxs hys

end Happening

namespace SharedClient

/-- Whether a move can be made now. -/
def allows (c : SharedClient α) : Move → Bool
  | .callers | .rest => true
  | .read => c.task.running && c.task.canRead
  | .write => c.task.running && c.task.canWrite
  | .request => c.task.running
  | .stop => c.task.running && !c.held && c.calls.isEmpty && c.queue.isEmpty

/-- Something happens to the pipe. -/
def piping (c : SharedClient α) (f : Pipe → Pipe) : SharedClient α :=
  { c with task := { c.task with pipe := f c.task.pipe } }

/-- **Something happens.**  A move that cannot be made is none. -/
def happen (c : SharedClient α) : Happening α → Outcome α
  | .call (.one command) id => c.command id command
  | .call (.many commands) id => c.pipelined id commands
  | .commandWith handler faulty command => c.commandWith handler faulty command
  | .subscribe id topic persistence listener => c.subscribe id topic persistence listener
  | .unsubscribe id h => c.unsubscribe id h
  | .connect id => c.connect id
  | .connectTo id endpoint => c.connectTo id endpoint
  | .waitFor id target => c.waitFor id target
  | .disconnect => (c.disconnect, [])
  | .observe observer => (c.observe observer, [])
  | .giveUp id => c.reactOne id Waiting.expire
  | .cancel id => (c.cancel id, [])
  | .release => (c.release, [])
  | .elapse milliseconds => (c.elapse milliseconds, [])
  | .arrive reads => (c.piping fun p => { p with transport := p.transport.layOut reads [] }, [])
  | .gate g => (c.piping fun p => { p with gate := g }, [])
  | .schedule more => (c.piping fun p => { p with transport := p.transport.schedule more }, [])
  | .reroute network => ({ c with network }, [])
  | .move move => if c.allows move then c.make move else (c, [])

/-- **A client that settles** makes moves that can be made. -/
theorem allows_of_next? {c : SharedClient α} {m : Move} (h : c.next? = some m) : c.allows m := by
  rw [next?] at h
  split at h
  · cases h
    rfl
  · split at h
    · rename_i hw
      cases h
      rw [work?] at hw
      split at hw
      · cases hw
      · rename_i hr
        have hrunning : c.task.running = true := by simpa using hr
        split at hw
        · rename_i hread
          cases hw
          exact (Bool.and_eq_true _ _).mpr ⟨hrunning, hread⟩
        · split at hw
          · rename_i hwrite
            cases hw
            exact (Bool.and_eq_true _ _).mpr ⟨hrunning, hwrite⟩
          · split at hw
            · cases hw
              exact hrunning
            · rename_i hqueue
              split at hw
              · rename_i hidle
                cases hw
                obtain ⟨hheld, hcalls⟩ := (Bool.and_eq_true _ _).mp hidle
                have hempty : c.queue.isEmpty = true := by simpa using hqueue
                rw [allows, hrunning, hheld, hcalls, hempty]
                rfl
              · cases hw
    · split at h
      · cases h
      · cases h
        rfl

/-! ## What the task does -/

/-- **What a task does**, along which trail, and the request it takes for it. -/
structure Deed (α : Type) where
  step : Task.Step α
  trail : Trail Caller α
  taken : Option (Request α) := none

/-- **What the task does when something happens**, if it does anything. -/
def deed? (c : SharedClient α) : Happening α → Option (Deed α)
  | .move move =>
    if c.allows move then
      match move with
      | .read => some ⟨c.task.read, c.task.readTrail, none⟩
      | .write => some ⟨c.task.write, c.task.writeTrail, none⟩
      | .request => c.queue.head?.map fun request =>
        ⟨c.task.handle c.network request, ⟨c.task.serveOps c.network request, []⟩, some request⟩
      | .stop => some ⟨c.task.stop, ⟨[.close], []⟩, none⟩
      | .callers | .rest => none
    else none
  | _ => none

/-- **A deed is one of four.** -/
inductive Deed.Of (c : SharedClient α) : Deed α → Prop
  | read (h : c.task.canRead) : Of c ⟨c.task.read, c.task.readTrail, none⟩
  | write (h : c.task.canWrite) : Of c ⟨c.task.write, c.task.writeTrail, none⟩
  | request {request : Request α} {others : List (Request α)} (h : c.queue = request :: others) :
    Of c ⟨c.task.handle c.network request, ⟨c.task.serveOps c.network request, []⟩, some request⟩
  | stop : Of c ⟨c.task.stop, ⟨[.close], []⟩, none⟩

/-- **A deed**: the task runs, it does one of four things, and its callers hear of it. -/
theorem happen_deed {c : SharedClient α} {x : Happening α} {d : Deed α} (h : c.deed? x = some d) :
    (∃ m, x = .move m) ∧ c.task.running ∧ d.Of c ∧ ∃ queue, c.queue = d.taken.toList ++ queue ∧
      c.happen x = ({ c with task := d.step.1, queue, resting := false }).spread d.step.2 := by
  cases x with
  | move m =>
    refine ⟨⟨m, rfl⟩, ?_⟩
    unfold deed? at h
    dsimp only at h
    split at h
    · rename_i hm
      rw [happen, if_pos hm]
      cases m with
      | callers => cases h
      | rest => cases h
      | read =>
        cases h
        obtain ⟨hr, hc⟩ := (Bool.and_eq_true _ _).mp hm
        exact ⟨hr, .read hc, c.queue, rfl, rfl⟩
      | write =>
        cases h
        obtain ⟨hr, hc⟩ := (Bool.and_eq_true _ _).mp hm
        exact ⟨hr, .write hc, c.queue, rfl, rfl⟩
      | request =>
        dsimp only at h
        cases hq : c.queue with
        | nil => rw [hq] at h; cases h
        | cons request others =>
          rw [hq] at h
          cases h
          refine ⟨hm, .request hq, others, rfl, ?_⟩
          rw [make, serve, hq]
          rfl
      | stop =>
        cases h
        simp only [allows, Bool.and_eq_true] at hm
        exact ⟨hm.1.1.1, .stop, c.queue, rfl, rfl⟩
    · cases h
  | _ => cases h

/-- **The task is left alone.** -/
structure Rests (t t' : Task α) : Prop where
  running : t'.running = t.running
  connection : t'.connection = t.connection
  attached : t'.attached = t.attached
  buffer : t'.buffer = t.buffer
  taken : t'.pipe.transport.taken = t.pipe.transport.taken

theorem Rests.refl (t : Task α) : Rests t t := ⟨rfl, rfl, rfl, rfl, rfl⟩

theorem Rests.atWork {t t' : Task α} (h : Rests t t') (hw : t.AtWork) : t'.AtWork where
  running := h.running.trans hw.running
  attached := h.attached.trans (hw.attached.trans (h.connection ▸ rfl))
  settled := h.connection ▸ hw.settled
  tidy := h.connection ▸ hw.tidy
  buffer := h.buffer.trans hw.buffer

/-- **A deed leads along its trail.** -/
theorem Deed.Of.leads {c : SharedClient α} {d : Deed α} (h : d.Of c) (hw : c.task.AtWork) :
    Task.Leads c.task d.step.1 d.step.2 d.trail := by
  cases h with
  | read hr => exact hw.read ((Bool.and_eq_true _ _).mp hr).1
  | write _ => exact hw.write
  | request _ => exact hw.handle c.network _
  | stop => exact hw.stop

end SharedClient

/-! ## What calls do when they hear of something -/

/-- **What a call asks for on its way out.** -/
def Request.IsAside : Request α → Prop
  | .report failure => failure = .timeout .command
  | .abandon _ => True
  | _ => False

namespace Reaction

/-- Only what a call asks for on its way out is asked for. -/
def Modest (ρ : Reaction α) : Prop := ∀ r ∈ ρ.requests, r.IsAside

/-- No value is given to the caller. -/
def Valueless (ρ : Reaction α) : Prop := ∀ v, ρ.result? ≠ some (.ok (.value v))

theorem modest_waits (w : Waiting) : (waits w : Reaction α).Modest := nofun

theorem modest_ends (result : Except Failure Answer) : (ends result : Reaction α).Modest := nofun

theorem valueless_waits (w : Waiting) : (waits w : Reaction α).Valueless := nofun

theorem valueless_error (failure : Failure) (requests : List (Request α)) :
    (ends (.error failure) requests).Valueless := nofun

theorem valueless_done : (ends (.ok .done) : Reaction α).Valueless := nofun

end Reaction

namespace Waiting

open Reaction

variable (w : Waiting)

theorem modest_replied (result : Except Failure Value) : (w.replied result : Reaction α).Modest := by
  unfold replied
  split
  · exact modest_ends _
  · split
    · exact modest_ends _
    · exact List.forall_mem_singleton.mpr trivial
  · exact modest_waits _

theorem modest_registered (result : Except Failure Handle) (deadline : Option Nat) :
    (w.registered result deadline : Reaction α).Modest := by
  unfold registered
  split
  · split
    · exact modest_waits _
    · exact modest_ends _
  · exact modest_waits _

theorem valueless_registered (result : Except Failure Handle) (deadline : Option Nat) :
    (w.registered result deadline : Reaction α).Valueless := by
  unfold registered
  split
  · split
    · exact valueless_waits _
    · exact valueless_error _ _
  · exact valueless_waits _

theorem modest_opened (result : Except Failure Unit) : (w.opened result : Reaction α).Modest := by
  unfold opened
  split
  · exact modest_ends _
  · exact modest_waits _

theorem valueless_opened (result : Except Failure Unit) :
    (w.opened result : Reaction α).Valueless := by
  unfold opened
  split
  · cases result with
    | ok _ => exact valueless_done
    | error failure => exact valueless_error failure []
  · exact valueless_waits _

theorem modest_expire : (w.expire : Reaction α).Modest := by
  unfold expire
  split
  · exact List.forall_mem_singleton.mpr rfl
  · exact List.forall_mem_cons.mpr ⟨rfl, List.forall_mem_singleton.mpr trivial⟩
  · exact modest_waits _

theorem valueless_expire : (w.expire : Reaction α).Valueless := by
  unfold expire
  split
  · exact valueless_error _ _
  · exact valueless_error _ _
  · exact valueless_waits _

theorem modest_lose : (w.lose : Reaction α).Modest := by
  unfold lose
  split
  · exact modest_waits _
  · exact modest_ends _

theorem valueless_lose : (w.lose : Reaction α).Valueless := by
  unfold lose
  split
  · exact valueless_waits _
  · exact valueless_error _ _

theorem modest_see (published : Lifecycle) (last : Bool) :
    (w.see published last : Reaction α).Modest := by
  unfold see
  split
  · split
    · exact modest_ends _
    · split
      · exact modest_ends _
      · exact modest_waits _
  · exact modest_waits _

theorem valueless_see (published : Lifecycle) (last : Bool) :
    (w.see published last : Reaction α).Valueless := by
  unfold see
  split
  · split
    · exact valueless_done
    · split
      · exact valueless_error _ _
      · exact valueless_waits _
  · exact valueless_waits _

/-- **Only a reply gives a value.** -/
theorem result?_replied {result : Except Failure Value} {v : Value}
    (h : (w.replied result : Reaction α).result? = some (.ok (.value v))) : result = .ok v := by
  unfold replied at h
  split at h
  · cases result with
    | ok v' => cases h; rfl
    | error failure => cases h
  · split at h
    · rename_i ack
      rw [Connection.outcome] at h
      split at h <;> cases h
    · cases h
  · cases h

end Waiting

theorem Call.modest_look (call : Call) (clock : Nat) (published : Lifecycle) (last : Bool) :
    (call.look clock published last : Reaction α).Modest := by
  unfold look
  split
  · exact call.waiting.modest_expire
  · exact call.waiting.modest_see published last

theorem Call.valueless_look (call : Call) (clock : Nat) (published : Lifecycle) (last : Bool) :
    (call.look clock published last : Reaction α).Valueless := by
  unfold look
  split
  · exact call.waiting.valueless_expire
  · exact call.waiting.valueless_see published last

theorem Notice.modest_concern? {notice : Notice α} {deadline : Option Nat} {id : Nat}
    {f : Waiting → Reaction α} (h : notice.concern? deadline = some (id, f)) (w : Waiting) :
    (f w).Modest := by
  unfold concern? at h
  split at h <;> cases h
  · exact w.modest_replied _
  · exact w.modest_registered _ _
  · exact w.modest_opened _

/-- **Only a reply gives a caller a value**, and the value is the reply. -/
theorem Notice.value_concern? {notice : Notice α} {deadline : Option Nat} {id : Nat}
    {f : Waiting → Reaction α} (h : notice.concern? deadline = some (id, f)) {w : Waiting} {v : Value}
    (hv : (f w).result? = some (.ok (.value v))) :
    notice = .happened (.replied (.call id) (.ok v)) := by
  unfold concern? at h
  split at h <;> cases h
  · rw [w.result?_replied hv]
  · exact absurd hv (w.valueless_registered _ _ v)
  · exact absurd hv (w.valueless_opened _ v)

/-! ## Requests join the queue -/

/-- **A queue has grown** by what calls ask for on their way out. -/
def Aside (q q' : List (Request α)) : Prop := ∃ asides, (∀ r ∈ asides, r.IsAside) ∧ q' = q ++ asides

theorem Aside.refl (q : List (Request α)) : Aside q q := ⟨[], nofun, (List.append_nil _).symm⟩

theorem Aside.trans {q q' q'' : List (Request α)} (h : Aside q q') (h' : Aside q' q'') :
    Aside q q'' := by
  obtain ⟨asides, ha, rfl⟩ := h
  obtain ⟨more, hm, rfl⟩ := h'
  exact ⟨asides ++ more, List.forall_mem_append.mpr ⟨ha, hm⟩, List.append_assoc _ _ _⟩

namespace SharedClient

variable (c : SharedClient α)

theorem aside_react {f : Call → Reaction α} (h : ∀ call, (f call).Modest) :
    Aside c.queue (c.react f).1.queue := by
  refine ⟨c.calls.flatMap fun call => (f call).requests, fun r hr => ?_, ?_⟩
  · obtain ⟨call, -, hr⟩ := List.mem_flatMap.mp hr
    exact h call r hr
  · rw [react, enqueue_eq]

theorem aside_reactOne (id : Nat) {f : Waiting → Reaction α} (h : ∀ w, (f w).Modest) :
    Aside c.queue (c.reactOne id f).1.queue := by
  unfold reactOne
  split
  · exact .refl _
  · rename_i call younger _
    dsimp only
    split
    · exact .refl _
    · rename_i result requests hf
      have hmodest := h call.waiting
      rw [hf] at hmodest
      rw [enqueue_eq]
      exact ⟨requests, hmodest, rfl⟩

theorem aside_hear (notice : Notice α) : Aside c.queue (c.hear notice).1.queue := by
  unfold hear
  split
  · rename_i hc
    exact c.aside_reactOne _ (Notice.modest_concern? hc)
  · exact .refl _

theorem aside_spread (notices : List (Notice α)) : Aside c.queue (c.spread notices).1.queue := by
  induction notices generalizing c with
  | nil =>
    unfold spread
    split
    · exact .refl _
    · exact c.aside_react fun call => call.waiting.modest_lose
  | cons notice rest ih => exact (c.aside_hear notice).trans (ih _)

/-! ## Callers get values -/

/-- A caller gets a value from a call that reacts. -/
theorem ended_react {f : Call → Reaction α} (h : ∀ call, (f call).Valueless) {id : Nat} {v : Value} :
    .ended id (.ok (.value v)) ∉ (c.react f).2 := by
  intro hmem
  obtain ⟨call, -, hcall⟩ := List.mem_filterMap.mp hmem
  obtain ⟨result, hresult, heq⟩ := Option.map_eq_some_iff.mp hcall
  cases heq
  exact h call v hresult

theorem ended_reactOne {n id : Nat} {f : Waiting → Reaction α} {v : Value}
    (h : .ended id (.ok (.value v)) ∈ (c.reactOne n f).2) :
    id = n ∧ ∃ w, (f w).result? = some (.ok (.value v)) := by
  unfold reactOne at h
  split at h
  · cases h
  · rename_i call younger _
    dsimp only at h
    split at h
    · cases h
    · rename_i hf
      cases List.mem_singleton.mp h
      exact ⟨rfl, call.waiting, by rw [hf]; rfl⟩

theorem ended_hear {notice : Notice α} {id : Nat} {v : Value}
    (h : .ended id (.ok (.value v)) ∈ (c.hear notice).2) :
    notice = .happened (.replied (.call id) (.ok v)) := by
  unfold hear at h
  split at h
  · rename_i hc
    obtain ⟨rfl, w, hw⟩ := c.ended_reactOne h
    exact Notice.value_concern? hc hw
  · cases h

/-- **A caller gets a value** when the task tells of a reply to it. -/
theorem ended_spread {notices : List (Notice α)} {id : Nat} {v : Value}
    (h : .ended id (.ok (.value v)) ∈ (c.spread notices).2) :
    .replied (.call id) (.ok v) ∈ Task.events notices := by
  induction notices generalizing c with
  | nil =>
    unfold spread at h
    split at h
    · cases h
    · exact absurd h (c.ended_react fun call => call.waiting.valueless_lose)
  | cons notice rest ih =>
    have hrest : .replied (.call id) (.ok v) ∈ Task.events rest →
        .replied (.call id) (.ok v) ∈ Task.events (notice :: rest) := fun hmem =>
      Task.events_append [notice] rest ▸ List.mem_append_right _ hmem
    rw [spread, List.mem_append, List.mem_cons] at h
    obtain (h | h) | h := h
    · cases h
    · rw [c.ended_hear h]
      exact List.mem_cons_self
    · exact hrest (ih _ h)

end SharedClient

end RespClient

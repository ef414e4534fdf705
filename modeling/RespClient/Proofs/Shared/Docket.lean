import RespClient.Proofs.Shared.Chronicle

/-!
# Proofs/Shared/Docket — whom a task has answered

    taken       connect 1 · command 2 · batch 3 · unsubscribe 4
    answered    opened 1  · replied 2
    waiting                             3       · 4               owned by the queue

A task keeps no list of those it owes an answer, but there is one: every request that it has **taken** has
been answered, or its handler is owned by a command that waits (`Docketed`).  When the connection ends nothing
waits, so all of them have been.

What a task has done is a list of deeds, with the requests it took and the notices it gave (`deeds`).  While
the task is **whole** — it runs, or it came to its end — its connection is the one that the trail leads to,
and its notices tell all events of it (`Docket.act`); the rest is the account of the connection.  It breaks
only by a faulty handler (`Frail`), and without one it never does (`whole_act`).
-/

namespace RespClient

variable {α : Type}

/-! ## What is owed, and what is given -/

/-- The handler that a request brings to the connection, if it brings one. -/
def Request.caller? (r : Request α) : Option Caller := r.owned?.map Prod.fst

/-- **What a call is told apart from replies**: that a connection is there or is not, or its handle. -/
inductive Receipt
  | opened (call : Nat)
  | registered (call : Nat)
deriving DecidableEq

def Request.receipt? : Request α → Option Receipt
  | connect call _ => some (.opened call)
  | subscribe _ _ _ call => some (.registered call)
  | _ => none

def Notice.receipt? : Notice α → Option Receipt
  | opened call _ => some (.opened call)
  | registered call _ => some (.registered call)
  | _ => none

/-- **The receipts** among notices, in order. -/
def receipts (notices : List (Notice α)) : List Receipt := notices.filterMap Notice.receipt?

theorem receipts_append (ns ns' : List (Notice α)) :
    receipts (ns ++ ns') = receipts ns ++ receipts ns' := List.filterMap_append

theorem receipts_happened (es : List (Event Caller α)) :
    receipts (es.map Notice.happened) = [] := by
  rw [receipts, List.filterMap_map]
  exact List.filterMap_eq_nil_iff.mpr fun _ _ => rfl

theorem receipts_detach (t : Task α) : receipts t.detach.2 = [] := by
  rw [Task.detach]
  dsimp only
  split <;> rfl

/-- The handler of an operation is the one whose commands it brings. -/
theorem Op.owned?_map_fst {κ : Type} (op : Op κ α) : op.owned?.map Prod.fst = op.handler? := by
  cases op <;> rfl

namespace Task

/-! ## Steps that may break the task -/

/-- **A task is whole** as long as it runs, and when it has come to its end. -/
def Whole (t : Task α) : Prop := t.running ∨ t.connection.stage = .closed

/-- **A step that may break the task**: if the task runs on, it has given its receipts; if not, one of the
events broke it, and nothing is left. -/
structure Frail (es : List (Event Caller α)) (given : List Receipt) (s : Step α) : Prop where
  runs : s.1.running → receipts s.2 = given
  broken : s.1.running = false → (∃ e ∈ es, breaks e) ∧ s.1.connection.stage = .unconnected ∧
    s.1.attached = false ∧ s.1.buffer = []

variable {es : List (Event Caller α)} {given : List Receipt} {s : Step α}

theorem exists_breaks {es' : List (Event Caller α)} (h : upToBreak es = some es') :
    ∃ e ∈ es, breaks e := by
  induction es generalizing es' with
  | nil => cases h
  | cons e es ih =>
    rw [upToBreak] at h
    split at h
    · rename_i hbreaks
      exact ⟨e, List.mem_cons_self, hbreaks⟩
    · obtain ⟨es'', hes, -⟩ := Option.map_eq_some_iff.mp h
      obtain ⟨e', hmem, hbreaks⟩ := ih hes
      exact ⟨e', List.mem_cons_of_mem _ hmem, hbreaks⟩

/-- A step of a task that runs on breaks nothing. -/
theorem frail_still {t : Task α} (ht : t.running) (notices : List (Notice α)) :
    Frail es (receipts notices) (t, notices) :=
  ⟨fun _ => rfl, fun hr => by cases hr.symm.trans ht⟩

theorem frail_take {t : Task α} (ht : t.running) (turn : Turn Caller α) :
    Frail turn.2 [] (t.take turn) := by
  rw [take]
  cases hb : upToBreak turn.2 with
  | none => exact ⟨fun _ => receipts_happened _, fun hr => by cases hr.symm.trans ht⟩
  | some told => exact ⟨fun hr => (by cases hr), fun _ => ⟨exists_breaks hb, rfl, rfl, rfl⟩⟩

/-- What is done next breaks nothing more. -/
theorem Frail.andThen (h : Frail es [] s) {next : Task α → Step α}
    (hnext : ∀ t, t.running → (next t).1.running ∧ receipts (next t).2 = given) :
    Frail es given (andThen s next) := by
  rw [Task.andThen]
  split
  · rename_i hr
    obtain ⟨hruns, hgiven⟩ := hnext s.1 hr
    refine ⟨fun _ => ?_, fun hr' => by cases hr'.symm.trans hruns⟩
    rw [receipts_append, h.runs hr, hgiven]
    rfl
  · rename_i hr
    exact ⟨fun hr' => absurd hr' hr, h.broken⟩

theorem Frail.publish (h : Frail es given s) : Frail es given (publish s) := by
  rw [Task.publish]
  split
  · rename_i hr
    exact ⟨fun _ => h.runs hr, fun hr' => by cases hr'.symm.trans hr⟩
  · exact h

/-- A task that runs on has published where it stands. -/
theorem published_publish (hr : (publish s).1.running) :
    (publish s).1.published = (publish s).1.connection.stage := by
  rw [Task.publish] at hr ⊢
  split at hr
  · rename_i hs
    rw [if_pos hs]
  · rename_i hs
    exact absurd hr hs

theorem frail_detach {t : Task α} (ht : t.running) :
    t.detach.1.running ∧ receipts t.detach.2 = [] := ⟨ht, receipts_detach t⟩

theorem frail_fail {t : Task α} (ht : t.running) (failure : Failure) :
    Frail (t.connection.fail failure).2 [] (t.fail failure) :=
  (frail_take ht _).andThen fun _ => frail_detach

theorem frail_shutDown {t : Task α} (ht : t.running) :
    Frail t.connection.close.2 [] t.shutDown := by
  refine (frail_take ht _).andThen fun v hv => ⟨hv, ?_⟩
  dsimp only
  split
  · exact receipts_detach v
  · exact receipts_detach v

/-- Connecting calls no handler, so it breaks nothing. -/
theorem frail_connect {t : Task α} (ht : t.running) (network : Network) (call : Nat)
    (endpoint : Endpoint) : Frail es [.opened call] (t.connect network call endpoint) := by
  have hsay {turn : Turn Caller α} (hturn : upToBreak turn.2 = none) (result : Except Failure Unit) :
      Frail es [.opened call] (say (t.take turn) (.opened call result)) := by
    rw [take_whole hturn, say, andThen, if_pos ht]
    refine ⟨fun _ => ?_, fun hr => by cases hr.symm.trans ht⟩
    rw [receipts_append, receipts_happened]
    rfl
  rw [connect, Connection.beginConnect]
  split
  · rename_i hbegin
    split at hbegin
    · cases hbegin
    · cases hbegin
      exact hsay rfl _
  · split
    · exact ⟨fun _ => rfl, fun hr => by cases hr.symm.trans ht⟩
    · exact hsay rfl _

/-- **A request** breaks the task by a handler that is called for it, and gives its receipt. -/
theorem frail_serve {t : Task α} (ht : t.running) (network : Network) (request : Request α) :
    Frail (t.connection.run (t.serveOps network request)).2 request.receipt?.toList
      (t.serve network request) := by
  have htake (op : Op Caller α) :
      Frail (t.connection.run [op]).2 [] (t.take (t.connection.perform op)) := by
    rw [Connection.run_singleton]
    exact frail_take ht _
  cases request with
  | connect call endpoint => exact frail_connect ht network call endpoint
  | command command caller => exact htake (.submit command caller)
  | batch commands caller => exact htake (.submitBatch commands caller)
  | subscribe topic persistence listener call =>
    have hsaid (result : Except Failure Handle) :
        Frail (t.connection.run [.register topic persistence listener (.call call)]).2
          [.registered call]
          (say (t.take (t.connection.perform (.register topic persistence listener (.call call))))
            (.registered call result)) :=
      (htake _).andThen fun v hv => ⟨hv, rfl⟩
    exact hsaid _
  | unsubscribe hd caller => exact htake (.unsubscribe hd caller)
  | abandon hd => exact frail_still (t := { t with connection := t.connection.abandon hd }) ht []
  | report failure =>
    rw [serve, take_whole rfl]
    exact frail_still (t := { t with connection := t.connection }) ht [.happened _]
  | observe observer =>
    exact frail_still (t := { t with connection := { t.connection with observer } }) ht []
  | disconnect =>
    rw [serveOps, Connection.run_singleton]
    exact frail_shutDown ht

theorem frail_write {t : Task α} (ht : t.running) :
    Frail (t.connection.run t.writeTrail.ops).2 [] t.write := by
  have hfail (pipe : Pipe) (failure : Failure) :
      Frail (t.connection.run [.fail failure]).2 [] (({ t with pipe } : Task α).fail failure) := by
    rw [Connection.run_singleton]
    exact frail_fail (t := { t with pipe }) ht failure
  rw [write, writeTrail]
  refine Frail.publish ?_
  rcases t.pipe.write t.connection.outbound with ⟨fault | n, pipe⟩
  · exact hfail pipe _
  · cases n with
    | zero => exact hfail pipe _
    | succ n =>
      exact frail_still (t := { t with pipe, connection := t.connection.written (n + 1) }) ht []

theorem frail_read {t : Task α} (ht : t.running) :
    Frail (t.connection.run t.readTrail.ops).2 [] t.read := by
  have hfail (pipe : Pipe) (window : Window) (failure : Failure) :
      Frail (t.connection.run [.fail failure]).2 []
        (({ t with pipe, window } : Task α).fail failure) := by
    rw [Connection.run_singleton]
    exact frail_fail (t := { t with pipe, window }) ht failure
  rw [read, readTrail]
  refine Frail.publish ?_
  rcases t.pipe.read t.window.ready.room with ⟨fault | bytes, pipe⟩
  · exact hfail pipe _ _
  · cases bytes with
    | nil => exact hfail pipe _ _
    | cons b bytes =>
      rw [Connection.run_singleton]
      unfold received
      refine Frail.andThen (frail_take ?_ _) fun v hv => ?_
      · exact ht
      · split
        · exact ⟨hv, rfl⟩
        · exact frail_detach hv

end Task

namespace SharedClient

/-! ## Deeds -/

/-- **What a deed leaves behind.**  The pipe is there while the connection is open.  A task that is whole
has told all that happened, published where it stands and given the receipt for the request it took; one
that is not was broken by one of the events. -/
structure Leaves (c : SharedClient α) (d : Deed α) : Prop where
  attached : d.step.1.attached = d.step.1.connection.isOpen
  buffer : d.step.1.buffer = []
  whole : d.step.1.Whole →
    c.task.connection.run d.trail.ops = (d.step.1.connection, Task.events d.step.2) ∧
      d.step.1.published = d.step.1.connection.stage ∧
      receipts d.step.2 = d.taken.toList.filterMap Request.receipt?
  broken : ¬ d.step.1.Whole → ∃ e ∈ (c.task.connection.run d.trail.ops).2, Task.breaks e

theorem leaves_of_frail {c : SharedClient α} {d : Deed α} {s : Task.Step α}
    (hd : d.step = Task.publish s) (hleads : Task.Leads c.task d.step.1 d.step.2 d.trail)
    (hfrail : Task.Frail (c.task.connection.run d.trail.ops).2
      (d.taken.toList.filterMap Request.receipt?) d.step) : c.Leaves d := by
  cases hr : d.step.1.running with
  | true =>
    obtain ⟨hwork, hrun⟩ := hleads.goesOn hr
    have hpublished : d.step.1.published = d.step.1.connection.stage := by
      rw [hd] at hr ⊢
      exact Task.published_publish hr
    exact ⟨hwork.attached, hwork.buffer, fun _ => ⟨hrun, hpublished, hfrail.runs hr⟩,
      fun hnot => absurd (.inl hr) hnot⟩
  | false =>
    obtain ⟨hbreaks, hstage, hattached, hbuffer⟩ := hfrail.broken hr
    refine ⟨?_, hbuffer, fun hwhole => ?_, fun _ => hbreaks⟩
    · rw [hattached, Connection.isOpen, hstage]
      rfl
    · obtain hruns | hclosed := hwhole
      · cases hr.symm.trans hruns
      · cases hstage.symm.trans hclosed

/-- **The end of the task** leaves it closed, if no handler breaks it first. -/
theorem leaves_stop {c : SharedClient α} (hw : c.task.AtWork) :
    c.Leaves ⟨c.task.stop, ⟨[.close], []⟩, none⟩ := by
  have hleads := hw.shutDown.publish
  have hfrail := (Task.frail_shutDown hw.running).publish
  have hends : c.task.connection.run [.close] = c.task.connection.close :=
    Connection.run_singleton _ _
  cases hr : (Task.publish c.task.shutDown).1.running with
  | true =>
    obtain ⟨hwork, hrun⟩ := hleads.goesOn hr
    have hclosed := (Connection.ends_close c.task.connection).closed
    rw [← hends, hrun] at hclosed
    exact ⟨hwork.attached, hwork.buffer,
      fun _ => ⟨hrun, Task.published_publish hr, hfrail.runs hr⟩, fun hnot => absurd (.inr hclosed) hnot⟩
  | false =>
    obtain ⟨hbreaks, hstage, hattached, hbuffer⟩ := hfrail.broken hr
    refine ⟨?_, hbuffer, fun hwhole => ?_, fun _ => hends.symm ▸ hbreaks⟩
    · change (Task.publish c.task.shutDown).1.attached = Lifecycle.isOpen _
      rw [hattached, show c.task.stop.1.connection.stage = .unconnected from hstage]
      rfl
    · obtain hruns | hclosed := hwhole
      · cases hruns
      · cases hstage.symm.trans hclosed

theorem Deed.Of.leaves {c : SharedClient α} {d : Deed α} (h : d.Of c) (hw : c.task.AtWork) :
    c.Leaves d := by
  cases h with
  | read hr =>
    exact leaves_of_frail rfl (hw.read ((Bool.and_eq_true _ _).mp hr).1) (Task.frail_read hw.running)
  | write _ => exact leaves_of_frail rfl hw.write (Task.frail_write hw.running)
  | @request request others _ =>
    refine leaves_of_frail rfl (hw.handle c.network request) ?_
    have hfrail := (Task.frail_serve hw.running c.network request).publish
    rwa [Option.toList_some, List.filterMap_eq_flatMap_toList, List.flatMap_singleton]
  | stop => exact leaves_stop hw

/-! ## Where the task does nothing -/

theorem task_start (c : SharedClient α) (call : Call) (request : Request α) :
    (c.start call request).1.task = c.task := by
  rw [start]
  split
  · rw [enqueue_eq]
  · rfl

theorem task_ask (c : SharedClient α) (request : Request α) : (c.ask request).task = c.task := by
  rw [ask]
  split
  · rw [enqueue_eq]
  · rfl

theorem task_reactOne (c : SharedClient α) (id : Nat) (f : Waiting → Reaction α) :
    (c.reactOne id f).1.task = c.task := by
  unfold reactOne
  split
  · rfl
  · dsimp only
    split
    · rfl
    · rw [enqueue_eq]

/-- What is no deed publishes nothing. -/
theorem published_happen {c : SharedClient α} {x : Happening α} (h : c.deed? x = none) :
    (c.happen x).1.task.published = c.task.published := by
  cases x with
  | call data id =>
    cases data with
    | one command => exact congrArg Task.published (c.task_start _ _)
    | many commands => exact congrArg Task.published (c.task_start _ _)
  | commandWith | disconnect | observe => exact congrArg Task.published (c.task_ask _)
  | subscribe | unsubscribe | connectTo => exact congrArg Task.published (c.task_start _ _)
  | connect id =>
    rw [happen, connect]
    split
    · exact congrArg Task.published (c.task_start _ _)
    · rfl
  | giveUp id => exact congrArg Task.published (c.task_reactOne id _)
  | move m =>
    rw [happen]
    unfold deed? at h
    dsimp only at h
    split at h
    · rename_i hm
      rw [if_pos hm]
      cases m with
      | callers => exact congrArg Task.published (c.task_react _)
      | rest => rfl
      | request =>
        dsimp only at h
        rw [Option.map_eq_none_iff, List.head?_eq_none_iff] at h
        rw [make, serve, h]
      | _ => cases h
    · rename_i hm
      rw [if_neg hm]
  | _ => rfl

end SharedClient

namespace Chronicle

/-! ## The docket -/

/-- **What the task does** while one thing happens after another. -/
def deeds (c : Chronicle α) : List (Happening α) → List (SharedClient.Deed α)
  | [] => []
  | x :: xs => (c.client.deed? x).toList ++ (c.act x).deeds xs

/-- **The docket**: what a task has taken, and what it has said. -/
structure Docket (c : Chronicle α) (taken : List (Request α)) (notices : List (Notice α)) : Prop where
  attached : c.client.task.attached = c.client.task.connection.isOpen
  buffer : c.client.task.buffer = []
  handlers : c.trail.ops.filterMap Op.handler? = taken.filterMap Request.caller?
  whole : c.client.task.Whole →
    Connection.run {} c.trail.ops = (c.client.task.connection, Task.events notices) ∧
      c.client.task.published = c.client.task.connection.stage ∧
      receipts notices = taken.filterMap Request.receipt?

theorem docket_begin (b : Beginning) : (begin b : Chronicle α).Docket [] [] := by
  cases b with
  | unconnected config network growth => exact ⟨rfl, rfl, rfl, fun _ => ⟨rfl, rfl, rfl⟩⟩
  | connected transport config network growth => exact ⟨rfl, rfl, rfl, fun _ => ⟨rfl, rfl, rfl⟩⟩

/-- A deed brings the handler of the request it takes. -/
theorem handlers_deed {c : SharedClient α} {d : SharedClient.Deed α} (h : d.Of c) :
    d.trail.ops.filterMap Op.handler? = d.taken.toList.filterMap Request.caller? := by
  have howned := congrArg (List.map Prod.fst) h.owned
  rw [List.map_filterMap, List.map_filterMap] at howned
  simp only [Op.owned?_map_fst] at howned
  exact howned

namespace Docket

variable {c : Chronicle α} {taken : List (Request α)} {notices : List (Notice α)}

/-- The task is left alone. -/
theorem rests (h : c.Docket taken notices) {x : Happening α} (hd : c.client.deed? x = none) :
    (c.act x).Docket taken notices := by
  have hrests := (SharedClient.happen_idles hd).task
  have hpublished := SharedClient.published_happen hd
  have htrail := trail_act_none hd
  refine ⟨?_, hrests.buffer.trans h.buffer, ?_, fun hwhole => ?_⟩
  · rw [Chronicle.act, hrests.attached, hrests.connection]
    exact h.attached
  · rw [htrail]
    exact h.handlers
  · rw [Chronicle.act, Task.Whole, hrests.running, hrests.connection] at hwhole
    rw [htrail, Chronicle.act, hrests.connection, hpublished]
    exact h.whole hwhole

/-- **A deed adds what it takes and what it says.** -/
theorem deed (h : c.Docket taken notices) (hwire : c.OnWire) {x : Happening α}
    {d : SharedClient.Deed α} (hd : c.client.deed? x = some d) :
    (c.act x).Docket (taken ++ d.taken.toList) (notices ++ d.step.2) := by
  obtain ⟨-, hrunning, hof, -⟩ := SharedClient.happen_deed hd
  obtain ⟨hw, -⟩ := hwire.atWork hrunning
  obtain ⟨hrun, -, hgiven⟩ := h.whole (.inl hrunning)
  have hleaves := hof.leaves hw
  have htask := (act_deed hd).1
  have htrail : (c.act x).trail.ops = c.trail.ops ++ d.trail.ops := congrArg Trail.ops (act_deed hd).2
  refine ⟨?_, ?_, ?_, fun hwhole => ?_⟩
  · rw [htask]
    exact hleaves.attached
  · rw [htask]
    exact hleaves.buffer
  · rw [htrail, List.filterMap_append, List.filterMap_append, h.handlers, handlers_deed hof]
  · rw [htask] at hwhole ⊢
    obtain ⟨hmore, hpublished, hreceipts⟩ := hleaves.whole hwhole
    refine ⟨?_, hpublished, ?_⟩
    · rw [htrail, Connection.run_append, hrun, hmore, Task.events_append]
    · rw [receipts_append, List.filterMap_append, hgiven, hreceipts]

/-- **The docket is kept**, whatever happens. -/
theorem run (h : c.Docket taken notices) (hwire : c.OnWire) (xs : List (Happening α)) :
    (c.run xs).Docket (taken ++ (c.deeds xs).filterMap SharedClient.Deed.taken)
      (notices ++ (c.deeds xs).flatMap (·.step.2)) := by
  induction xs generalizing c taken notices with
  | nil =>
    rw [deeds, List.filterMap_nil, List.flatMap_nil, List.append_nil, List.append_nil]
    exact h
  | cons x xs ih =>
    rw [deeds]
    cases hd : c.client.deed? x with
    | none => exact ih (h.rests hd) (hwire.act x)
    | some d =>
      have hrest := ih (h.deed hwire hd) (hwire.act x)
      rw [List.append_assoc, List.append_assoc] at hrest
      rw [Option.toList_some, List.filterMap_append, List.flatMap_append, List.flatMap_singleton,
        List.filterMap_eq_flatMap_toList _ [d], List.flatMap_singleton]
      exact hrest

end Docket

/-! ## What breaks a task -/

end Chronicle

/-- Whether a handler comes in that breaks the task when it is called. -/
def Happening.isFaulty : Happening α → Bool
  | commandWith _ faulty _ => faulty
  | _ => false

/-- An event breaks the task by a handler that was brought in faulty. -/
theorem Happening.isFaulty_of_breaks {x : Happening α} {k : Caller} {commands : List Command}
    {e : Event Caller α} (hb : Task.breaks e) (he : e.called? = some k)
    (hx : x.owned? = some (k, commands)) : x.isFaulty := by
  cases e with
  | replied k' result =>
    obtain rfl : k' = k := Option.some.inj he
    cases k' with
    | call id => cases hb
    | callback id faulty =>
      cases x with
      | commandWith handler faulty' command =>
        cases hx
        exact hb
      | _ => cases hx
  | _ => cases hb

namespace Chronicle

/-- **Where no handler is faulty nothing breaks the task**: whoever is called was asked for. -/
theorem whole_act {c : Chronicle α} {xs : List (Happening α)} {taken : List (Request α)}
    {notices : List (Notice α)} (hwire : c.OnWire) (hchannel : c.InChannel xs)
    (hdocket : c.Docket taken notices) (hwhole : c.client.task.Whole)
    (hsound : ∀ x ∈ xs, x.isFaulty = false) (x : Happening α) : (c.act x).client.task.Whole := by
  cases hd : c.client.deed? x with
  | none =>
    have hrests := (SharedClient.happen_idles hd).task
    rw [Task.Whole, act, hrests.running, hrests.connection]
    exact hwhole
  | some d =>
    obtain ⟨-, hrunning, hof, queue, hqueue, -⟩ := SharedClient.happen_deed hd
    rw [(act_deed hd).1]
    by_contra hnot
    obtain ⟨e, he, hbreaks⟩ := (hof.leaves (hwire.atWork hrunning).1).broken hnot
    obtain ⟨k, hk⟩ : ∃ k, e.called? = some k := by
      cases e with
      | replied k result => exact ⟨k, rfl⟩
      | _ => cases hbreaks
    -- whoever the connection calls was brought by a request, and that one by a caller
    have hcalled : k ∈ called (Connection.run {} (c.trail.ops ++ d.trail.ops)).2 := by
      rw [Connection.run_append, (hdocket.whole hwhole).1]
      exact List.mem_filterMap.mpr ⟨e, List.mem_append_right _ he, hk⟩
    have hbrought := (Connection.accounted_new.called_append_waiting
      (c.trail.ops ++ d.trail.ops)).subset (List.mem_append_left _ hcalled)
    obtain ⟨op, hop, hhandler⟩ := List.mem_filterMap.mp hbrought
    rw [← Op.owned?_map_fst, Option.map_eq_some_iff] at hhandler
    obtain ⟨⟨_, commands⟩, howned, rfl⟩ := hhandler
    have hasked := hchannel.owned hrunning
    rw [hqueue, List.filterMap_append, ← hof.owned, ← List.append_assoc, ← List.filterMap_append]
      at hasked
    have hmem := hasked ▸ List.mem_append_left _ (List.mem_filterMap.mpr ⟨op, hop, howned⟩)
    obtain ⟨y, hy, hyowned⟩ := List.mem_filterMap.mp hmem
    exact Bool.false_ne_true
      ((hsound y hy).symm.trans (Happening.isFaulty_of_breaks hbreaks hk hyowned))

theorem whole_run {c : Chronicle α} {xs : List (Happening α)} {taken : List (Request α)}
    {notices : List (Notice α)} (hwire : c.OnWire) (hchannel : c.InChannel xs)
    (hdocket : c.Docket taken notices) (hwhole : c.client.task.Whole) {ys : List (Happening α)}
    (hsound : ∀ x ∈ xs ++ ys, x.isFaulty = false) : (c.run ys).client.task.Whole := by
  induction ys generalizing c xs taken notices with
  | nil => exact hwhole
  | cons y ys ih =>
    rw [List.append_cons] at hsound
    have hbefore : ∀ x ∈ xs, x.isFaulty = false := fun x hx =>
      hsound x (List.mem_append_left _ (List.mem_append_left _ hx))
    have hnext := hdocket.run hwire [y]
    exact ih (hwire.act y) (hchannel.act hwire y) hnext
      (whole_act hwire hchannel hdocket hwhole hbefore y) hsound

/-! ## The statement -/

/-- **Every request taken is accounted for.** -/
structure Docketed (t : Task α) (taken : List (Request α)) (notices : List (Notice α)) : Prop where
  /-- Others see the stage that the connection is at. -/
  published : t.published = t.connection.stage
  /-- The handler of every request taken was called once, or it waits. -/
  once : (called (Task.events notices) ++ t.connection.waiting).Perm
    (taken.filterMap Request.caller?)
  /-- One that waits is owned by a command in the queue. -/
  owned : ∀ k ∈ t.connection.waiting, ∃ p ∈ t.connection.pending, t.connection.Owns p k
  /-- Calls that connect or subscribe are told so, in their order. -/
  receipts : receipts notices = taken.filterMap Request.receipt?
  /-- After the end nobody waits. -/
  closed : t.connection.stage = .closed →
    (called (Task.events notices)).Perm (taken.filterMap Request.caller?) ∧ t.connection.pending = []

/-- **Whatever happens, and in whatever order**: the pipe is there exactly while the connection is open, and
nothing that was read is left over.  And as long as the task runs — for ever, if no handler is faulty — every
request that it has taken is accounted for.  A handler that breaks the task keeps it from being done with what
it has taken up. -/
theorem run_docketed (b : Beginning) (xs : List (Happening α)) :
    let t := ((begin b : Chronicle α).run xs).client.task
    (t.attached ↔ t.connection.stage = .connected ∨ t.connection.stage = .subscribed) ∧
      t.buffer = [] ∧
      (t.running ∨ (∀ x ∈ xs, x.isFaulty = false) →
        Docketed t (((begin b).deeds xs).filterMap SharedClient.Deed.taken)
          (((begin b).deeds xs).flatMap (·.step.2))) := by
  intro t
  have hwire := onWire_begin (α := α) b
  have hdocket := (docket_begin (α := α) b).run hwire xs
  refine ⟨?_, hdocket.buffer, fun hsound => ?_⟩
  · rw [hdocket.attached, Connection.isOpen]
    cases t.connection.stage <;> decide
  · have hwhole : t.Whole := hsound.elim .inl fun hnone =>
      whole_run hwire (inChannel_begin b) (docket_begin b) (by cases b <;> exact .inl rfl) hnone
    obtain ⟨hrun, hpublished, hreceipts⟩ := hdocket.whole hwhole
    -- the account of the connection that the trail leads to
    have hacc := Connection.accounted_new.run ((begin b : Chronicle α).run xs).trail.ops
    have honce :=
      Connection.accounted_new.called_append_waiting ((begin b : Chronicle α).run xs).trail.ops
    rw [hrun] at hacc honce
    rw [hdocket.handlers] at honce
    refine ⟨hpublished, honce, fun _ => Connection.exists_owns, hreceipts, fun hclosed => ?_⟩
    obtain ⟨hwaiting, hpending⟩ := hacc.waiting_eq_nil hclosed
    dsimp only at honce
    rw [hwaiting, List.append_nil] at honce
    exact ⟨honce, hpending⟩

/-- One call has its reply, and the other waits for it still, when a caller ends the connection. -/
def parting : List (Happening Nat) :=
  [.call (.one (get 97)) 1, .commandWith 2 false (get 98), .move .request, .move .request,
    .move .write, .arrive [.data (Utf8.encode "+ok\r\n")], .move .read, .disconnect, .move .request]

theorem run_docketed_parting :
    let c := (begin (.connected {} {} (.isolated []) .plain)).run parting
    (∀ x ∈ parting, x.isFaulty = false) ∧ c.client.task.published = .closed ∧
      c.client.task.attached = false ∧
      (called (Task.events (((begin (.connected {} {} (.isolated []) .plain)).deeds parting).flatMap
        (·.step.2)))).Perm [.call 1, .callback 2 false] := by
  intro c
  obtain ⟨hattached, -, hdocketed⟩ :=
    run_docketed (.connected {} {} (.isolated []) .plain) parting
  have hsound : ∀ x ∈ parting, x.isFaulty = false := by decide +kernel
  have hclosed : c.client.task.connection.stage = .closed := by decide +kernel
  have htaken : (((begin (.connected {} {} (.isolated []) .plain)).deeds parting).filterMap
      SharedClient.Deed.taken).filterMap Request.caller? = [.call 1, .callback 2 false] := by
    decide +kernel
  have hdocket := hdocketed (.inr hsound)
  refine ⟨hsound, hdocket.published.trans hclosed, ?_, htaken ▸ (hdocket.closed hclosed).1⟩
  refine Bool.eq_false_iff.mpr fun ha => ?_
  obtain hopen | hopen := hattached.mp ha
  · cases hclosed.symm.trans hopen
  · cases hclosed.symm.trans hopen

end Chronicle

end RespClient

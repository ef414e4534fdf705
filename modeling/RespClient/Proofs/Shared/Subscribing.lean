import RespClient.Proofs.Blocking.Subscribing
import RespClient.Proofs.Shared.Heeding

/-!
# Proofs/Shared/Subscribing — a subscription that fails leaves nothing behind, with many callers

    waiting ──request──▸ asked h ── ack, an error, a push, the deadline, the end ──▸ ended
       │         └─────▸ denied
       └── the task is lost ──▸ ended

A call that subscribes is pursued through all that happens (`Pursuit`): its request waits, or it was denied,
or the connection has asked for a registration, of which then all is known that is known of a subscription
in a run of others (`Ledger.Attends`).  The callers' side is an outlook at each station: what the call waits
for, and what it gave (`Heeds`).  A call has its number for itself, so its request is taken once
(`InChannel.alone`).

Together with the call of a blocking client this is the result for both (`subscriptions_settle`).
-/

namespace RespClient

variable {κ α : Type}

/-! ## A request is taken once -/

/-- The number of the call whose result it is. -/
def Caller.call? : Caller → Option Nat
  | .call id => some id
  | .callback _ _ => none

/-- The commands of a call are asked for once. -/
theorem Happening.sublist_owned (xs : List (Happening α)) :
    ((xs.filterMap owned?).filterMap (·.1.call?)).Sublist (xs.filterMap id?) := by
  induction xs with
  | nil => exact .slnil
  | cons x xs ih =>
    cases x with
    | call _ _ | subscribe _ _ _ _ | unsubscribe _ _ => exact ih.cons_cons _
    | connect _ | connectTo _ _ | waitFor _ _ => exact ih.cons _
    | _ => exact ih

theorem Op.exists_owned? {op : Op κ α} {k : κ} (h : op.handler? = some k) :
    ∃ cs, op.owned? = some (k, cs) := by
  cases op <;> cases h <;> exact ⟨_, rfl⟩

/-- The operations of a deed are those of the request that is taken for it. -/
theorem SharedClient.Deed.Of.ops {c : SharedClient α} {d : SharedClient.Deed α} (h : d.Of c)
    {r : Request α} (hr : d.taken = some r) : d.trail.ops = c.task.serveOps c.network r := by
  cases h <;> cases hr
  rfl

/-- **The deed is for others** than the call of this number. -/
def SharedClient.Deed.Spares (d : SharedClient.Deed α) (id : Nat) : Prop :=
  ∀ r, d.taken = some r → ∀ cs, r.owned? ≠ some (.call id, cs)

/-- The operations of a deed for others are for others. -/
theorem SharedClient.Deed.Of.others {c : SharedClient α} {d : SharedClient.Deed α} (h : d.Of c) {id : Nat}
    (hs : d.Spares id) : ∀ op ∈ d.trail.ops, op.handler? ≠ some (.call id) := by
  intro op hop hk
  obtain ⟨cs, hown⟩ := Op.exists_owned? hk
  have hmem := List.mem_filterMap.mpr ⟨op, hop, hown⟩
  rw [h.owned] at hmem
  obtain ⟨r, hr, hown'⟩ := List.mem_filterMap.mp hmem
  exact hs r (Option.mem_toList.mp hr) cs hown'

namespace Chronicle

variable {c : Chronicle α} {xs : List (Happening α)} {id : Nat}

/-- Something was done for the call. -/
def TakenUp (c : Chronicle α) (id : Nat) : Prop := ∃ op ∈ c.trail.ops, op.handler? = some (.call id)

/-- **What is done for a call is in the queue no more.** -/
theorem InChannel.alone (h : c.InChannel xs) (hn : (xs.filterMap Happening.id?).Nodup)
    (hr : c.client.task.running) (ht : c.TakenUp id) {r : Request α} (hmem : r ∈ c.client.queue)
    (cs : List Command) : r.owned? ≠ some (.call id, cs) := by
  intro hown
  obtain ⟨op, hop, hk⟩ := ht
  obtain ⟨cs', hop'⟩ := Op.exists_owned? hk
  have hnodup := (Happening.sublist_owned xs).nodup hn
  rw [← h.owned hr, List.filterMap_append, List.nodup_append] at hnodup
  refine hnodup.2.2 id ?_ id ?_ rfl
  · exact List.mem_filterMap.mpr ⟨_, List.mem_filterMap.mpr ⟨op, hop, hop'⟩, rfl⟩
  · exact List.mem_filterMap.mpr ⟨_, List.mem_filterMap.mpr ⟨r, hmem, hown⟩, rfl⟩

/-! ## The ledger of a chronicle -/

/-- **The ledger of the connection.** -/
def ledger (c : Chronicle α) : Ledger Caller α := Ledger.run {} c.trail.ops

/-- The events of the connection. -/
def events (c : Chronicle α) : List (Event Caller α) := (Connection.run {} c.trail.ops).2

theorem now_ledger (c : Chronicle α) : c.ledger.now = c.journal.now := by
  rw [ledger, journal, Ledger.now_run, Journal.now_run]

theorem ledger_act (c : Chronicle α) (x : Happening α) :
    (c.act x).ledger = c.ledger.run (c.step x).ops := List.foldl_append

theorem events_act (c : Chronicle α) (x : Happening α) :
    (c.act x).events = c.events ++ (c.ledger.now.run (c.step x).ops).2 := by
  rw [events, act, Trail.andThen, Connection.run_append, ledger, Ledger.now_run]
  rfl

/-- For a call that was not taken up nothing was placed, … -/
theorem placedFor_others (h : ¬ c.TakenUp id) : c.ledger.PlacedFor (· ≠ some (.call id)) :=
  Ledger.PlacedFor.run (l := {}) nofun nofun fun op hop hk => h ⟨op, hop, hk⟩

/-- … and nobody has heard of it. -/
theorem unheard (h : ¬ c.TakenUp id) :
    .call id ∉ called c.events ∧ .call id ∉ c.ledger.now.waiting := by
  have hperm := (Connection.accounted_new (κ := Caller) (α := α)).called_append_waiting c.trail.ops
  have hnot : .call id ∉ called c.events ++ c.ledger.now.waiting := by
    rw [ledger, Ledger.now_run]
    refine mt hperm.mem_iff.mp fun hk => h ?_
    exact List.mem_filterMap.mp hk
  rwa [List.mem_append, not_or] at hnot

/-- **A task that is gone** has left no registration behind. -/
def Cleared (c : Chronicle α) : Prop :=
  c.client.task.running = false → c.client.task.connection.registry = .empty

theorem Cleared.act (h : c.Cleared) (hw : c.OnWire) (x : Happening α) : (c.act x).Cleared := by
  intro hr
  cases hd : c.client.deed? x with
  | none =>
    have hrests := (SharedClient.happen_idles hd).task
    rw [Chronicle.act, hrests.running] at hr
    rw [Chronicle.act, hrests.connection]
    exact h hr
  | some d =>
    obtain ⟨-, hrunning, hof, -⟩ := SharedClient.happen_deed hd
    rw [(act_deed hd).1] at hr ⊢
    exact hof.lost (hw.atWork hrunning).1 hr

theorem Cleared.dead (h : c.Cleared) (hr : c.client.task.running = false) (hd : Handle) :
    ¬ c.client.task.connection.registry.Lives hd := by
  rw [h hr]
  exact Registry.not_lives_empty hd

/-- What is gone from the run is gone from the connection. -/
theorem Cleared.not_lives (h : c.Cleared) (hw : c.OnWire) {hd : Handle}
    (hl : ¬ c.ledger.now.registry.Lives hd) : ¬ c.client.task.connection.registry.Lives hd := by
  cases hr : c.client.task.running with
  | true => rwa [now_ledger, (hw.atWork hr).2] at hl
  | false => exact h.dead hr hd

/-! ## Where a call that subscribes stands -/

/-- The outlook on a call that waits for its handle: if it fails, not for its deadline. -/
def asking (P : Prop) : Outlook α where
  waits w := w = .handle
  gives result _ := P ∧ ∃ failure, result = .error failure ∧ failure.isTimeout = false
  fresh := rfl
  patient _ hw := .inl hw
  grows _ _ _ _ hr := hr
  late _ _ hw := by cases hw

/-- **The outlook on a call that has its handle**: it returns it after an answer that is no error, and if
it fails, the registration is gone or is being abandoned. -/
def asked (id : Nat) (h : Handle) (events : List (Event Caller α)) (r : Registry α) : Outlook α where
  waits w := w = .handle ∨ ∃ deadline, w = .ack h deadline
  gives result q := match result with
    | .ok a => a = .handle h ∧ ∃ v, .replied (.call id) (.ok v) ∈ events ∧ v.isError = false
    | .error _ => .abandon h ∈ q ∨ ¬ r.Lives h
  fresh := .inl rfl
  patient _ hw := hw.imp_right fun ⟨deadline, hw⟩ => ⟨h, deadline, hw⟩
  grows result _ _ hq hr := match result with
    | .ok _ => hr
    | .error _ => hr.imp_left (hq ·)
  late _ _ hw := by
    obtain hw | ⟨deadline, hw⟩ := hw <;> cases hw
    exact .inl (List.mem_cons_of_mem _ (List.mem_singleton_self _))

/-- **Where a call that subscribes stands.** -/
inductive Pursuit (id : Nat) (topic : Topic) (c : Chronicle α) : Prop
  /-- Nothing was done for it. -/
  | waiting (untaken : ¬ c.TakenUp id)
    (heeds : SharedClient.Heeds (asking (c.client.task.running = false)) id c.client c.effects)
  /-- Its request was taken, and the connection was not open. -/
  | denied (taken : c.TakenUp id) (none : c.ledger.PlacedFor (· ≠ some (.call id)))
    (heeds : SharedClient.Heeds (asking True) id c.client c.effects)
  /-- Its subscription was asked for. -/
  | asked (h : Handle) (taken : c.TakenUp id) (topic : h.topic = topic)
    (attends : c.ledger.Attends h (.call id) c.events)
    (heeds : SharedClient.Heeds (asked id h c.events c.client.task.connection.registry) id c.client
      c.effects)

/-! ## What the task does for a call -/

/-- **The task does something**: where it leads, and what calls hear of it. -/
structure Does (c : Chronicle α) (x : Happening α) (d : SharedClient.Deed α) : Prop where
  running : c.client.task.running
  atWork : c.client.task.AtWork
  now : c.ledger.now = c.client.task.connection
  deed : d.Of c.client
  task : (c.act x).client.task = d.step.1
  ops : (c.act x).trail.ops = c.trail.ops ++ d.trail.ops
  ledger : (c.act x).ledger = c.ledger.run d.trail.ops
  events : (c.act x).events = c.events ++ (c.ledger.now.run d.trail.ops).2
  told : ∀ event, .happened event ∈ d.step.2 → event ∈ (c.act x).events
  heard : ∃ queue, c.client.queue = d.taken.toList ++ queue ∧ c.client.happen x
    = ({ c.client with task := d.step.1, queue, resting := false }).spread d.step.2

theorem does (hw : c.OnWire) {x : Happening α} {d : SharedClient.Deed α}
    (hd : c.client.deed? x = some d) : c.Does x d := by
  obtain ⟨-, hrunning, hof, queue, hqueue, hhappen⟩ := SharedClient.happen_deed hd
  obtain ⟨hwork, hnow⟩ := hw.atWork hrunning
  rw [← now_ledger] at hnow
  have hstep : c.step x = d.trail := by
    rw [step, hd]
    rfl
  have hledger := c.ledger_act x
  have hevents := c.events_act x
  rw [hstep] at hledger hevents
  refine ⟨hrunning, hwork, hnow, hof, (act_deed hd).1, congrArg Trail.ops (act_deed hd).2, hledger,
    hevents, fun event hmem => ?_, queue, hqueue, hhappen⟩
  rw [hevents, hnow]
  exact List.mem_append_right _ ((hof.leads hwork).told.subset (List.mem_filterMap.mpr ⟨_, hmem, rfl⟩))

namespace Does

variable {x : Happening α} {d : SharedClient.Deed α}

/-- **An outlook is kept**, or replaced by another, through what calls hear of a deed. -/
theorem heeds (h : c.Does x d) {o o' : Outlook α} (hc : SharedClient.Heeds o id c.client c.effects)
    (waits : ∀ w, o.waits w → o'.waits w)
    (gives : ∀ result queue, c.client.queue = d.taken.toList ++ queue →
      o.gives result c.client.queue → o'.gives result queue)
    (allows : ∀ notice ∈ d.step.2, o'.Allows id notice)
    (lost : (c.act x).client.task.running = false → o'.gives (.error .connectionClosed) []) :
    SharedClient.Heeds o' id (c.act x).client (c.act x).effects := by
  obtain ⟨queue, hqueue, hhappen⟩ := h.heard
  have hchange : SharedClient.Heeds o' id
      { c.client with task := d.step.1, queue, resting := false } c.effects :=
    hc.change rfl waits fun result => gives result queue hqueue
  have hspread := hchange.spread allows (h.task ▸ lost)
  rw [← hhappen] at hspread
  exact hspread

/-- The handle that calls are told of is the one that the connection gives to their request. -/
theorem registered (h : c.Does x d) {result : Except Failure Handle}
    (hmem : .registered id result ∈ d.step.2) : ∃ topic persistence listener,
      d.taken = some (.subscribe topic persistence listener id) ∧ result
        = (c.client.task.connection.register topic persistence listener (.handler (.call id))).1 :=
  h.deed.registered h.atWork hmem

/-- A deed for others tells the call of no handle. -/
theorem silent (h : c.Does x d) (hs : d.Spares id) {result : Except Failure Handle} :
    .registered id result ∉ d.step.2 := by
  intro hmem
  obtain ⟨_, _, _, htaken, -⟩ := h.registered hmem
  exact hs _ htaken _ rfl

theorem takenUp (h : c.Does x d) (ht : c.TakenUp id) : (c.act x).TakenUp id := by
  obtain ⟨op, hop, hk⟩ := ht
  exact ⟨op, h.ops ▸ List.mem_append_left _ hop, hk⟩

theorem mem_queue (h : c.Does x d) {r : Request α} (hr : d.taken = some r) : r ∈ c.client.queue := by
  obtain ⟨queue, hq, -⟩ := h.heard
  rw [hq, hr]
  exact List.mem_cons_self

/-- **Once a call is taken up** all deeds are for others. -/
theorem spares (h : c.Does x d) (hch : c.InChannel xs) (hn : (xs.filterMap Happening.id?).Nodup)
    (ht : c.TakenUp id) : d.Spares id := fun _ hr cs =>
  hch.alone hn h.running ht (h.mem_queue hr) cs

/-- **What a call that has its handle hears** fits: the answer, or that there is none. -/
theorem allows_asked (h : c.Does x d) (hw : c.OnWire) (hcl : c.Cleared) {hd : Handle}
    (hattends : (c.act x).ledger.Attends hd (.call id) (c.act x).events)
    (hregistered : ∀ result, .registered id result ∈ d.step.2 → result = .ok hd) :
    ∀ notice ∈ d.step.2,
      (asked id hd (c.act x).events (c.act x).client.task.connection.registry).Allows id notice := by
  intro notice hnotice
  refine Outlook.allows_of _ ?_ ?_
  · rintro result rfl deadline
    rw [hregistered result hnotice]
    exact .inr ⟨deadline, rfl⟩
  · rintro result rfl hd' deadline hwaits
    obtain hwaits | ⟨deadline', hwaits⟩ := hwaits <;> cases hwaits
    cases result with
    | error failure => exact .inl (List.mem_singleton_self _)
    | ok v =>
      have hmem := h.told _ hnotice
      change (asked id hd _ _).gives ((Connection.outcome hd v).map .handle) []
      obtain ⟨houtcome, hgood⟩ | ⟨reply, houtcome, herror⟩ := Connection.outcome_cases hd v
      · rw [houtcome]
        exact ⟨rfl, v, hmem, hgood⟩
      · rw [houtcome]
        exact .inr ((hcl.act hw x).not_lives (hw.act x) ((hattends.answered v hmem).2 herror))

/-- **What a call that has no handle yet hears of a deed for others** fits. -/
theorem allows_asking (h : c.Does x d) (hs : d.Spares id) {P : Prop} :
    ∀ notice ∈ d.step.2, (asking P : Outlook α).Allows id notice := by
  intro notice hnotice
  refine Outlook.allows_of _ ?_ ?_
  · rintro result rfl
    exact absurd hnotice (h.silent hs)
  · intro _ _ _ _ hwaits
    cases hwaits

/-- **The connection is asked for the registration**, of which from then on all is known. -/
theorem attends (h : c.Does x d) (untaken : ¬ c.TakenUp id) {topic : Topic} {persistence : Persistence}
    {listener : α} (htaken : d.taken = some (.subscribe topic persistence listener id))
    (ho : c.ledger.now.isOpen) :
    (c.act x).ledger.Attends ⟨c.ledger.now.nextHandle, topic⟩ (.call id) (c.act x).events := by
  obtain ⟨hcalled, hwaiting⟩ := unheard untaken
  have hacc : c.ledger.now.Accounted := by
    rw [Chronicle.ledger, Ledger.now_run]
    exact Connection.accounted_new.run c.trail.ops
  have hattends := Ledger.attends_register c.ledger c.events (h.now ▸ h.atWork.tidy) hacc ho hwaiting
    (placedFor_others untaken).handler? hcalled topic persistence listener
  have hops : d.trail.ops = [.register topic persistence listener (.call id)] := h.deed.ops htaken
  have hledger := h.ledger
  have hevents := h.events
  rw [hops] at hledger hevents
  rw [Connection.run_singleton] at hevents
  rw [hledger, hevents]
  exact hattends

/-- **What was abandoned is gone**, and what is gone stays away. -/
theorem not_lives (h : c.Does x d) (hw : c.OnWire) (hcl : c.Cleared) {hd : Handle}
    (hgiven : hd.id < c.ledger.now.nextHandle)
    (habandoned : d.taken = some (.abandon hd) ∨ ¬ c.client.task.connection.registry.Lives hd) :
    ¬ (c.act x).client.task.connection.registry.Lives hd := by
  have htidy : c.ledger.now.Tidy := h.now ▸ h.atWork.tidy
  refine (hcl.act hw x).not_lives (hw.act x) ?_
  rw [h.ledger, Ledger.now_run]
  obtain htaken | hdead := habandoned
  · rw [h.deed.ops htaken]
    change ¬ (c.ledger.now.abandon hd).registry.Lives hd
    rw [(Connection.abandon_registry _ _).1]
    exact fun hl => ((lives_getD htidy.sound hd).mp hl).2 rfl
  · rw [← h.now] at hdead
    exact (Connection.Gone.run ⟨hgiven, hdead⟩ htidy d.trail.ops).dead

end Does

/-! ## A call is pursued -/

/-- **The number is that of a call that subscribes** to the topic. -/
def Subscriber (xs : List (Happening α)) (id : Nat) (topic : Topic) : Prop :=
  ∀ x ∈ xs, x.id? = some id → ∃ persistence listener, x = .subscribe id topic persistence listener

/-- Its request asks for the subscription. -/
theorem Subscriber.request (h : Subscriber xs id topic) {r : Request α} (hr : r.Stems xs)
    {cs : List Command} (hown : r.owned? = some (.call id, cs)) :
    ∃ persistence listener, r = .subscribe topic persistence listener id := by
  cases r with
  | command command k =>
    cases hown
    obtain ⟨_, _, heq⟩ := h _ hr rfl
    cases heq
  | batch commands k =>
    cases hown
    obtain ⟨_, _, heq⟩ := h _ hr rfl
    cases heq
  | subscribe topic' persistence listener call =>
    cases hown
    obtain ⟨_, _, heq⟩ := h _ hr rfl
    cases heq
    exact ⟨persistence, listener, rfl⟩
  | unsubscribe hd k =>
    cases hown
    obtain ⟨_, _, heq⟩ := h _ hr rfl
    cases heq
  | _ => cases hown

namespace Pursuit

variable {topic : Topic} {x : Happening α} {d : SharedClient.Deed α}

theorem begin (b : Beginning) (id : Nat) (topic : Topic) :
    Pursuit id topic (Chronicle.begin b : Chronicle α) := by
  cases b with
  | unconnected config network => exact .waiting nofun ⟨nofun, nofun⟩
  | connected transport config network =>
    refine .waiting ?_ ⟨nofun, nofun⟩
    rintro ⟨op, hop, hk⟩
    obtain rfl | hop := List.mem_cons.mp hop
    · cases hk
    · cases List.mem_singleton.mp hop
      cases hk

/-- **The task is left alone.** -/
theorem rests (h : Pursuit id topic c) (hcl : c.Cleared) (hd : c.client.deed? x = none)
    (hx : x.id? = some id → x.registers) : Pursuit id topic (c.act x) := by
  have hrests := (SharedClient.happen_idles hd).task
  have htrail := trail_act_none hd
  have htakenUp : (c.act x).TakenUp id ↔ c.TakenUp id := by rw [TakenUp, TakenUp, htrail]
  have hledger : (c.act x).ledger = c.ledger := by rw [ledger, htrail, ← ledger]
  have hevents : (c.act x).events = c.events := by rw [events, htrail, ← events]
  have hrunning : (c.act x).client.task.running = c.client.task.running := hrests.running
  have hconnection : (c.act x).client.task.connection = c.client.task.connection := hrests.connection
  cases h with
  | waiting untaken heeds =>
    refine .waiting (mt htakenUp.mp untaken) ?_
    rw [hrunning]
    exact heeds.idles hd hx fun hr => ⟨hr, _, rfl, rfl⟩
  | denied taken none heeds =>
    refine .denied (htakenUp.mpr taken) (hledger ▸ none) ?_
    exact heeds.idles hd hx fun _ => ⟨trivial, _, rfl, rfl⟩
  | asked h taken topic attends heeds =>
    refine .asked h (htakenUp.mpr taken) topic (by rwa [hledger, hevents]) ?_
    rw [hevents, hconnection]
    exact heeds.idles hd hx fun hr => .inr (hcl.dead hr h)

/-- **The request is taken.** -/
theorem ask (h : c.Does x d) (hw : c.OnWire) (hcl : c.Cleared) (untaken : ¬ c.TakenUp id)
    (heeds : SharedClient.Heeds (asking (c.client.task.running = false)) id c.client c.effects)
    {persistence : Persistence} {listener : α}
    (htaken : d.taken = some (.subscribe topic persistence listener id)) :
    Pursuit id topic (c.act x) := by
  have hops : d.trail.ops = [.register topic persistence listener (.call id)] := h.deed.ops htaken
  have hmem : (c.act x).TakenUp id := by
    refine ⟨.register topic persistence listener (.call id), ?_, rfl⟩
    rw [h.ops, hops]
    exact List.mem_append_right _ (List.mem_singleton_self _)
  have hresult {result : Except Failure Handle} (hr : .registered id result ∈ d.step.2) : result =
      (c.ledger.now.register topic persistence listener (.handler (.call id))).1 := by
    obtain ⟨topic', persistence', listener', htaken', heq⟩ := h.registered hr
    cases htaken.symm.trans htaken'
    rw [h.now]
    exact heq
  -- nothing was given before, since the task runs
  have hnothing {Q : Prop} {result : Except Failure Answer}
      (hr : c.client.task.running = false ∧ ∃ failure, result = .error failure ∧
        failure.isTimeout = false) : Q := by
    cases h.running.symm.trans hr.1
  by_cases ho : c.ledger.now.isOpen
  · have hattends := h.attends untaken htaken ho
    refine .asked _ hmem rfl hattends (h.heeds heeds (fun _ => .inl) (fun _ _ _ => hnothing)
      (h.allows_asked hw hcl hattends fun result hr => ?_) fun hr => .inr ((hcl.act hw x).dead hr _))
    rw [hresult hr, Connection.register, Connection.closedTo?, if_pos ho]
  · refine .denied hmem ?_ (h.heeds heeds (fun _ hwait => hwait) (fun _ _ _ => hnothing)
      (fun notice hnotice => Outlook.allows_of _ ?_ ?_) fun _ => ⟨trivial, _, rfl, rfl⟩)
    · rw [h.ledger, hops]
      refine (placedFor_others untaken).enter (fun o ho' => ?_) _
      rw [Connection.order?, if_neg ho] at ho'
      cases ho'
    · rintro result rfl deadline
      rw [hresult hnotice, Connection.register, Connection.closedTo?, if_neg ho]
      exact ⟨trivial, _, rfl, rfl⟩
    · intro _ _ _ _ hwaits
      cases hwaits

/-- **A deed for others** leaves a call that has its handle where it stands. -/
theorem keep (h : c.Does x d) (hw : c.OnWire) (hcl : c.Cleared) (hs : d.Spares id) {own : Handle}
    (taken : c.TakenUp id) (htopic : own.topic = topic)
    (attends : c.ledger.Attends own (.call id) c.events)
    (heeds : SharedClient.Heeds (Chronicle.asked id own c.events c.client.task.connection.registry) id
      c.client c.effects) : Pursuit id topic (c.act x) := by
  have hattends := attends.run _ (h.deed.others hs)
  rw [← h.ledger, ← h.events] at hattends
  refine .asked own (h.takenUp taken) htopic hattends (h.heeds heeds (fun _ hwait => hwait)
    (fun result queue hq hgave => ?_)
    (h.allows_asked hw hcl hattends fun result hr => absurd hr (h.silent hs))
    fun hr => .inr ((hcl.act hw x).dead hr own))
  cases result with
  | ok a =>
    obtain ⟨ha, v, hv, hgood⟩ := hgave
    exact ⟨ha, v, h.events ▸ List.mem_append_left _ hv, hgood⟩
  | error failure =>
    obtain hqueued | hdead := hgave
    · rw [hq] at hqueued
      obtain hnow | hlater := List.mem_append.mp hqueued
      · exact .inr (h.not_lives hw hcl attends.given (.inl (Option.mem_toList.mp hnow)))
      · exact .inl hlater
    · exact .inr (h.not_lives hw hcl attends.given (.inr hdead))

/-- **The task does something** for others, or it takes the request. -/
theorem deed (h : Pursuit id topic c) (hw : c.OnWire) (hcl : c.Cleared) (hch : c.InChannel xs)
    (hn : (xs.filterMap Happening.id?).Nodup) (hown : Subscriber xs id topic)
    (hd : c.client.deed? x = some d) : Pursuit id topic (c.act x) := by
  have hdoes := does hw hd
  cases h with
  | waiting untaken heeds =>
    by_cases hs : d.Spares id
    · refine .waiting ?_ (hdoes.heeds heeds (fun _ hwait => hwait) (fun _ _ _ hgave => ?_)
        (hdoes.allows_asking hs) fun hlost => ⟨hlost, _, rfl, rfl⟩)
      · rintro ⟨op, hop, hk⟩
        rw [hdoes.ops] at hop
        obtain hop | hop := List.mem_append.mp hop
        · exact untaken ⟨op, hop, hk⟩
        · exact hdoes.deed.others hs op hop hk
      · cases hdoes.running.symm.trans hgave.1
    · rw [SharedClient.Deed.Spares] at hs
      push Not at hs
      obtain ⟨r, htaken, cs, hcs⟩ := hs
      obtain ⟨persistence, listener, rfl⟩ := hown.request (hch.requests r (hdoes.mem_queue htaken)) hcs
      exact ask hdoes hw hcl untaken heeds htaken
  | denied taken none heeds =>
    have hs := hdoes.spares hch hn taken
    exact .denied (hdoes.takenUp taken) (hdoes.ledger ▸ none.run nofun (hdoes.deed.others hs))
      (hdoes.heeds heeds (fun _ hwait => hwait) (fun _ _ _ hgave => hgave) (hdoes.allows_asking hs)
        fun _ => ⟨trivial, _, rfl, rfl⟩)
  | asked own taken htopic attends heeds =>
    exact keep hdoes hw hcl (hdoes.spares hch hn taken) taken htopic attends heeds

theorem act (h : Pursuit id topic c) (hw : c.OnWire) (hcl : c.Cleared) (hch : c.InChannel xs)
    (hn : (xs.filterMap Happening.id?).Nodup) (hown : Subscriber (xs ++ [x]) id topic) :
    Pursuit id topic (c.act x) := by
  cases hd : c.client.deed? x with
  | some d => exact h.deed hw hcl hch hn (fun y hy => hown y (List.mem_append_left _ hy)) hd
  | none =>
    refine h.rests hcl hd fun hid => ?_
    obtain ⟨_, _, rfl⟩ := hown x (List.mem_append_right _ (List.mem_singleton_self x)) hid
    rfl

/-- **A call is pursued** through all that happens. -/
theorem run (h : Pursuit id topic c) (hw : c.OnWire) (hcl : c.Cleared) (hch : c.InChannel xs)
    (ys : List (Happening α)) (hn : ((xs ++ ys).filterMap Happening.id?).Nodup)
    (hown : Subscriber (xs ++ ys) id topic) : Pursuit id topic (c.run ys) ∧ (c.run ys).Cleared := by
  induction ys generalizing c xs with
  | nil => exact ⟨h, hcl⟩
  | cons y ys ih =>
    have hbefore : (xs.filterMap Happening.id?).Nodup :=
      ((List.sublist_append_left xs (y :: ys)).filterMap _).nodup hn
    rw [List.append_cons] at hn hown
    have hnext := h.act hw hcl hch hbefore fun x hx => hown x (List.mem_append_left _ hx)
    exact ih hnext (hw.act y) (hcl.act hw y) (hch.act hw y) hn hown

end Pursuit

/-! ## What comes of it -/

/-- **What has come of a call that subscribes**, as things stand. -/
structure Subscribes (c : Chronicle α) (id : Nat) (topic : Topic) : Prop where
  /-- The ledger is that of the connection, … -/
  now : c.client.task.running → c.ledger.now = c.client.task.connection
  /-- … and what it accepted is on the wire or outbound, in this order. -/
  bytes : c.client.task.connection.isOpen →
    c.client.task.pipe.transport.taken ++ c.client.task.connection.outbound
      = c.start ++ c.ledger.commands.flatMap Command.encode
  /-- Whoever listens has asked for it. -/
  made : ∀ h, c.client.task.connection.registry.Lives h → ∃ k, .asking h k ∈ c.ledger.accepted
  /-- No registration of a call that failed is there, once the call's request to abandon it was taken. -/
  gone : ∀ failure, .ended id (.error failure) ∈ c.effects →
    ∀ h, .asking h (.call id) ∈ c.ledger.accepted → .abandon h ∉ c.client.queue →
      ¬ c.client.task.connection.registry.Lives h
  /-- If it failed in time, the connection is open and nobody listens to the topic, the server was told
  that the subscription ends, unless one was refused. -/
  told : ∀ deadline, .ended id (.error (.timeout deadline)) ∈ c.effects →
    c.client.task.connection.isOpen → ¬ c.client.task.connection.registry.contains topic →
      ¬ c.ledger.Refused topic → ∃ h, h.topic = topic ∧ c.ledger.Told h (.call id)
  /-- A call that returned a handle got it from an answer to its own command that is no error. -/
  accepted : ∀ answer, .ended id (.ok answer) ∈ c.effects →
    ∃ h, answer = .handle h ∧ h.topic = topic ∧ .asking h (.call id) ∈ c.ledger.accepted ∧
      ∃ v, ((Accepted.asking h (.call id)).entry, v) ∈ c.ledger.answered ∧ v.isError = false

theorem OnWire.bytes (hw : c.OnWire) (ho : c.client.task.connection.isOpen) :
    c.client.task.pipe.transport.taken ++ c.client.task.connection.outbound
      = c.start ++ c.ledger.commands.flatMap Command.encode := by
  have hnow := (hw.atWork (hw.running ho)).2
  have hmatches : Journal.Matches c.journal c.ledger := Journal.matches_new.run c.trail.ops
  have hopen : c.journal.now.stage ≠ .closed := fun hc =>
    Connection.not_isOpen_of_closed hc (hnow ▸ ho)
  have hsent := Journal.sent_run hopen
  rw [← journal, hnow, hw.tape] at hsent
  rw [hw.taken ho, List.append_assoc, hsent, hmatches.commands]

theorem Pursuit.subscribes {topic : Topic} (h : Pursuit id topic c) (hw : c.OnWire) (hcl : c.Cleared) :
    c.Subscribes id topic := by
  have hnow (hr : c.client.task.running) : c.ledger.now = c.client.task.connection :=
    c.now_ledger.trans (hw.atWork hr).2
  have hmade hd (hl : c.client.task.connection.registry.Lives hd) :
      ∃ k, .asking hd k ∈ c.ledger.accepted := by
    cases hr : c.client.task.running with
    | false => exact absurd hl (hcl.dead hr hd)
    | true =>
      rw [← hnow hr] at hl
      exact Ledger.exists_asking (l := {}) Connection.tidy_new
        (fun h' hl' => absurd hl' (Registry.not_lives_empty h')) hl
  have hnobody {hd : Handle} (hnone : c.ledger.PlacedFor (· ≠ some (.call id))) :
      .asking hd (.call id) ∉ c.ledger.accepted := fun hmem => hnone.handler? _ hmem rfl
  have hfails {P : Prop} (hheeds : SharedClient.Heeds (asking P) id c.client c.effects)
      (hnone : c.ledger.PlacedFor (· ≠ some (.call id))) : c.Subscribes id topic := by
    refine ⟨hnow, hw.bytes, hmade, fun _ _ hd hmem => absurd hmem (hnobody hnone), fun deadline hlate => ?_,
      fun answer hok => ?_⟩
    · obtain ⟨-, failure, heq, hnot⟩ := hheeds.ended _ hlate
      cases heq
      cases hnot
    · obtain ⟨-, failure, heq, -⟩ := hheeds.ended _ hok
      cases heq
  cases h with
  | waiting untaken heeds => exact hfails heeds (placedFor_others untaken)
  | denied _ none heeds => exact hfails heeds none
  | asked own _ htopic attends heeds =>
    refine ⟨hnow, hw.bytes, hmade, fun failure hfailed hd hmem hqueue => ?_,
      fun deadline _ hopen hnone hrefused => ?_, fun answer hok => ?_⟩
    · obtain rfl := attends.only hmem
      exact (heeds.ended _ hfailed).resolve_left hqueue
    · have hsame := hnow (hw.running hopen)
      rw [← hsame] at hopen hnone
      rw [← htopic] at hnone hrefused
      exact ⟨own, htopic, attends.told (fun hc => Connection.not_isOpen_of_closed hc hopen) hnone hrefused⟩
    · obtain ⟨rfl, v, hv, hgood⟩ := heeds.ended _ hok
      exact ⟨own, rfl, htopic, attends.mem_accepted, v, (attends.answered v hv).1, hgood⟩

end Chronicle

/-- **A subscription that fails leaves nothing behind**, whoever waited for it and whatever happened
meanwhile: for a client that blocks, after any calls and over any transport; and for a call of a client
with many callers, at any moment and whatever has happened, where calls have numbers of their own. -/
theorem subscriptions_settle :
    (∀ (config : Config) (is : List (BlockingClient.Invocation α)) topic persistence listener,
      let c := ((BlockingClient.new config).script is).2.1
      c.Subscribes topic persistence listener (c.subscribe topic persistence listener)
        (c.subscriptionLedger topic persistence listener)) ∧
    ∀ (b : Beginning) (xs : List (Happening α)) id topic persistence listener,
      (xs.filterMap Happening.id?).Nodup → .subscribe id topic persistence listener ∈ xs →
        ((Chronicle.begin b).run xs).Subscribes id topic := by
  refine ⟨fun config is topic persistence listener =>
    (BlockingClient.standing_script config is).subscribes topic persistence listener,
    fun b xs id topic persistence listener hn hx => ?_⟩
  have hwire : (Chronicle.begin b : Chronicle α).OnWire := Chronicle.onWire_begin b
  have hcleared : (Chronicle.begin b : Chronicle α).Cleared := by cases b <;> nofun
  have hown : Chronicle.Subscriber xs id topic := fun y hy hid =>
    ⟨persistence, listener, Happening.eq_of_id? hn hy hx hid rfl⟩
  obtain ⟨hpursuit, hlast⟩ := (Chronicle.Pursuit.begin b id topic).run hwire hcleared
    (Chronicle.inChannel_begin b) xs hn hown
  exact hpursuit.subscribes (hwire.run xs) hlast

/-- What the call subscribes to. -/
def news : Topic := ⟨.channel, Utf8.encode "news"⟩

/-- A call gives up before the answer comes, and the task takes what it asked for on its way out. -/
def forsaken : List (Happening Nat) :=
  [.subscribe 1 news .persistent 7, .move .request, .giveUp 1, .move .request, .move .request]

def forsook : Chronicle Nat := (Chronicle.begin (.connected {} {} (.isolated []) .plain)).run forsaken

theorem subscriptions_settle_forsook :
    (1, .error (.timeout .command)) ∈ forsook.results ∧ forsook.client.task.connection.isOpen ∧
      ∃ h, h.topic = news ∧ forsook.ledger.Told h (.call 1) ∧
        ¬ forsook.client.task.connection.registry.Lives h := by
  have hsettles : forsook.Subscribes 1 news :=
    subscriptions_settle.2 (.connected {} {} (.isolated []) .plain) forsaken 1 news .persistent 7
      (by decide +kernel) List.mem_cons_self
  have hlate : (1, .error (.timeout .command)) ∈ forsook.results := by decide +kernel
  have hopen : forsook.client.task.connection.isOpen := by decide +kernel
  have hqueue : forsook.client.queue.isEmpty := by decide +kernel
  have hanswered : forsook.ledger.answered.isEmpty := by decide +kernel
  rw [List.isEmpty_iff] at hqueue hanswered
  have hended := Chronicle.mem_results.mp hlate
  obtain ⟨h, htopic, htold⟩ := hsettles.told _ hended hopen (by decide +kernel) fun ⟨p, hp, _⟩ =>
    absurd (hanswered ▸ hp) List.not_mem_nil
  have ⟨before, between, last, after, hacc, _⟩ := htold
  have hasked : .asking h (.call 1) ∈ forsook.ledger.accepted := by
    rw [hacc]
    exact List.mem_append_right _ List.mem_cons_self
  exact ⟨hlate, hopen, h, htopic, htold, hsettles.gone _ hended h hasked (hqueue ▸ List.not_mem_nil)⟩

end RespClient

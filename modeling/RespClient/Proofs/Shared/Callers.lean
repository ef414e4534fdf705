import RespClient.Proofs.Shared.Happening

/-!
# Proofs/Shared/Callers — whose commands they are

    happening    call d 3        commandWith 7 c     subscribe 4 topic
    request      batch cs 3      command c 7         subscribe topic 4
    operation    submitBatch     submit              register
    order        batch cs        command c           subscribe h
    owned        (3, cs)         (7, [c])            (4, [SUBSCRIBE topic])

On its way from a caller to the wire a call is a request, an operation and an order, and at every station
it can be told whose commands they are (`owned?`).  What is no deed of the task leaves it alone and at most
asks it for something (`happen_idles`), so requests leave the queue at its head and join it at its end
(`queue_happen`).  An operation asks for what its request did (`owned_serveOps`), and orders are placed in
the order of the operations (`owned_run`).  So the order is the same at all stations.

Whatever is on its way has been asked for by a caller (`Stems`), but for what calls ask for on their way
out; and a caller gets a value only from the task (`ended_happen`).
-/

namespace RespClient

variable {κ α : Type}

/-! ## Who asks for which commands -/

/-- The commands that a request asks for, and for whom. -/
def Request.owned? : Request α → Option (Caller × List Command)
  | .command c k => some (k, [c])
  | .batch cs k => some (k, cs)
  | .subscribe topic _ _ id => some (.call id, [topic.subscribe])
  | .unsubscribe h k => some (k, [h.topic.unsubscribe])
  | _ => none

/-- The commands that an operation asks for, and for whom. -/
def Op.owned? : Op κ α → Option (κ × List Command)
  | .submit command k => some (k, [command])
  | .submitBatch commands k => some (k, commands)
  | .register topic _ _ k => some (k, [topic.subscribe])
  | .unsubscribe h k => some (k, [h.topic.unsubscribe])
  | _ => none

/-- The commands of an order, and whose they are.  Nobody's are those that the client places on its own
account. -/
def Order.owned? (o : Order κ) : Option (κ × List Command) := o.handler?.map (·, o.commands)

/-! ## Where they stem from -/

/-- **A request stems from what a caller did**, or from a call on its way out. -/
def Request.Stems (xs : List (Happening α)) : Request α → Prop
  | .command c (.call id) => .call (.one c) id ∈ xs
  | .batch cs (.call id) => .call (.many cs) id ∈ xs
  | .subscribe topic persistence listener id => .subscribe id topic persistence listener ∈ xs
  | .unsubscribe h (.call id) => .unsubscribe id h ∈ xs
  | .report failure => failure = .timeout .command
  | _ => True

/-- **An operation stems from what a caller did**, or from the pipe. -/
def Op.Stems (xs : List (Happening α)) : Op Caller α → Prop
  | .submit command (.call id) => .call (.one command) id ∈ xs
  | .submitBatch commands (.call id) => .call (.many commands) id ∈ xs
  | .register topic persistence listener _ => ∃ id, .subscribe id topic persistence listener ∈ xs
  | .unsubscribe h (.call id) => .unsubscribe id h ∈ xs
  | .connectFailed failure | .fail failure => failure.blamesServer = false
  | _ => True

theorem Request.Stems.mono {xs ys : List (Happening α)} (h : xs ⊆ ys) {r : Request α}
    (hr : r.Stems xs) : r.Stems ys := by
  cases r with
  | command command k => cases k <;> first | exact h hr | exact trivial
  | batch commands k => cases k <;> first | exact h hr | exact trivial
  | subscribe topic persistence listener id => exact h hr
  | unsubscribe hd k => cases k <;> first | exact h hr | exact trivial
  | _ => exact hr

theorem Op.Stems.mono {xs ys : List (Happening α)} (h : xs ⊆ ys) {op : Op Caller α}
    (hop : op.Stems xs) : op.Stems ys := by
  cases op with
  | submit command k => cases k <;> first | exact h hop | exact trivial
  | submitBatch commands k => cases k <;> first | exact h hop | exact trivial
  | register topic persistence listener k => exact hop.imp fun _ hid => h hid
  | unsubscribe hd k => cases k <;> first | exact h hop | exact trivial
  | _ => exact hop

/-- **Where nobody registers a listener**, operations are plain. -/
theorem Op.Stems.isPlain {xs : List (Happening α)} (h : ∀ x ∈ xs, x.registers = false)
    {op : Op Caller α} (hop : op.Stems xs) : op.isPlain := by
  cases op with
  | register topic persistence listener k =>
    obtain ⟨id, hid⟩ := hop
    cases h _ hid
  | connectFailed failure => exact congrArg Bool.not hop
  | fail failure => exact congrArg Bool.not hop
  | _ => rfl

theorem Request.IsAside.stems {r : Request α} (h : r.IsAside) (xs : List (Happening α)) :
    r.Stems xs := by
  cases r with
  | report failure => exact h
  | abandon hd => exact trivial
  | _ => exact h.elim

theorem Request.IsAside.owned? {r : Request α} (h : r.IsAside) : r.owned? = none := by
  cases r with
  | report failure => rfl
  | abandon hd => rfl
  | _ => exact h.elim

theorem Aside.owned {asides : List (Request α)} (h : ∀ r ∈ asides, r.IsAside) :
    asides.filterMap Request.owned? = [] :=
  List.filterMap_eq_nil_iff.mpr fun r hr => (h r hr).owned?

/-! ## From the caller to the queue -/

namespace SharedClient

/-- **What joins the queue**: what the caller asks for, and what calls ask for on their way out. -/
structure Joins (c : SharedClient α) (x : Happening α) (added : List (Request α)) : Prop where
  stems : ∀ r ∈ added, r.Stems [x]
  owned : c.task.running → added.filterMap Request.owned? = x.owned?.toList

/-- The request of a caller joins. -/
theorem Joins.request {c : SharedClient α} {x : Happening α} {request : Request α}
    (hs : request.Stems [x]) (ho : request.owned? = x.owned?) : Joins c x [request] := by
  refine ⟨List.forall_mem_singleton.mpr hs, fun _ => ?_⟩
  rw [← ho, List.filterMap_eq_flatMap_toList, List.flatMap_singleton]

/-- Nothing is asked for. -/
theorem Joins.asides {c : SharedClient α} {x : Happening α} (hx : x.owned? = none)
    {asides : List (Request α)} (h : ∀ r ∈ asides, r.IsAside) : Joins c x asides := by
  refine ⟨fun r hr => (h r hr).stems _, fun _ => ?_⟩
  rw [Aside.owned h, hx]
  rfl

/-- Nobody is there to be asked. -/
theorem Joins.nobody {c : SharedClient α} (x : Happening α) (hc : ¬ c.task.running) :
    Joins c x [] := ⟨nofun, fun h => absurd h hc⟩

/-- **What is no deed**: the task is left alone, and most often it is asked for something. -/
inductive Idles (c : SharedClient α) (x : Happening α) : Outcome α → Prop
  /-- A call begins. -/
  | starts (call : Call) {request : Request α} (hs : request.Stems [x])
    (ho : request.owned? = x.owned?) : Idles c x (c.start call request)
  /-- Nobody waits for what is asked for. -/
  | asks (request : Request α) (hs : request.Stems [x]) (ho : request.owned? = x.owned?)
    {effects : List (Effect α)} (he : ∀ id v, .ended id (.ok (.value v)) ∉ effects) :
    Idles c x (c.ask request, effects)
  /-- A call gives up. -/
  | expires (hx : x.owned? = none) (id : Nat) : Idles c x (c.reactOne id Waiting.expire)
  /-- Calls have their turn. -/
  | looks (hx : x.owned? = none) :
    Idles c x (c.react (Call.look c.clock c.task.published (!c.task.running)))
  | rests (hx : x.owned? = none) {next : SharedClient α} (ht : Rests c.task next.task)
    (hq : next.queue = c.queue) {effects : List (Effect α)}
    (he : ∀ id v, .ended id (.ok (.value v)) ∉ effects) : Idles c x (next, effects)

/-- Nothing is to be heard of. -/
theorem Idles.silent {c next : SharedClient α} {x : Happening α} (hx : x.owned? = none)
    (ht : Rests c.task next.task) (hq : next.queue = c.queue) : Idles c x (next, []) :=
  .rests hx ht hq fun _ _ => List.not_mem_nil

theorem happen_idles {c : SharedClient α} {x : Happening α} (h : c.deed? x = none) :
    Idles c x (c.happen x) := by
  have hself : x ∈ [x] := List.mem_singleton_self x
  cases x with
  | call data id =>
    cases data with
    | one command => exact .starts _ hself rfl
    | many commands => exact .starts _ hself rfl
  | commandWith handler faulty command =>
    refine .asks (.command command (.callback handler faulty)) trivial rfl fun id v => ?_
    split
    · exact List.not_mem_nil
    · exact fun hmem => nomatch List.mem_singleton.mp hmem
  | subscribe id topic persistence listener => exact .starts _ hself rfl
  | unsubscribe id hd => exact .starts _ hself rfl
  | connect id =>
    rw [happen, connect]
    split
    · exact .starts _ trivial rfl
    · exact .rests rfl (.refl _) rfl fun _ _ hmem => by cases List.mem_singleton.mp hmem
  | connectTo id endpoint => exact .starts _ trivial rfl
  | disconnect => exact .asks .disconnect trivial rfl fun _ _ => List.not_mem_nil
  | observe observer => exact .asks (.observe observer) trivial rfl fun _ _ => List.not_mem_nil
  | giveUp id => exact .expires rfl id
  | arrive _ | gate _ | schedule _ => exact .silent rfl ⟨rfl, rfl, rfl, rfl, rfl⟩ rfl
  | waitFor _ _ | cancel _ | release | elapse _ | reroute _ => exact .silent rfl (.refl _) rfl
  | move m =>
    rw [happen]
    unfold deed? at h
    dsimp only at h
    split at h
    · rename_i hm
      rw [if_pos hm]
      cases m with
      | callers => exact .looks rfl
      | rest => exact .silent rfl (.refl _) rfl
      | request =>
        dsimp only at h
        rw [Option.map_eq_none_iff, List.head?_eq_none_iff] at h
        rw [make, serve, h]
        exact .silent rfl (.refl _) rfl
      | _ => cases h
    · rename_i hm
      rw [if_neg hm]
      exact .silent rfl (.refl _) rfl

namespace Idles

variable {c : SharedClient α} {x : Happening α} {o : Outcome α}

/-- **The task is left alone.** -/
theorem task (h : Idles c x o) : Rests c.task o.1.task := by
  cases h with
  | starts call _ _ =>
    rw [start]
    split
    · rw [enqueue_eq]
      exact .refl _
    · exact .refl _
  | asks _ _ _ _ =>
    rw [ask]
    split
    · rw [enqueue_eq]
      exact .refl _
    · exact .refl _
  | expires _ id =>
    unfold reactOne
    split
    · exact .refl _
    · dsimp only
      split
      · exact .refl _
      · rw [enqueue_eq]
        exact .refl _
  | looks _ =>
    rw [task_react]
    exact .refl _
  | rests _ ht _ _ => exact ht

/-- **Requests join the queue at its end.** -/
theorem queue (h : Idles c x o) : ∃ added, o.1.queue = c.queue ++ added ∧ Joins c x added := by
  cases h with
  | starts call hs ho =>
    rw [start]
    split
    · rw [enqueue_eq]
      exact ⟨_, rfl, .request hs ho⟩
    · rename_i hr
      exact ⟨[], (List.append_nil _).symm, .nobody x hr⟩
  | asks _ hs ho _ =>
    rw [ask]
    split
    · rw [enqueue_eq]
      exact ⟨_, rfl, .request hs ho⟩
    · rename_i hr
      exact ⟨[], (List.append_nil _).symm, .nobody x hr⟩
  | expires hx id =>
    obtain ⟨asides, ha, hq⟩ := c.aside_reactOne id Waiting.modest_expire
    exact ⟨asides, hq, .asides hx ha⟩
  | looks hx =>
    obtain ⟨asides, ha, hq⟩ := c.aside_react fun call => call.modest_look _ _ _
    exact ⟨asides, hq, .asides hx ha⟩
  | rests hx _ hq _ => exact ⟨[], hq.trans (List.append_nil _).symm, .asides hx nofun⟩

/-- No caller gets a value. -/
theorem valueless (h : Idles c x o) (id : Nat) (v : Value) : .ended id (.ok (.value v)) ∉ o.2 := by
  cases h with
  | starts call _ _ =>
    rw [start]
    split
    · exact List.not_mem_nil
    · exact fun hmem => nomatch List.mem_singleton.mp hmem
  | asks _ _ _ he => exact he id v
  | expires _ n =>
    intro hmem
    obtain ⟨-, w, hw⟩ := c.ended_reactOne hmem
    exact w.valueless_expire v hw
  | looks _ => exact c.ended_react fun call => call.valueless_look _ _ _
  | rests _ _ _ he => exact he id v

end Idles

variable (c : SharedClient α) (x : Happening α)

/-- **Requests leave the queue at its head and join it at its end.** -/
theorem queue_happen :
    ∃ added, ((c.deed? x).bind Deed.taken).toList ++ (c.happen x).1.queue = c.queue ++ added ∧
      Joins c x added := by
  cases hd : c.deed? x with
  | some d =>
    obtain ⟨⟨m, rfl⟩, -, -, queue, hq, hhappen⟩ := happen_deed hd
    obtain ⟨asides, ha, hqueue⟩ :=
      aside_spread ({ c with task := d.step.1, queue, resting := false }) d.step.2
    refine ⟨asides, ?_, .asides rfl ha⟩
    rw [hhappen, hqueue, hq, List.append_assoc]
    rfl
  | none => exact (happen_idles hd).queue

variable {c x}

/-- **A caller gets a value** only when the task tells of a reply to it. -/
theorem ended_happen {id : Nat} {v : Value} (h : .ended id (.ok (.value v)) ∈ (c.happen x).2) :
    ∃ d, c.deed? x = some d ∧ .replied (.call id) (.ok v) ∈ Task.events d.step.2 := by
  cases hd : c.deed? x with
  | some d =>
    obtain ⟨-, -, -, queue, -, hhappen⟩ := happen_deed hd
    rw [hhappen] at h
    exact ⟨d, rfl, ended_spread _ h⟩
  | none => exact absurd h ((happen_idles hd).valueless id v)

end SharedClient

/-! ## From the queue to the connection -/

namespace Task

/-- An attempt to connect that fails is not the server's fault. -/
theorem blamesServer_openStream {network : Network} {endpoint : Endpoint} {deadline : Option Duration}
    {failure : Failure} (h : openStream network endpoint deadline = .error failure) :
    failure.blamesServer = false := by
  unfold openStream at h
  split at h
  · cases h
    exact Failure.blamesServer_ofFault _ _
  · cases h
    split
    · rfl
    · exact Failure.blamesServer_ofFault _ _
  · split at h
    · cases h
      rfl
    · split at h
      · cases h
        exact Failure.blamesServer_ofFault _ _
      · cases h

variable (t : Task α)

/-- **An operation asks for what its request did.** -/
theorem owned_serveOps (network : Network) (request : Request α) :
    (t.serveOps network request).filterMap Op.owned? = request.owned?.toList := by
  cases request with
  | connect call endpoint =>
    rw [serveOps]
    split
    · split <;> rfl
    · rfl
  | _ => rfl

theorem stems_serveOps (network : Network) {request : Request α} {xs : List (Happening α)}
    (h : request.Stems xs) : ∀ op ∈ t.serveOps network request, op.Stems xs := by
  cases request with
  | connect call endpoint =>
    rw [serveOps]
    split
    · split
      · exact List.forall_mem_cons.mpr ⟨trivial, List.forall_mem_singleton.mpr trivial⟩
      · rename_i hf
        exact List.forall_mem_cons.mpr
          ⟨trivial, List.forall_mem_singleton.mpr (blamesServer_openStream hf)⟩
    · exact List.forall_mem_singleton.mpr trivial
  | command command k =>
    refine List.forall_mem_singleton.mpr ?_
    cases k <;> exact h
  | batch commands k =>
    refine List.forall_mem_singleton.mpr ?_
    cases k <;> exact h
  | subscribe topic persistence listener id => exact List.forall_mem_singleton.mpr ⟨id, h⟩
  | unsubscribe hd k =>
    refine List.forall_mem_singleton.mpr ?_
    cases k <;> exact h
  | report failure =>
    refine List.forall_mem_singleton.mpr ?_
    rw [show failure = .timeout .command from h]
    rfl
  | _ => exact List.forall_mem_singleton.mpr trivial

end Task

/-- What the task does on account of its pipe, or at its end, it does for nobody. -/
theorem Trail.Passive.stems {trail : Trail Caller α} (h : trail.Passive) (xs : List (Happening α)) :
    ∀ op ∈ trail.ops, op.Stems xs := by
  intro op hop
  have hp := h op hop
  cases op with
  | connectFailed failure => exact (Bool.not_eq_true' _).mp hp
  | fail failure => exact (Bool.not_eq_true' _).mp hp
  | _ => first | exact trivial | cases hp

theorem Trail.Passive.owned {trail : Trail κ α} (h : trail.Passive) :
    trail.ops.filterMap Op.owned? = [] :=
  List.filterMap_eq_nil_iff.mpr fun op hop => by
    have hp := h op hop
    cases op <;> first | rfl | cases hp

theorem Task.passive_readTrail (t : Task α) : t.readTrail.Passive := by
  rw [readTrail]
  split
  · exact .singleton rfl _
  · exact .singleton rfl _
  · exact .fault _

theorem Task.passive_writeTrail (t : Task α) : t.writeTrail.Passive := by
  rw [writeTrail]
  split
  · exact .singleton rfl _
  · exact .singleton rfl _
  · exact .fault _

namespace SharedClient.Deed.Of

variable {c : SharedClient α} {d : Deed α}

/-- **A deed is done for whoever asked for it.** -/
theorem owned (h : d.Of c) :
    d.trail.ops.filterMap Op.owned? = d.taken.toList.filterMap Request.owned? := by
  cases h with
  | read _ => exact c.task.passive_readTrail.owned
  | write _ => exact c.task.passive_writeTrail.owned
  | request _ =>
    rw [Task.owned_serveOps, Option.toList_some, List.filterMap_eq_flatMap_toList, List.flatMap_singleton]
  | stop => rfl

theorem stems (h : d.Of c) {xs : List (Happening α)} (hq : ∀ r ∈ c.queue, r.Stems xs) :
    ∀ op ∈ d.trail.ops, op.Stems xs := by
  cases h with
  | read _ => exact c.task.passive_readTrail.stems xs
  | write _ => exact c.task.passive_writeTrail.stems xs
  | request hr => exact c.task.stems_serveOps c.network (hq _ (hr ▸ List.mem_cons_self))
  | stop => exact List.forall_mem_singleton.mpr trivial

end SharedClient.Deed.Of

/-! ## From the connection to the wire -/

namespace Connection

/-- What messages place is the client's own. -/
theorem owned_partings (c : Connection κ α) (vs : List Value) :
    (c.partings vs).filterMap Order.owned? = [] := by
  induction vs generalizing c with
  | nil => rfl
  | cons v vs ih =>
    rw [partings, List.filterMap_append, ih, List.append_nil]
    cases hp : (c.pushed? v).bind c.parting? with
    | none => rfl
    | some o =>
      obtain ⟨push, -, ho⟩ := Option.bind_eq_some_iff.mp hp
      rw [parting?] at ho
      split at ho <;> cases ho
      rfl

end Connection

namespace Journal

/-- **An order that is somebody's** was placed by an operation. -/
theorem exists_order? {j : Journal κ α} {ops : List (Op κ α)} {o : Order κ}
    (h : o ∈ (j.run ops).orders) (ho : o.handler?.isSome) :
    o ∈ j.orders ∨ ∃ op ∈ ops, ∃ c : Connection κ α, c.order? op = some o := by
  induction ops generalizing j with
  | nil => exact .inl h
  | cons op ops ih =>
    obtain hmem | ⟨op', hop, hc⟩ := ih (j := j.act op) h
    · obtain hold | hnew := List.mem_append.mp hmem
      · exact .inl hold
      · refine .inr ⟨op, List.mem_cons_self, j.now, ?_⟩
        by_cases hf : ∃ input, op = .feed input
        · obtain ⟨input, rfl⟩ := hf
          have howned := List.filterMap_eq_nil_iff.mp
            (Connection.owned_partings j.now (j.now.routes (.feed input))) o hnew
          rw [Order.owned?, Option.map_eq_none_iff] at howned
          rw [howned] at ho
          cases ho
        · rw [Connection.ordered_eq _ fun input h => hf ⟨input, h⟩] at hnew
          exact Option.mem_toList.mp hnew
    · exact .inr ⟨op', List.mem_cons_of_mem _ hop, hc⟩

end Journal

end RespClient

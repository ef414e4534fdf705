import RespClient.Proofs.Connection.Queue
import RespClient.Proofs.Registry

/-!
# Proofs/Connection/Effect — what an operation comes to

An operation that neither feeds nor ends the conversation places one order or none (`order?`), and the
same goes for a message (`parting?`).  Two descriptions say all that later proofs use:

* `Places` — what becomes of the queue: the order stands at its end, and everything else in it stays;
* `Moves` — what becomes of the registry: it stays as it was, a registration enters it with its
  `SUBSCRIBE`, some leave it whose topics others listen to, or the last of a topic leave it with its
  `UNSUBSCRIBE`.
-/

namespace RespClient

/-- Whether the operation is a request of the client, and no end of the conversation. -/
def Op.asks {κ α : Type} : Op κ α → Bool
  | feed _ | written _ | fail _ | close => false
  | _ => true

/-- The handle of the registration that the order is about. -/
def Order.registers? {κ : Type} : Order κ → Option Handle
  | subscribe h _ => some h
  | _ => none

theorem Order.registers?_of_isPlain {κ : Type} {o : Order κ} (h : o.isPlain) :
    o.registers? = none := by
  cases o with
  | subscribe hd k => cases h
  | _ => rfl

namespace Connection

variable {κ α : Type}

/-! ## The order an operation places -/

/-- Whether the handle's registration is the last of its topic. -/
def leaves (c : Connection κ α) (h : Handle) : Bool :=
  (c.registry.remove? h).any fun r => !r.contains h.topic

/-- **The order an operation places**, if it places one. -/
def order? (c : Connection κ α) : Op κ α → Option (Order κ)
  | .submit command k =>
    if (c.refusal? command).isNone then some (.command command k) else none
  | .submitBatch commands k =>
    if !commands.isEmpty && (commands.findSome? c.refusal?).isNone then some (.batch commands k)
    else none
  | .register topic _ _ k =>
    if c.isOpen then some (.subscribe ⟨c.nextHandle, topic⟩ k) else none
  | .unsubscribe h k =>
    if c.isOpen && c.leaves h then some (.unsubscribe h.topic (some k)) else none
  | .abandon h => if c.isOpen && c.leaves h then some (.unsubscribe h.topic none) else none
  | _ => none

/-- **The order a message places**, if its single-shot listeners were the last of its topic. -/
def parting? (c : Connection κ α) (push : Push) : Option (Order κ) :=
  if 0 < (c.registry.delivery push.topic).singleShot
      && !(c.registry.spend push.topic).contains push.topic then
    some (.unsubscribe push.topic none)
  else none

/-- The connection with an order placed, if there is one. -/
def placed (c : Connection κ α) : Option (Order κ) → Connection κ α
  | none => c
  | some o => c.place o

/-! ## The queue -/

/-- **The order is placed, and nothing else happens to the queue.** -/
structure Places (c c' : Connection κ α) (o? : Option (Order κ)) : Prop where
  pending : c'.pending = (c.placed o?).pending
  batches : c'.batches = (c.placed o?).batches
  nextBatch : c'.nextBatch = (c.placed o?).nextBatch
  acksOwed : c'.acksOwed = (c.placed o?).acksOwed
  outbound : c'.outbound = (c.placed o?).outbound
  decoder : c'.decoder = c.decoder

theorem Places.refl (c : Connection κ α) : Places c c none := ⟨rfl, rfl, rfl, rfl, rfl, rfl⟩

/-- The stage plays no part. -/
theorem Places.stage (c : Connection κ α) (stage : Lifecycle) : Places c { c with stage } none :=
  ⟨rfl, rfl, rfl, rfl, rfl, rfl⟩

/-- The registry plays no part. -/
theorem Places.registry (c : Connection κ α) (registry : Registry α) :
    Places c { c with registry } none := ⟨rfl, rfl, rfl, rfl, rfl, rfl⟩

theorem Places.refresh {c c' : Connection κ α} {o? : Option (Order κ)} (h : Places c c' o?) :
    Places c c'.refresh o? :=
  ⟨(refresh_pending c').trans h.pending, (refresh_batches c').trans h.batches,
    (refresh_nextBatch c').trans h.nextBatch, (refresh_acksOwed c').trans h.acksOwed,
    (refresh_outbound c').trans h.outbound, (refresh_decoder c').trans h.decoder⟩

/-- What is owed after an order is placed. -/
theorem Places.owes {c c' : Connection κ α} {o? : Option (Order κ)} (h : Places c c' o?)
    {due : List (Due κ)} (hc : Owes c due) (ho : ∀ o, o? = some o → o.commands ≠ []) :
    Owes c' (due ++ (o?.map fun o => ⟨o, c.nextBatch, []⟩).toList) := by
  cases o? with
  | none =>
    rw [Option.map_none, Option.toList_none, List.append_nil]
    exact hc.congr h.pending h.batches h.nextBatch h.acksOwed
  | some o => exact (hc.place (ho o rfl)).congr h.pending h.batches h.nextBatch h.acksOwed

theorem order?_commands {c : Connection κ α} {op : Op κ α} {o : Order κ}
    (ho : c.order? op = some o) : o.commands ≠ [] ∧ o.handler? = op.handler? := by
  cases op <;> simp only [order?, Option.ite_none_right_eq_some, Option.some.injEq, reduceCtorEq]
    at ho
  case submitBatch commands k =>
    obtain ⟨h, rfl⟩ := ho
    refine ⟨fun hn => ?_, rfl⟩
    rw [Order.commands] at hn
    simp [hn] at h
  all_goals
    obtain ⟨-, rfl⟩ := ho
    exact ⟨List.cons_ne_nil _ _, rfl⟩

theorem parting?_commands {c : Connection κ α} {push : Push} {o : Order κ}
    (ho : c.parting? push = some o) : o.commands ≠ [] ∧ o.handler? = none := by
  simp only [parting?, Option.ite_none_right_eq_some, Option.some.injEq] at ho
  obtain ⟨-, rfl⟩ := ho
  exact ⟨List.cons_ne_nil _ _, rfl⟩

/-- **The effect of an operation**: it places its order, or it calls its handler at once. -/
structure Effect (c : Connection κ α) (turn : Turn κ α) (o? : Option (Order κ)) (k? : Option κ) :
    Prop where
  places : Places c turn.1 o?
  calls : called turn.2 = if o?.isSome then [] else k?.toList

theorem effect_place {c c' : Connection κ α} {o : Order κ} (k? : Option κ)
    (h : Places c c' (some o)) : Effect c (c', []) (some o) k? := ⟨h, rfl⟩

theorem effect_refuse (c : Connection κ α) (k : κ) (failure : Failure) :
    Effect c (c.refuse (.handler k) failure) none (some k) := ⟨.refl c, rfl⟩

theorem effect_beginConnect (c : Connection κ α) : Effect c c.beginConnect.2 none none := by
  rw [beginConnect]
  split
  · exact ⟨.stage c _, rfl⟩
  · exact ⟨.refl c, rfl⟩

theorem effect_connectSucceeded (c : Connection κ α) :
    Effect c (c.connectSucceeded, []) none none := by
  rw [connectSucceeded]
  split
  · exact ⟨.stage c _, rfl⟩
  · exact ⟨.refl c, rfl⟩

theorem effect_connectFailed (c : Connection κ α) (failure : Failure) :
    Effect c (c.connectFailed failure) none none := by
  unfold connectFailed
  dsimp only
  split
  · exact ⟨.stage c _, rfl⟩
  · exact ⟨.refl c, rfl⟩

theorem effect_submit (c : Connection κ α) (command : Command) (k : κ) :
    Effect c (c.submit command (.handler k)) (c.order? (.submit command k)) (some k) := by
  rw [submit]
  rw [order?]
  cases c.refusal? command with
  | some failure => exact effect_refuse c k failure
  | none =>
    refine effect_place _ ⟨rfl, (List.append_nil _).symm, rfl, rfl, ?_, rfl⟩
    exact congrArg (c.outbound ++ ·) (List.append_nil _).symm

theorem effect_submitBatch (c : Connection κ α) (commands : List Command) (k : κ) :
    Effect c (c.submitBatch commands k) (c.order? (.submitBatch commands k)) (some k) := by
  rw [submitBatch]
  rw [order?]
  cases commands with
  | nil =>
    simp only [List.isEmpty_nil, if_true]
    cases c.closedTo? "pipeline" with
    | some failure => exact effect_refuse c k failure
    | none => exact ⟨.refl c, rfl⟩
  | cons command commands =>
    simp only [List.isEmpty_cons, Bool.false_eq_true, if_false]
    cases (command :: commands).findSome? c.refusal? with
    | some failure => exact effect_refuse c k failure
    | none => exact effect_place _ ⟨rfl, rfl, rfl, rfl, rfl, rfl⟩

theorem effect_register (c : Connection κ α) (topic : Topic) (persistence : Persistence)
    (listener : α) (k : κ) :
    Effect c (c.register topic persistence listener (.handler k)).2
      (c.order? (.register topic persistence listener k)) (some k) := by
  rw [register, closedTo?]
  rw [order?]
  by_cases h : c.isOpen
  · rw [if_pos h, if_pos h]
    refine effect_place _ (Places.refresh ⟨rfl, (List.append_nil _).symm, rfl, rfl, ?_, rfl⟩)
    exact congrArg (c.outbound ++ ·) (List.append_nil _).symm
  · rw [if_neg h, if_neg h]
    exact effect_refuse c k _

theorem places_sendUnsubscribe (c : Connection κ α) (registry : Registry α) (topic : Topic)
    (k : Option κ) :
    Places c (sendUnsubscribe { c with registry } topic (k.elim .nobody .handler)).refresh
      (some (.unsubscribe topic k)) := by
  refine Places.refresh ⟨rfl, (List.append_nil _).symm, rfl, rfl, ?_, rfl⟩
  exact congrArg (c.outbound ++ ·) (List.append_nil _).symm

theorem effect_unsubscribe (c : Connection κ α) (h : Handle) (k : κ) :
    Effect c (c.unsubscribe h (.handler k)) (c.order? (.unsubscribe h k)) (some k) := by
  rw [unsubscribe, closedTo?]
  rw [order?]
  by_cases ho : c.isOpen
  · rw [if_pos ho, ho, Bool.true_and, leaves]
    cases c.registry.remove? h with
    | none => exact ⟨(Places.refl c).refresh, rfl⟩
    | some registry =>
      simp only [Option.getD_some, Option.isSome_some, Bool.true_and, Option.any_some]
      by_cases hc : (!registry.contains h.topic) = true
      · rw [if_pos hc, if_pos hc]
        exact effect_place _ (places_sendUnsubscribe c registry h.topic (some k))
      · rw [if_neg hc, if_neg hc]
        exact ⟨(Places.registry c registry).refresh, rfl⟩
  · rw [if_neg ho, Bool.eq_false_iff.mpr ho, Bool.false_and]
    exact effect_refuse c k _

theorem effect_abandon (c : Connection κ α) (h : Handle) :
    Effect c (c.abandon h, []) (c.order? (.abandon h)) (none : Option κ) := by
  rw [abandon]
  rw [order?, leaves]
  cases c.registry.remove? h with
  | none =>
    rw [Option.any_none, Bool.and_false]
    exact ⟨.refl c, rfl⟩
  | some registry =>
    dsimp only [Option.any_some]
    rw [show isOpen { c with registry } = c.isOpen from rfl]
    by_cases hc : (c.isOpen && !registry.contains h.topic) = true
    · rw [if_pos hc, if_pos hc]
      exact effect_place _ (places_sendUnsubscribe c registry h.topic none)
    · rw [if_neg hc, if_neg hc]
      exact ⟨(Places.registry c registry).refresh, rfl⟩

/-- **An operation places its order or none.** -/
theorem perform_effect (c : Connection κ α) {op : Op κ α} (h : op.asks) :
    Effect c (c.perform op) (c.order? op) op.handler? := by
  cases op with
  | beginConnect => exact effect_beginConnect c
  | connectSucceeded => exact effect_connectSucceeded c
  | connectFailed failure => exact effect_connectFailed c failure
  | observe name => exact ⟨⟨rfl, rfl, rfl, rfl, rfl, rfl⟩, rfl⟩
  | submit command k => exact effect_submit c command k
  | submitBatch commands k => exact effect_submitBatch c commands k
  | register topic persistence listener k => exact effect_register c topic persistence listener k
  | unsubscribe hd k => exact effect_unsubscribe c hd k
  | abandon hd => exact effect_abandon c hd
  | feed _ => cases h
  | written _ => cases h
  | fail _ => cases h
  | close => cases h

theorem isOpen_of_refusal? {c : Connection κ α} {command : Command}
    (h : c.refusal? command = none) : c.isOpen := by
  rw [refusal?] at h
  rw [isOpen]
  split at h
  · rename_i hs
    rw [hs]
    rfl
  · rename_i hs
    rw [hs]
    rfl
  · cases h

/-- Orders are placed on an open connection only. -/
theorem isOpen_of_order? {c : Connection κ α} {op : Op κ α} {o : Order κ}
    (ho : c.order? op = some o) : c.isOpen := by
  cases op <;> simp only [order?, Option.ite_none_right_eq_some, reduceCtorEq, Bool.and_eq_true]
    at ho
  case submit command k => exact isOpen_of_refusal? (Option.isNone_iff_eq_none.mp ho.1)
  case submitBatch commands k =>
    obtain ⟨⟨hne, hall⟩, -⟩ := ho
    cases commands with
    | nil => cases hne
    | cons command commands =>
      rw [Option.isNone_iff_eq_none, List.findSome?_eq_none_iff] at hall
      exact isOpen_of_refusal? (hall command List.mem_cons_self)
  case register => exact ho.1
  case unsubscribe => exact ho.1.1
  case abandon => exact ho.1.1

theorem order?_eq_none {c : Connection κ α} (h : ¬ c.isOpen) (op : Op κ α) : c.order? op = none :=
  Option.eq_none_iff_forall_ne_some.mpr fun _ ho => h (isOpen_of_order? ho)

theorem not_isOpen_of_closed {c : Connection κ α} (h : c.stage = .closed) : ¬ c.isOpen := by
  rw [isOpen, h]
  exact Bool.false_ne_true

/-- **A request neither closes nor reopens** the connection. -/
theorem perform_stage (c : Connection κ α) {op : Op κ α} (h : op.asks) :
    (c.isOpen → (c.perform op).1.isOpen) ∧
      ((c.perform op).1.stage = .closed ↔ c.stage = .closed) := by
  cases op with
  | beginConnect =>
    rw [perform, beginConnect]
    split
    · rename_i hs
      simp [isOpen, hs, Lifecycle.isOpen]
    · exact ⟨id, Iff.rfl⟩
  | connectSucceeded =>
    rw [perform, connectSucceeded]
    split
    · rename_i hs
      simp [isOpen, hs, Lifecycle.isOpen]
    · exact ⟨id, Iff.rfl⟩
  | connectFailed failure =>
    rw [perform, connectFailed]
    dsimp only
    split
    · rename_i hs
      simp [isOpen, hs, Lifecycle.isOpen]
    · exact ⟨id, Iff.rfl⟩
  | observe name => exact ⟨id, Iff.rfl⟩
  | submit command k =>
    rw [perform, submit]
    cases c.refusal? command <;> exact ⟨id, Iff.rfl⟩
  | submitBatch commands k =>
    rw [perform, submitBatch]
    dsimp only
    split
    · exact ⟨id, Iff.rfl⟩
    · split <;> exact ⟨id, Iff.rfl⟩
  | register topic persistence listener k =>
    rw [perform, register]
    cases c.closedTo? topic.kind.subscribe with
    | some failure => exact ⟨id, Iff.rfl⟩
    | none => exact ⟨fun ho => (refresh_stage _).1.trans ho, (refresh_stage _).2⟩
  | unsubscribe hd k =>
    rw [perform, unsubscribe]
    cases c.closedTo? hd.topic.kind.unsubscribe with
    | some failure => exact ⟨id, Iff.rfl⟩
    | none =>
      dsimp only
      split <;> exact ⟨fun ho => (refresh_stage _).1.trans ho, (refresh_stage _).2⟩
  | abandon hd =>
    rw [perform, abandon]
    cases c.registry.remove? hd with
    | none => exact ⟨id, Iff.rfl⟩
    | some registry =>
      dsimp only
      split <;> exact ⟨fun ho => (refresh_stage _).1.trans ho, (refresh_stage _).2⟩
  | feed _ => cases h
  | written _ => cases h
  | fail _ => cases h
  | close => cases h

/-- **A message places its order or none**, and calls no handler. -/
theorem deliver_effect (c : Connection κ α) (push : Push) :
    Effect c (c.deliver push) (c.parting? push) none := by
  have hcalled (ls : List α) :
      called (ls.map fun l => Event.delivered (κ := κ) l push.payload) = [] := by
    rw [called, List.filterMap_map]
    exact List.filterMap_eq_nil_iff.mpr fun _ _ => rfl
  rw [deliver, parting?]
  dsimp only
  split
  · exact ⟨places_sendUnsubscribe c _ push.topic none, hcalled _⟩
  · exact ⟨.registry c _, hcalled _⟩

theorem Owes.deliver {c : Connection κ α} {due : List (Due κ)} (h : Owes c due) (push : Push) :
    Owes (c.deliver push).1 (due ++ ((c.parting? push).map fun o => ⟨o, c.nextBatch, []⟩).toList) :=
  (deliver_effect c push).places.owes h fun _ ho => (parting?_commands ho).1

/-! ## The registry -/

/-- **What becomes of a registry** and of the number of the next handle, with the order that comes
with it. -/
inductive Moves (r : Registry α) (next : Nat) : Registry α → Nat → Option (Order κ) → Prop
  /-- It stays as it is. -/
  | stays (o? : Option (Order κ)) (plain : ∀ o, o? = some o → o.isPlain) : Moves r next r next o?
  /-- A registration enters, and the server is asked for its topic. -/
  | enters (topic : Topic) (persistence : Persistence) (listener : α) (k : κ) :
    Moves r next (r.insert ⟨next, topic⟩ persistence listener) (next + 1)
      (some (.subscribe ⟨next, topic⟩ k))
  /-- Registrations leave, and their topics have others. -/
  | thins {r' : Registry α} (sound : r'.Sound next) (fewer : ∀ k, r'.Lives k → r.Lives k)
    (same : ∀ t, r'.contains t ↔ r.contains t) : Moves r next r' next none
  /-- The last registrations of a topic leave, and the server is told. -/
  | leaves {r' : Registry α} (sound : r'.Sound next) (fewer : ∀ k, r'.Lives k → r.Lives k)
    {topic : Topic} (gone : ¬ r'.contains topic)
    (others : ∀ t, t ≠ topic → (r'.contains t ↔ r.contains t)) (k? : Option κ) :
    Moves r next r' next (some (.unsubscribe topic k?))

/-- A sound registry stays sound. -/
theorem Moves.sound {r r' : Registry α} {next next' : Nat} {o? : Option (Order κ)}
    (h : Moves r next r' next' o?) (hs : r.Sound next) : r'.Sound next' := by
  cases h with
  | stays => exact hs
  | enters topic persistence listener k => exact hs.insert topic persistence listener
  | thins sound => exact sound
  | leaves sound => exact sound

/-- Nothing enters without an order. -/
theorem Moves.fewer {r r' : Registry α} {next next' : Nat}
    (h : Moves r next r' next' (none : Option (Order κ))) {k : Handle} (hk : r'.Lives k) :
    r.Lives k := by
  cases h with
  | stays => exact hk
  | thins sound fewer same => exact fewer k hk

/-- Without an order no topic goes either. -/
theorem Moves.contains {r r' : Registry α} {next next' : Nat}
    (h : Moves r next r' next' (none : Option (Order κ))) (t : Topic) :
    r'.contains t ↔ r.contains t := by
  cases h with
  | stays => exact Iff.rfl
  | thins sound fewer same => exact same t

/-- **What enters has the order's handle**, under the next number; without one no number is given. -/
theorem Moves.registers {r r' : Registry α} {next next' : Nat} {o? : Option (Order κ)}
    (h : Moves r next r' next' o?) :
    next' = next + (o?.bind Order.registers?).toList.length ∧
      (∀ k, o?.bind Order.registers? = some k → k.id = next) ∧
        ∀ k, r'.Lives k → r.Lives k ∨ o?.bind Order.registers? = some k := by
  cases h with
  | stays o? plain =>
    have hnone : o?.bind Order.registers? = none := by
      cases o? with
      | none => rfl
      | some o => exact Order.registers?_of_isPlain (plain o rfl)
    rw [hnone]
    exact ⟨rfl, nofun, fun k hk => .inl hk⟩
  | enters topic persistence listener k =>
    refine ⟨rfl, fun k hk => Option.some.inj hk ▸ rfl, fun k hk => ?_⟩
    exact ((Registry.lives_insert _ _ _ _ _).mp hk).imp_right fun heq => congrArg some heq.symm
  | thins sound fewer => exact ⟨rfl, nofun, fun k hk => .inl (fewer k hk)⟩
  | leaves sound fewer => exact ⟨rfl, nofun, fun k hk => .inl (fewer k hk)⟩

theorem Moves.remove? {r r' : Registry α} {next : Nat} (hs : r.Sound next) {h : Handle}
    (hr : r.remove? h = some r') (k? : Option κ) :
    Moves r next r' next
      (if !r'.contains h.topic then some (.unsubscribe h.topic k?) else none) := by
  have hsound := hs.remove? hr
  obtain ⟨hl, hlives⟩ := Registry.lives_of_remove? hs hr
  have hfewer : ∀ k, r'.Lives k → r.Lives k := fun k hk => ((hlives k).mp hk).1
  by_cases hc : r'.contains h.topic
  · rw [hc]
    refine .thins hsound hfewer fun t => ?_
    by_cases ht : t = h.topic
    · rw [ht]
      exact iff_of_true hc (hl.contains hs)
    · exact Registry.contains_remove? hs hr ht
  · rw [Bool.eq_false_iff.mpr hc]
    exact .leaves hsound hfewer hc (fun t ht => Registry.contains_remove? hs hr ht) k?

/-- A handle's registration leaves, if it is there. -/
theorem moves_remove? {c : Connection κ α} (hs : c.registry.Sound c.nextHandle) (h : Handle)
    (k? : Option κ) :
    Moves c.registry c.nextHandle ((c.registry.remove? h).getD c.registry) c.nextHandle
      (if c.leaves h then some (.unsubscribe h.topic k?) else none) := by
  rw [Connection.leaves]
  cases hr : c.registry.remove? h with
  | none => exact .stays none fun _ h => by cases h
  | some registry => exact Moves.remove? hs hr k?

theorem unsubscribe_registry {c : Connection κ α} (ho : c.isOpen) (h : Handle) (k : κ) :
    (c.unsubscribe h (.handler k)).1.registry = (c.registry.remove? h).getD c.registry ∧
      (c.unsubscribe h (.handler k)).1.nextHandle = c.nextHandle := by
  rw [unsubscribe, closedTo?, if_pos ho]
  dsimp only [settle]
  split <;> exact ⟨refresh_registry _, refresh_nextHandle _⟩

theorem abandon_registry (c : Connection κ α) (h : Handle) :
    (c.abandon h).registry = (c.registry.remove? h).getD c.registry ∧
      (c.abandon h).nextHandle = c.nextHandle := by
  rw [abandon]
  cases c.registry.remove? h with
  | none => exact ⟨rfl, rfl⟩
  | some registry =>
    dsimp only
    split <;> exact ⟨refresh_registry _, refresh_nextHandle _⟩

theorem submitBatch_registry (c : Connection κ α) (commands : List Command) (k : κ) :
    (c.submitBatch commands k).1.registry = c.registry ∧
      (c.submitBatch commands k).1.nextHandle = c.nextHandle := by
  rw [submitBatch]
  dsimp only
  split
  · exact ⟨rfl, rfl⟩
  · split <;> exact ⟨rfl, rfl⟩

/-- **A request moves the registry** with the order it places. -/
theorem perform_moves {c : Connection κ α} (hs : c.registry.Sound c.nextHandle)
    (hidle : ¬ c.isOpen → ∀ h, ¬ c.registry.Lives h) {op : Op κ α} (ha : op.asks) :
    Moves c.registry c.nextHandle (c.perform op).1.registry (c.perform op).1.nextHandle
      (c.order? op) := by
  have hstays : Moves c.registry c.nextHandle c.registry c.nextHandle (none : Option (Order κ)) :=
    .stays none fun _ h => by cases h
  cases op with
  | beginConnect =>
    rw [perform, beginConnect]
    split <;> exact hstays
  | connectSucceeded =>
    rw [perform, connectSucceeded]
    split <;> exact hstays
  | connectFailed failure =>
    rw [perform, connectFailed]
    dsimp only
    split <;> exact hstays
  | observe name => exact hstays
  | submit command k =>
    rw [perform, submit, order?]
    cases c.refusal? command with
    | some failure => exact hstays
    | none => exact .stays _ fun o ho => Option.some.inj ho ▸ rfl
  | submitBatch commands k =>
    obtain ⟨hr, hn⟩ := submitBatch_registry c commands k
    rw [perform, hr, hn, order?]
    split
    · exact .stays _ fun o ho => Option.some.inj ho ▸ rfl
    · exact hstays
  | register topic persistence listener k =>
    rw [perform, register, closedTo?, order?]
    by_cases h : c.isOpen
    · rw [if_pos h, if_pos h]
      dsimp only
      rw [refresh_registry, refresh_nextHandle]
      exact .enters topic persistence listener k
    · rw [if_neg h, if_neg h]
      exact hstays
  | unsubscribe hd k =>
    by_cases h : c.isOpen
    · have hm := moves_remove? hs hd (some k)
      obtain ⟨hr, hn⟩ := unsubscribe_registry h hd k
      rw [perform, hr, hn, order?, h, Bool.true_and]
      exact hm
    · rw [perform, unsubscribe, closedTo?, order?, if_neg h, Bool.eq_false_iff.mpr h,
        Bool.false_and]
      exact hstays
  | abandon hd =>
    obtain ⟨hr, hn⟩ := abandon_registry c hd
    rw [perform, hr, hn, order?]
    by_cases h : c.isOpen
    · rw [h, Bool.true_and]
      exact moves_remove? hs hd none
    · cases hr : c.registry.remove? hd with
      | none =>
        rw [Bool.eq_false_iff.mpr h, Bool.false_and]
        exact hstays
      | some registry => exact absurd (Registry.lives_of_remove? hs hr).1 (hidle h hd)
  | feed _ => cases ha
  | written _ => cases ha
  | fail _ => cases ha
  | close => cases ha

/-- **A message moves the registry** with the order it places. -/
theorem deliver_moves {c : Connection κ α} (hs : c.registry.Sound c.nextHandle) (push : Push) :
    Moves c.registry c.nextHandle (c.deliver push).1.registry (c.deliver push).1.nextHandle
      (c.parting? push) := by
  have hsound := hs.spend push.topic
  have hfewer : ∀ k, (c.registry.spend push.topic).Lives k → c.registry.Lives k := fun _ =>
    Registry.Lives.of_spend
  have hothers : ∀ t, t ≠ push.topic →
      ((c.registry.spend push.topic).contains t ↔ c.registry.contains t) := fun _ =>
    Registry.contains_spend hs
  rw [deliver, parting?]
  dsimp only
  split
  · rename_i h
    rw [Bool.and_eq_true, Bool.not_eq_true'] at h
    rw [refresh_registry, refresh_nextHandle]
    exact .leaves hsound hfewer (Bool.eq_false_iff.mp h.2) hothers none
  · rename_i h
    refine .thins hsound hfewer fun t => ?_
    by_cases ht : t = push.topic
    · by_cases hn : 0 < (c.registry.delivery push.topic).singleShot
      · have hc : (c.registry.spend push.topic).contains t := by
          by_contra hc
          exact h (by rw [ht] at hc; simp [hn, hc])
        obtain ⟨id, hid⟩ := (Registry.contains_iff hsound t).mp hc
        exact iff_of_true hc ((hfewer _ hid).contains hs)
      · rw [Registry.contains_iff hsound, Registry.contains_iff hs]
        exact exists_congr fun id => Registry.lives_spend_of_none hn _
    · exact hothers t ht

/-- **A value sends no more than the end of a subscription.** -/
theorem dispatch_outbound (c : Connection κ α) (v : Value) :
    (c.dispatch v).1.outbound = (c.placed ((c.pushed? v).bind c.parting?)).outbound := by
  cases hp : c.pushed? v with
  | some push =>
    rw [dispatch_pushed hp]
    exact (deliver_effect c push).places.outbound
  | none =>
    rw [dispatch_reply hp, answer]
    cases c.pending with
    | nil => rfl
    | cons p ps =>
      dsimp only
      rw [settle_eq, acknowledge_outbound]
      rfl

theorem deliver_registry (c : Connection κ α) (push : Push) :
    (c.deliver push).1.registry = c.registry.spend push.topic := by
  rw [deliver]
  dsimp only
  split
  · exact refresh_registry _
  · rfl

theorem deliver_events (c : Connection κ α) (push : Push) :
    (c.deliver push).2
      = (c.registry.audience push.topic).map fun l => .delivered l push.payload := by
  rw [deliver]
  dsimp only
  split <;> rfl

/-- The handle whose subscription an error refuses. -/
def refused? (c : Connection κ α) (v : Value) : Option Handle :=
  match c.pending with
  | ⟨_, .subscribeAck h⟩ :: _ => if v.isError then some h else none
  | _ => none

/-- **A reply touches the registry only by a refusal**: the handle's registration goes. -/
theorem answer_registry (c : Connection κ α) (v : Value) :
    (c.answer v).1.registry = (match c.refused? v with
      | some h => (c.registry.remove? h).getD c.registry
      | none => c.registry) ∧ (c.answer v).1.nextHandle = c.nextHandle := by
  rw [answer, refused?]
  cases c.pending with
  | nil => exact ⟨rfl, rfl⟩
  | cons p ps =>
    obtain ⟨target, expects⟩ := p
    dsimp only
    rw [settle_eq, acknowledge_nextHandle]
    refine ⟨?_, rfl⟩
    cases expects with
    | reply => rfl
    | unsubscribeAck => rfl
    | subscribeAck h =>
      dsimp only [acknowledge]
      cases v.isError with
      | false => rfl
      | true =>
        simp only [if_true]
        cases c.registry.remove? h with
        | none => rfl
        | some registry => exact refresh_registry _

theorem answer_pending (c : Connection κ α) (v : Value) :
    (c.answer v).1.pending = c.pending.tail := by
  rw [answer]
  cases hp : c.pending with
  | nil => exact hp
  | cons p ps =>
    dsimp only
    rw [settle_eq, acknowledge_pending]
    rfl

/-! ## What every step keeps -/

/-- **What is kept by values, reading, writing and the end**, every operation keeps that is no request. -/
theorem perform_keeps {P : Connection κ α → Prop} (value : ∀ c v, P c → P (c.dispatch v).1)
    (reading : ∀ c d, P c → P (c.reading d)) (written : ∀ c n, P c → P (c.written n))
    (ends : ∀ c c', c.Ends c' → P c → P c') {c : Connection κ α} (h : P c) {op : Op κ α}
    (ha : ¬ op.asks) : P (c.perform op).1 := by
  have hall (vs : List Value) : ∀ c, P c → P (c.dispatchAll vs).1 := by
    induction vs with
    | nil => exact fun c h => h
    | cons v vs ih => exact fun c h => ih _ (value c v h)
  cases op with
  | feed input =>
    by_cases hc : c.stage = .closed
    · rw [perform, (feed_closed hc input).1]
      exact h
    · have hread := reading _ (c.decoder.after input) (hall (c.decoder.values input) c h)
      rw [perform, (feed_eq hc input).1]
      cases c.decoder.fault? input with
      | none => exact hread
      | some cause => exact ends _ _ (ends_fail _ _) hread
  | written n => exact written c n h
  | fail failure => exact ends _ _ (ends_fail c failure) h
  | close => exact ends _ _ (ends_close c) h
  | _ => exact absurd rfl ha

end Connection

end RespClient

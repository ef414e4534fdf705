import RespClient.Proofs.Session.SubscribedMode

/-!
# Proofs/Session/Parting — how subscriptions end

    registrations of t     1 ── 2 ── 1 ── 0          1 ── 0
    sent                   SUBSCRIBE, twice  UNSUBSCRIBE  …
    owed                                     └── an answer ──┘

The server is told that a subscription ends by the step that takes the last registration of its topic,
and by no other (`Connection.run_tells`).  The engine is `Moves`: the registry and the order that comes
with a step say the same about the topics that go (`Step.order?_eq_iff`).

From then on an answer is owed.  The connection counts the answers apart from the queue, and the two
agree (`Owes.acksOwed_eq`), so that messages are told from replies exactly while they may come
(`Connection.run_owing`).
-/

namespace RespClient

variable {κ α : Type}

/-! ## The answers that are owed -/

/-- Whether the entry waits for the answer to the end of a subscription. -/
def Pending.isParting (p : Pending κ) : Bool := p.expects = .unsubscribeAck

/-- **The end of a subscription has one such entry**, and another order has none. -/
theorem Due.countP_entries {d : Due κ} (hu : d.got.length < d.order.commands.length) :
    d.entries.countP Pending.isParting = if d.order.isUnsubscribe then 1 else 0 := by
  cases d, hu using Due.unfinished_cases with
  | batch commands k number got hgot =>
    refine List.countP_eq_zero.mpr fun p hp => ?_
    obtain ⟨i, -, rfl⟩ := List.mem_map.mp (List.mem_of_mem_drop hp)
    exact Bool.false_ne_true
  | command command k => rfl
  | subscribe h k => rfl
  | unsubscribe topic k => rfl

theorem countP_due {due : List (Due κ)} (hu : ∀ d ∈ due, d.got.length < d.order.commands.length) :
    (due.flatMap Due.entries).countP Pending.isParting = due.countP (·.order.isUnsubscribe) := by
  induction due with
  | nil => rfl
  | cons d due ih =>
    rw [List.forall_mem_cons] at hu
    rw [List.flatMap_cons, List.countP_append, Due.countP_entries hu.1, ih hu.2, List.countP_cons,
      Nat.add_comm]

namespace Connection

/-- **The count is that of the entries** in the queue. -/
theorem Owes.acksOwed_eq {c : Connection κ α} {due : List (Due κ)} (h : Owes c due) :
    c.acksOwed = c.pending.countP Pending.isParting := by
  rw [h.acks, h.pending, countP_due h.unfinished]

theorem answer_acksOwed {c : Connection κ α} {p : Pending κ} {ps : List (Pending κ)}
    (h : c.pending = p :: ps) (v : Value) :
    (c.answer v).1.acksOwed = c.acksOwed - if p.isParting then 1 else 0 := by
  rw [answer, h]
  dsimp only
  rw [settle_eq, acknowledge_acksOwed, Pending.isParting]
  simp only [decide_eq_true_eq]

/-- **The answers owed are counted exactly.** -/
structure Owing (c : Connection κ α) : Prop where
  /-- They are those that entries of the queue wait for. -/
  exact : c.acksOwed = c.pending.countP Pending.isParting
  /-- A reply to such an entry counts down by one, and there is one to count; another changes nothing. -/
  covered : ∀ v p ps, c.pushed? v = none → c.pending = p :: ps →
    c.acksOwed = (c.dispatch v).1.acksOwed + if p.isParting then 1 else 0
  /-- While someone is registered or such an entry waits, what has the shape of a message is one; … -/
  messages : ∀ v push, Push.ofValue? v = some push →
    0 < c.registry.size ∨ (∃ p ∈ c.pending, p.isParting) → c.dispatch v = c.deliver push
  /-- … else it is a reply, as is any other value. -/
  replies : ∀ v, Push.ofValue? v = none ∨ c.registry.size = 0 ∧ (∀ p ∈ c.pending, ¬ p.isParting) →
    c.dispatch v = c.answer v
  /-- At the end none is owed. -/
  ended : c.stage = .closed → c.acksOwed = 0
  fails : ∀ failure, (c.fail failure).1.stage = .closed ∧ (c.fail failure).1.acksOwed = 0
  closes : c.close.1.stage = .closed ∧ c.close.1.acksOwed = 0

/-- **Messages are routed** while someone is registered or an answer is owed. -/
theorem routesPushes_iff {c : Connection κ α} (hs : c.registry.Sound c.nextHandle)
    (hc : c.acksOwed = c.pending.countP Pending.isParting) :
    c.routesPushes ↔ 0 < c.registry.size ∨ ∃ p ∈ c.pending, p.isParting := by
  rw [routesPushes, Bool.or_eq_true, Bool.not_eq_true', decide_eq_true_eq, hc, List.countP_pos_iff,
    Registry.size_pos_iff hs]

theorem owing_of {c : Connection κ α} (htidy : c.Tidy) (hacc : c.Accounted) : c.Owing := by
  obtain ⟨due, howes, -⟩ := hacc
  have hexact := howes.acksOwed_eq
  have hroutes := routesPushes_iff htidy.sound hexact
  have hbare {d : Connection κ α} (hd : d.Tidy) (hc : d.stage = .closed) : d.acksOwed = 0 :=
    (hd.bare (not_isOpen_of_closed hc)).acksOwed
  have hfail (failure : Failure) := (ends_fail c failure).closed
  have hclose := (ends_close c).closed
  refine ⟨hexact, fun v p ps hp hcons => ?_, fun v push hv hany => ?_, fun v hv => ?_, hbare htidy,
    fun failure => ⟨hfail failure, ?_⟩, hclose, ?_⟩
  · -- the entry itself is among those that are counted
    have hle : (if p.isParting then 1 else 0) ≤ c.acksOwed := by
      rw [hexact, hcons, List.countP_cons]
      exact Nat.le_add_left _ _
    rw [dispatch_reply hp, answer_acksOwed hcons, Nat.sub_add_cancel hle]
  · exact dispatch_pushed (by rw [Connection.pushed?, if_pos (hroutes.mpr hany), hv])
  · refine dispatch_reply ?_
    rw [Connection.pushed?]
    obtain hv | ⟨hsize, hnone⟩ := hv
    · rw [hv, ite_self]
    · refine if_neg fun hr => ?_
      obtain hpos | ⟨p, hp, hparting⟩ := hroutes.mp hr
      · exact Nat.ne_of_gt hpos hsize
      · exact hnone p hp hparting
  · exact hbare (htidy.ends (ends_fail c failure)) (hfail failure)
  · exact hbare (htidy.ends (ends_close c)) hclose

/-- **The answers owed are counted exactly**, after any operations and between the values of a chunk
that is fed. -/
theorem run_owing (ops : List (Op κ α)) (vs : List Value) :
    Owing ((run {} ops).1.dispatchAll vs : Turn κ α).1 :=
  owing_of (tidy_run ops vs) (accounted_run ops vs)

end Connection

/-! ## A step and its order -/

/-- **A step of a connection**: an operation of the client, or a value from the server. -/
inductive Step (κ α : Type)
  | op (op : Op κ α)
  | value (v : Value)

namespace Step

/-- What the step does. -/
def turn (c : Connection κ α) : Step κ α → Turn κ α
  | op o => c.perform o
  | value v => c.dispatch v

/-- The commands that the user passes in. -/
def commands : Step κ α → List Command
  | op o => o.commands
  | value _ => []

/-- Whether bytes are fed: that is a step for each value in them. -/
def feeds : Step κ α → Bool
  | op (.feed _) => true
  | _ => false

/-- Whether someone stops listening by it, or a message reaches its listeners. -/
def parts (c : Connection κ α) : Step κ α → Bool
  | op (.unsubscribe _ _) | op (.abandon _) => true
  | value v => (c.pushed? v).isSome
  | _ => false

/-- What it leaves of the bytes to be written. -/
def keeps (c : Connection κ α) : Step κ α → Bytes
  | op (.written n) => c.outbound.drop n
  | op (.fail _) | op .close => []
  | _ => c.outbound

/-- **The step sends the commands**: it puts them behind what it leaves of the bytes to be written. -/
def Sends (s : Step κ α) (c : Connection κ α) (cs : List Command) : Prop :=
  (s.turn c).1.outbound = s.keeps c ++ cs.flatMap Command.encode

/-- **The step takes the last registration of a topic**, from a connection that is open. -/
structure Empties (s : Step κ α) (c : Connection κ α) (t : Topic) : Prop where
  opened : c.isOpen
  parts : s.parts c
  before : 0 < (c.registry.delivery t).total
  after : ((s.turn c).1.registry.delivery t).total = 0

/-- The order that comes with the step. -/
def order? (c : Connection κ α) : Step κ α → Option (Order κ)
  | op o => c.order? o
  | value v => (c.pushed? v).bind c.parting?

end Step

namespace Connection

/-- **Where an order comes from**: it is the user's own, or a subscription, or someone stops listening
who was the last of the topic. -/
theorem order?_cases {c : Connection κ α} (hs : c.registry.Sound c.nextHandle) {op : Op κ α}
    {o : Order κ} (ho : c.order? op = some o) :
    o.isPlain ∧ o.commands = op.commands ∨ (∃ h k, o = .subscribe h k) ∨
      ∃ t k?, o = .unsubscribe t k? ∧ c.registry.contains t ∧ (Step.op op).parts c := by
  have hlast {h : Handle} (hl : c.leaves h) : c.registry.contains h.topic := by
    obtain ⟨r, hr, -⟩ := (Option.any_eq_true _ _).mp hl
    exact (Registry.lives_of_remove? hs hr).1.contains hs
  cases op <;> simp only [order?, Option.ite_none_right_eq_some, Option.some.injEq, reduceCtorEq,
    Bool.and_eq_true] at ho
  case submit => exact .inl ⟨ho.2 ▸ rfl, ho.2 ▸ rfl⟩
  case submitBatch => exact .inl ⟨ho.2 ▸ rfl, ho.2 ▸ rfl⟩
  case register => exact .inr (.inl ⟨_, _, ho.2.symm⟩)
  case unsubscribe => exact .inr (.inr ⟨_, _, ho.2.symm, hlast ho.1.2, rfl⟩)
  case abandon => exact .inr (.inr ⟨_, _, ho.2.symm, hlast ho.1.2, rfl⟩)

/-- A topic goes with the end of its subscription only. -/
theorem Moves.told {r r' : Registry α} {next next' : Nat} {o? : Option (Order κ)}
    (h : Moves r next r' next' o?) (hs : r.Sound next) {t : Topic} (ht : r.contains t) :
    (∃ k?, o? = some (.unsubscribe t k?)) ↔ ¬ r'.contains t := by
  cases h with
  | stays o? plain =>
    refine iff_of_false ?_ (not_not_intro ht)
    rintro ⟨k?, rfl⟩
    exact Bool.false_ne_true (plain _ rfl)
  | enters topic persistence listener k =>
    refine iff_of_false nofun (not_not_intro ?_)
    exact (Registry.contains_insert hs _ _ _ _).mpr (.inl ht)
  | thins sound fewer same => exact iff_of_false nofun (not_not_intro ((same t).mpr ht))
  | @leaves _ sound fewer topic gone others k? =>
    refine ⟨?_, fun hn => ⟨k?, ?_⟩⟩
    · rintro ⟨k', heq⟩
      cases heq
      exact gone
    · by_cases hne : t = topic
      · rw [hne]
      · exact absurd ((others t hne).mpr ht) hn

end Connection

namespace Step

variable {c : Connection κ α} {s : Step κ α}

/-- **Where the order of a step comes from.** -/
theorem order?_cases (hs : c.registry.Sound c.nextHandle) {o : Order κ} (ho : s.order? c = some o) :
    o.isPlain ∧ o.commands = s.commands ∨ (∃ h k, o = .subscribe h k) ∨
      ∃ t k?, o = .unsubscribe t k? ∧ c.registry.contains t ∧ s.parts c := by
  match s with
  | op _ => exact Connection.order?_cases hs ho
  | value v =>
    obtain ⟨push, hp, ho⟩ := Option.bind_eq_some_iff.mp ho
    simp only [Connection.parting?, Option.ite_none_right_eq_some, Option.some.injEq,
      Bool.and_eq_true, decide_eq_true_eq] at ho
    obtain ⟨⟨hsingle, -⟩, rfl⟩ := ho
    refine .inr (.inr ⟨_, _, rfl, ?_, Option.isSome_iff_exists.mpr ⟨push, hp⟩⟩)
    exact (Registry.contains_iff_total hs _).mpr (Nat.add_pos_right _ hsingle)

theorem isOpen_of_order? (h : c.Tidy) {o : Order κ} (ho : s.order? c = some o) : c.isOpen := by
  match s with
  | op _ => exact Connection.isOpen_of_order? ho
  | value v =>
    obtain ⟨push, hp, -⟩ := Option.bind_eq_some_iff.mp ho
    by_contra hc
    rw [(h.bare hc).pushed?] at hp
    cases hp

/-- Whoever stops listening moves the registry. -/
theorem moves (h : c.Tidy) (hp : s.parts c) :
    Connection.Moves c.registry c.nextHandle (s.turn c).1.registry (s.turn c).1.nextHandle
      (s.order? c) := by
  match s with
  | op (.unsubscribe _ _) | op (.abandon _) => exact Connection.perform_moves h.sound h.idle rfl
  | value v =>
    obtain ⟨push, hp⟩ := Option.isSome_iff_exists.mp hp
    rw [turn, order?, hp, Connection.dispatch_pushed hp]
    exact Connection.deliver_moves h.sound push

/-- **The end of a subscription is ordered exactly by the step that takes the last registration** of its
topic. -/
theorem order?_eq_iff (h : c.Tidy) (t : Topic) :
    (∃ k?, s.order? c = some (.unsubscribe t k?)) ↔ s.Empties c t := by
  constructor
  · rintro ⟨k?, ho⟩
    obtain ⟨hplain, -⟩ | ⟨hd, k, heq⟩ | ⟨t', k', heq, ht, hp⟩ := order?_cases h.sound ho
    · cases hplain
    · cases heq
    · cases heq
      have hm := moves h hp
      have hgone := (hm.told h.sound ht).mp ⟨k?, ho⟩
      rw [Registry.contains_iff_total (hm.sound h.sound)] at hgone
      exact ⟨isOpen_of_order? h ho, hp, (Registry.contains_iff_total h.sound t).mp ht,
        Nat.eq_zero_of_not_pos hgone⟩
  · intro he
    have hm := moves h he.parts
    refine (hm.told h.sound ((Registry.contains_iff_total h.sound t).mpr he.before)).mpr fun ht => ?_
    exact Nat.ne_of_gt ((Registry.contains_iff_total (hm.sound h.sound) t).mp ht) he.after

/-- The commands that a step sends. -/
def sent (c : Connection κ α) (s : Step κ α) : List Command := (s.order? c).toList.flatMap Order.commands

theorem sends_sent (h : c.Tidy) (hf : ¬ s.feeds) : s.Sends c (s.sent c) := by
  have hplaced {next : Connection κ α} {o? : Option (Order κ)}
      (hout : next.outbound = (c.placed o?).outbound) :
      next.outbound = c.outbound ++ (o?.toList.flatMap Order.commands).flatMap Command.encode := by
    rw [hout, Ledger.placed_outbound, List.flatMap_assoc]
  have hends {next : Connection κ α} (he : c.Ends next) : next.outbound = [] :=
    ((h.ends he).bare (Connection.not_isOpen_of_closed he.closed)).outbound
  match s with
  | value v => exact hplaced (Connection.dispatch_outbound c v)
  | op (.written n) => exact (List.append_nil _).symm
  | op (.fail failure) => exact hends (Connection.ends_fail c failure)
  | op .close => exact hends (Connection.ends_close c)
  | op (.feed input) => exact absurd rfl hf
  | op .beginConnect | op .connectSucceeded | op (.connectFailed _) | op (.observe _)
  | op (.submit _ _) | op (.submitBatch _ _) | op (.register _ _ _ _) | op (.unsubscribe _ _)
  | op (.abandon _) => exact hplaced (Connection.perform_effect c rfl).places.outbound

/-- **Among the commands of a step is the end of a subscription** exactly if the step orders it. -/
theorem mem_sent_iff (h : c.Tidy) (hraw : ∀ command ∈ s.commands, ∀ t : Topic, command ≠ t.unsubscribe)
    (t : Topic) :
    (t.unsubscribe ∈ s.sent c ↔ ∃ k?, s.order? c = some (.unsubscribe t k?)) ∧
      (s.sent c).count t.unsubscribe ≤ 1 := by
  rw [sent]
  cases ho : s.order? c with
  | none => exact ⟨iff_of_false List.not_mem_nil nofun, Nat.zero_le 1⟩
  | some o =>
    rw [Option.toList_some, List.flatMap_singleton]
    obtain ⟨hplain, hcs⟩ | ⟨hd, k, rfl⟩ | ⟨t', k', rfl, -, -⟩ := order?_cases h.sound ho
    · have hnot : t.unsubscribe ∉ o.commands := fun hmem => hraw _ (hcs ▸ hmem) t rfl
      refine ⟨iff_of_false hnot ?_, List.count_eq_zero.mpr hnot ▸ Nat.zero_le 1⟩
      rintro ⟨k?, heq⟩
      cases heq
      cases hplain
    · refine ⟨iff_of_false (fun hmem => ?_) nofun, List.count_le_length⟩
      exact Topic.subscribe_ne_unsubscribe _ _ (List.mem_singleton.mp hmem).symm
    · refine ⟨⟨fun hmem => ⟨k', ?_⟩, ?_⟩, List.count_le_length⟩
      · rw [Topic.unsubscribe_injective (List.mem_singleton.mp hmem)]
      · rintro ⟨k?, heq⟩
        cases heq
        exact List.mem_singleton_self _

end Step

namespace Connection

/-! ## A handle is used up -/

theorem Tidy.refresh_eq_self {c : Connection κ α} (h : c.Tidy) : c.refresh = c := by
  have hm := h.mirrors
  rw [refresh]
  rw [Mirrors] at hm
  split
  · rename_i hs
    rw [hs] at hm
    exact if_pos (Bool.of_not_eq_false fun he => by cases hm.mpr he)
  · rename_i hs
    exact if_neg (Bool.not_eq_true _ ▸ hm.mp hs)
  · rfl

/-- The queue plays no part in the stage. -/
theorem refresh_queue (c : Connection κ α) (pending : List (Pending κ)) :
    refresh { c with pending } = { c.refresh with pending } := by
  obtain ⟨stage, _, _, _, registry, _, _, _, _, _⟩ := c
  cases stage with
  | connected => unfold refresh; cases registry.isEmpty <;> rfl
  | subscribed => unfold refresh; cases registry.isEmpty <;> rfl
  | _ => rfl

/-- **A handler hears at once** that its handle was not the last. -/
theorem unsubscribe_events {c : Connection κ α} (ho : c.isOpen) (h : Handle) (k : κ) :
    (c.unsubscribe h (.handler k)).2 = if c.leaves h then [] else [.replied k (.ok .null)] := by
  rw [unsubscribe, closedTo?, if_pos ho, leaves]
  cases c.registry.remove? h with
  | none => rfl
  | some registry =>
    simp only [Option.getD_some, Option.isSome_some, Bool.true_and, Option.any_some]
    split <;> rfl

/-- **Without its registration a handle does nothing.** -/
theorem Tidy.unsubscribe_dead {c : Connection κ α} (hc : c.Tidy) (ho : c.isOpen) {h : Handle}
    (hl : ¬ c.registry.Lives h) (k : κ) :
    c.unsubscribe h (.handler k) = (c, [.replied k (.ok .null)]) := by
  rw [unsubscribe, closedTo?, if_pos ho, Registry.remove?_of_not_lives hc.sound hl]
  exact congrArg (·, _) hc.refresh_eq_self

theorem Tidy.abandon_dead {c : Connection κ α} (hc : c.Tidy) {h : Handle}
    (hl : ¬ c.registry.Lives h) : c.abandon h = c := by
  rw [abandon, Registry.remove?_of_not_lives hc.sound hl]

/-- **To abandon a registration is to unsubscribe it**, but for the handler. -/
theorem abandon_eq_unsubscribe {c : Connection κ α} (ho : c.isOpen) {h : Handle}
    (hl : c.registry.Lives h) (k : κ) :
    c.abandon h = { (c.unsubscribe h (.handler k)).1 with pending := (c.abandon h).pending } := by
  obtain ⟨registry, hr⟩ := Option.ne_none_iff_exists'.mp fun hn => Registry.remove?_eq_none hn hl
  rw [unsubscribe, closedTo?, if_pos ho, abandon, hr]
  have ho' : isOpen { c with registry } = true := ho
  simp only [Option.getD_some, Option.isSome_some, ho', Bool.true_and]
  split
  · rw [refresh_pending]
    exact refresh_queue (sendUnsubscribe { c with registry } h.topic (.handler k)) _
  · rfl

/-- **The handle is used up**: its number was given, and its registration is not there any more. -/
structure Gone (c : Connection κ α) (h : Handle) : Prop where
  given : h.id < c.nextHandle
  dead : ¬ c.registry.Lives h

variable {c : Connection κ α} {h : Handle}

/-- **Nothing enters under a number that was given.** -/
theorem Gone.moves (hg : c.Gone h) {c' : Connection κ α} {o? : Option (Order κ)}
    (hm : Moves c.registry c.nextHandle c'.registry c'.nextHandle o?) : c'.Gone h := by
  obtain ⟨hnext, hid, hlives⟩ := hm.registers
  refine ⟨hnext ▸ Nat.lt_add_right _ hg.given, fun hl => ?_⟩
  obtain hl | heq := hlives h hl
  · exact hg.dead hl
  · exact Nat.ne_of_lt hg.given (hid h heq)

theorem Gone.ends (hg : c.Gone h) {c' : Connection κ α} (hends : c.Ends c') : c'.Gone h := by
  obtain ⟨-, rfl⟩ | ⟨batches, rfl⟩ := hends
  · exact hg
  · exact ⟨hg.given, Registry.not_lives_empty h⟩

theorem Gone.dispatch (hg : c.Gone h) (hc : c.Tidy) (v : Value) : (c.dispatch v).1.Gone h := by
  cases hp : c.pushed? v with
  | some push =>
    rw [dispatch_pushed hp]
    exact hg.moves (deliver_moves hc.sound push)
  | none =>
    obtain ⟨hregistry, hnext⟩ := answer_registry c v
    rw [dispatch_reply hp]
    refine ⟨hnext ▸ hg.given, fun hl => ?_⟩
    rw [hregistry] at hl
    split at hl
    · exact hg.dead ((lives_getD hc.sound h).mp hl).1
    · exact hg.dead hl

theorem Gone.dispatchAll (hg : c.Gone h) (hc : c.Tidy) (vs : List Value) :
    (c.dispatchAll vs).1.Gone h := by
  induction vs generalizing c with
  | nil => exact hg
  | cons v vs ih => exact ih (hg.dispatch hc v) (hc.dispatch v)

/-- **No operation brings a registration back.** -/
theorem Gone.perform (hg : c.Gone h) (hc : c.Tidy) (op : Op κ α) : (c.perform op).1.Gone h := by
  by_cases ha : op.asks
  · exact hg.moves (perform_moves hc.sound hc.idle ha)
  · exact (perform_keeps (P := fun c => c.Gone h ∧ c.Tidy)
      (fun c v hc => ⟨hc.1.dispatch hc.2 v, hc.2.dispatch v⟩)
      (fun c d hc => ⟨⟨hc.1.given, hc.1.dead⟩, hc.2.reading d⟩)
      (fun c n hc => ⟨⟨hc.1.given, hc.1.dead⟩, hc.2.written n⟩)
      (fun c c' hends hc => ⟨hc.1.ends hends, hc.2.ends hends⟩) ⟨hg, hc⟩ ha).1

theorem Gone.run (hg : c.Gone h) (hc : c.Tidy) (ops : List (Op κ α)) : (c.run ops).1.Gone h := by
  induction ops generalizing c with
  | nil => exact hg
  | cons op ops ih => exact ih (hg.perform hc op) (hc.perform op)

/-! ## The server is told -/

/-- **The server is told that a subscription ends exactly when the last registration of its topic
goes.** -/
structure Tells (c : Connection κ α) : Prop where
  /-- A step sends commands, … -/
  sends : ∀ s : Step κ α, ¬ s.feeds → ∃ cs, s.Sends c cs
  /-- … and among them is the end of a subscription, once, exactly if it takes the last registration of
  the topic: unless the user passes in the command. -/
  told : ∀ (s : Step κ α) cs, ¬ s.feeds → (∀ command ∈ s.commands, ∀ t : Topic, command ≠ t.unsubscribe) →
    s.Sends c cs → ∀ t : Topic, (t.unsubscribe ∈ cs ↔ s.Empties c t) ∧ cs.count t.unsubscribe ≤ 1
  /-- Bytes that are fed are the steps of their values, and the end if they are malformed. -/
  fed : ∀ input, c.stage ≠ .closed → (c.perform (.feed input)).1 =
    (((c.dispatchAll (c.decoder.values input)).1.reading (c.decoder.after input)).stop
      (c.decoder.fault? input)).1
  /-- A handler waits for the server where the server is told, … -/
  waits : ∀ h k, (Step.op (.unsubscribe h k) : Step κ α).Empties c h.topic →
    (c.unsubscribe h (.handler k)).2 = [] ∧
      (c.unsubscribe h (.handler k)).1.pending = c.pending ++ [⟨.handler k, .unsubscribeAck⟩]
  /-- … else it is called at once, and nothing is sent. -/
  alone : ∀ h k, c.isOpen → ¬ (Step.op (.unsubscribe h k) : Step κ α).Empties c h.topic →
    (c.unsubscribe h (.handler k)).2 = [.replied k (.ok .null)] ∧
      (c.unsubscribe h (.handler k)).1.pending = c.pending ∧
      (c.unsubscribe h (.handler k)).1.outbound = c.outbound
  /-- To abandon a registration is to unsubscribe it, but for the handler in the queue. -/
  same : ∀ h k, c.isOpen → c.registry.Lives h →
    c.abandon h = { (c.unsubscribe h (.handler k)).1 with pending := (c.abandon h).pending }
  /-- A handle without its registration does nothing, … -/
  unknown : ∀ h k, c.isOpen → ¬ c.registry.Lives h →
    c.unsubscribe h (.handler k) = (c, [.replied k (.ok .null)]) ∧ c.abandon h = c
  /-- … and once it was used it never does anything again. -/
  used : ∀ h k, c.isOpen → h.id < c.nextHandle →
    ∀ c', c' = (c.unsubscribe h (.handler k)).1 ∨ c' = c.abandon h → ∀ ops vs,
      let d := ((c'.run ops).1.dispatchAll vs).1
      d.isOpen → ∀ k', d.unsubscribe h (.handler k') = (d, [.replied k' (.ok .null)]) ∧ d.abandon h = d

/-- An end is ordered by the last handle of a topic. -/
theorem Tidy.empties_iff (hc : c.Tidy) (ho : c.isOpen) (h : Handle) (k : κ) :
    (Step.op (.unsubscribe h k) : Step κ α).Empties c h.topic ↔ c.leaves h := by
  rw [← Step.order?_eq_iff hc, Step.order?, order?, ho, Bool.true_and]
  refine ⟨?_, fun hl => ⟨some k, if_pos hl⟩⟩
  rintro ⟨k?, heq⟩
  by_contra hl
  rw [if_neg hl] at heq
  cases heq

theorem tells_of (hc : c.Tidy) : c.Tells := by
  have hplaces (h : Handle) (k : κ) := (effect_unsubscribe c h k).places
  refine ⟨fun s hf => ⟨_, Step.sends_sent hc hf⟩, fun s cs hf hraw hcs t => ?_, fun input ho => ?_,
    fun h k he => ?_, fun h k ho he => ?_, fun h k ho hl => abandon_eq_unsubscribe ho hl k,
    fun h k ho hl => ⟨hc.unsubscribe_dead ho hl k, hc.abandon_dead hl⟩,
    fun h k ho hh c' hc' ops vs => ?_⟩
  · -- the bytes say which commands were sent
    obtain rfl : cs = s.sent c :=
      Command.flatMap_encode_injective (List.append_cancel_left (hcs.symm.trans (Step.sends_sent hc hf)))
    obtain ⟨hmem, hcount⟩ := Step.mem_sent_iff hc hraw t
    exact ⟨hmem.trans (Step.order?_eq_iff hc t), hcount⟩
  · rw [Connection.perform, (feed_eq ho input).1]
  · have hl := (hc.empties_iff he.opened h k).mp he
    have hp := (hplaces h k).pending
    rw [order?, he.opened, hl] at hp
    exact ⟨(unsubscribe_events he.opened h k).trans (if_pos hl), hp⟩
  · have hl := mt (hc.empties_iff ho h k).mpr he
    have hp := hplaces h k
    rw [order?, Bool.eq_false_iff.mpr hl, Bool.and_false] at hp
    exact ⟨(unsubscribe_events ho h k).trans (if_neg hl), hp.pending, hp.outbound⟩
  · intro d hd k'
    have hgone : c'.Gone h ∧ c'.Tidy := by
      obtain rfl | rfl := hc'
      · obtain ⟨hregistry, hnext⟩ := unsubscribe_registry ho h k
        refine ⟨⟨hnext ▸ hh, ?_⟩, hc.perform (.unsubscribe h k)⟩
        rw [hregistry]
        exact fun hl => ((lives_getD hc.sound h).mp hl).2 rfl
      · obtain ⟨hregistry, hnext⟩ := abandon_registry c h
        refine ⟨⟨hnext ▸ hh, ?_⟩, hc.perform (.abandon h)⟩
        rw [hregistry]
        exact fun hl => ((lives_getD hc.sound h).mp hl).2 rfl
    have htidy := hgone.2.run ops
    have hdead := ((hgone.1.run hgone.2 ops).dispatchAll htidy vs).dead
    have hdtidy : d.Tidy := htidy.dispatchAll vs
    exact ⟨hdtidy.unsubscribe_dead hd hdead k', hdtidy.abandon_dead hdead⟩

/-- **The server is told exactly when the last registration goes**, after any operations and between the
values of a chunk that is fed. -/
theorem run_tells (ops : List (Op κ α)) (vs : List Value) :
    Tells ((run {} ops).1.dispatchAll vs : Turn κ α).1 := tells_of (tidy_run ops vs)

end Connection

end RespClient

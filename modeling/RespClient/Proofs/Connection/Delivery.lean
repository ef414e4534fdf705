import RespClient.Proofs.Connection.Roster

/-!
# Proofs/Connection/Delivery — a message reaches exactly its listeners

Every operation and every value keeps the roster faithful: what it does to the tables it does to the
roster, and the diary has the calls of listeners that it makes (`Faithful.act`, `Faithful.meet`).  So a
message reaches who is on the roster for its topic, in order (`Faithful.reaches`), and what the diary
says of a registration is what its listener goes through, over any run (`run_delivers`).
-/

namespace RespClient

variable {κ α : Type}

/-- The calls of listeners among the events. -/
def Event.heard? : Event κ α → Option (α × Bytes)
  | delivered listener payload => some (listener, payload)
  | _ => none

/-- **The listeners that are called**, in order, each with the bytes it gets. -/
def heard (events : List (Event κ α)) : List (α × Bytes) := events.filterMap Event.heard?

/-- Whether the operation is about a registration. -/
def Op.isAboutListeners : Op κ α → Bool
  | .register .. | .unsubscribe .. | .abandon _ => true
  | _ => false

/-! ## What an operation does to the listeners -/

namespace Connection

theorem heard_settle (c : Connection κ α) (target : Target κ) (result : Except Failure Value) :
    heard (c.settle target result).2 = [] := by
  unfold settle
  split
  · rfl
  · rfl
  · split
    · rfl
    · split <;> rfl

theorem heard_failAll (failure : Failure) (ps : List (Pending κ)) (c : Connection κ α) :
    heard (failAll failure ps c).2 = [] := by
  induction ps generalizing c with
  | nil => rfl
  | cons p ps ih =>
    rw [failAll, heard, List.filterMap_append]
    exact List.append_eq_nil_iff.mpr ⟨heard_settle c p.target _, ih _⟩

/-- The end calls no listener. -/
theorem heard_close (c : Connection κ α) : heard c.close.2 = [] := by
  by_cases hc : c.stage = .closed
  · rw [close, if_pos hc]
    rfl
  · rw [close_eq hc]
    exact heard_failAll _ _ _

theorem heard_fail (c : Connection κ α) (failure : Failure) : heard (c.fail failure).2 = [] := by
  by_cases hc : c.stage = .closed
  · rw [fail, if_pos hc]
    rfl
  · rw [fail_eq hc]
    exact heard_failAll _ _ _

/-- A reply calls no listener. -/
theorem heard_answer (c : Connection κ α) (v : Value) : heard (c.answer v).2 = [] := by
  rw [answer]
  split
  · rfl
  · exact heard_settle _ _ _

/-- **A request calls no listener.** -/
theorem heard_perform (c : Connection κ α) {op : Op κ α} (ha : op.asks) :
    heard (c.perform op).2 = [] := by
  cases op with
  | beginConnect =>
    rw [perform, beginConnect]
    split <;> rfl
  | connectSucceeded => rfl
  | connectFailed failure => rfl
  | observe name => rfl
  | submit command k =>
    rw [perform, submit]
    split <;> rfl
  | submitBatch commands k =>
    rw [perform, submitBatch]
    dsimp only
    split
    · rfl
    · split <;> rfl
  | register topic persistence listener k =>
    rw [perform, register]
    split <;> rfl
  | unsubscribe h k =>
    rw [perform, unsubscribe]
    split
    · rfl
    · dsimp only
      split <;> rfl
  | abandon h => rfl
  | feed _ => cases ha
  | written _ => cases ha
  | fail _ => cases ha
  | close => cases ha

theorem deliver_nextHandle (c : Connection κ α) (push : Push) :
    (c.deliver push).1.nextHandle = c.nextHandle := by
  rw [deliver]
  dsimp only
  split
  · exact refresh_nextHandle _
  · rfl

/-- **Any other request leaves the registry alone.** -/
theorem perform_registry (c : Connection κ α) {op : Op κ α} (ha : op.asks)
    (hop : op.isAboutListeners = false) :
    (c.perform op).1.registry = c.registry ∧ (c.perform op).1.nextHandle = c.nextHandle := by
  cases op with
  | beginConnect =>
    rw [perform, beginConnect]
    split <;> exact ⟨rfl, rfl⟩
  | connectSucceeded =>
    rw [perform, connectSucceeded]
    split <;> exact ⟨rfl, rfl⟩
  | connectFailed failure =>
    rw [perform, connectFailed]
    dsimp only
    split <;> exact ⟨rfl, rfl⟩
  | observe name => exact ⟨rfl, rfl⟩
  | submit command k =>
    rw [perform, submit]
    split <;> exact ⟨rfl, rfl⟩
  | submitBatch commands k => exact submitBatch_registry c commands k
  | register _ _ _ _ => cases hop
  | unsubscribe _ _ => cases hop
  | abandon _ => cases hop
  | feed _ => cases ha
  | written _ => cases ha
  | fail _ => cases ha
  | close => cases ha

end Connection

namespace Roster

/-! ## The roster is faithful -/

/-- **The roster is faithful**: the tables agree with it, and its diary is kept. -/
structure Faithful (l : Roster κ α) : Prop where
  tidy : l.now.Tidy
  agrees : Agrees l.live l.now.registry
  kept : Kept l.now.nextHandle l.live l.diary

/-- The calls of listeners that the diary has. -/
def calls (l : Roster κ α) : List (α × Bytes) := l.diary.filterMap Entry.heard?

theorem calls_enter (l : Roster κ α) (r : Registration α) : (l.enter r).calls = l.calls := by
  rw [calls, enter, List.filterMap_append]
  exact List.append_nil _

theorem calls_part (l : Roster κ α) (who : Registration α → Bool) : (l.part who).calls = l.calls := by
  rw [calls, part, List.filterMap_append, List.filterMap_map]
  exact List.append_right_eq_self.mpr (List.filterMap_eq_nil_iff.mpr fun _ _ => rfl)

theorem calls_hear (l : Roster κ α) (push : Push) :
    (l.hear push).calls
      = l.calls ++ (l.audience push.topic).map fun r => (r.listener, push.payload) := by
  rw [calls, hear, List.filterMap_append, List.filterMap_map]
  exact congrArg _ (List.filterMap_eq_map ▸ rfl)

theorem Faithful.new : ({} : Roster κ α).Faithful :=
  ⟨Connection.tidy_new, agrees_nil, kept_nil 1⟩

/-- **A value keeps the roster faithful**, and the diary has the calls it makes. -/
theorem Faithful.meet {l : Roster κ α} (h : l.Faithful) (v : Value) :
    (l.meet v).Faithful ∧ (l.meet v).calls = l.calls ++ heard (l.now.dispatch v).2 := by
  have htidy := h.tidy.dispatch v
  cases hp : l.now.pushed? v with
  | some push =>
    have hmeet : l.meet v = { (l.hear push).part (Registration.isFor .singleShot push.topic) with
        now := (l.now.deliver push).1 } := by
      rw [Roster.meet, heed, hp, Connection.dispatch_pushed hp]
    have hevents := Connection.deliver_events l.now push
    rw [Connection.dispatch_pushed hp] at htidy ⊢
    rw [hmeet]
    refine ⟨⟨htidy, ?_, ?_⟩, ?_⟩
    · dsimp only
      rw [Connection.deliver_registry]
      exact h.agrees.spend push.topic
    · dsimp only
      rw [Connection.deliver_nextHandle]
      exact h.kept.hear push
    · refine (calls_part _ _).trans ((calls_hear l push).trans (congrArg _ ?_))
      rw [hevents, h.agrees.audience, heard, List.map_map, List.filterMap_map]
      exact (List.filterMap_eq_map ▸ rfl)
  | none =>
    obtain ⟨hregistry, hnext⟩ := Connection.answer_registry l.now v
    have hheard := Connection.heard_answer l.now v
    rw [Connection.dispatch_reply hp] at htidy ⊢
    rw [hheard, List.append_nil]
    cases hr : l.now.refused? v with
    | some hd =>
      have hmeet : l.meet v = { l.part (·.handle = hd) with now := (l.now.answer v).1 } := by
        rw [Roster.meet, heed, hp, hr, Connection.dispatch_reply hp]
      rw [hr] at hregistry
      rw [hmeet]
      refine ⟨⟨htidy, ?_, ?_⟩, calls_part _ _⟩
      · dsimp only
        rw [hregistry]
        exact h.agrees.remove? h.tidy.sound hd
      · dsimp only
        rw [hnext]
        exact h.kept.part _
    | none =>
      have hmeet : l.meet v = { l with now := (l.now.answer v).1 } := by
        rw [Roster.meet, heed, hp, hr, Connection.dispatch_reply hp]
      rw [hr] at hregistry
      rw [hmeet]
      refine ⟨⟨htidy, ?_, ?_⟩, rfl⟩
      · dsimp only
        rw [hregistry]
        exact h.agrees
      · dsimp only
        rw [hnext]
        exact h.kept

theorem heard_append (es fs : List (Event κ α)) : heard (es ++ fs) = heard es ++ heard fs :=
  List.filterMap_append

theorem Faithful.meetAll {l : Roster κ α} (h : l.Faithful) (vs : List Value) :
    (l.meetAll vs).Faithful ∧
      (l.meetAll vs).calls = l.calls ++ heard (l.now.dispatchAll vs).2 := by
  induction vs generalizing l with
  | nil => exact ⟨h, (List.append_nil _).symm⟩
  | cons v vs ih =>
    obtain ⟨hmeet, hcalls⟩ := h.meet v
    obtain ⟨hall, hmore⟩ := ih hmeet
    refine ⟨hall, hmore.trans ?_⟩
    rw [hcalls, Connection.dispatchAll, heard_append, List.append_assoc]
    rfl

/-- The decoder plays no part. -/
theorem Faithful.reading {l : Roster κ α} (h : l.Faithful) (d : Decoder) :
    { l with now := l.now.reading d }.Faithful := ⟨h.tidy.reading d, h.agrees, h.kept⟩

/-- **At the end all leave.** -/
theorem Faithful.ends {l : Roster κ α} (h : l.Faithful) {c : Connection κ α}
    (hends : l.now.Ends c) : { l.part (fun _ => true) with now := c }.Faithful := by
  have htidy := h.tidy.ends hends
  have hempty : c.registry = .empty :=
    (htidy.bare (Connection.not_isOpen_of_closed hends.closed)).registry
  have hnext : c.nextHandle = l.now.nextHandle := by
    obtain ⟨-, rfl⟩ | ⟨batches, rfl⟩ := hends <;> rfl
  refine ⟨htidy, ?_, ?_⟩
  · dsimp only
    rw [hempty, part, show l.live.filter (fun _ => !true) = [] from List.filter_false _]
    exact agrees_nil
  · dsimp only
    rw [hnext]
    exact h.kept.part _

theorem Faithful.feed {l : Roster κ α} (h : l.Faithful) (input : Bytes) :
    (l.act (.feed input)).Faithful ∧
      (l.act (.feed input)).calls = l.calls ++ heard (l.now.feed input).turn.2 := by
  by_cases hc : l.now.stage = .closed
  · rw [act, attend, if_pos hc, Connection.perform, (Connection.feed_closed hc input).1]
    exact ⟨h, (List.append_nil _).symm⟩
  · obtain ⟨hall, hcalls⟩ := h.meetAll (l.now.decoder.values input)
    have hread := hall.reading (l.now.decoder.after input)
    rw [act, attend, if_neg hc, Connection.perform, (Connection.feed_eq hc input).1, heard_append]
    dsimp only
    rw [now_meetAll] at hread
    cases hf : l.now.decoder.fault? input with
    | none =>
      rw [Option.isSome_none, if_neg Bool.false_ne_true]
      exact ⟨hread, hcalls.trans (by rw [Connection.stop, heard, heard]; simp)⟩
    | some cause =>
      rw [Option.isSome_some, if_pos rfl, Connection.stop, Connection.heard_fail, List.append_nil]
      exact ⟨hread.ends (Connection.ends_fail _ _), (calls_part _ _).trans hcalls⟩

/-- **A request keeps the roster faithful.** -/
theorem Faithful.ask {l : Roster κ α} (h : l.Faithful) {op : Op κ α} (ha : op.asks) :
    (l.act op).Faithful ∧ (l.act op).calls = l.calls := by
  have htidy := h.tidy.ask ha
  by_cases hop : op.isAboutListeners
  · cases op with
    | register topic persistence listener k =>
      by_cases ho : l.now.isOpen
      · have hperform : (l.now.perform (.register topic persistence listener k)).1.registry
            = l.now.registry.insert ⟨l.now.nextHandle, topic⟩ persistence listener ∧
            (l.now.perform (.register topic persistence listener k)).1.nextHandle
              = l.now.nextHandle + 1 := by
          rw [Connection.perform, Connection.register, Connection.closedTo?, if_pos ho]
          exact ⟨Connection.refresh_registry _, Connection.refresh_nextHandle _⟩
        rw [act, attend, if_pos ho]
        refine ⟨⟨htidy, ?_, ?_⟩, calls_enter _ _⟩
        · dsimp only
          rw [hperform.1]
          exact h.agrees.insert ⟨⟨l.now.nextHandle, topic⟩, persistence, listener⟩
        · dsimp only
          rw [hperform.2]
          exact h.kept.enter rfl
      · have hperform : (l.now.perform (.register topic persistence listener k)).1 = l.now := by
          rw [Connection.perform, Connection.register, Connection.closedTo?, if_neg ho]
          rfl
        rw [act, attend, if_neg ho, hperform]
        exact ⟨h, rfl⟩
    | unsubscribe hd k =>
      by_cases ho : l.now.isOpen
      · obtain ⟨hregistry, hnext⟩ := Connection.unsubscribe_registry ho hd k
        rw [act, attend, if_pos ho]
        refine ⟨⟨htidy, ?_, ?_⟩, calls_part _ _⟩
        · dsimp only
          rw [Connection.perform, hregistry]
          exact h.agrees.remove? h.tidy.sound hd
        · dsimp only
          rw [Connection.perform, hnext]
          exact h.kept.part _
      · have hperform : (l.now.perform (.unsubscribe hd k)).1 = l.now := by
          rw [Connection.perform, Connection.unsubscribe, Connection.closedTo?, if_neg ho]
          rfl
        rw [act, attend, if_neg ho, hperform]
        exact ⟨h, rfl⟩
    | abandon hd =>
      obtain ⟨hregistry, hnext⟩ := Connection.abandon_registry l.now hd
      refine ⟨⟨htidy, ?_, ?_⟩, calls_part _ _⟩
      · change Agrees _ (l.now.abandon hd).registry
        rw [hregistry]
        exact h.agrees.remove? h.tidy.sound hd
      · change Kept (l.now.abandon hd).nextHandle _ _
        rw [hnext]
        exact h.kept.part _
    | _ => cases hop
  · obtain ⟨hregistry, hnext⟩ :=
      Connection.perform_registry l.now ha (Bool.eq_false_iff.mpr hop)
    have hact : l.act op = { l with now := (l.now.perform op).1 } := by
      cases op with
      | register _ _ _ _ => exact absurd rfl hop
      | unsubscribe _ _ => exact absurd rfl hop
      | abandon _ => exact absurd rfl hop
      | feed _ => cases ha
      | fail _ => cases ha
      | close => cases ha
      | _ => rfl
    rw [hact]
    refine ⟨⟨htidy, ?_, ?_⟩, rfl⟩
    · dsimp only
      rw [hregistry]
      exact h.agrees
    · dsimp only
      rw [hnext]
      exact h.kept

/-- **Every operation keeps the roster faithful**, and the diary has the calls it makes. -/
theorem Faithful.act {l : Roster κ α} (h : l.Faithful) (op : Op κ α) :
    (l.act op).Faithful ∧ (l.act op).calls = l.calls ++ heard (l.now.perform op).2 := by
  by_cases ha : op.asks
  · obtain ⟨hfaithful, hcalls⟩ := h.ask ha
    rw [Connection.heard_perform l.now ha, List.append_nil]
    exact ⟨hfaithful, hcalls⟩
  · cases op with
    | feed input => exact h.feed input
    | written n => exact ⟨⟨h.tidy.written n, h.agrees, h.kept⟩, (List.append_nil _).symm⟩
    | fail failure =>
      rw [Connection.perform, Connection.heard_fail, List.append_nil]
      exact ⟨h.ends (Connection.ends_fail l.now failure), calls_part _ _⟩
    | close =>
      rw [Connection.perform, Connection.heard_close, List.append_nil]
      exact ⟨h.ends (Connection.ends_close l.now), calls_part _ _⟩
    | _ => exact absurd rfl ha

theorem Faithful.run {l : Roster κ α} (h : l.Faithful) (ops : List (Op κ α)) :
    (l.run ops).Faithful ∧ (l.run ops).calls = l.calls ++ heard (l.now.run ops).2 := by
  induction ops generalizing l with
  | nil => exact ⟨h, (List.append_nil _).symm⟩
  | cons op ops ih =>
    obtain ⟨hact, hcalls⟩ := h.act op
    obtain ⟨hrun, hmore⟩ := ih hact
    refine ⟨hrun, hmore.trans ?_⟩
    rw [hcalls, Connection.run, heard_append, List.append_assoc]
    rfl

/-! ## The diary grows -/

theorem diary_part (l : Roster κ α) (who : Registration α → Bool) :
    l.diary <+: (l.part who).diary := List.prefix_append _ _

theorem diary_meet (l : Roster κ α) (v : Value) : l.diary <+: (l.meet v).diary := by
  change l.diary <+: (l.heed v).diary
  rw [heed]
  split
  · exact (List.prefix_append _ _).trans (diary_part (l.hear _) _)
  · split
    · exact diary_part l _
    · exact List.prefix_rfl

theorem diary_meetAll (l : Roster κ α) (vs : List Value) : l.diary <+: (l.meetAll vs).diary := by
  induction vs generalizing l with
  | nil => exact List.prefix_rfl
  | cons v vs ih => exact (diary_meet l v).trans (ih (l.meet v))

theorem diary_act (l : Roster κ α) (op : Op κ α) : l.diary <+: (l.act op).diary := by
  change l.diary <+: (l.attend op).diary
  cases op with
  | register topic persistence listener k =>
    rw [attend]
    split
    · exact List.prefix_append _ _
    · exact List.prefix_rfl
  | unsubscribe h k =>
    rw [attend]
    split
    · exact diary_part l _
    · exact List.prefix_rfl
  | feed input =>
    rw [attend]
    split
    · exact List.prefix_rfl
    · split
      · exact (diary_meetAll l _).trans (diary_part _ _)
      · exact diary_meetAll l _
  | abandon h => exact diary_part l _
  | fail failure => exact diary_part l _
  | close => exact diary_part l _
  | _ => exact List.prefix_rfl

theorem diary_run (l : Roster κ α) (ops : List (Op κ α)) : l.diary <+: (l.run ops).diary := by
  induction ops generalizing l with
  | nil => exact List.prefix_rfl
  | cons op ops ih => exact (diary_act l op).trans (ih (l.act op))

/-- **Who is called later** is on the roster now, or is made later. -/
theorem Faithful.later {l : Roster κ α} (h : l.Faithful) (ops : List (Op κ α)) :
    ∃ later, (l.run ops).diary = l.diary ++ later ∧ ∀ r payload, .heard r payload ∈ later →
      r ∈ l.live ∨ .made r ∈ later := by
  obtain ⟨later, hlater⟩ := diary_run l ops
  have hkept := (h.run ops).1.kept
  rw [← hlater] at hkept
  refine ⟨later, hlater.symm, fun r payload hr => ?_⟩
  obtain hmade | hmade := List.mem_append.mp (hkept.known _ (List.mem_append_right _ hr))
  · refine .inl ((h.kept.accounted r hmade).resolve_right fun hleft => ?_)
    exact (List.pairwise_append.mp hkept.permits).2.2 _ hleft _ hr rfl rfl
  · exact .inr hmade

/-! ## What a message does -/

/-- **What a message does**: it reaches the registrations of its topic and no others. -/
structure Reaches (l : Roster κ α) (v : Value) (push : Push) : Prop where
  /-- The listeners on the roster for the topic are called with the payload, and no one else is; … -/
  events : (l.now.dispatch v).2
    = (l.audience push.topic).map fun r => .delivered r.listener push.payload
  /-- those are all the registrations of the topic, … -/
  all : ∀ r, r ∈ l.audience push.topic ↔ r ∈ l.live ∧ r.handle.topic = push.topic
  /-- each of them once. -/
  once : (l.audience push.topic).Pairwise fun r s => r.handle.id ≠ s.handle.id
  /-- The queue keeps its entries; nobody waits for the one that may come. -/
  pending : (l.now.dispatch v).1.pending = l.now.pending ∨
    (l.now.dispatch v).1.pending = l.now.pending ++ [⟨.nobody, .unsubscribeAck⟩]
  /-- The persistent registrations are as before, … -/
  persistent : (l.now.dispatch v).1.registry.persistent = l.now.registry.persistent
  /-- so are the single-shot ones of other topics, … -/
  others : ∀ t, t ≠ push.topic → (l.now.dispatch v).1.registry.singleShot.listeners t
    = l.now.registry.singleShot.listeners t
  /-- and the topic has none left. -/
  spent : (l.now.dispatch v).1.registry.singleShot.listeners push.topic = []
  /-- So it is on the roster. -/
  live : (l.meet v).live = l.live.filter fun r => !r.isFor .singleShot push.topic

theorem pending_deliver (c : Connection κ α) (push : Push) :
    (c.deliver push).1.pending = c.pending ∨
      (c.deliver push).1.pending = c.pending ++ [⟨.nobody, .unsubscribeAck⟩] := by
  rw [Connection.deliver]
  dsimp only
  split
  · exact .inr (Connection.refresh_pending _)
  · exact .inl rfl

/-- **A message reaches its listeners**, wherever it is taken for one. -/
theorem Faithful.reaches {l : Roster κ α} (h : l.Faithful) {v : Value} {push : Push}
    (hp : l.now.pushed? v = some push) : l.Reaches v push := by
  have hregistry : (l.now.dispatch v).1.registry = l.now.registry.spend push.topic := by
    rw [Connection.dispatch_pushed hp, Connection.deliver_registry]
  have hlisteners (t : Topic) : (l.now.dispatch v).1.registry.singleShot.listeners t
      = if t = push.topic then [] else l.now.registry.singleShot.listeners t := by
    rw [hregistry]
    exact ListenerTable.listeners_eraseTopic push.topic t _
  refine ⟨?_, fun r => mem_audience, h.kept.audience push.topic, ?_, ?_, fun t ht => ?_, ?_, ?_⟩
  · rw [Connection.dispatch_pushed hp, Connection.deliver_events, h.agrees.audience, List.map_map]
    rfl
  · rw [Connection.dispatch_pushed hp]
    exact pending_deliver l.now push
  · rw [hregistry]
    rfl
  · rw [hlisteners, if_neg ht]
  · rw [hlisteners, if_pos rfl]
  · change (l.heed v).live = _
    rw [heed, hp]
    rfl

/-- **While someone listens or an answer is owed**, an array of a message's shape is a message. -/
theorem Faithful.pushed? {l : Roster κ α} (h : l.Faithful) {v : Value} {push : Push}
    (hv : Push.ofValue? v = some push) (hl : l.live ≠ [] ∨ 0 < l.now.acksOwed) :
    l.now.pushed? v = some push := by
  have hroutes : l.now.routesPushes := by
    rw [Connection.routesPushes, Bool.or_eq_true, decide_eq_true_eq]
    refine hl.imp_left fun hlive => ?_
    rw [h.agrees.isEmpty h.tidy.sound hlive]
    rfl
  rw [Connection.pushed?, if_pos hroutes, hv]

end Roster

/-- **What removes registrations.** -/
structure Connection.Removes (c : Connection κ α) : Prop where
  unsubscribed : c.isOpen → ∀ h k, ¬ (c.perform (.unsubscribe h k)).1.registry.Lives h
  abandoned : ∀ h, ¬ (c.perform (.abandon h)).1.registry.Lives h
  /-- An error that answers a subscription. -/
  refused : ∀ v h, c.pushed? v = none → c.refused? v = some h → ¬ (c.dispatch v).1.registry.Lives h
  failed : ∀ failure h, ¬ (c.perform (.fail failure)).1.registry.Lives h
  closed : ∀ h, ¬ (c.perform .close).1.registry.Lives h

theorem Connection.Tidy.removes {c : Connection κ α} (h : c.Tidy) : c.Removes := by
  have hremoved (hd : Handle) : ¬ ((c.registry.remove? hd).getD c.registry).Lives hd := by
    cases hr : c.registry.remove? hd with
    | none => exact Registry.remove?_eq_none hr
    | some registry => exact fun hl => (((Registry.lives_of_remove? h.sound hr).2 hd).mp hl).2 rfl
  have hended {c' : Connection κ α} (hends : c.Ends c') (hd : Handle) : ¬ c'.registry.Lives hd :=
    (h.ends hends).idle (not_isOpen_of_closed hends.closed) hd
  refine ⟨fun ho hd k => ?_, fun hd => ?_, fun v hd hp hr => ?_, fun failure hd => ?_, fun hd => ?_⟩
  · rw [Connection.perform, (unsubscribe_registry ho hd k).1]
    exact hremoved hd
  · rw [Connection.perform, (abandon_registry c hd).1]
    exact hremoved hd
  · rw [dispatch_reply hp, (answer_registry c v).1, hr]
    exact hremoved hd
  · exact hended (ends_fail c failure) hd
  · exact hended (ends_close c) hd

namespace Roster

/-! ## Delivery is exact -/

/-- **Exact delivery**, as far as a run has come. -/
structure Delivers (l : Roster κ α) : Prop where
  /-- Who is on the roster lives and no one else, … -/
  lives : ∀ h, l.now.registry.Lives h ↔ ∃ r ∈ l.live, r.handle = h
  /-- in the order of the registrations. -/
  ordered : l.live.Pairwise fun r s => r.handle.id < s.handle.id
  /-- A message that comes next, while someone listens or an answer is owed, reaches its listeners. -/
  message : ∀ v push, Push.ofValue? v = some push → l.live ≠ [] ∨ 0 < l.now.acksOwed →
    l.Reaches v push
  /-- A registration may be removed in these ways. -/
  removes : l.now.Removes
  /-- So far only registrations were called, and none after it left or, if it is single-shot, after it
  was called. -/
  made : ∀ r payload, .heard r payload ∈ l.diary → .made r ∈ l.diary
  permits : l.diary.Pairwise Entry.Permits
  /-- From now on only those are called that live now, and those yet to be made. -/
  later : ∀ ops : List (Op κ α), ∃ later, (l.run ops).diary = l.diary ++ later ∧
    ∀ r payload, .heard r payload ∈ later → l.now.registry.Lives r.handle ∨ .made r ∈ later

theorem Faithful.delivers {l : Roster κ α} (h : l.Faithful) : l.Delivers := by
  refine ⟨h.agrees.lives_iff, h.kept.ascending, fun v push hv hl => h.reaches (h.pushed? hv hl),
    h.tidy.removes, fun r payload hr => h.kept.known _ hr, h.kept.permits, fun ops => ?_⟩
  obtain ⟨later, hlater, hheard⟩ := h.later ops
  refine ⟨later, hlater, fun r payload hr => (hheard r payload hr).imp_left fun hlive => ?_⟩
  exact (h.agrees.lives_iff r.handle).mpr ⟨r, hlive, rfl⟩

/-- **Delivery is exact**, after any operations and between the values of a chunk that is fed; and the
calls in the diary are those of the run. -/
theorem run_delivers (ops : List (Op κ α)) (vs : List Value) :
    let l : Roster κ α := (run {} ops).meetAll vs
    let before := Connection.run {} ops
    l.now = (before.1.dispatchAll vs).1 ∧ l.calls = heard (before.2 ++ (before.1.dispatchAll vs).2) ∧
      l.Delivers := by
  intro l before
  obtain ⟨hrun, hcalls⟩ := (Faithful.new (κ := κ) (α := α)).run ops
  obtain ⟨hall, hmore⟩ := hrun.meetAll vs
  have hnow : (run ({} : Roster κ α) ops).now = before.1 := now_run {} ops
  refine ⟨?_, ?_, hall.delivers⟩
  · rw [now_meetAll, hnow]
  · rw [hmore, hcalls, hnow, heard_append]
    rfl

end Roster

end RespClient

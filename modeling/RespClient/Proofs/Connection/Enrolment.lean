import RespClient.Proofs.Connection.Delivery
import Mathlib.Algebra.Ring.Nat

/-!
# Proofs/Connection/Enrolment — two tables, one list

    issued        1@t   2@u   3@t   4@t   …          every handle that was given out
    live          1@t         3@t   4@t              one list, in the order of the registrations
                   │           │     └───┐
    persistent  t: 1, 3                  │           two tables, by topic
    single-shot t:                       4

The two tables of a registry stand for one list of registrations (`Registry.Lists`), and each operation
of the registry is one of lists.  A registration is told by its number alone among those that were given
out (`Connection.Issues`), so removing by a handle deletes that registration and no other, whoever does
it (`Roster.run_enrolled`).
-/

namespace RespClient

variable {κ α : Type}

/-! ## The tables are a list -/

namespace ListenerTable

/-- A number is in a sound table under one topic. -/
theorem mem_ids_iff {table : ListenerTable α} (hs : table.Sound) (id : Nat) :
    id ∈ table.ids ↔ ∃ t, table.holds ⟨id, t⟩ := by
  refine ⟨fun hid => ?_, fun ⟨t, ht⟩ => mem_ids_of_holds ht⟩
  induction table with
  | nil => cases hid
  | cons row table ih =>
    obtain ⟨t, ls⟩ := row
    rw [ids, List.flatMap_cons, List.mem_append] at hid
    obtain hid | hid := hid
    · refine ⟨t, (holds_iff _ _).mpr ?_⟩
      rwa [listeners, if_pos rfl]
    · obtain ⟨u, hu⟩ := ih hs.tail hid
      have hne : t ≠ u := by
        rintro rfl
        have hc := (contains_iff_holds hs.tail t).mpr ⟨id, hu⟩
        exact (List.nodup_cons.mp hs.topics).1 ((contains_iff_mem t table).mp hc)
      refine ⟨u, (holds_iff _ _).mpr ?_⟩
      rw [listeners, if_neg hne]
      exact (holds_iff _ _).mp hu

theorem length_ids (table : ListenerTable α) : table.ids.length = table.size := by
  induction table with
  | nil => rfl
  | cons row table ih =>
    rw [ids, List.flatMap_cons, List.length_append, List.length_map, size, total]
    exact congrArg _ ih

end ListenerTable

namespace Registry

/-- **The tables are one list** of registrations, in the order they were made: each stands in the table
of its sort, under its own topic. -/
structure Lists (r : Registry α) (next : Nat) (live : List (Registration α)) : Prop where
  sound : r.Sound next
  agrees : Roster.Agrees live r
  ascending : live.Pairwise fun s s' => s.handle.id < s'.handle.id

variable {r : Registry α} {next : Nat} {live : List (Registration α)}

theorem Lists.empty (next : Nat) : (empty : Registry α).Lists next [] :=
  ⟨.empty next, Roster.agrees_nil, .nil⟩

/-- **A row of a table is a registration**, of the table's sort and the row's topic. -/
theorem Lists.mem_listeners_iff (h : r.Lists next live) (sort : Persistence) (t : Topic) (id : Nat)
    (listener : α) :
    (id, listener) ∈ (r.table sort).listeners t ↔ ⟨⟨id, t⟩, sort, listener⟩ ∈ live := by
  rw [h.agrees, List.mem_map]
  constructor
  · rintro ⟨⟨⟨id', t'⟩, sort', listener'⟩, hs, hrow⟩
    obtain ⟨hlive, hfor⟩ := List.mem_filter.mp hs
    rw [Registration.isFor, Bool.and_eq_true, decide_eq_true_eq, decide_eq_true_eq] at hfor
    obtain ⟨rfl, rfl⟩ := hfor
    cases hrow
    exact hlive
  · intro hs
    exact ⟨_, List.mem_filter.mpr ⟨hs, by simp [Registration.isFor]⟩, rfl⟩

/-- **A topic is registered** while the list has it. -/
theorem Lists.contains_iff (h : r.Lists next live) (t : Topic) :
    r.contains t ↔ ∃ s ∈ live, s.handle.topic = t := by
  rw [Registry.contains_iff h.sound]
  constructor
  · rintro ⟨id, hl⟩
    obtain ⟨s, hs, heq⟩ := (h.agrees.lives_iff _).mp hl
    exact ⟨s, hs, congrArg Handle.topic heq⟩
  · rintro ⟨s, hs, rfl⟩
    exact ⟨s.handle.id, (h.agrees.lives_iff _).mpr ⟨s, hs, rfl⟩⟩

theorem Lists.isEmpty_iff (h : r.Lists next live) : r.isEmpty ↔ live = [] := by
  rw [Registry.isEmpty_iff, List.eq_nil_iff_forall_not_mem]
  constructor
  · exact fun hn s hs => hn s.handle.topic ((h.contains_iff _).mpr ⟨s, hs, rfl⟩)
  · intro hn t ht
    obtain ⟨s, hs, -⟩ := (h.contains_iff t).mp ht
    exact hn s hs

/-- The numbers in the tables are those of the list. -/
theorem Lists.ids_perm (h : r.Lists next live) : r.ids.Perm (live.map (·.handle.id)) := by
  have hnodup : (live.map (·.handle.id)).Nodup :=
    List.pairwise_map.mpr (h.ascending.imp fun hlt => Nat.ne_of_lt hlt)
  refine (List.perm_ext_iff_of_nodup h.sound.once hnodup).mpr fun id => ?_
  rw [ids, List.mem_append, ListenerTable.mem_ids_iff h.sound.persistent,
    ListenerTable.mem_ids_iff h.sound.singleShot, ← exists_or, List.mem_map]
  constructor
  · rintro ⟨t, hl⟩
    obtain ⟨s, hs, heq⟩ := (h.agrees.lives_iff ⟨id, t⟩).mp hl
    exact ⟨s, hs, congrArg Handle.id heq⟩
  · rintro ⟨s, hs, rfl⟩
    exact ⟨s.handle.topic, (h.agrees.lives_iff s.handle).mpr ⟨s, hs, rfl⟩⟩

/-- **There are as many registrations** as the list has. -/
theorem Lists.size_eq (h : r.Lists next live) : r.size = live.length := by
  have hlen := h.ids_perm.length_eq
  rwa [ids, List.length_append, ListenerTable.length_ids, ListenerTable.length_ids,
    List.length_map] at hlen

theorem Lists.below (h : r.Lists next live) {s : Registration α} (hs : s ∈ live) :
    s.handle.id < next :=
  h.sound.below _ (h.ids_perm.mem_iff.mpr (List.mem_map_of_mem hs))

/-- **A registration is added at the end**, under the next number. -/
theorem Lists.insert (h : r.Lists next live) {s : Registration α} (hs : s.handle.id = next) :
    (r.insert s.handle s.persistence s.listener).Lists (next + 1) (live ++ [s]) := by
  refine ⟨?_, h.agrees.insert s, List.pairwise_append.mpr
    ⟨h.ascending, List.pairwise_singleton _ _, fun s' hs' s'' hs'' => ?_⟩⟩
  · obtain ⟨⟨id, topic⟩, persistence, listener⟩ := s
    obtain rfl : id = next := hs
    exact h.sound.insert topic persistence listener
  · rw [List.mem_singleton.mp hs'', hs]
    exact h.below hs'

/-- **A message goes to the persistent registrations of its topic**, then to the single-shot ones. -/
theorem Lists.audience_eq (h : r.Lists next live) (t : Topic) :
    r.audience t = (live.filter (Registration.isFor .persistent t)
      ++ live.filter (Registration.isFor .singleShot t)).map Registration.listener := by
  rw [Registry.audience_eq, h.agrees, h.agrees, List.map_map, List.map_map, List.map_append]
  rfl

theorem Lists.delivery_eq (h : r.Lists next live) (t : Topic) :
    r.delivery t = ⟨live.countP (Registration.isFor .persistent t),
      live.countP (Registration.isFor .singleShot t)⟩ := by
  have hlen (sort : Persistence) :
      ((r.table sort).listeners t).length = live.countP (Registration.isFor sort t) := by
    rw [h.agrees, List.length_map, List.countP_eq_length_filter]
  exact congrArg₂ Delivery.mk (hlen .persistent) (hlen .singleShot)

/-- … and spends these. -/
theorem Lists.spend (h : r.Lists next live) (t : Topic) :
    (r.spend t).Lists next (live.filter fun s => !s.isFor .singleShot t) :=
  ⟨h.sound.spend t, h.agrees.spend t, h.ascending.filter _⟩

/-- **A registration is removed by its number**, if no other topic has it in the handle. -/
theorem Lists.remove? (h : r.Lists next live) {hd : Handle}
    (hid : ∀ s ∈ live, s.handle.id = hd.id → s.handle = hd) :
    ((r.remove? hd).isSome ↔ ∃ s ∈ live, s.handle.id = hd.id) ∧
      ((r.remove? hd).getD r).Lists next (live.filter (·.handle.id ≠ hd.id)) := by
  have hthere : r.Lives hd ↔ ∃ s ∈ live, s.handle.id = hd.id := by
    rw [h.agrees.lives_iff]
    exact exists_congr fun s => and_congr_right fun hs => ⟨congrArg Handle.id, hid s hs⟩
  have hfilter : live.filter (·.handle.id ≠ hd.id) = live.filter fun s => !decide (s.handle = hd) := by
    refine List.filter_congr fun s hs => ?_
    rw [← decide_not, decide_eq_decide]
    exact not_congr ⟨hid s hs, congrArg Handle.id⟩
  refine ⟨?_, h.sound.getD_remove? hd, ?_, h.ascending.filter _⟩
  · rw [← hthere]
    refine ⟨fun hsome => ?_, fun hl => Option.isSome_iff_ne_none.mpr fun hn => remove?_eq_none hn hl⟩
    obtain ⟨r', hr⟩ := Option.isSome_iff_exists.mp hsome
    exact (lives_of_remove? h.sound hr).1
  · rw [hfilter]
    exact h.agrees.remove? h.sound hd

/-- **The operations on the tables are those of the list.** -/
structure Refines (r : Registry α) (next : Nat) (live : List (Registration α)) : Prop where
  contains : ∀ t, r.contains t ↔ ∃ s ∈ live, s.handle.topic = t
  isEmpty : r.isEmpty ↔ live = []
  size : r.size = live.length
  insert : ∀ s : Registration α, s.handle.id = next →
    (r.insert s.handle s.persistence s.listener).Lists (next + 1) (live ++ [s])
  /-- A message goes to the registrations of its topic, the persistent ones first, … -/
  audience : ∀ t, r.audience t = (live.filter (Registration.isFor .persistent t)
    ++ live.filter (Registration.isFor .singleShot t)).map Registration.listener
  /-- is counted by sort, … -/
  delivery : ∀ t, r.delivery t = ⟨live.countP (Registration.isFor .persistent t),
    live.countP (Registration.isFor .singleShot t)⟩
  /-- and removes the single-shot ones. -/
  spend : ∀ t, (r.spend t).Lists next (live.filter fun s => !s.isFor .singleShot t)
  /-- Nothing is left when the tables are cleared. -/
  clear : (empty : Registry α).Lists next []

theorem Lists.refines (h : r.Lists next live) : r.Refines next live where
  contains := h.contains_iff
  isEmpty := h.isEmpty_iff
  size := h.size_eq
  insert := fun _ hs => h.insert hs
  audience := h.audience_eq
  delivery := h.delivery_eq
  spend := h.spend
  clear := .empty next

end Registry

/-! ## The handles that are given out -/

namespace Connection

/-- The handle that the caller of an operation gets, if it gets one. -/
def issues? (c : Connection κ α) : Op κ α → Option Handle
  | .register topic persistence listener k =>
    (c.register topic persistence listener (.handler k)).1.toOption
  | _ => none

/-- **The handles that a run gives out**, in order. -/
def issued (c : Connection κ α) : List (Op κ α) → List Handle
  | [] => []
  | op :: ops => (c.issues? op).toList ++ (c.perform op).1.issued ops

/-- A handle is given out with the order for its topic. -/
theorem issues?_eq (c : Connection κ α) (op : Op κ α) :
    c.issues? op = (c.order? op).bind Order.registers? := by
  cases op with
  | register topic persistence listener k =>
    rw [issues?, order?, register, closedTo?]
    by_cases ho : c.isOpen
    · rw [if_pos ho, if_pos ho]
      rfl
    · rw [if_neg ho, if_neg ho]
      rfl
  | submit _ _ | submitBatch _ _ | unsubscribe _ _ | abandon _ =>
    rw [order?]
    split <;> rfl
  | _ => rfl

/-- **The handles in a connection were given out**: their numbers are 1, 2, 3 and so on, and the next
one follows. -/
structure Issues (c : Connection κ α) (issued : List Handle) : Prop where
  numbers : issued.map Handle.id = List.range' 1 issued.length
  next : c.nextHandle = issued.length + 1
  /-- Who is registered has one. -/
  held : ∀ h, c.registry.Lives h → h ∈ issued
  /-- Whoever waits for the answer to a subscription has one. -/
  awaited : ∀ p ∈ c.pending, ∀ h, p.expects = .subscribeAck h → h ∈ issued

theorem issues_new : Issues ({} : Connection κ α) [] :=
  ⟨rfl, rfl, fun h hl => absurd hl (Registry.not_lives_empty h), nofun⟩

variable {c c' : Connection κ α} {issued : List Handle}

/-- An order has entries for the handle that comes with it only. -/
theorem expects_of_entries {o : Order κ} {number : Nat} {p : Pending κ} (hp : p ∈ o.entries number)
    {h : Handle} (he : p.expects = .subscribeAck h) : o.registers? = some h := by
  cases o with
  | command command k =>
    obtain rfl := List.mem_singleton.mp hp
    cases he
  | batch commands k =>
    obtain ⟨i, -, rfl⟩ := List.mem_map.mp hp
    cases he
  | subscribe hd k =>
    obtain rfl := List.mem_singleton.mp hp
    cases he
    rfl
  | unsubscribe topic k =>
    obtain rfl := List.mem_singleton.mp hp
    cases he

/-- **An order gives out its handle.** -/
theorem Issues.moves (h : c.Issues issued) {o? : Option (Order κ)} (hplaces : Places c c' o?)
    (hm : Moves c.registry c.nextHandle c'.registry c'.nextHandle o?) :
    c'.Issues (issued ++ (o?.bind Order.registers?).toList) := by
  obtain ⟨hnext, hid, hlives⟩ := hm.registers
  refine ⟨?_, ?_, fun k hk => ?_, fun p hp k hk => ?_⟩
  · cases hr : o?.bind Order.registers? with
    | none => simpa using h.numbers
    | some k =>
      rw [Option.toList_some, List.map_append, h.numbers, List.length_append, List.length_singleton,
        List.range'_concat, List.map_singleton, hid k hr, h.next, Nat.one_mul, Nat.add_comm]
  · rw [hnext, h.next, List.length_append]
    exact Nat.add_right_comm _ _ _
  · obtain hk | hk := hlives k hk
    · exact List.mem_append_left _ (h.held k hk)
    · exact List.mem_append_right _ (Option.mem_toList.mpr hk)
  · rw [hplaces.pending] at hp
    cases o? with
    | none => exact List.mem_append_left _ (h.awaited p hp k hk)
    | some o =>
      obtain hp | hp := List.mem_append.mp hp
      · exact List.mem_append_left _ (h.awaited p hp k hk)
      · exact List.mem_append_right _ (Option.mem_toList.mpr (expects_of_entries hp hk))

/-- A number is that of one handle. -/
theorem Issues.inj (h : c.Issues issued) {k k' : Handle} (hk : k ∈ issued) (hk' : k' ∈ issued)
    (hid : k.id = k'.id) : k = k' :=
  List.inj_on_of_nodup_map (h.numbers ▸ List.nodup_range') hk hk' hid

/-- An error refuses a handle that was given out. -/
theorem Issues.refused? (h : c.Issues issued) {v : Value} {k : Handle} (hr : c.refused? v = some k) :
    k ∈ issued := by
  rw [Connection.refused?] at hr
  split at hr
  · rename_i target hd ps hp
    obtain rfl : hd = k := by
      split at hr
      · exact Option.some.inj hr
      · cases hr
    exact h.awaited ⟨target, .subscribeAck hd⟩ (hp ▸ List.mem_cons_self) hd rfl
  · cases hr

/-- **A value gives out no handle.** -/
theorem Issues.dispatch (h : c.Issues issued) (hc : c.Tidy) (v : Value) :
    (c.dispatch v).1.Issues issued := by
  cases hp : c.pushed? v with
  | some push =>
    have hmoves := h.moves (deliver_effect c push).places (deliver_moves hc.sound push)
    have hnone : (c.parting? push).bind Order.registers? = none := by
      rw [parting?]
      split <;> rfl
    rw [hnone, Option.toList_none, List.append_nil] at hmoves
    rwa [dispatch_pushed hp]
  | none =>
    obtain ⟨hregistry, hnext⟩ := answer_registry c v
    rw [dispatch_reply hp]
    refine ⟨h.numbers, hnext.trans h.next, fun k hk => h.held k ?_, fun p hp => h.awaited p ?_⟩
    · rw [hregistry] at hk
      split at hk
      · exact Registry.Lives.of_remove? hc.sound hk
      · exact hk
    · rw [answer_pending] at hp
      exact List.mem_of_mem_tail hp

theorem Issues.ends (h : c.Issues issued) (hends : c.Ends c') : c'.Issues issued := by
  obtain ⟨-, rfl⟩ | ⟨batches, rfl⟩ := hends
  · exact h
  · exact ⟨h.numbers, h.next, fun k hk => absurd hk (Registry.not_lives_empty k), nofun⟩

theorem Issues.perform (h : c.Issues issued) (hc : c.Tidy) (op : Op κ α) :
    (c.perform op).1.Issues (issued ++ (c.issues? op).toList) := by
  rw [issues?_eq]
  by_cases ha : op.asks
  · exact h.moves (perform_effect c ha).places (perform_moves hc.sound hc.idle ha)
  · have hnone : c.order? op = none := by
      cases op <;> first | rfl | exact absurd rfl ha
    rw [hnone, Option.bind_none, Option.toList_none, List.append_nil]
    exact (perform_keeps (P := fun c => c.Issues issued ∧ c.Tidy)
      (fun c v hc => ⟨hc.1.dispatch hc.2 v, hc.2.dispatch v⟩)
      (fun c d hc => ⟨⟨hc.1.numbers, hc.1.next, hc.1.held, hc.1.awaited⟩, hc.2.reading d⟩)
      (fun c n hc => ⟨⟨hc.1.numbers, hc.1.next, hc.1.held, hc.1.awaited⟩, hc.2.written n⟩)
      (fun c c' hends hc => ⟨hc.1.ends hends, hc.2.ends hends⟩) ⟨h, hc⟩ ha).1

theorem Issues.run (h : c.Issues issued) (hc : c.Tidy) (ops : List (Op κ α)) :
    (c.run ops).1.Issues (issued ++ c.issued ops) := by
  induction ops generalizing c issued with
  | nil => rwa [Connection.issued, List.append_nil]
  | cons op ops ih =>
    rw [Connection.issued, ← List.append_assoc]
    exact ih (h.perform hc op) (hc.perform op)

theorem Issues.dispatchAll (h : c.Issues issued) (hc : c.Tidy) (vs : List Value) :
    (c.dispatchAll vs).1.Issues issued := by
  induction vs generalizing c with
  | nil => exact h
  | cons v vs ih => exact ih (h.dispatch hc v) (hc.dispatch v)

end Connection

/-! ## What a run comes to -/

namespace Roster

theorem Faithful.lists {l : Roster κ α} (h : l.Faithful) :
    l.now.registry.Lists l.now.nextHandle l.live := ⟨h.tidy.sound, h.agrees, h.kept.ascending⟩

/-- The roster without the registration of this number. -/
def without (l : Roster κ α) (id : Nat) : List (Registration α) := l.live.filter (·.handle.id ≠ id)

/-- **The registrations of a connection**, by the handles that were given out so far. -/
structure Enrolled (l : Roster κ α) (issued : List Handle) : Prop where
  /-- The handles are numbered from 1 on in the order in which they are given out, and a request that
  is refused takes no number. -/
  numbers : issued.map Handle.id = List.range' 1 issued.length
  next : l.now.nextHandle = issued.length + 1
  /-- A number of 64 bits is enough, unless that many registrations were made. -/
  fits : issued.length < 2 ^ 64 - 1 → l.now.nextHandle < 2 ^ 64
  /-- The tables are sound and stand for one list: no number is in them twice, each is below the next
  one, and no topic is without listeners. -/
  lists : l.now.registry.Lists l.now.nextHandle l.live
  /-- Each registration was made under its handle, and stands in its table under its own topic. -/
  given : ∀ s ∈ l.live, s.handle ∈ issued
  stored : ∀ sort t id listener, (id, listener) ∈ (l.now.registry.table sort).listeners t ↔
    ⟨⟨id, t⟩, sort, listener⟩ ∈ l.live
  /-- The operations on the tables are those of the list. -/
  refines : l.now.registry.Refines l.now.nextHandle l.live
  /-- A handle that was given out removes the registration of its number, if it is there, and no other;
  the others keep their order. -/
  removed : ∀ h ∈ issued,
    ((l.now.registry.remove? h).isSome ↔ ∃ s ∈ l.live, s.handle.id = h.id) ∧
      ((l.now.registry.remove? h).getD l.now.registry).Lists l.now.nextHandle (l.without h.id)
  /-- So it is when its owner unsubscribes, … -/
  unsubscribed : ∀ h ∈ issued, ∀ k, l.now.isOpen →
    (l.now.perform (.unsubscribe h k)).1.registry.Lists l.now.nextHandle (l.without h.id)
  /-- … when it is abandoned, … -/
  abandoned : ∀ h ∈ issued,
    (l.now.perform (.abandon h)).1.registry.Lists l.now.nextHandle (l.without h.id)
  /-- … and when the server refuses the subscription, however late. -/
  refused : ∀ v h, l.now.pushed? v = none → l.now.refused? v = some h →
    h ∈ issued ∧ (l.now.dispatch v).1.registry.Lists l.now.nextHandle (l.without h.id)

theorem Faithful.enrolled {l : Roster κ α} (h : l.Faithful) {issued : List Handle}
    (hi : l.now.Issues issued) : l.Enrolled issued := by
  have hgiven : ∀ s ∈ l.live, s.handle ∈ issued := fun s hs =>
    hi.held s.handle ((h.agrees.lives_iff s.handle).mpr ⟨s, hs, rfl⟩)
  have hremoved (hd : Handle) (hhd : hd ∈ issued) := h.lists.remove? fun s hs hid =>
    hi.inj (hgiven s hs) hhd hid
  refine ⟨hi.numbers, hi.next, fun hn => ?_, h.lists, hgiven, h.lists.mem_listeners_iff,
    h.lists.refines, hremoved, fun hd hhd k ho => ?_, fun hd hhd => ?_, fun v hd hp hr => ?_⟩
  · rw [hi.next]
    omega
  · rw [Connection.perform, (Connection.unsubscribe_registry ho hd k).1]
    exact (hremoved hd hhd).2
  · rw [Connection.perform, (Connection.abandon_registry l.now hd).1]
    exact (hremoved hd hhd).2
  · have hhd := hi.refused? hr
    rw [Connection.dispatch_reply hp, (Connection.answer_registry l.now v).1, hr]
    exact ⟨hhd, (hremoved hd hhd).2⟩

/-- **Two tables stand for one list of registrations**, after any operations and between the values of a
chunk that is fed; and a handle that was given out tells its registration from all others. -/
theorem run_enrolled (ops : List (Op κ α)) (vs : List Value) :
    let l : Roster κ α := (run {} ops).meetAll vs
    l.now = ((Connection.run {} ops).1.dispatchAll vs).1 ∧ l.Enrolled (Connection.issued {} ops) := by
  intro l
  have hfaithful := ((Faithful.new (κ := κ) (α := α)).run ops).1.meetAll vs
  have hissues := (Connection.issues_new (κ := κ) (α := α)).run Connection.tidy_new ops
  have hnow : l.now = ((Connection.run {} ops).1.dispatchAll vs).1 := by
    rw [now_meetAll, now_run]
  refine ⟨hnow, hfaithful.1.enrolled (hnow ▸ ?_)⟩
  exact hissues.dispatchAll (Connection.tidy_new.run ops) vs

end Roster

end RespClient

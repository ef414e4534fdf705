import RespClient.Registry
import Mathlib.Data.List.Flatten
import Mathlib.Data.List.Nodup
import Mathlib.Data.List.Perm.Basic
import Mathlib.Tactic.Common

/-!
# Proofs/Registry — the tables are a set of registrations

A registry is read through one relation, `Lives r h`: the registration of the handle is there.  Each
operation is what its name says of that relation (`lives_insert`, `lives_of_remove?`, `lives_spend`), as
long as the tables are *sound*: no topic has two rows, no row is without listeners, no number is given
twice.  Then a topic is in a table exactly while one of its registrations lives (`contains_iff`).
-/

namespace RespClient

namespace ListenerTable

variable {α : Type}

/-- The numbers of the registrations. -/
def ids (table : ListenerTable α) : List Nat := table.flatMap fun row => row.2.map Prod.fst

/-- **A sound table**: one row a topic, and none without listeners. -/
structure Sound (table : ListenerTable α) : Prop where
  topics : (table.map Prod.fst).Nodup
  listened : ∀ row ∈ table, row.2 ≠ []

theorem Sound.nil : Sound ([] : ListenerTable α) := ⟨List.nodup_nil, fun _ h => by cases h⟩

theorem Sound.tail {row : Topic × List (Nat × α)} {table : ListenerTable α}
    (h : Sound (row :: table)) : table.Sound :=
  ⟨(List.nodup_cons.mp h.topics).2, fun r hr => h.listened r (List.mem_cons_of_mem row hr)⟩

/-! ## Listeners by topic -/

theorem contains_cons (topic t : Topic) (ls : List (Nat × α)) (table : ListenerTable α) :
    contains topic ((t, ls) :: table) = (decide (t = topic) || contains topic table) := rfl

theorem contains_iff_mem (topic : Topic) (table : ListenerTable α) :
    contains topic table ↔ topic ∈ table.map Prod.fst := by
  simp only [contains, List.any_eq_true, decide_eq_true_eq, List.mem_map]

theorem listeners_eq_nil {topic : Topic} {table : ListenerTable α} (h : ¬ contains topic table) :
    listeners topic table = [] := by
  induction table with
  | nil => rfl
  | cons row table ih =>
    obtain ⟨t, ls⟩ := row
    rw [contains_cons, Bool.or_eq_true, decide_eq_true_eq, not_or] at h
    rw [listeners, if_neg h.1, ih h.2]

/-- **A topic is in a sound table exactly while someone listens to it.** -/
theorem contains_iff_listeners {table : ListenerTable α} (hs : table.Sound) (topic : Topic) :
    contains topic table ↔ listeners topic table ≠ [] := by
  refine ⟨fun h => ?_, fun h => by_contra fun hn => h (listeners_eq_nil hn)⟩
  induction table with
  | nil => cases h
  | cons row table ih =>
    obtain ⟨t, ls⟩ := row
    by_cases ht : t = topic
    · rw [listeners, if_pos ht]
      exact hs.listened (t, ls) List.mem_cons_self
    · rw [listeners, if_neg ht]
      rw [contains_cons, decide_eq_false ht, Bool.false_or] at h
      exact ih hs.tail h

theorem holds_iff (h : Handle) (table : ListenerTable α) :
    holds h table ↔ h.id ∈ (listeners h.topic table).map Prod.fst := by
  simp [holds]

/-- A topic of a sound table is that of some registration. -/
theorem contains_iff_holds {table : ListenerTable α} (hs : table.Sound) (topic : Topic) :
    contains topic table ↔ ∃ id, holds ⟨id, topic⟩ table := by
  simp only [contains_iff_listeners hs, holds_iff]
  cases listeners topic table with
  | nil => simp
  | cons l ls => exact iff_of_true (by simp) ⟨l.1, by simp⟩

theorem mem_ids_of_holds {h : Handle} {table : ListenerTable α} (hh : holds h table) :
    h.id ∈ table.ids := by
  rw [holds_iff] at hh
  induction table with
  | nil => cases hh
  | cons row table ih =>
    obtain ⟨t, ls⟩ := row
    rw [ids, List.flatMap_cons, List.mem_append]
    rw [listeners] at hh
    split at hh
    · exact .inl hh
    · exact .inr (ih hh)

/-- A sound table has registrations as soon as it has a row. -/
theorem size_pos_iff {table : ListenerTable α} (hs : table.Sound) : 0 < table.size ↔ table ≠ [] := by
  cases table with
  | nil => exact iff_of_false (Nat.lt_irrefl 0) fun h => h rfl
  | cons row table =>
    have hrow : 0 < row.2.length := List.length_pos_iff.mpr (hs.listened row List.mem_cons_self)
    exact iff_of_true (Nat.add_pos_left hrow _) (List.cons_ne_nil _ _)

/-! ## Insertion -/

theorem map_fst_insert (topic : Topic) (id : Nat) (listener : α) (table : ListenerTable α) :
    (table.insert topic id listener).map Prod.fst
      = if contains topic table then table.map Prod.fst else table.map Prod.fst ++ [topic] := by
  induction table with
  | nil => rfl
  | cons row table ih =>
    obtain ⟨t, ls⟩ := row
    by_cases ht : t = topic
    · simp [insert, contains_cons, ht]
    · simp only [insert, contains_cons, ht, decide_false, Bool.false_or, if_false, List.map_cons, ih]
      split <;> rfl

theorem Sound.insert {table : ListenerTable α} (hs : table.Sound) (topic : Topic) (id : Nat)
    (listener : α) : (table.insert topic id listener).Sound := by
  refine ⟨?_, ?_⟩
  · rw [map_fst_insert]
    split
    · exact hs.topics
    · rename_i hn
      rw [contains_iff_mem] at hn
      exact List.nodup_append.mpr ⟨hs.topics, List.nodup_singleton topic, by
        rintro t ht u hu rfl
        exact hn (List.mem_singleton.mp hu ▸ ht)⟩
  · induction table with
    | nil => simp [ListenerTable.insert]
    | cons row table ih =>
      obtain ⟨t, ls⟩ := row
      intro r hr
      rw [ListenerTable.insert] at hr
      split at hr
      · obtain rfl | hr := List.mem_cons.mp hr
        · simp
        · exact hs.tail.listened r hr
      · obtain rfl | hr := List.mem_cons.mp hr
        · exact hs.listened _ List.mem_cons_self
        · exact ih hs.tail r hr

theorem listeners_insert (topic t : Topic) (id : Nat) (listener : α) (table : ListenerTable α) :
    listeners t (table.insert topic id listener)
      = if t = topic then listeners t table ++ [(id, listener)] else listeners t table := by
  induction table with
  | nil =>
    by_cases ht : t = topic
    · simp [insert, listeners, ht]
    · simp [insert, listeners, ht, Ne.symm ht]
  | cons row table ih =>
    obtain ⟨u, ls⟩ := row
    by_cases hu : u = topic
    · subst hu
      by_cases ht : t = u
      · simp [insert, listeners, ht]
      · simp [insert, listeners, ht, Ne.symm ht]
    · by_cases ht : u = t
      · subst ht
        simp [insert, listeners, hu]
      · simp [insert, listeners, hu, ht, ih]

theorem holds_insert (h k : Handle) (listener : α) (table : ListenerTable α) :
    holds k (table.insert h.topic h.id listener) ↔ holds k table ∨ k = h := by
  rw [holds_iff, holds_iff, listeners_insert]
  obtain ⟨id, topic⟩ := h
  obtain ⟨id', topic'⟩ := k
  by_cases ht : topic' = topic
  · simp [ht]
  · simp [ht]

theorem ids_insert (topic : Topic) (id : Nat) (listener : α) (table : ListenerTable α) :
    (table.insert topic id listener).ids.Perm (id :: table.ids) := by
  induction table with
  | nil => exact .refl _
  | cons row table ih =>
    obtain ⟨t, ls⟩ := row
    rw [insert]
    split
    · simp only [ids, List.flatMap_cons, List.map_append, List.map_cons, List.map_nil,
        List.append_assoc]
      exact List.perm_middle
    · simp only [ids, List.flatMap_cons] at ih ⊢
      exact (ih.append_left _).trans List.perm_middle

/-! ## Removal -/

theorem erase_sublist (h : Handle) (table : ListenerTable α) :
    ((table.erase h).map Prod.fst).Sublist (table.map Prod.fst) := by
  induction table with
  | nil => exact .slnil
  | cons row table ih =>
    obtain ⟨t, ls⟩ := row
    rw [erase]
    split
    · dsimp only
      split
      · exact List.sublist_cons_self _ _
      · exact List.Sublist.refl _
    · exact ih.cons_cons t

theorem Sound.erase {table : ListenerTable α} (hs : table.Sound) (h : Handle) :
    (table.erase h).Sound := by
  refine ⟨(erase_sublist h table).nodup hs.topics, ?_⟩
  induction table with
  | nil => exact fun _ hr => by cases hr
  | cons row table ih =>
    obtain ⟨t, ls⟩ := row
    intro r hr
    rw [ListenerTable.erase] at hr
    split at hr
    · dsimp only at hr
      split at hr
      · exact hs.tail.listened r hr
      · rename_i hk
        obtain rfl | hr := List.mem_cons.mp hr
        · simpa using hk
        · exact hs.tail.listened r hr
    · obtain rfl | hr := List.mem_cons.mp hr
      · exact hs.listened _ List.mem_cons_self
      · exact ih hs.tail r hr

theorem listeners_erase {table : ListenerTable α} (hs : table.Sound) (h : Handle) (t : Topic) :
    listeners t (table.erase h)
      = if t = h.topic then (listeners t table).filter (·.1 ≠ h.id) else listeners t table := by
  induction table with
  | nil => simp [erase, listeners]
  | cons row table ih =>
    obtain ⟨u, ls⟩ := row
    by_cases hu : u = h.topic
    · rw [erase, if_pos hu]
      by_cases ht : t = h.topic
      · have hn : listeners t table = [] := by
          refine listeners_eq_nil fun hc => (List.nodup_cons.mp hs.topics).1 ?_
          exact (hu.trans ht.symm) ▸ (contains_iff_mem t table).mp hc
        rw [if_pos ht, listeners, if_pos (hu.trans ht.symm)]
        dsimp only
        split
        · rename_i hk
          rw [hn, List.isEmpty_iff.mp hk]
        · rw [listeners, if_pos (hu.trans ht.symm)]
      · have hut : u ≠ t := fun hut => ht (hut ▸ hu)
        rw [if_neg ht, listeners, if_neg hut]
        dsimp only
        split
        · rfl
        · rw [listeners, if_neg hut]
    · rw [erase, if_neg hu, listeners, listeners, ih hs.tail]
      by_cases ht : u = t
      · rw [if_pos ht, if_pos ht, if_neg (ht ▸ hu)]
      · rw [if_neg ht, if_neg ht]

theorem holds_erase {table : ListenerTable α} (hs : table.Sound) (h k : Handle) :
    holds k (table.erase h) ↔ holds k table ∧ k ≠ h := by
  rw [holds_iff, holds_iff, listeners_erase hs]
  obtain ⟨id, topic⟩ := h
  obtain ⟨id', topic'⟩ := k
  by_cases ht : topic' = topic
  · subst ht
    simp [List.mem_filter]
  · simp [ht]

theorem ids_erase (h : Handle) (table : ListenerTable α) :
    (table.erase h).ids.Sublist table.ids := by
  induction table with
  | nil => exact .slnil
  | cons row table ih =>
    obtain ⟨t, ls⟩ := row
    have hf : ((ls.filter (·.1 ≠ h.id)).map Prod.fst).Sublist (ls.map Prod.fst) :=
      List.filter_sublist.map _
    rw [erase]
    split
    · dsimp only
      split
      · exact List.sublist_append_right _ _
      · exact hf.append (List.Sublist.refl _)
    · exact (List.Sublist.refl _).append ih

theorem Sound.eraseTopic {table : ListenerTable α} (hs : table.Sound) (topic : Topic) :
    (table.eraseTopic topic).Sound :=
  ⟨(List.filter_sublist.map _).nodup hs.topics, fun r hr => hs.listened r (List.mem_filter.mp hr).1⟩

theorem listeners_eraseTopic (topic t : Topic) (table : ListenerTable α) :
    listeners t (table.eraseTopic topic) = if t = topic then [] else listeners t table := by
  induction table with
  | nil => simp [eraseTopic, listeners]
  | cons row table ih =>
    obtain ⟨u, ls⟩ := row
    rw [eraseTopic] at ih ⊢
    by_cases hu : u = topic
    · subst hu
      by_cases ht : t = u
      · simpa [ht] using ih
      · simpa [listeners, ht, Ne.symm ht] using ih
    · by_cases ht : u = t
      · subst ht
        simp [listeners, hu]
      · simpa [listeners, hu, ht] using ih

theorem holds_eraseTopic (topic : Topic) (k : Handle) (table : ListenerTable α) :
    holds k (table.eraseTopic topic) ↔ holds k table ∧ k.topic ≠ topic := by
  rw [holds_iff, holds_iff, listeners_eraseTopic]
  by_cases ht : k.topic = topic <;> simp [ht]

theorem ids_eraseTopic (topic : Topic) (table : ListenerTable α) :
    (table.eraseTopic topic).ids.Sublist table.ids :=
  List.Sublist.flatMap List.filter_sublist _

end ListenerTable

namespace Registry

variable {α : Type}

/-- **The registration of the handle is there.** -/
def Lives (r : Registry α) (h : Handle) : Prop := r.persistent.holds h ∨ r.singleShot.holds h

/-- The numbers of the registrations, of both sorts. -/
def ids (r : Registry α) : List Nat := r.persistent.ids ++ r.singleShot.ids

/-- **A sound registry**: sound tables, and each number below the next is given at most once. -/
structure Sound (r : Registry α) (next : Nat) : Prop where
  persistent : r.persistent.Sound
  singleShot : r.singleShot.Sound
  once : r.ids.Nodup
  below : ∀ id ∈ r.ids, id < next

theorem Sound.empty (next : Nat) : (empty : Registry α).Sound next :=
  ⟨.nil, .nil, List.nodup_nil, fun _ h => by cases h⟩

theorem not_lives_empty (h : Handle) : ¬ (empty : Registry α).Lives h := by
  rintro (h | h)
  · cases h
  · cases h

/-- No number stands in both tables. -/
theorem Sound.not_both {r : Registry α} {next : Nat} (hs : r.Sound next) {h k : Handle}
    (hp : r.persistent.holds h) (hk : r.singleShot.holds k) : h.id ≠ k.id :=
  (List.nodup_append.mp hs.once).2.2 _ (ListenerTable.mem_ids_of_holds hp) _
    (ListenerTable.mem_ids_of_holds hk)

/-! ## Topics with listeners -/

/-- **A topic is registered exactly while one of its registrations lives.** -/
theorem contains_iff {r : Registry α} {next : Nat} (hs : r.Sound next) (topic : Topic) :
    r.contains topic ↔ ∃ id, r.Lives ⟨id, topic⟩ := by
  simp only [contains, Bool.or_eq_true, Lives, exists_or,
    ListenerTable.contains_iff_holds hs.persistent, ListenerTable.contains_iff_holds hs.singleShot]

theorem Lives.contains {r : Registry α} {next : Nat} (hs : r.Sound next) {h : Handle}
    (hl : r.Lives h) : r.contains h.topic := (contains_iff hs h.topic).mpr ⟨h.id, hl⟩

/-- **A topic is registered exactly while a message of it reaches someone.** -/
theorem contains_iff_total {r : Registry α} {next : Nat} (hs : r.Sound next) (topic : Topic) :
    r.contains topic ↔ 0 < (r.delivery topic).total := by
  rw [contains, Bool.or_eq_true, ListenerTable.contains_iff_listeners hs.persistent,
    ListenerTable.contains_iff_listeners hs.singleShot, ← List.length_pos_iff, ← List.length_pos_iff,
    Delivery.total, Nat.add_pos_iff_pos_or_pos]
  rfl

theorem isEmpty_eq_false {r : Registry α} {topic : Topic} (h : r.contains topic) :
    r.isEmpty = false := by
  obtain ⟨persistent, singleShot⟩ := r
  cases persistent with
  | cons _ _ => rfl
  | nil =>
    cases singleShot with
    | cons _ _ => rfl
    | nil => cases h

theorem eq_empty_of_isEmpty {r : Registry α} (h : r.isEmpty) : r = .empty := by
  obtain ⟨persistent, singleShot⟩ := r
  rw [isEmpty, Bool.and_eq_true, List.isEmpty_iff, List.isEmpty_iff] at h
  obtain ⟨rfl, rfl⟩ := h
  rfl

/-- A registry is empty exactly when no topic is registered. -/
theorem isEmpty_iff {r : Registry α} : r.isEmpty ↔ ∀ topic, ¬ r.contains topic := by
  refine ⟨fun h topic hc => absurd h (Bool.eq_false_iff.mp (isEmpty_eq_false hc)), fun h => ?_⟩
  obtain ⟨persistent, singleShot⟩ := r
  rcases persistent with _ | ⟨row, persistent⟩
  · rcases singleShot with _ | ⟨row, singleShot⟩
    · rfl
    · exact absurd (by simp [contains, ListenerTable.contains]) (h row.1)
  · exact absurd (by simp [contains, ListenerTable.contains]) (h row.1)

/-- Where the same topics are registered, a registry is as empty as the other. -/
theorem isEmpty_congr {r r' : Registry α} (h : ∀ t, r'.contains t ↔ r.contains t) :
    r'.isEmpty = r.isEmpty := by
  rw [Bool.eq_iff_iff, isEmpty_iff, isEmpty_iff]
  exact forall_congr' fun t => not_congr (h t)

/-- **Registrations are counted**: there are some exactly while the tables have rows. -/
theorem size_pos_iff {r : Registry α} {next : Nat} (hs : r.Sound next) :
    0 < r.size ↔ r.isEmpty = false := by
  rw [size, Nat.add_pos_iff_pos_or_pos, ListenerTable.size_pos_iff hs.persistent,
    ListenerTable.size_pos_iff hs.singleShot, isEmpty, Bool.and_eq_false_iff, List.isEmpty_eq_false_iff,
    List.isEmpty_eq_false_iff]

/-! ## The operations -/

theorem lives_insert (r : Registry α) (h k : Handle) (persistence : Persistence) (listener : α) :
    (r.insert h persistence listener).Lives k ↔ r.Lives k ∨ k = h := by
  cases persistence with
  | persistent => simp only [insert, Lives, ListenerTable.holds_insert, or_right_comm]
  | singleShot => simp only [insert, Lives, ListenerTable.holds_insert, or_assoc]

theorem Sound.insert {r : Registry α} {next : Nat} (hs : r.Sound next) (topic : Topic)
    (persistence : Persistence) (listener : α) :
    (r.insert ⟨next, topic⟩ persistence listener).Sound (next + 1) := by
  have hperm : (r.insert ⟨next, topic⟩ persistence listener).ids.Perm (next :: r.ids) := by
    cases persistence with
    | persistent => exact (ListenerTable.ids_insert topic next listener _).append_right _
    | singleShot =>
      exact ((ListenerTable.ids_insert topic next listener _).append_left _).trans
        List.perm_middle
  refine ⟨?_, ?_, ?_, ?_⟩
  · cases persistence with
    | persistent => exact ListenerTable.Sound.insert hs.persistent _ _ _
    | singleShot => exact hs.persistent
  · cases persistence with
    | persistent => exact hs.singleShot
    | singleShot => exact ListenerTable.Sound.insert hs.singleShot _ _ _
  · rw [hperm.nodup_iff]
    exact List.nodup_cons.mpr ⟨fun hn => Nat.lt_irrefl _ (hs.below next hn), hs.once⟩
  · intro id hid
    obtain rfl | hid := List.mem_cons.mp (hperm.mem_iff.mp hid)
    · exact Nat.lt_succ_self _
    · exact Nat.lt_succ_of_lt (hs.below id hid)

theorem contains_insert {r : Registry α} {next : Nat} (hs : r.Sound next) (topic t : Topic)
    (persistence : Persistence) (listener : α) :
    (r.insert ⟨next, topic⟩ persistence listener).contains t ↔ r.contains t ∨ t = topic := by
  rw [contains_iff (hs.insert topic persistence listener), contains_iff hs]
  simp only [lives_insert, Handle.mk.injEq, exists_or, exists_eq_left]

theorem remove?_eq_none {r : Registry α} {h : Handle} (hr : r.remove? h = none) : ¬ r.Lives h := by
  rw [remove?] at hr
  split at hr
  · cases hr
  · split at hr
    · cases hr
    · rintro (hp | hs)
      · contradiction
      · contradiction

/-- **What is left** when a registration is removed. -/
theorem lives_of_remove? {r r' : Registry α} {next : Nat} (hs : r.Sound next) {h : Handle}
    (hr : r.remove? h = some r') : r.Lives h ∧ ∀ k, r'.Lives k ↔ r.Lives k ∧ k ≠ h := by
  rw [remove?] at hr
  split at hr
  · rename_i hp
    cases hr
    refine ⟨.inl hp, fun k => ?_⟩
    rw [Lives, Lives, ListenerTable.holds_erase hs.persistent, or_and_right]
    refine or_congr_right ⟨fun hk => ⟨hk, ?_⟩, And.left⟩
    rintro rfl
    exact hs.not_both hp hk rfl
  · split at hr
    · rename_i hp hk
      cases hr
      refine ⟨.inr hk, fun k => ?_⟩
      rw [Lives, Lives, ListenerTable.holds_erase hs.singleShot, or_and_right]
      refine or_congr_left ⟨fun hk => ⟨hk, ?_⟩, And.left⟩
      rintro rfl
      exact hp hk
    · cases hr

/-- **A registration that is not there** is not removed. -/
theorem remove?_of_not_lives {r : Registry α} {next : Nat} (hs : r.Sound next) {h : Handle}
    (hl : ¬ r.Lives h) : r.remove? h = none :=
  Option.eq_none_iff_forall_ne_some.mpr fun _ hr => hl (lives_of_remove? hs hr).1

theorem Sound.remove? {r r' : Registry α} {next : Nat} (hs : r.Sound next) {h : Handle}
    (hr : r.remove? h = some r') : r'.Sound next := by
  rw [Registry.remove?] at hr
  split at hr
  · cases hr
    have hsub := (ListenerTable.ids_erase h r.persistent).append_right r.singleShot.ids
    exact ⟨ListenerTable.Sound.erase hs.persistent h, hs.singleShot, hsub.nodup hs.once,
      fun id hid => hs.below id (hsub.subset hid)⟩
  · split at hr
    · cases hr
      have hsub := (ListenerTable.ids_erase h r.singleShot).append_left r.persistent.ids
      exact ⟨hs.persistent, ListenerTable.Sound.erase hs.singleShot h, hsub.nodup hs.once,
        fun id hid => hs.below id (hsub.subset hid)⟩
    · cases hr

theorem Sound.getD_remove? {r : Registry α} {next : Nat} (hs : r.Sound next) (h : Handle) :
    ((r.remove? h).getD r).Sound next := by
  cases hr : r.remove? h with
  | none => exact hs
  | some r' => exact hs.remove? hr

/-- No registration enters by that. -/
theorem Lives.of_remove? {r : Registry α} {next : Nat} (hs : r.Sound next) {h k : Handle}
    (hk : ((r.remove? h).getD r).Lives k) : r.Lives k := by
  cases hr : r.remove? h with
  | none => rwa [hr] at hk
  | some r' =>
    rw [hr] at hk
    exact (((lives_of_remove? hs hr).2 k).mp hk).1

/-- Another topic is registered as before. -/
theorem contains_remove? {r r' : Registry α} {next : Nat} (hs : r.Sound next) {h : Handle}
    (hr : r.remove? h = some r') {topic : Topic} (ht : topic ≠ h.topic) :
    r'.contains topic ↔ r.contains topic := by
  rw [contains_iff (hs.remove? hr), contains_iff hs]
  refine exists_congr fun id => ((lives_of_remove? hs hr).2 _).trans (and_iff_left ?_)
  rintro rfl
  exact ht rfl

/-- **What is left** when a message has reached its single-shot listeners. -/
theorem lives_spend (r : Registry α) (topic : Topic) (k : Handle) :
    (r.spend topic).Lives k ↔ r.persistent.holds k ∨ r.singleShot.holds k ∧ k.topic ≠ topic := by
  rw [Lives, spend, ListenerTable.holds_eraseTopic]

theorem Lives.of_spend {r : Registry α} {topic : Topic} {k : Handle} (h : (r.spend topic).Lives k) :
    r.Lives k := ((lives_spend r topic k).mp h).imp_right And.left

theorem Sound.spend {r : Registry α} {next : Nat} (hs : r.Sound next) (topic : Topic) :
    (r.spend topic).Sound next := by
  have hsub := (ListenerTable.ids_eraseTopic topic r.singleShot).append_left r.persistent.ids
  exact ⟨hs.persistent, ListenerTable.Sound.eraseTopic hs.singleShot topic, hsub.nodup hs.once,
    fun id hid => hs.below id (hsub.subset hid)⟩

/-- Another topic is registered as before. -/
theorem contains_spend {r : Registry α} {next : Nat} (hs : r.Sound next) {topic t : Topic}
    (ht : t ≠ topic) : (r.spend topic).contains t ↔ r.contains t := by
  rw [contains_iff (hs.spend topic), contains_iff hs]
  refine exists_congr fun id => ?_
  rw [lives_spend, Lives, and_iff_left ht]

/-- A message that reaches no single-shot listener leaves every registration. -/
theorem lives_spend_of_none {r : Registry α} {topic : Topic}
    (h : ¬ 0 < (r.delivery topic).singleShot) (k : Handle) :
    (r.spend topic).Lives k ↔ r.Lives k := by
  have hn : r.singleShot.listeners topic = [] :=
    List.eq_nil_of_length_eq_zero (Nat.eq_zero_of_not_pos h)
  rw [lives_spend, Lives]
  refine or_congr_right ⟨And.left, fun hk => ⟨hk, ?_⟩⟩
  rintro rfl
  rw [ListenerTable.holds_iff, hn] at hk
  cases hk

end Registry

end RespClient

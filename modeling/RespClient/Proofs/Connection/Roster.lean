import RespClient.Proofs.Connection.Life

/-!
# Proofs/Connection/Roster — the registrations in one list

    live     r₁ r₂ … rₙ                      the registrations, in the order they were made
    diary    made r₁ · heard r₁ p · left r₁ · …

A roster is kept beside a connection (`Roster.act`, `Roster.meet`).  It is one list where the connection
has two tables, and it writes down whenever a registration is made, hears a message, or leaves.  No step
looks at it.

The diary is *kept* (`Kept`) as long as whoever is called for the last time does not stay on the roster;
then a number is given once and a listener that is gone is not called again.  The tables are the roster
sorted by topic (`Agrees`), and each operation of a registry is one of the roster.
-/

namespace RespClient

variable {κ α : Type}

/-! ## Registrations -/

/-- **One registration**, as it was made. -/
structure Registration (α : Type) where
  handle : Handle
  persistence : Persistence
  listener : α

namespace Registration

/-- Whether it is of this sort, for this topic. -/
def isFor (persistence : Persistence) (topic : Topic) (r : Registration α) : Bool :=
  r.persistence = persistence && r.handle.topic = topic

/-- Its place in a table. -/
def row (r : Registration α) : Nat × α := (r.handle.id, r.listener)

end Registration

/-- **What happens to a registration.** -/
inductive Entry (α : Type)
  | made (r : Registration α)
  /-- Its listener is called with the bytes of a message. -/
  | heard (r : Registration α) (payload : Bytes)
  /-- It is removed: unsubscribed, abandoned, refused by the server, spent, or at the end. -/
  | left (r : Registration α)

namespace Entry

/-- Whose entry it is. -/
def registration : Entry α → Registration α
  | made r | heard r _ | left r => r

/-- The number of the registration. -/
def id (e : Entry α) : Nat := e.registration.handle.id

/-- The call that the entry stands for, if it stands for one. -/
def heard? : Entry α → Option (α × Bytes)
  | heard r payload => some (r.listener, payload)
  | _ => none

/-- Whether the listener is not called any more: its registration left, or was for one message. -/
def isLast : Entry α → Bool
  | made _ => false
  | heard r _ => r.persistence = .singleShot
  | left _ => true

/-- **What may come later**: a call, unless it was the last of the registration; and nothing is made
under a number that was given. -/
def Permits (e : Entry α) : Entry α → Prop
  | made r => e.id ≠ r.handle.id
  | heard r _ => e.isLast → e.id ≠ r.handle.id
  | left _ => True

theorem permits_of_ne {r s : Registration α} (hne : r.handle.id ≠ s.handle.id) (p q : Bytes) :
    (heard r p).Permits (heard s q) := fun _ => hne

end Entry

/-! ## The tables of a registry -/

namespace Registry

/-- The table of a sort. -/
def table (r : Registry α) : Persistence → ListenerTable α
  | .persistent => r.persistent
  | .singleShot => r.singleShot

theorem audience_eq (r : Registry α) (topic : Topic) :
    r.audience topic = (((r.table .persistent).listeners topic).map Prod.snd)
      ++ ((r.table .singleShot).listeners topic).map Prod.snd := List.map_append

theorem lives_iff_table (r : Registry α) (h : Handle) :
    r.Lives h ↔ ∃ sort, (r.table sort).holds h := by
  refine ⟨fun hl => hl.elim (⟨.persistent, ·⟩) (⟨.singleShot, ·⟩), ?_⟩
  rintro ⟨sort, hl⟩
  cases sort with
  | persistent => exact .inl hl
  | singleShot => exact .inr hl

theorem listeners_insert (r : Registry α) (h : Handle) (persistence sort : Persistence)
    (listener : α) (t : Topic) :
    ((r.insert h persistence listener).table sort).listeners t
      = (r.table sort).listeners t
        ++ if persistence = sort ∧ h.topic = t then [(h.id, listener)] else [] := by
  obtain ⟨id, topic⟩ := h
  have hinsert := ListenerTable.listeners_insert topic t id listener
  by_cases ht : t = topic
  · subst ht
    cases persistence <;> cases sort <;> simp [insert, table, hinsert]
  · cases persistence <;> cases sort <;> simp [insert, table, hinsert, ht, Ne.symm ht]

/-- **The handle's row goes**, from whichever table it stands in. -/
theorem listeners_remove? {r : Registry α} {next : Nat} (hs : r.Sound next) (h : Handle)
    (sort : Persistence) (t : Topic) :
    (((r.remove? h).getD r).table sort).listeners t
      = ((r.table sort).listeners t).filter fun l => !(decide (l.1 = h.id) && decide (t = h.topic)) := by
  -- a table without the handle keeps its rows
  have hkeeps {table : ListenerTable α} (hn : ¬ table.holds h) :
      table.listeners t
        = (table.listeners t).filter fun l => !(decide (l.1 = h.id) && decide (t = h.topic)) := by
    refine (List.filter_eq_self.mpr fun l hl => ?_).symm
    rw [Bool.not_eq_true', Bool.and_eq_false_iff, decide_eq_false_iff_not, decide_eq_false_iff_not,
      ← not_and_or]
    rintro ⟨hid, rfl⟩
    exact hn ((ListenerTable.holds_iff h table).mpr (List.mem_map.mpr ⟨l, hl, hid⟩))
  have herases {table : ListenerTable α} (hs : table.Sound) :
      (table.erase h).listeners t
        = (table.listeners t).filter fun l => !(decide (l.1 = h.id) && decide (t = h.topic)) := by
    rw [ListenerTable.listeners_erase hs]
    by_cases ht : t = h.topic
    · simp [ht]
    · simp [ht]
  rw [remove?]
  split
  · rename_i hp
    cases sort with
    | persistent => exact herases hs.persistent
    | singleShot => exact hkeeps fun hk => hs.not_both hp hk rfl
  · rename_i hp
    split
    · cases sort with
      | persistent => exact hkeeps hp
      | singleShot => exact herases hs.singleShot
    · rename_i hk
      cases sort with
      | persistent => exact hkeeps hp
      | singleShot => exact hkeeps hk

theorem listeners_spend (r : Registry α) (topic t : Topic) (sort : Persistence) :
    ((r.spend topic).table sort).listeners t
      = if sort = .singleShot ∧ t = topic then [] else (r.table sort).listeners t := by
  cases sort with
  | persistent => rfl
  | singleShot => simp [spend, table, ListenerTable.listeners_eraseTopic]

end Registry

/-! ## The roster -/

/-- **A connection and its registrations**, with the diary of what happened to them. -/
structure Roster (κ α : Type) where
  now : Connection κ α := {}
  /-- The registrations that live, in the order they were made. -/
  live : List (Registration α) := []
  diary : List (Entry α) := []

namespace Roster

/-- A registration is made. -/
def enter (l : Roster κ α) (r : Registration α) : Roster κ α :=
  { l with live := l.live ++ [r], diary := l.diary ++ [.made r] }

/-- Some registrations leave. -/
def part (l : Roster κ α) (who : Registration α → Bool) : Roster κ α :=
  { l with
      live := l.live.filter fun r => !who r
      diary := l.diary ++ (l.live.filter who).map .left }

/-- **Whom a message reaches**: the persistent registrations of its topic, then the single-shot ones,
each sort in the order they were made. -/
def audience (l : Roster κ α) (topic : Topic) : List (Registration α) :=
  l.live.filter (Registration.isFor .persistent topic)
    ++ l.live.filter (Registration.isFor .singleShot topic)

/-- A message is heard. -/
def hear (l : Roster κ α) (push : Push) : Roster κ α :=
  { l with diary := l.diary ++ (l.audience push.topic).map (.heard · push.payload) }

/-- What a value does to the registrations: a message is heard and spends its single-shot listeners, and
a refusal removes the registration it is about. -/
def heed (l : Roster κ α) (v : Value) : Roster κ α :=
  match l.now.pushed? v with
  | some push => (l.hear push).part (Registration.isFor .singleShot push.topic)
  | none =>
    match l.now.refused? v with
    | some h => l.part (·.handle = h)
    | none => l

/-- **A value is dispatched.** -/
def meet (l : Roster κ α) (v : Value) : Roster κ α := { l.heed v with now := (l.now.dispatch v).1 }

/-- Values are dispatched one after another. -/
def meetAll (l : Roster κ α) (vs : List Value) : Roster κ α := vs.foldl meet l

/-- What an operation does to the registrations.  At the end of the conversation all leave. -/
def attend (l : Roster κ α) : Op κ α → Roster κ α
  | .register topic persistence listener _ =>
    if l.now.isOpen then l.enter ⟨⟨l.now.nextHandle, topic⟩, persistence, listener⟩ else l
  | .unsubscribe h _ => if l.now.isOpen then l.part (·.handle = h) else l
  | .abandon h => l.part (·.handle = h)
  | .feed input =>
    if l.now.stage = .closed then l
    else if (l.now.decoder.fault? input).isSome then
      (l.meetAll (l.now.decoder.values input)).part fun _ => true
    else l.meetAll (l.now.decoder.values input)
  | .fail _ | .close => l.part fun _ => true
  | _ => l

/-- **An operation is done.** -/
def act (l : Roster κ α) (op : Op κ α) : Roster κ α :=
  { l.attend op with now := (l.now.perform op).1 }

/-- **The roster of a run.** -/
def run (l : Roster κ α) (ops : List (Op κ α)) : Roster κ α := ops.foldl act l

theorem now_meetAll (l : Roster κ α) (vs : List Value) :
    (l.meetAll vs).now = (l.now.dispatchAll vs).1 := by
  induction vs generalizing l with
  | nil => rfl
  | cons v vs ih => exact ih (l.meet v)

/-- **The connection on the roster is that of the run.** -/
theorem now_run (l : Roster κ α) (ops : List (Op κ α)) : (l.run ops).now = (l.now.run ops).1 := by
  induction ops generalizing l with
  | nil => rfl
  | cons op ops ih => exact ih (l.act op)

/-! ## The diary -/

/-- **The diary is kept**: a registration is in it from when it was made, and once it has left, or was
called for its one message, it is not on the roster any more. -/
structure Kept (next : Nat) (live : List (Registration α)) (diary : List (Entry α)) : Prop where
  ascending : live.Pairwise fun r s => r.handle.id < s.handle.id
  below : ∀ e ∈ diary, e.id < next
  made : ∀ r ∈ live, .made r ∈ diary
  known : ∀ e ∈ diary, .made e.registration ∈ diary
  accounted : ∀ r, .made r ∈ diary → r ∈ live ∨ .left r ∈ diary
  silent : ∀ e ∈ diary, e.isLast → ∀ r ∈ live, e.id ≠ r.handle.id
  permits : diary.Pairwise Entry.Permits

theorem kept_nil (next : Nat) : Kept next ([] : List (Registration α)) [] :=
  ⟨.nil, nofun, nofun, nofun, nofun, nofun, .nil⟩

/-- A registration is made under the next number. -/
theorem Kept.enter {next : Nat} {live : List (Registration α)} {diary : List (Entry α)}
    (h : Kept next live diary) {r : Registration α} (hr : r.handle.id = next) :
    Kept (next + 1) (live ++ [r]) (diary ++ [.made r]) := by
  have hbelow : ∀ s ∈ live, s.handle.id < next := fun s hs => h.below _ (h.made s hs)
  refine ⟨?_, ?_, ?_, ?_, ?_, ?_, ?_⟩
  · refine List.pairwise_append.mpr ⟨h.ascending, List.pairwise_singleton _ _, fun s hs s' hs' => ?_⟩
    rw [List.mem_singleton.mp hs', hr]
    exact hbelow s hs
  · intro e he
    obtain he | he := List.mem_append.mp he
    · exact Nat.lt_succ_of_lt (h.below e he)
    · obtain rfl := List.mem_singleton.mp he
      exact Nat.lt_succ_of_le (Nat.le_of_eq hr)
  · intro s hs
    obtain hs | hs := List.mem_append.mp hs
    · exact List.mem_append_left _ (h.made s hs)
    · rw [List.mem_singleton.mp hs]
      exact List.mem_append_right _ (List.mem_singleton_self _)
  · intro e he
    obtain he | he := List.mem_append.mp he
    · exact List.mem_append_left _ (h.known e he)
    · rw [List.mem_singleton.mp he]
      exact List.mem_append_right _ (List.mem_singleton_self _)
  · intro s hs
    obtain hs | hs := List.mem_append.mp hs
    · exact (h.accounted s hs).imp (List.mem_append_left _) (List.mem_append_left _)
    · cases List.mem_singleton.mp hs
      exact .inl (List.mem_append_right _ (List.mem_singleton_self _))
  · intro e he hlast s hs
    obtain he | he := List.mem_append.mp he
    · obtain hs | hs := List.mem_append.mp hs
      · exact h.silent e he hlast s hs
      · rw [List.mem_singleton.mp hs, hr]
        exact Nat.ne_of_lt (h.below e he)
    · rw [List.mem_singleton.mp he] at hlast
      cases hlast
  · refine List.pairwise_append.mpr ⟨h.permits, List.pairwise_singleton _ _, fun e he f hf => ?_⟩
    rw [List.mem_singleton.mp hf]
    exact Nat.ne_of_lt (hr ▸ h.below e he)

/-- **Registrations are called and leave**: what is written down is about registrations of the roster,
and who is called for the last time does not stay. -/
theorem Kept.move {next : Nat} {live live' : List (Registration α)} {diary more : List (Entry α)}
    (h : Kept next live diary) (hsub : live'.Sublist live)
    (hmore : ∀ e ∈ more, e.registration ∈ live ∧ ∀ r, e ≠ .made r)
    (hgone : ∀ r ∈ live, r ∈ live' ∨ .left r ∈ more)
    (hsilent : ∀ e ∈ more, e.isLast → ∀ r ∈ live', e.id ≠ r.handle.id)
    (hpermits : more.Pairwise Entry.Permits) : Kept next live' (diary ++ more) := by
  refine ⟨h.ascending.sublist hsub, ?_, ?_, ?_, ?_, ?_, ?_⟩
  · intro e he
    obtain he | he := List.mem_append.mp he
    · exact h.below e he
    · exact h.below (.made e.registration) (h.made _ (hmore e he).1)
  · exact fun r hr => List.mem_append_left _ (h.made r (hsub.subset hr))
  · intro e he
    obtain he | he := List.mem_append.mp he
    · exact List.mem_append_left _ (h.known e he)
    · exact List.mem_append_left _ (h.made _ (hmore e he).1)
  · intro r hr
    obtain hr | hr := List.mem_append.mp hr
    · obtain hl | hl := h.accounted r hr
      · exact (hgone r hl).imp_right (List.mem_append_right _)
      · exact .inr (List.mem_append_left _ hl)
    · exact absurd rfl ((hmore _ hr).2 r)
  · intro e he hlast r hr
    obtain he | he := List.mem_append.mp he
    · exact h.silent e he hlast r (hsub.subset hr)
    · exact hsilent e he hlast r hr
  · refine List.pairwise_append.mpr ⟨h.permits, hpermits, fun e he f hf => ?_⟩
    obtain ⟨hlive, hmade⟩ := hmore f hf
    cases f with
    | made r => exact absurd rfl (hmade r)
    | heard r payload => exact fun hlast => h.silent e he hlast r hlive
    | left r => exact trivial

/-- A number is that of one registration. -/
theorem Kept.inj {next : Nat} {live : List (Registration α)} {diary : List (Entry α)}
    (h : Kept next live diary) {r s : Registration α} (hr : r ∈ live) (hs : s ∈ live)
    (hid : r.handle.id = s.handle.id) : r = s := by
  have hnodup : (live.map (·.handle.id)).Nodup :=
    List.pairwise_map.mpr (h.ascending.imp fun hlt => Nat.ne_of_lt hlt)
  exact List.inj_on_of_nodup_map hnodup hr hs hid

theorem Kept.part {next : Nat} {live : List (Registration α)} {diary : List (Entry α)}
    (h : Kept next live diary) (who : Registration α → Bool) :
    Kept next (live.filter fun r => !who r) (diary ++ (live.filter who).map .left) := by
  refine h.move List.filter_sublist ?_ ?_ ?_ ?_
  · intro e he
    obtain ⟨r, hr, rfl⟩ := List.mem_map.mp he
    exact ⟨(List.mem_filter.mp hr).1, nofun⟩
  · intro r hr
    cases hw : who r with
    | true => exact .inr (List.mem_map_of_mem (List.mem_filter.mpr ⟨hr, hw⟩))
    | false => exact .inl (List.mem_filter.mpr ⟨hr, by rw [hw]; rfl⟩)
  · rintro e he - s hs hid
    obtain ⟨r, hr, rfl⟩ := List.mem_map.mp he
    rw [List.mem_filter] at hr hs
    obtain rfl := h.inj hr.1 hs.1 hid
    rw [hr.2] at hs
    cases hs.2
  · exact List.pairwise_map.mpr (List.pairwise_of_forall fun _ _ => trivial)

theorem mem_audience {l : Roster κ α} {topic : Topic} {r : Registration α} :
    r ∈ l.audience topic ↔ r ∈ l.live ∧ r.handle.topic = topic := by
  rw [audience, List.mem_append, List.mem_filter, List.mem_filter, ← and_or_left]
  refine and_congr_right fun _ => ?_
  cases hp : r.persistence <;> simp [Registration.isFor, hp]

/-- A message reaches no registration twice. -/
theorem Kept.audience {next : Nat} {l : Roster κ α} (h : Kept next l.live l.diary) (topic : Topic) :
    (l.audience topic).Pairwise fun r s => r.handle.id ≠ s.handle.id := by
  have hdistinct := h.ascending.imp fun {r s} hlt => (Nat.ne_of_lt hlt : r.handle.id ≠ s.handle.id)
  refine List.pairwise_append.mpr ⟨hdistinct.filter _, hdistinct.filter _, fun r hr s hs hid => ?_⟩
  rw [List.mem_filter] at hr hs
  obtain rfl := h.inj hr.1 hs.1 hid
  rw [Registration.isFor, Bool.and_eq_true, decide_eq_true_eq] at hr hs
  cases hr.2.1.symm.trans hs.2.1

/-- **A message is heard** by its listeners, and its single-shot listeners leave. -/
theorem Kept.hear {next : Nat} {l : Roster κ α} (h : Kept next l.live l.diary) (push : Push) :
    let l' := (l.hear push).part (Registration.isFor .singleShot push.topic)
    Kept next l'.live l'.diary := by
  intro l'
  have hdiary : l'.diary = l.diary ++ ((l.audience push.topic).map (.heard · push.payload)
      ++ (l.live.filter (Registration.isFor .singleShot push.topic)).map .left) := List.append_assoc _ _ _
  rw [hdiary]
  refine h.move List.filter_sublist ?_ ?_ ?_ ?_
  · intro e he
    obtain he | he := List.mem_append.mp he
    · obtain ⟨r, hr, rfl⟩ := List.mem_map.mp he
      exact ⟨(mem_audience.mp hr).1, nofun⟩
    · obtain ⟨r, hr, rfl⟩ := List.mem_map.mp he
      exact ⟨(List.mem_filter.mp hr).1, nofun⟩
  · intro r hr
    cases hw : r.isFor .singleShot push.topic with
    | true =>
      exact .inr (List.mem_append_right _ (List.mem_map_of_mem (List.mem_filter.mpr ⟨hr, hw⟩)))
    | false => exact .inl (List.mem_filter.mpr ⟨hr, by rw [hw]; rfl⟩)
  · intro e he hlast s hs hid
    -- who is called for the last time, or leaves, is a single-shot listener of the topic
    have hspent : e.registration ∈ l.live ∧ e.registration.isFor .singleShot push.topic := by
      obtain he | he := List.mem_append.mp he
      · obtain ⟨r, hr, rfl⟩ := List.mem_map.mp he
        obtain ⟨hlive, htopic⟩ := mem_audience.mp hr
        exact ⟨hlive, Bool.and_eq_true_iff.mpr ⟨hlast, decide_eq_true htopic⟩⟩
      · obtain ⟨r, hr, rfl⟩ := List.mem_map.mp he
        exact List.mem_filter.mp hr
    obtain ⟨hs, hstays⟩ := List.mem_filter.mp hs
    obtain rfl := h.inj hspent.1 hs hid
    rw [hspent.2] at hstays
    cases hstays
  · refine List.pairwise_append.mpr ⟨List.pairwise_map.mpr ?_,
      List.pairwise_map.mpr (List.pairwise_of_forall fun _ _ => trivial), fun e _ f hf => ?_⟩
    · exact (h.audience push.topic).imp fun hne => Entry.permits_of_ne hne _ _
    · obtain ⟨s, -, rfl⟩ := List.mem_map.mp hf
      exact trivial

/-! ## The tables are the roster -/

/-- **The tables are the roster**, sorted by topic. -/
def Agrees (live : List (Registration α)) (r : Registry α) : Prop :=
  ∀ sort t, (r.table sort).listeners t
    = (live.filter (Registration.isFor sort t)).map Registration.row

theorem agrees_nil : Agrees ([] : List (Registration α)) .empty := by
  intro sort t
  cases sort <;> rfl

theorem Agrees.insert {live : List (Registration α)} {r : Registry α} (h : Agrees live r)
    (s : Registration α) :
    Agrees (live ++ [s]) (r.insert s.handle s.persistence s.listener) := by
  intro sort t
  rw [Registry.listeners_insert, h sort t, List.filter_append, List.map_append]
  by_cases hs : s.persistence = sort ∧ s.handle.topic = t
  · simp [Registration.isFor, Registration.row, hs]
  · have hn : s.isFor sort t = false := by simpa [Registration.isFor] using hs
    simp [hs, hn]

theorem Agrees.remove? {live : List (Registration α)} {r : Registry α} {next : Nat}
    (h : Agrees live r) (hs : r.Sound next) (hd : Handle) :
    Agrees (live.filter fun s => !decide (s.handle = hd)) ((r.remove? hd).getD r) := by
  intro sort t
  rw [Registry.listeners_remove? hs, h sort t, List.filter_map, List.filter_filter,
    List.filter_filter]
  refine congrArg _ (List.filter_congr fun s _ => ?_)
  obtain ⟨⟨id, topic⟩, persistence, listener⟩ := s
  obtain ⟨id', topic'⟩ := hd
  by_cases ht : topic = t
  · subst ht
    by_cases hid : id = id'
    · simp [Registration.isFor, Registration.row, hid, Bool.and_comm]
    · simp [Registration.isFor, Registration.row, hid]
  · simp [Registration.isFor, ht]

theorem Agrees.spend {live : List (Registration α)} {r : Registry α} (h : Agrees live r)
    (topic : Topic) :
    Agrees (live.filter fun s => !s.isFor .singleShot topic) (r.spend topic) := by
  intro sort t
  rw [Registry.listeners_spend, h sort t, List.filter_filter]
  by_cases hspent : sort = .singleShot ∧ t = topic
  · obtain ⟨rfl, rfl⟩ := hspent
    simp
  · rw [if_neg hspent]
    refine congrArg _ (List.filter_congr fun s _ => ?_)
    by_cases hfor : s.persistence = sort ∧ s.handle.topic = t
    · obtain ⟨rfl, rfl⟩ := hfor
      obtain hsort | htopic := not_and_or.mp hspent
      · simp [Registration.isFor, hsort]
      · simp [Registration.isFor, htopic]
    · have hn : s.isFor sort t = false := by simpa [Registration.isFor] using hfor
      rw [hn, Bool.false_and]

/-- **A registration lives while it is on the roster.** -/
theorem Agrees.lives_iff {live : List (Registration α)} {r : Registry α} (h : Agrees live r)
    (hd : Handle) : r.Lives hd ↔ ∃ s ∈ live, s.handle = hd := by
  simp only [Registry.lives_iff_table, ListenerTable.holds_iff, h _ _, List.map_map, List.mem_map,
    List.mem_filter]
  constructor
  · rintro ⟨sort, s, ⟨hs, hfor⟩, hid⟩
    refine ⟨s, hs, ?_⟩
    obtain ⟨⟨id, topic⟩, persistence, listener⟩ := s
    obtain ⟨id', topic'⟩ := hd
    obtain rfl : topic = topic' := of_decide_eq_true (Bool.and_eq_true_iff.mp hfor).2
    obtain rfl : id = id' := hid
    rfl
  · rintro ⟨s, hs, rfl⟩
    exact ⟨s.persistence, s, ⟨hs, by simp [Registration.isFor]⟩, rfl⟩

/-- Someone listens while someone is on the roster. -/
theorem Agrees.isEmpty {live : List (Registration α)} {r : Registry α} {next : Nat}
    (h : Agrees live r) (hs : r.Sound next) (hlive : live ≠ []) : r.isEmpty = false := by
  obtain ⟨s, hmem⟩ := List.exists_mem_of_ne_nil live hlive
  have hl : r.Lives s.handle := (h.lives_iff s.handle).mpr ⟨s, hmem, rfl⟩
  exact Registry.isEmpty_eq_false (hl.contains hs)

/-- **The listeners of a topic** are those of the roster. -/
theorem Agrees.audience {l : Roster κ α} (h : Agrees l.live l.now.registry) (topic : Topic) :
    l.now.registry.audience topic = (l.audience topic).map Registration.listener := by
  rw [Registry.audience_eq, h, h, List.map_map, List.map_map, Roster.audience, List.map_append]
  rfl

end Roster

end RespClient

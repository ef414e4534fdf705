import RespClient.Proofs.Connection.Operation
import Mathlib.Data.List.Nodup

/-!
# Proofs/Connection/Queue — the queue is a list of orders

    due orders     o₁ (some replies in)      o₂        …        oₙ
    queue entries  the rest of o₁'s          o₂'s      …        oₙ's

A client places *orders*: one command, a batch, a subscription, the end of one.  The queue and the
batches of a connection are what a list of due orders comes to (`Owes`); only the first of them may have
replies.  An order is placed at the end (`Owes.place`), a reply goes to the first (`Owes.answer`), and
when the conversation ends all fail in order (`Owes.failAll`).
-/

namespace RespClient

namespace Batch

variable {κ : Type}

/-- **A batch with its first replies in.** -/
def gathered (owner : κ) (n : Nat) (got : List Value) : Batch κ :=
  ⟨owner, (got ++ List.replicate (n - got.length) Value.null).toArray, got.length⟩

/-- **A reply takes its place**, behind those before it, and the last one finishes the batch. -/
theorem record_gathered (owner : κ) {n : Nat} {got : List Value} (h : got.length < n) (v : Value) :
    (gathered owner n got).record got.length (.ok v) =
      if got.length + 1 < n then .goesOn (gathered owner n (got ++ [v]))
      else .finished owner (.ok (.array (got ++ [v]))) := by
  obtain ⟨m, hm⟩ : ∃ m, n - got.length = m + 1 := ⟨n - got.length - 1, by omega⟩
  have hm' : n - (got.length + 1) = m := by omega
  have hset : (got ++ List.replicate (m + 1) Value.null).set got.length v
      = got ++ [v] ++ List.replicate m Value.null := by
    rw [List.set_append_right _ _ (Nat.le_refl _), Nat.sub_self, List.replicate_succ]
    simp
  have hsize : (got ++ [v] ++ List.replicate m Value.null).length = n := by simp; omega
  simp only [record, gathered, hm, List.setIfInBounds_toArray, hset, List.size_toArray, hsize,
    List.length_append, List.length_singleton, hm']
  by_cases hmore : got.length + 1 < n
  · rw [if_pos hmore, if_pos hmore]
  · obtain rfl : m = 0 := by omega
    rw [if_neg hmore, if_neg hmore, List.replicate_zero, List.append_nil]

end Batch

/-- **What a client asks for** in one operation, with the handler that gets the outcome. -/
inductive Order (κ : Type)
  | command (command : Command) (handler : κ)
  | batch (commands : List Command) (owner : κ)
  | subscribe (h : Handle) (handler : κ)
  | unsubscribe (topic : Topic) (handler : Option κ)

namespace Order

variable {κ : Type}

/-- The commands it takes. -/
def commands : Order κ → List Command
  | command c _ => [c]
  | batch cs _ => cs
  | subscribe h _ => [h.topic.subscribe]
  | unsubscribe topic _ => [topic.unsubscribe]

def handler? : Order κ → Option κ
  | command _ k | batch _ k | subscribe _ k => some k
  | unsubscribe _ k => k

/-- **What the handler is to get**, from the replies to the commands: all of them for a batch. -/
def outcome : Order κ → List Value → Value
  | batch _ _, replies => .array replies
  | _, replies => replies.headD .null

/-- The call that the replies lead to. -/
def calls (o : Order κ) (replies : List Value) : List (κ × Value) :=
  (o.handler?.map fun k => (k, o.outcome replies)).toList

/-- Whether it is none of the library's own. -/
def isPlain : Order κ → Bool
  | command _ _ | batch _ _ => true
  | _ => false

def isUnsubscribe : Order κ → Bool
  | unsubscribe _ _ => true
  | _ => false

/-- Its entries in the queue; `number` is that of its batch. -/
def entries (number : Nat) : Order κ → List (Pending κ)
  | command _ k => [⟨.handler k, .reply⟩]
  | batch cs _ => (List.range cs.length).map fun i => ⟨.slot number i, .reply⟩
  | subscribe h k => [⟨.handler k, .subscribeAck h⟩]
  | unsubscribe _ k => [⟨k.elim .nobody .handler, .unsubscribeAck⟩]

/-- Its row among the batches, with the first replies in. -/
def rows (number : Nat) (got : List Value) : Order κ → List (Nat × Batch κ)
  | batch cs k => [(number, .gathered k cs.length got)]
  | _ => []

theorem length_entries (o : Order κ) (number : Nat) :
    (o.entries number).length = o.commands.length := by
  cases o with
  | batch cs k => rw [entries, List.length_map, List.length_range, commands]
  | _ => rfl

end Order

/-- **An order that is due**: the number of its batch, and the replies it has so far. -/
structure Due (κ : Type) where
  order : Order κ
  number : Nat
  got : List Value := []

namespace Due

variable {κ : Type}

/-- The entries that still wait. -/
def entries (d : Due κ) : List (Pending κ) := (d.order.entries d.number).drop d.got.length

def rows (d : Due κ) : List (Nat × Batch κ) := d.order.rows d.number d.got

/-- The commands without a reply. -/
def commands (d : Due κ) : List Command := d.order.commands.drop d.got.length

/-- Whether one reply more leaves it due. -/
def goesOn (d : Due κ) : Bool := d.got.length + 1 < d.order.commands.length

/-- **What is left of it** after one reply more. -/
def next? (d : Due κ) (v : Value) : Option (Due κ) :=
  if d.goesOn then some { d with got := d.got ++ [v] } else none

/-- **The call that one reply more leads to.** -/
def calls (d : Due κ) (v : Value) : List (κ × Value) :=
  if d.goesOn then [] else d.order.calls (d.got ++ [v])

/-- **Only a batch is unfinished with replies in**; any other order waits for its one reply. -/
theorem unfinished_cases {P : ∀ d : Due κ, d.got.length < d.order.commands.length → Prop}
    (command : ∀ command k number, P ⟨.command command k, number, []⟩ Nat.one_pos)
    (batch : ∀ commands k number got (h : got.length < commands.length),
      P ⟨.batch commands k, number, got⟩ h)
    (subscribe : ∀ h k number, P ⟨.subscribe h k, number, []⟩ Nat.one_pos)
    (unsubscribe : ∀ topic k number, P ⟨.unsubscribe topic k, number, []⟩ Nat.one_pos) (d : Due κ)
    (h : d.got.length < d.order.commands.length) : P d h := by
  have hnil {got : List Value} (h : got.length < 1) : got = [] :=
    List.eq_nil_of_length_eq_zero (Nat.lt_one_iff.mp h)
  obtain ⟨o, number, got⟩ := d
  cases o with
  | command cmd k =>
    obtain rfl := hnil h
    exact command cmd k number
  | batch cs k => exact batch cs k number got h
  | subscribe hd k =>
    obtain rfl := hnil h
    exact subscribe hd k number
  | unsubscribe topic k =>
    obtain rfl := hnil h
    exact unsubscribe topic k number

end Due

namespace Connection

variable {κ α : Type}

/-- **An order is placed**: its commands are to be written, and it is due behind those before it. -/
def place (c : Connection κ α) (o : Order κ) : Connection κ α :=
  { c with
      outbound := c.outbound ++ o.commands.flatMap Command.encode
      pending := c.pending ++ o.entries c.nextBatch
      batches := c.batches ++ o.rows c.nextBatch []
      nextBatch := c.nextBatch + (o.rows c.nextBatch []).length
      acksOwed := c.acksOwed + if o.isUnsubscribe then 1 else 0 }

/-- **What a connection owes**: its queue and its batches are those of the due orders, the oldest
first, and only the first of these has replies. -/
structure Owes (c : Connection κ α) (due : List (Due κ)) : Prop where
  pending : c.pending = due.flatMap Due.entries
  batches : c.batches = due.flatMap Due.rows
  numbered : (c.batches.map Prod.fst).Nodup
  below : ∀ b ∈ c.batches, b.1 < c.nextBatch
  acks : c.acksOwed = due.countP (·.order.isUnsubscribe)
  unfinished : ∀ d ∈ due, d.got.length < d.order.commands.length
  fresh : ∀ d ∈ due.tail, d.got = []

/-- Nothing is owed. -/
theorem Owes.nil {c : Connection κ α} (hp : c.pending = []) (hb : c.batches = [])
    (ha : c.acksOwed = 0) : Owes c [] :=
  ⟨hp, hb, hb ▸ List.nodup_nil, fun _ h => absurd (hb ▸ h) List.not_mem_nil, ha,
    fun _ h => absurd h List.not_mem_nil, fun _ h => absurd h List.not_mem_nil⟩

/-- Only four fields matter. -/
theorem Owes.congr {c c' : Connection κ α} {due : List (Due κ)} (h : Owes c due)
    (hp : c'.pending = c.pending) (hb : c'.batches = c.batches) (hn : c'.nextBatch = c.nextBatch)
    (ha : c'.acksOwed = c.acksOwed) : Owes c' due :=
  ⟨hp.trans h.pending, hb.trans h.batches, hb ▸ h.numbered, hb ▸ hn ▸ h.below, ha.trans h.acks,
    h.unfinished, h.fresh⟩

/-- An order that is due has entries in the queue. -/
theorem Owes.due_eq_nil {c : Connection κ α} {due : List (Due κ)} (h : Owes c due)
    (hp : c.pending = []) : due = [] := by
  cases due with
  | nil => rfl
  | cons d due =>
    rw [h.pending, List.flatMap_cons] at hp
    have hempty : d.entries.length = 0 := by
      rw [(List.append_eq_nil_iff.mp hp).1, List.length_nil]
    rw [Due.entries, List.length_drop, Order.length_entries] at hempty
    have := h.unfinished d List.mem_cons_self
    omega

/-! ## An order is placed -/

theorem Owes.place {c : Connection κ α} {due : List (Due κ)} (h : Owes c due) {o : Order κ}
    (ho : o.commands ≠ []) : Owes (c.place o) (due ++ [⟨o, c.nextBatch, []⟩]) := by
  have hrows : ∀ b ∈ o.rows c.nextBatch [], b.1 = c.nextBatch := by
    cases o with
    | batch cs k => exact fun b hb => congrArg Prod.fst (List.mem_singleton.mp hb)
    | _ => exact fun b hb => absurd hb List.not_mem_nil
  have hnodup : ((o.rows c.nextBatch []).map Prod.fst).Nodup := by
    cases o with
    | batch cs k => exact List.nodup_singleton _
    | _ => exact List.nodup_nil
  refine ⟨?_, ?_, ?_, ?_, ?_, ?_, ?_⟩
  · simp [Connection.place, h.pending, Due.entries]
  · simp [Connection.place, h.batches, Due.rows]
  · rw [Connection.place, List.map_append, List.nodup_append]
    refine ⟨h.numbered, hnodup, ?_⟩
    intro m hm n hn
    obtain ⟨b, hb, rfl⟩ := List.mem_map.mp hm
    obtain ⟨b', hb', rfl⟩ := List.mem_map.mp hn
    exact Nat.ne_of_lt ((hrows b' hb').symm ▸ h.below b hb)
  · intro b hb
    simp only [Connection.place] at hb ⊢
    obtain hb | hb := List.mem_append.mp hb
    · exact Nat.lt_add_right _ (h.below b hb)
    · rw [hrows b hb]
      exact Nat.lt_add_of_pos_right (List.length_pos_of_mem hb)
  · simp only [Connection.place, h.acks, List.countP_append, List.countP_singleton]
  · intro d hd
    obtain hd | hd := List.mem_append.mp hd
    · exact h.unfinished d hd
    · obtain rfl := List.mem_singleton.mp hd
      exact List.length_pos_iff.mpr ho
  · intro d hd
    cases due with
    | nil => cases hd
    | cons d' due =>
      obtain hd | hd := List.mem_append.mp hd
      · exact h.fresh d hd
      · rw [List.mem_singleton.mp hd]

/-! ## A reply goes to the first -/

/-- The rest of the queue is that of the rest of the orders. -/
theorem Owes.tail {c c' : Connection κ α} {d : Due κ} {due : List (Due κ)} (h : Owes c (d :: due))
    (hp : c'.pending = due.flatMap Due.entries) (hb : c'.batches = due.flatMap Due.rows)
    (hn : c'.nextBatch = c.nextBatch)
    (ha : c'.acksOwed = due.countP (·.order.isUnsubscribe)) : Owes c' due := by
  have hsub : c'.batches.Sublist c.batches := by
    rw [hb, h.batches]
    exact List.sublist_append_right _ _
  exact ⟨hp, hb, (hsub.map _).nodup h.numbered, fun b hb' => hn ▸ h.below b (hsub.subset hb'), ha,
    fun e he => h.unfinished e (List.mem_cons_of_mem d he),
    fun e he => h.fresh e (List.mem_of_mem_tail he)⟩

/-- An order of one command is done with its reply. -/
theorem Owes.answer_one {c : Connection κ α} {d : Due κ} {due : List (Due κ)}
    (h : Owes c (d :: due)) {target : Target κ} {expects : Expect}
    (he : d.entries = [⟨target, expects⟩]) (hr : d.rows = [])
    (ha : d.order.isUnsubscribe = decide (expects = .unsubscribeAck)) (v : Value)
    {events : List (Event κ α)}
    (hs : ∀ c : Connection κ α, c.settle target (.ok v) = (c, events)) :
    Owes (c.answer v).1 due ∧ (c.answer v).2 = events := by
  have hp : c.pending = ⟨target, expects⟩ :: due.flatMap Due.entries := by
    rw [h.pending, List.flatMap_cons, he, List.singleton_append]
  have hb : c.batches = due.flatMap Due.rows := by
    rw [h.batches, List.flatMap_cons, hr, List.nil_append]
  simp only [answer, hp, hs, and_true]
  refine h.tail (by simp) (by simp [hb]) (by simp) ?_
  rw [acknowledge_acksOwed]
  simp only [h.acks, List.countP_cons, ha]
  by_cases hu : expects = .unsubscribeAck <;> simp [hu]

/-- The entries of a batch behind its first replies. -/
theorem entries_batch {cs : List Command} {k : κ} {number : Nat} {got : List Value}
    (h : got.length < cs.length) :
    Due.entries ⟨.batch cs k, number, got⟩
      = ⟨.slot number got.length, .reply⟩ ::
        ((List.range cs.length).map fun i => ⟨.slot number i, .reply⟩).drop (got.length + 1) := by
  have hlen : got.length < ((List.range cs.length).map fun i =>
      (⟨.slot number i, .reply⟩ : Pending κ)).length := by
    rwa [List.length_map, List.length_range]
  rw [Due.entries, Order.entries, List.drop_eq_getElem_cons hlen, List.getElem_map,
    List.getElem_range]

/-- A reply to a batch goes to its first free place. -/
theorem Owes.answer_batch {c : Connection κ α} {cs : List Command} {k : κ} {number : Nat}
    {got : List Value} {due : List (Due κ)} (h : Owes c (⟨.batch cs k, number, got⟩ :: due))
    (v : Value) :
    Owes (c.answer v).1 ((Due.next? ⟨.batch cs k, number, got⟩ v).toList ++ due) ∧
      (c.answer v).2
        = (Due.calls ⟨.batch cs k, number, got⟩ v).map fun r => .replied r.1 (.ok r.2) := by
  have hgot : got.length < cs.length := h.unfinished _ List.mem_cons_self
  have hp := h.pending
  rw [List.flatMap_cons, entries_batch hgot, List.cons_append] at hp
  have hb : c.batches = (number, .gathered k cs.length got) :: due.flatMap Due.rows := h.batches
  have hn : ∀ b ∈ due.flatMap Due.rows, b.1 ≠ number := by
    have hnum := h.numbered
    rw [hb] at hnum
    exact fun b hb' he => (List.nodup_cons.mp hnum).1 (List.mem_map.mpr ⟨b, hb', he⟩)
  simp only [Connection.answer, hp, settle, acknowledge, hb, List.lookup_cons_self,
    Batch.record_gathered k hgot v]
  by_cases hmore : got.length + 1 < cs.length
  · have hg : Due.goesOn (⟨.batch cs k, number, got⟩ : Due κ) := decide_eq_true hmore
    rw [if_pos hmore, Due.next?, Due.calls, if_pos hg, if_pos hg]
    have hmap : (due.flatMap Due.rows).map (fun b =>
        if b.1 = number then (number, Batch.gathered k cs.length (got ++ [v])) else b)
          = due.flatMap Due.rows :=
      (List.map_congr_left fun b hb' => if_neg (hn b hb')).trans (List.map_id _)
    refine ⟨⟨?_, ?_, ?_, ?_, h.acks, ?_, h.fresh⟩, rfl⟩
    · simp [Due.entries, Order.entries]
    · simp [hmap, Due.rows, Order.rows]
    · have hnum := h.numbered
      rw [hb] at hnum
      simpa [hmap] using hnum
    · have hbel := h.below
      rw [hb] at hbel
      simpa [hmap] using hbel
    · intro d hd
      obtain rfl | hd := List.mem_cons.mp hd
      · simpa [Order.commands] using hmore
      · exact h.unfinished d (List.mem_cons_of_mem _ hd)
  · have hg : ¬ Due.goesOn (⟨.batch cs k, number, got⟩ : Due κ) := fun hg =>
      hmore (of_decide_eq_true hg)
    rw [if_neg hmore, Due.next?, Due.calls, if_neg hg, if_neg hg]
    refine ⟨h.tail ?_ ?_ rfl h.acks, rfl⟩
    · have hall : cs.length ≤ got.length + 1 := Nat.le_of_not_lt hmore
      simp [hall]
    · simp only [List.filter_cons, ne_eq, not_true, decide_false]
      exact List.filter_eq_self.mpr fun b hb' => decide_eq_true (hn b hb')

/-- **A reply goes to the first order that is due**, and its handler is called with the last one. -/
theorem Owes.answer {c : Connection κ α} {d : Due κ} {due : List (Due κ)} (h : Owes c (d :: due))
    (v : Value) :
    Owes (c.answer v).1 ((d.next? v).toList ++ due) ∧
      (c.answer v).2 = (d.calls v).map fun r => .replied r.1 (.ok r.2) := by
  have hu := h.unfinished d List.mem_cons_self
  cases d, hu using Due.unfinished_cases with
  | command cmd k => exact h.answer_one rfl rfl rfl v fun _ => rfl
  | subscribe hd k => exact h.answer_one rfl rfl rfl v fun _ => rfl
  | unsubscribe topic k =>
    cases k with
    | none => exact h.answer_one rfl rfl rfl v fun _ => rfl
    | some k => exact h.answer_one rfl rfl rfl v fun _ => rfl
  | batch cs k => exact h.answer_batch v

/-! ## All fail in order -/

theorem failAll_append (failure : Failure) (ps qs : List (Pending κ)) (c : Connection κ α) :
    failAll failure (ps ++ qs) c =
      let turn := failAll failure ps c
      let more := failAll failure qs turn.1
      (more.1, turn.2 ++ more.2) := by
  induction ps generalizing c with
  | nil => rfl
  | cons p ps ih =>
    rw [List.cons_append, failAll, failAll]
    dsimp only
    rw [ih, List.append_assoc]

/-- The places of a batch that is gone. -/
theorem failAll_gone (failure : Failure) {ps : List (Pending κ)} {c : Connection κ α} {number : Nat}
    (hc : c.batches.lookup number = none) (hp : ∀ p ∈ ps, ∃ i, p.target = .slot number i) :
    failAll failure ps c = (c, []) := by
  induction ps with
  | nil => rfl
  | cons p ps ih =>
    obtain ⟨i, hi⟩ := hp p List.mem_cons_self
    have hs : c.settle p.target (.error failure) = (c, []) := by rw [hi, settle, hc]
    rw [failAll, hs]
    dsimp only
    rw [ih fun q hq => hp q (List.mem_cons_of_mem p hq), List.append_nil]

/-- An order fails: its handler is called, and a batch is gone. -/
theorem failAll_entries (failure : Failure) {d : Due κ} {c : Connection κ α}
    {others : List (Nat × Batch κ)} (hb : c.batches = d.rows ++ others)
    (hn : (c.batches.map Prod.fst).Nodup) (hu : d.got.length < d.order.commands.length) :
    failAll failure d.entries c = ({ c with batches := others },
      d.order.handler?.toList.map fun k => .replied k (.error failure)) := by
  cases d, hu using Due.unfinished_cases with
  | batch cs k number got hgot =>
    have hb : c.batches = (number, .gathered k cs.length got) :: others := hb
    rw [hb] at hn
    have hne : ∀ b ∈ others, b.1 ≠ number := fun b hb' he =>
      (List.nodup_cons.mp hn).1 (List.mem_map.mpr ⟨b, hb', he⟩)
    have hfilter : others.filter (fun b => b.1 ≠ number) = others :=
      List.filter_eq_self.mpr fun b hb' => decide_eq_true (hne b hb')
    have hfirst : c.settle (.slot number got.length) (.error failure)
        = ({ c with batches := others }, [.replied k (.error failure)]) := by
      simp only [settle, hb, List.lookup_cons_self, Batch.record, Batch.gathered, List.filter_cons,
        ne_eq, not_true, decide_false]
      exact congrArg (fun bs => ({ c with batches := bs }, _)) hfilter
    have hgone : others.lookup number = none :=
      List.lookup_eq_none_iff.mpr fun b hb' => bne_iff_ne.mpr (hne b hb').symm
    rw [entries_batch hgot, Connection.failAll, hfirst]
    dsimp only
    rw [failAll_gone failure hgone]
    · rfl
    · intro p hp
      obtain ⟨i, -, rfl⟩ := List.mem_map.mp (List.mem_of_mem_drop hp)
      exact ⟨i, rfl⟩
  | command cmd k =>
    obtain rfl : c.batches = others := hb
    rfl
  | subscribe hd k =>
    obtain rfl : c.batches = others := hb
    rfl
  | unsubscribe topic k =>
    obtain rfl : c.batches = others := hb
    cases k <;> rfl

theorem failAll_due (failure : Failure) {due : List (Due κ)} {c : Connection κ α}
    (hb : c.batches = due.flatMap Due.rows) (hn : (c.batches.map Prod.fst).Nodup)
    (hu : ∀ d ∈ due, d.got.length < d.order.commands.length) :
    failAll failure (due.flatMap Due.entries) c = ({ c with batches := [] },
      (due.filterMap (·.order.handler?)).map fun k => .replied k (.error failure)) := by
  induction due generalizing c with
  | nil =>
    obtain ⟨_, _, _, _, _, _, _, _, _, _⟩ := c
    obtain rfl := hb
    rfl
  | cons d due ih =>
    have hn' : ((due.flatMap Due.rows).map Prod.fst).Nodup := by
      rw [hb, List.flatMap_cons, List.map_append] at hn
      exact (List.nodup_append.mp hn).2.1
    have hb' : c.batches = d.rows ++ due.flatMap Due.rows := hb
    have hd := failAll_entries failure hb' hn (hu d List.mem_cons_self)
    have hrest := ih (c := { c with batches := due.flatMap Due.rows }) rfl hn'
      fun e he => hu e (List.mem_cons_of_mem d he)
    rw [List.flatMap_cons, failAll_append, hd]
    dsimp only
    rw [hrest, ← List.map_append]
    cases hk : d.order.handler? <;> simp [hk]

/-- **All fail in order**: each handler that waits is called once with the failure. -/
theorem Owes.failAll {c : Connection κ α} {due : List (Due κ)} (h : Owes c due) (failure : Failure) :
    failAll failure c.pending c = ({ c with batches := [] },
      (due.filterMap (·.order.handler?)).map fun k => .replied k (.error failure)) := by
  have hall := failAll_due failure h.batches h.numbered h.unfinished
  rwa [← h.pending] at hall

end Connection

end RespClient

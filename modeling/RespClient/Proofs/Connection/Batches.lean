import RespClient.Proofs.Batch
import RespClient.Proofs.Connection.Journal

/-!
# Proofs/Connection/Batches — a batch is all or nothing

    queue      …  b₀ b₁ b₂ …       the places of a batch, among other orders
    replies    …  r₀ r₁ r₂ …  ──▸  the owner gets [r₀, r₁, r₂]
    replies    …  r₀ r₁ ✗     ──▸  the owner gets the failure ✗

A batch that is due stands in the queue with the replies it has (`Connection.Waits`), and once its owner
was called nothing of it is left (`Connection.Absent`).  A step takes the first to one of three fates
(`Connection.Fate`): it waits on with more replies, it is full, or it fails with the connection.  Fates
compose (`Fate.trans`), so a run comes to one of them (`Submission.all_or_nothing`).

The places may be filled in any order (`Connection.collects_start`): that they are filled in turn is due
to the queue.
-/

namespace RespClient

variable {κ α : Type}

/-! ## What a handler gets -/

section Results

variable [DecidableEq κ]

/-- The result that an event gives to the handler, if it gives one. -/
def Event.resultFor? (k : κ) : Event κ α → Option (Except Failure Value)
  | replied k' result => if k' = k then some result else none
  | _ => none

/-- **The results that a handler gets**, in order. -/
def resultsFor (k : κ) (events : List (Event κ α)) : List (Except Failure Value) :=
  events.filterMap (Event.resultFor? k)

theorem resultsFor_append (k : κ) (es fs : List (Event κ α)) :
    resultsFor k (es ++ fs) = resultsFor k es ++ resultsFor k fs := List.filterMap_append

/-- Whoever is not called gets nothing. -/
theorem resultsFor_eq_nil {k : κ} {events : List (Event κ α)} (h : k ∉ called events) :
    resultsFor k events = [] := by
  refine List.filterMap_eq_nil_iff.mpr fun e he => ?_
  match e with
  | .replied k' result =>
    refine if_neg ?_
    rintro rfl
    exact h (List.mem_filterMap.mpr ⟨_, he, rfl⟩)
  | .delivered _ _ | .reported _ _ => rfl

/-- A failure is given to each handler once for each time it waits. -/
theorem resultsFor_failures (k : κ) (failure : Failure) (ks : List κ) :
    resultsFor k (ks.map fun k' => (.replied k' (.error failure) : Event κ α))
      = List.replicate (ks.count k) (.error failure) := by
  induction ks with
  | nil => rfl
  | cons k' ks ih =>
    rw [List.map_cons, resultsFor, List.filterMap_cons, ← resultsFor, ih, List.count_cons]
    by_cases hk : k' = k
    · simp [Event.resultFor?, hk, List.replicate_succ]
    · simp [Event.resultFor?, hk]

end Results

/-! ## In any order -/

namespace Connection

theorem lookup_replaced (rows : List (Nat × Batch κ)) (number : Nat) (b : Batch κ) :
    (rows.map fun row => if row.1 = number then (number, b) else row).lookup number
      = (rows.lookup number).map fun _ => b := by
  induction rows with
  | nil => rfl
  | cons row rows ih =>
    obtain ⟨m, b'⟩ := row
    by_cases hm : m = number
    · simp [hm]
    · have hne : (number == m) = false := beq_eq_false_iff_ne.mpr (Ne.symm hm)
      rw [List.map_cons, if_neg hm, List.lookup_cons, List.lookup_cons, hne]
      exact ih

/-- A result goes to its batch, … -/
theorem settle_slot {c : Connection κ α} {number : Nat} {b : Batch κ}
    (hb : c.batches.lookup number = some b) (index : Nat) (result : Except Failure Value) :
    match b.record index result with
    | .goesOn b' => (c.settle (.slot number index) result).2 = [] ∧
      (c.settle (.slot number index) result).1.batches.lookup number = some b'
    | .finished owner outcome =>
      (c.settle (.slot number index) result).2 = [.replied owner outcome] ∧
        (c.settle (.slot number index) result).1.batches.lookup number = none := by
  rw [settle, hb]
  dsimp only
  cases b.record index result with
  | goesOn b' =>
    refine ⟨rfl, ?_⟩
    dsimp only
    rw [lookup_replaced, hb, Option.map_some]
  | finished owner outcome =>
    refine ⟨rfl, List.lookup_eq_none_iff.mpr fun row hrow => ?_⟩
    exact bne_iff_ne.mpr (Ne.symm (of_decide_eq_true (List.mem_filter.mp hrow).2))

/-- Results come to places of a batch, one after another. -/
def settleAll (c : Connection κ α) (number : Nat) : List (Nat × Except Failure Value) → Turn κ α
  | [] => (c, [])
  | r :: rest =>
    let turn := c.settle (.slot number r.1) r.2
    let more := turn.1.settleAll number rest
    (more.1, turn.2 ++ more.2)

/-- … **and a batch that is gone absorbs whatever comes.** -/
theorem settleAll_gone {c : Connection κ α} {number : Nat} (hc : c.batches.lookup number = none)
    (rest : List (Nat × Except Failure Value)) : c.settleAll number rest = (c, []) := by
  induction rest with
  | nil => rfl
  | cons r rest ih =>
    have hs : c.settle (.slot number r.1) r.2 = (c, []) := by rw [settle, hc]
    rw [settleAll, hs]
    dsimp only
    rw [ih, List.append_nil]

/-- What finishes a batch is the last that is heard of it. -/
theorem settleAll_finished {c : Connection κ α} {number : Nat} {b : Batch κ}
    (hb : c.batches.lookup number = some b) {index : Nat} {result : Except Failure Value} {owner : κ}
    {outcome : Except Failure Value} (hr : b.record index result = .finished owner outcome)
    (rest : List (Nat × Except Failure Value)) :
    (c.settleAll number ((index, result) :: rest)).2 = [.replied owner outcome] := by
  have hs := settle_slot (α := α) hb index result
  rw [hr] at hs
  rw [settleAll]
  dsimp only
  rw [settleAll_gone hs.2, hs.1, List.append_nil]

/-- **Replies gather in their places** until the last one comes. -/
theorem settleAll_putAll {c : Connection κ α} {number : Nat} {b : Batch κ}
    (hb : c.batches.lookup number = some b) (got : List (Nat × Value))
    (hlen : b.received + got.length < b.replies.size) (rest : List (Nat × Except Failure Value)) :
    ∃ c' : Connection κ α, c'.batches.lookup number = some (b.putAll got) ∧
      (c.settleAll number (got.map (fun r => (r.1, .ok r.2)) ++ rest)).2
        = (c'.settleAll number rest).2 := by
  induction got generalizing c b with
  | nil => exact ⟨c, hb, rfl⟩
  | cons r got ih =>
    rw [List.length_cons] at hlen
    have hs := settle_slot (α := α) hb r.1 (.ok r.2)
    rw [Batch.record_ok, if_pos (by omega)] at hs
    have hlen' : (b.put r.1 r.2).received + got.length < (b.put r.1 r.2).replies.size := by
      rw [Batch.put, Array.size_setIfInBounds]
      dsimp only
      omega
    obtain ⟨c', hc', hrest⟩ := ih hs.2 hlen'
    refine ⟨c', hc', ?_⟩
    rw [List.map_cons, List.cons_append, settleAll]
    dsimp only
    rw [hs.1, List.nil_append, hrest]

/-- **A batch that starts, in any order.** -/
structure Collects (c : Connection κ α) (number : Nat) (owner : κ) (n : Nat) : Prop where
  /-- In whatever order the places are filled, the owner gets the replies in the order of the places, and
  what comes after that is absorbed. -/
  order : ∀ (values : Nat → Value) (order : List Nat) (rest : List (Nat × Except Failure Value)),
    order.Perm (List.range n) →
    (c.settleAll number (order.map (fun i => (i, .ok (values i))) ++ rest)).2
      = [.replied owner (.ok (.array ((List.range n).map values)))]
  /-- The first failure goes to the owner, if it comes before the last reply, whatever comes after it. -/
  failure : ∀ (got : List (Nat × Value)) (index : Nat) (failure : Failure)
    (rest : List (Nat × Except Failure Value)), got.length < n →
    (c.settleAll number (got.map (fun r => (r.1, .ok r.2)) ++ (index, .error failure) :: rest)).2
      = [.replied owner (.error failure)]

theorem collects_start {c : Connection κ α} {number n : Nat} {owner : κ} (hn : 0 < n)
    (hb : c.batches.lookup number = some (.start owner n)) : c.Collects number owner n := by
  have hsize : (Batch.start owner n).replies.size = n := Array.size_replicate
  have hreceived : (Batch.start owner n).received = 0 := rfl
  refine ⟨fun values order rest hperm => ?_, fun got index failure rest hlen => ?_⟩
  · have hlength : order.length = n := by rw [hperm.length_eq, List.length_range]
    obtain rfl | ⟨init, last, rfl⟩ := List.eq_nil_or_concat order
    · exact absurd hlength (Nat.ne_of_lt hn)
    rw [List.concat_eq_append] at hperm hlength ⊢
    rw [List.length_append, List.length_singleton] at hlength
    -- all but the last gather, and the last one finishes the batch
    have hgot : (init.map fun i => (i, values i)).length + 1 = n := by rwa [List.length_map]
    obtain ⟨c', hc', hrest⟩ := settleAll_putAll hb (init.map fun i => (i, values i))
      (by omega) ((last, .ok (values last)) :: rest)
    have hrecord : ((Batch.start owner n).putAll (init.map fun i => (i, values i))).record last
        (.ok (values last)) = .finished owner (.ok (.array ((List.range n).map values))) := by
      rw [Batch.record_ok, Batch.received_putAll, Batch.size_putAll, if_neg (by omega),
        Batch.owner_putAll, ← Batch.putAll_start owner values hperm, List.map_append, List.map_singleton,
        Batch.putAll_concat]
      rfl
    rw [← settleAll_finished hc' hrecord rest, ← hrest, List.map_append, List.append_assoc, List.map_map]
    rfl
  · obtain ⟨c', hc', hrest⟩ := settleAll_putAll hb got (by omega)
      ((index, .error failure) :: rest)
    rw [hrest]
    refine settleAll_finished hc' ?_ rest
    rw [Batch.record, Batch.owner_putAll]
    rfl

end Connection

/-! ## The places of a batch -/

/-- The place of the batch that a result is for, if it is for one. -/
def Target.place? (number : Nat) : Target κ → Option Nat
  | slot m index => if m = number then some index else none
  | _ => none

namespace Connection

/-- **The reply that a value brings to a place of the batch**, with the place. -/
def fills? (c : Connection κ α) (number : Nat) (v : Value) : Option (Value × Nat) :=
  (c.answered? v).bind fun p => (p.target.place? number).map (v, ·)

/-- The replies to places of the batch while values are dispatched. -/
def fillsAll (c : Connection κ α) (number : Nat) : List Value → List (Value × Nat)
  | [] => []
  | v :: vs => (c.fills? number v).toList ++ (c.dispatch v).1.fillsAll number vs

/-- **The replies to places of the batch** in a run. -/
def filled (c : Connection κ α) (number : Nat) : List (Op κ α) → List (Value × Nat)
  | [] => []
  | op :: ops => c.fillsAll number (c.routes op) ++ (c.perform op).1.filled number ops

/-- The failure with which an operation ends a connection that has not ended. -/
def endsBy? (c : Connection κ α) : Op κ α → Option Failure
  | .fail failure => some failure
  | .close => some .connectionClosed
  | .feed input => (c.decoder.fault? input).map .protocol
  | _ => none

/-- **The failure with which a run ends a connection** that has not ended, if it ends it. -/
def demise? (c : Connection κ α) : List (Op κ α) → Option Failure
  | [] => none
  | op :: ops => (c.endsBy? op).or ((c.perform op).1.demise? ops)

/-- An entry for a place is that of a batch that is due. -/
theorem mem_rows_of_entries {d : Due κ} {p : Pending κ} (hp : p ∈ d.entries) {number i : Nat}
    (hi : p.target.place? number = some i) : number ∈ d.rows.map Prod.fst := by
  obtain ⟨o, m, got⟩ := d
  have hp : p ∈ o.entries m := List.mem_of_mem_drop hp
  cases o with
  | batch cs k =>
    obtain ⟨j, -, rfl⟩ := List.mem_map.mp hp
    have hm : m = number := by
      by_contra hne
      rw [Target.place?, if_neg hne] at hi
      cases hi
    exact List.mem_singleton.mpr hm.symm
  | command cmd k =>
    obtain rfl := List.mem_singleton.mp hp
    cases hi
  | subscribe hd k =>
    obtain rfl := List.mem_singleton.mp hp
    cases hi
  | unsubscribe topic k =>
    obtain rfl := List.mem_singleton.mp hp
    cases k <;> cases hi

/-- What is left of an order is for the same handler and the same batch. -/
theorem mem_next? {d d' : Due κ} {v : Value} (h : d' ∈ (d.next? v).toList) :
    d'.order = d.order ∧ d'.rows.map Prod.fst = d.rows.map Prod.fst := by
  rw [Option.mem_toList, Due.next?, Option.ite_none_right_eq_some] at h
  obtain rfl := Option.some.inj h.2
  refine ⟨rfl, ?_⟩
  obtain ⟨o, m, got⟩ := d
  cases o <;> rfl

/-- **What a value does to the orders that are due**: it is a message or nothing waits for it, and then
orders without a handler may be due behind them; or it is the reply to the first of them. -/
theorem Owes.meets {c : Connection κ α} {due : List (Due κ)} (h : Owes c due) (v : Value) :
    (∃ more, Owes (c.dispatch v).1 (due ++ more) ∧ c.answered? v = none ∧
      called (c.dispatch v).2 = [] ∧ ∀ d ∈ more, d.order.handler? = none ∧ d.rows = []) ∨
    ∃ d rest, due = d :: rest ∧ Owes (c.dispatch v).1 ((d.next? v).toList ++ rest) ∧
      c.answered? v = d.entries.head? ∧
      (c.dispatch v).2 = (d.calls v).map fun r => .replied r.1 (.ok r.2) := by
  rw [answered?]
  cases hp : c.pushed? v with
  | some push =>
    rw [dispatch_pushed hp]
    refine .inl ⟨_, h.deliver push, rfl, ?_, fun d hd => ?_⟩
    · rw [(deliver_effect c push).calls, Option.toList_none, ite_self]
    · obtain ⟨o, ho, rfl⟩ := Option.map_eq_some_iff.mp (Option.mem_toList.mp hd)
      rw [parting?, Option.ite_none_right_eq_some] at ho
      obtain rfl := Option.some.inj ho.2
      exact ⟨rfl, rfl⟩
  | none =>
    rw [dispatch_reply hp]
    cases due with
    | nil =>
      have hnil : c.pending = [] := h.pending
      refine .inl ⟨[], ?_, ?_, ?_, List.forall_mem_nil _⟩
      · rw [Connection.answer, hnil]
        exact h
      · rw [hnil]
        rfl
      · rw [Connection.answer, hnil]
        rfl
    | cons d rest =>
      obtain ⟨howes, hevents⟩ := h.answer v
      refine .inr ⟨d, rest, rfl, howes, ?_, hevents⟩
      have hne : d.entries ≠ [] := by
        have hu := h.unfinished d List.mem_cons_self
        rw [Due.entries, ne_eq, List.drop_eq_nil_iff, Order.length_entries]
        omega
      rw [h.pending, List.flatMap_cons]
      exact List.head?_append_of_ne_nil _ hne

theorem nextBatch_le_placed (c : Connection κ α) (o? : Option (Order κ)) :
    c.nextBatch ≤ (c.placed o?).nextBatch := by
  cases o? with
  | none => exact Nat.le_refl _
  | some o => exact Nat.le_add_right _ _

theorem nextBatch_le_dispatch (c : Connection κ α) (v : Value) :
    c.nextBatch ≤ (c.dispatch v).1.nextBatch := by
  cases hp : c.pushed? v with
  | some push =>
    rw [dispatch_pushed hp, (deliver_effect c push).places.nextBatch]
    exact nextBatch_le_placed c _
  | none =>
    rw [dispatch_reply hp, answer]
    cases c.pending with
    | nil => exact Nat.le_refl _
    | cons p ps =>
      dsimp only
      rw [settle_eq, acknowledge_nextBatch]

/-! ## A batch that is due, and one that is not -/

/-- **The batch waits**, with the replies it has, and its handler waits for nothing else. -/
structure Waits (c : Connection κ α) (commands : List Command) (k : κ) (number : Nat)
    (got : List Value) : Prop where
  opened : c.stage ≠ .closed
  due : ∃ front back, c.Owes (front ++ ⟨.batch commands k, number, got⟩ :: back) ∧
    ∀ d ∈ front ++ back, d.order.handler? ≠ some k

/-- **Nothing is left of the batch**, and its handler waits for nothing. -/
def Absent (c : Connection κ α) (k : κ) (number : Nat) : Prop :=
  number < c.nextBatch ∧ ∃ due, c.Owes due ∧
    ∀ d ∈ due, d.order.handler? ≠ some k ∧ number ∉ d.rows.map Prod.fst

/-- **The fate of a batch** that had the replies `got`, after a while in which replies came to its places
and results went to its owner, and perhaps the connection ended: it waits for more, it is full, or it
failed with the connection. -/
inductive Fate (commands : List Command) (k : κ) (number : Nat) (got : List Value)
    (c : Connection κ α) : List (Value × Nat) → List (Except Failure Value) → Option Failure → Prop
  | waits (more : List Value) (h : c.Waits commands k number (got ++ more)) :
    Fate commands k number got c (more.zipIdx got.length) [] none
  | full (more : List Value) (h : c.Absent k number)
    (hlen : got.length + more.length = commands.length) (e? : Option Failure) :
    Fate commands k number got c (more.zipIdx got.length) [.ok (.array (got ++ more))] e?
  | fails (more : List Value) (h : c.Absent k number)
    (hlen : got.length + more.length < commands.length) (e : Failure) :
    Fate commands k number got c (more.zipIdx got.length) [.error e] (some e)

variable {commands : List Command} {k : κ} {number : Nat} {got : List Value} {c c' : Connection κ α}

/-- **Fates compose**: what waits goes on, and of what is gone nothing more is heard. -/
theorem Fate.trans {filled filled' : List (Value × Nat)} {results results' : List (Except Failure Value)}
    {e? e?' : Option Failure} (h : Fate commands k number got c filled results e?)
    (hwaits : ∀ got, c.Waits commands k number got →
      Fate commands k number got c' filled' results' e?')
    (habsent : c.Absent k number → c'.Absent k number ∧ filled' = [] ∧ results' = []) :
    Fate commands k number got c' (filled ++ filled') (results ++ results') (e?.or e?') := by
  cases h with
  | waits more h =>
    have hlen : (got ++ more).length = got.length + more.length := List.length_append
    have hzip (last : List Value) : more.zipIdx got.length ++ last.zipIdx (got ++ more).length
        = (more ++ last).zipIdx got.length := by
      rw [List.zipIdx_append, hlen]
    have hmore (last : List Value) :
        got.length + (more ++ last).length = (got ++ more).length + last.length := by
      rw [hlen, List.length_append, Nat.add_assoc]
    rw [List.nil_append, Option.none_or]
    cases hwaits _ h with
    | waits last h' =>
      rw [hzip]
      exact .waits _ (List.append_assoc _ _ _ ▸ h')
    | full last h' hfull =>
      rw [hzip, List.append_assoc]
      exact .full _ h' ((hmore last).trans hfull) _
    | fails last h' hless =>
      rw [hzip]
      exact .fails _ h' (hmore last ▸ hless) _
  | full more h hfull =>
    obtain ⟨h', rfl, rfl⟩ := habsent h
    rw [List.append_nil, List.append_nil]
    exact .full more h' hfull _
  | fails more h hless e =>
    obtain ⟨h', rfl, rfl⟩ := habsent h
    rw [List.append_nil, List.append_nil]
    exact .fails more h' hless e

/-- What waits has a free place. -/
theorem Waits.length_lt (h : c.Waits commands k number got) : got.length < commands.length := by
  obtain ⟨-, front, back, howes, -⟩ := h
  exact howes.unfinished _ (List.mem_append_right _ List.mem_cons_self)

/-- **What a fate comes to**: the places are filled in turn, and the results tell whether they are full
or the connection ended before that. -/
theorem Fate.results_eq {filled : List (Value × Nat)} {results : List (Except Failure Value)}
    {e? : Option Failure} (h : Fate commands k number [] c filled results e?) :
    filled.map Prod.snd = List.range filled.length ∧ filled.length ≤ commands.length ∧
      results = if filled.length = commands.length then [.ok (.array (filled.map Prod.fst))]
        else e?.toList.map .error := by
  have hsnd (more : List Value) :
      (more.zipIdx 0).map Prod.snd = List.range (more.zipIdx 0).length := by
    rw [List.zipIdx_map_snd, List.length_zipIdx, List.range_eq_range']
  cases h with
  | waits more h =>
    have hlen : more.length < commands.length := h.length_lt
    refine ⟨hsnd more, ?_, ?_⟩
    · rw [List.length_nil, List.length_zipIdx]
      exact Nat.le_of_lt hlen
    · rw [List.length_nil, List.length_zipIdx, if_neg (Nat.ne_of_lt hlen)]
      rfl
  | full more h hlen =>
    rw [List.length_nil, Nat.zero_add] at hlen
    refine ⟨hsnd more, ?_, ?_⟩
    · rw [List.length_nil, List.length_zipIdx]
      exact Nat.le_of_eq hlen
    · rw [List.length_nil, List.length_zipIdx, if_pos hlen, List.zipIdx_map_fst, List.nil_append]
  | fails more h hlen e =>
    rw [List.length_nil, Nat.zero_add] at hlen
    refine ⟨hsnd more, ?_, ?_⟩
    · rw [List.length_nil, List.length_zipIdx]
      exact Nat.le_of_lt hlen
    · rw [List.length_nil, List.length_zipIdx, if_neg (Nat.ne_of_lt hlen)]
      rfl

/-! ## What a step leaves -/

/-- The order of another handler is of another batch. -/
theorem other_of_order? {op : Op κ α} (hk : op.handler? ≠ some k) {d : Due κ}
    (hd : d ∈ ((c.order? op).map fun o => ⟨o, c.nextBatch, []⟩).toList) :
    d.order.handler? ≠ some k ∧ d.rows.map Prod.fst ⊆ [c.nextBatch] := by
  obtain ⟨o, ho, rfl⟩ := Option.map_eq_some_iff.mp (Option.mem_toList.mp hd)
  refine ⟨(order?_commands ho).2 ▸ hk, ?_⟩
  cases o with
  | batch cs k' => exact List.Subset.refl _
  | _ => exact List.nil_subset _

theorem Absent.ask (h : c.Absent k number) {op : Op κ α} (ha : op.asks)
    (hk : op.handler? ≠ some k) : (c.perform op).1.Absent k number := by
  obtain ⟨hnumber, due, howes, hothers⟩ := h
  have hplaces := (perform_effect c ha).places
  refine ⟨?_, _, hplaces.owes howes fun o ho => (order?_commands ho).1, fun d hd => ?_⟩
  · rw [hplaces.nextBatch]
    exact Nat.lt_of_lt_of_le hnumber (nextBatch_le_placed c _)
  · obtain hd | hd := List.mem_append.mp hd
    · exact hothers d hd
    · obtain ⟨hd, hrows⟩ := other_of_order? hk hd
      refine ⟨hd, fun hmem => Nat.ne_of_lt hnumber ?_⟩
      exact List.mem_singleton.mp (hrows hmem)

theorem Waits.ask (h : c.Waits commands k number got) {op : Op κ α} (ha : op.asks)
    (hk : op.handler? ≠ some k) : (c.perform op).1.Waits commands k number got := by
  obtain ⟨hopen, front, back, howes, hothers⟩ := h
  have hplaces := (perform_effect c ha).places
  have howes' := hplaces.owes howes fun o ho => (order?_commands ho).1
  rw [List.append_assoc, List.cons_append] at howes'
  refine ⟨mt (perform_stage c ha).2.mp hopen, front, _, howes', fun d hd => ?_⟩
  rw [← List.append_assoc] at hd
  obtain hd | hd := List.mem_append.mp hd
  · exact hothers d hd
  · exact (other_of_order? hk hd).1

/-- Only the queue and the batches matter. -/
theorem Absent.congr (h : c.Absent k number) (hp : c'.pending = c.pending)
    (hb : c'.batches = c.batches) (hn : c'.nextBatch = c.nextBatch) (ha : c'.acksOwed = c.acksOwed) :
    c'.Absent k number := by
  obtain ⟨hnumber, due, howes, hothers⟩ := h
  exact ⟨hn ▸ hnumber, due, howes.congr hp hb hn ha, hothers⟩

theorem Waits.congr (h : c.Waits commands k number got) (hs : c'.stage = c.stage)
    (hp : c'.pending = c.pending) (hb : c'.batches = c.batches) (hn : c'.nextBatch = c.nextBatch)
    (ha : c'.acksOwed = c.acksOwed) : c'.Waits commands k number got := by
  obtain ⟨hopen, front, back, howes, hothers⟩ := h
  exact ⟨hs ▸ hopen, front, back, howes.congr hp hb hn ha, hothers⟩

/-- The decoder plays no part. -/
theorem Absent.reading (h : c.Absent k number) (d : Decoder) : (c.reading d).Absent k number :=
  h.congr rfl rfl rfl rfl

theorem Waits.reading (h : c.Waits commands k number got) (d : Decoder) :
    (c.reading d).Waits commands k number got := h.congr rfl rfl rfl rfl rfl

/-- A request dispatches no value. -/
theorem routes_of_asks {op : Op κ α} (ha : op.asks) : c.routes op = [] :=
  routes_eq_nil c fun input heq => by
    rw [heq] at ha
    cases ha

/-- A value that answers nothing fills no place, … -/
theorem fills?_of_unanswered {v : Value} (h : c.answered? v = none) : c.fills? number v = none := by
  rw [fills?, h, Option.bind_none]

/-- … nor does a reply to another order. -/
theorem fills?_of_other {d : Due κ} {v : Value} (h : c.answered? v = d.entries.head?)
    (hd : number ∉ d.rows.map Prod.fst) : c.fills? number v = none := by
  rw [fills?, h]
  refine Option.bind_eq_none_iff.mpr fun p hp => Option.map_eq_none_iff.mpr ?_
  refine Option.eq_none_iff_forall_ne_some.mpr fun i hi => hd ?_
  exact mem_rows_of_entries (List.mem_of_mem_head? hp) hi

/-- A batch that is due has a number that was given, … -/
theorem Owes.number_lt {front back : List (Due κ)}
    (h : c.Owes (front ++ ⟨.batch commands k, number, got⟩ :: back)) : number < c.nextBatch := by
  refine h.below (number, .gathered k commands.length got) ?_
  rw [h.batches, List.flatMap_append, List.flatMap_cons]
  exact List.mem_append_right _ List.mem_cons_self

/-- … and that of no other order. -/
theorem Owes.apart {front back : List (Due κ)}
    (h : c.Owes (front ++ ⟨.batch commands k, number, got⟩ :: back)) :
    ∀ d ∈ front ++ back, number ∉ d.rows.map Prod.fst := by
  intro d hd hnumber
  have hb : number ∈ (Due.rows ⟨.batch commands k, number, got⟩).map Prod.fst :=
    List.mem_singleton_self _
  have hnodup := h.numbered
  rw [h.batches, List.flatMap_append, List.flatMap_cons, List.map_append, List.map_append] at hnodup
  have hflat {ds : List (Due κ)} (hd : d ∈ ds) : number ∈ (ds.flatMap Due.rows).map Prod.fst := by
    rw [List.map_flatMap]
    exact List.mem_flatMap.mpr ⟨d, hd, hnumber⟩
  obtain ⟨-, hrest, hfront⟩ := List.nodup_append.mp hnodup
  obtain hd | hd := List.mem_append.mp hd
  · exact hfront _ (hflat hd) _ (List.mem_append_left _ hb) rfl
  · exact (List.nodup_append.mp hrest).2.2 _ hb _ (hflat hd) rfl

/-- **A batch that is accepted waits**: its commands are to be written, and no place of it is filled. -/
theorem waits_submitBatch (hacc : c.Accounted) (hk : k ∉ c.waiting)
    (ho : c.order? (.submitBatch commands k) = some (.batch commands k)) :
    (c.submitBatch commands k).1.Waits commands k c.nextBatch [] ∧
      (c.submitBatch commands k).1.batches.lookup c.nextBatch = some (.start k commands.length) ∧
      (c.submitBatch commands k).1.pending
        = c.pending ++ (List.range commands.length).map (fun i => ⟨.slot c.nextBatch i, .reply⟩) ∧
      (c.submitBatch commands k).1.outbound = c.outbound ++ commands.flatMap Command.encode ∧
      called (c.submitBatch commands k).2 = [] := by
  obtain ⟨due, howes, -⟩ := hacc
  obtain ⟨hplaces, hcalls⟩ := effect_submitBatch c commands k
  rw [ho] at hplaces hcalls
  have hdue := hplaces.owes howes fun o heq => Option.some.inj heq ▸ (order?_commands ho).1
  have hask : (.submitBatch commands k : Op κ α).asks := rfl
  have hopen : (c.submitBatch commands k).1.stage ≠ .closed :=
    mt (perform_stage c hask).2.mp fun hclosed => not_isOpen_of_closed hclosed (isOpen_of_order? ho)
  refine ⟨⟨hopen, due, [], hdue, fun d hd hd' => hk ?_⟩, ?_, hplaces.pending, hplaces.outbound, hcalls⟩
  · rw [List.append_nil] at hd
    rw [howes.waiting]
    exact List.mem_filterMap.mpr ⟨d, hd, hd'⟩
  · refine lookup_of_mem hdue.numbered ?_
    rw [hplaces.batches]
    exact List.mem_append_right _ List.mem_cons_self

/-! ## Whether the connection has ended -/

theorem closed_perform_iff (hc : c.stage ≠ .closed) (op : Op κ α) :
    (c.perform op).1.stage = .closed ↔ (c.endsBy? op).isSome := by
  cases op with
  | feed input =>
    have hopen : (c.dispatchAll (c.decoder.values input)).1.stage ≠ .closed :=
      mt (dispatchAll_stage c _).2.mp hc
    rw [Connection.perform, (feed_eq hc input).1, endsBy?, Option.isSome_map]
    cases c.decoder.fault? input with
    | none => exact iff_of_false hopen Bool.false_ne_true
    | some cause => exact iff_of_true (ends_fail _ _).closed rfl
  | written n => exact iff_of_false hc Bool.false_ne_true
  | fail failure => exact iff_of_true (ends_fail c failure).closed rfl
  | close => exact iff_of_true (ends_close c).closed rfl
  | _ => exact iff_of_false (mt (perform_stage c rfl).2.mp hc) Bool.false_ne_true

/-- **A run has ended the connection** if an operation of it did. -/
theorem closed_run_iff (hc : c.stage ≠ .closed) (ops : List (Op κ α)) :
    (c.run ops).1.stage = .closed ↔ (c.demise? ops).isSome := by
  induction ops generalizing c with
  | nil => exact iff_of_false hc Bool.false_ne_true
  | cons op ops ih =>
    have hop := closed_perform_iff hc op
    rw [Connection.run, demise?]
    by_cases hclosed : (c.perform op).1.stage = .closed
    · obtain ⟨failure, hfailure⟩ := Option.isSome_iff_exists.mp (hop.mp hclosed)
      rw [hfailure, Option.some_or]
      exact iff_of_true (run_closed hclosed ops) rfl
    · rw [Option.not_isSome_iff_eq_none.mp (mt hop.mpr hclosed), Option.none_or]
      exact ih hclosed

/-! ## What a value does -/

variable [DecidableEq κ]

/-- A reply to another order gives the handler nothing. -/
theorem resultsFor_calls {d : Due κ} (hd : d.order.handler? ≠ some k) (v : Value) :
    resultsFor k ((d.calls v).map fun r => (.replied r.1 (.ok r.2) : Event κ α)) = [] := by
  refine resultsFor_eq_nil fun hmem => hd ?_
  rw [called_replies] at hmem
  rw [← Option.mem_toList, ← calls_append_next? d v]
  exact List.mem_append_left _ hmem

theorem Absent.value (h : c.Absent k number) (v : Value) :
    (c.dispatch v).1.Absent k number ∧ (c.fills? number v).toList = [] ∧
      resultsFor k (c.dispatch v).2 = [] := by
  obtain ⟨hnumber, due, howes, hothers⟩ := h
  have hnext := Nat.lt_of_lt_of_le hnumber (nextBatch_le_dispatch c v)
  obtain ⟨more, howes', hans, hcalled, hmore⟩ | ⟨d, rest, rfl, howes', hans, hevents⟩ := howes.meets v
  · refine ⟨⟨hnext, _, howes', fun d hd => ?_⟩, ?_, ?_⟩
    · obtain hd | hd := List.mem_append.mp hd
      · exact hothers d hd
      · obtain ⟨hk, hrows⟩ := hmore d hd
        rw [hk, hrows]
        exact ⟨nofun, List.not_mem_nil⟩
    · rw [fills?_of_unanswered hans, Option.toList_none]
    · exact resultsFor_eq_nil (hcalled ▸ List.not_mem_nil)
  · obtain ⟨hk, hrows⟩ := hothers d List.mem_cons_self
    refine ⟨⟨hnext, _, howes', fun d' hd' => ?_⟩, ?_, ?_⟩
    · obtain hd' | hd' := List.mem_append.mp hd'
      · obtain ⟨horder, hfst⟩ := mem_next? hd'
        rw [horder, hfst]
        exact ⟨hk, hrows⟩
      · exact hothers d' (List.mem_cons_of_mem d hd')
    · rw [fills?_of_other hans hrows, Option.toList_none]
    · rw [hevents]
      exact resultsFor_calls hk v

/-- **The next reply to a batch** takes the first free place, and the last one fills it. -/
theorem Owes.fate_own {back : List (Due κ)}
    (h : c.Owes (⟨.batch commands k, number, got⟩ :: back)) (hopen : c'.stage ≠ .closed)
    (hothers : ∀ d ∈ back, d.order.handler? ≠ some k) (hnext : c.nextBatch ≤ c'.nextBatch) {v : Value}
    (howes : c'.Owes ((Due.next? ⟨.batch commands k, number, got⟩ v).toList ++ back)) :
    Fate commands k number got c' [(v, got.length)]
      (resultsFor k ((Due.calls ⟨.batch commands k, number, got⟩ v).map fun r =>
        (.replied r.1 (.ok r.2) : Event κ α))) none := by
  have hu : got.length < commands.length := h.unfinished _ List.mem_cons_self
  by_cases hmore : got.length + 1 < commands.length
  · have hg : Due.goesOn (⟨.batch commands k, number, got⟩ : Due κ) := decide_eq_true hmore
    rw [Due.next?, if_pos hg] at howes
    rw [Due.calls, if_pos hg]
    exact .waits [v] ⟨hopen, [], back, howes, hothers⟩
  · have hg : ¬ Due.goesOn (⟨.batch commands k, number, got⟩ : Due κ) := fun hg =>
      hmore (of_decide_eq_true hg)
    rw [Due.next?, if_neg hg] at howes
    have hresults : resultsFor k ((Due.calls ⟨.batch commands k, number, got⟩ v).map fun r =>
        (.replied r.1 (.ok r.2) : Event κ α)) = [.ok (.array (got ++ [v]))] := by
      rw [Due.calls, if_neg hg]
      exact congrArg Option.toList (if_pos rfl)
    rw [hresults]
    have hqueue : c.Owes ([] ++ ⟨.batch commands k, number, got⟩ :: back) := h
    refine .full [v] ⟨Nat.lt_of_lt_of_le hqueue.number_lt hnext, back, howes, fun d hd => ?_⟩
      (Nat.le_antisymm hu (Nat.le_of_not_lt hmore)) none
    exact ⟨hothers d hd, hqueue.apart d hd⟩

/-- **A value and a batch that waits**: it is the next reply to the batch, or it is another's. -/
theorem Waits.value (h : c.Waits commands k number got) (v : Value) :
    Fate commands k number got (c.dispatch v).1 (c.fills? number v).toList
      (resultsFor k (c.dispatch v).2) none := by
  obtain ⟨hopen, front, back, howes, hothers⟩ := h
  have hopen' : (c.dispatch v).1.stage ≠ .closed := mt (dispatch_stage c v).2.mp hopen
  obtain ⟨more, howes', hans, hcalled, hmore⟩ | ⟨d, rest, hdue, howes', hans, hevents⟩ := howes.meets v
  · rw [fills?_of_unanswered hans, resultsFor_eq_nil (hcalled ▸ List.not_mem_nil)]
    refine .waits [] ⟨hopen', front, back ++ more, ?_, fun d hd => ?_⟩
    · rwa [List.append_nil, ← List.cons_append, ← List.append_assoc]
    · rw [← List.append_assoc] at hd
      obtain hd | hd := List.mem_append.mp hd
      · exact hothers d hd
      · rw [(hmore d hd).1]
        nofun
  · match front with
    | f :: front =>
      obtain ⟨rfl, rfl⟩ := List.cons.inj hdue
      have hf := hothers f List.mem_cons_self
      rw [fills?_of_other hans (howes.apart f List.mem_cons_self), hevents, resultsFor_calls hf]
      refine .waits [] ⟨hopen', (f.next? v).toList ++ front, back, ?_, fun d hd => ?_⟩
      · rwa [List.append_nil, List.append_assoc]
      · rw [List.append_assoc] at hd
        obtain hd | hd := List.mem_append.mp hd
        · rw [(mem_next? hd).1]
          exact hf
        · exact hothers d (List.mem_cons_of_mem f hd)
    | [] =>
      obtain ⟨rfl, rfl⟩ := List.cons.inj hdue
      have hu : got.length < commands.length := howes.unfinished _ List.mem_cons_self
      have hfills : c.fills? number v = some (v, got.length) := by
        rw [fills?, hans, entries_batch hu]
        exact congrArg (Option.map _) (if_pos rfl)
      rw [hfills, hevents]
      exact howes.fate_own hopen' hothers (nextBatch_le_dispatch c v) howes'

theorem Absent.values (h : c.Absent k number) (vs : List Value) :
    (c.dispatchAll vs).1.Absent k number ∧ c.fillsAll number vs = [] ∧
      resultsFor k (c.dispatchAll vs).2 = [] := by
  induction vs generalizing c with
  | nil => exact ⟨h, rfl, rfl⟩
  | cons v vs ih =>
    obtain ⟨h', hfills, hresults⟩ := h.value v
    obtain ⟨hlast, hmore, hlater⟩ := ih h'
    rw [fillsAll, dispatchAll, resultsFor_append, hfills, hresults, hmore, hlater]
    exact ⟨hlast, rfl, rfl⟩

theorem Waits.values (h : c.Waits commands k number got) (vs : List Value) :
    Fate commands k number got (c.dispatchAll vs).1 (c.fillsAll number vs)
      (resultsFor k (c.dispatchAll vs).2) none := by
  induction vs generalizing c got with
  | nil => exact .waits [] (by rwa [List.append_nil])
  | cons v vs ih =>
    rw [fillsAll, dispatchAll, resultsFor_append]
    exact (h.value v).trans (fun got h => ih h) fun h => h.values vs

/-! ## What an operation does -/

/-- A request of another handler leaves what waits, and calls nobody else. -/
theorem resultsFor_ask {op : Op κ α} (ha : op.asks) (hk : op.handler? ≠ some k) :
    resultsFor k (c.perform op).2 = [] := by
  refine resultsFor_eq_nil fun hmem => ?_
  rw [(perform_effect c ha).calls] at hmem
  split at hmem
  · exact List.not_mem_nil hmem
  · exact hk (Option.mem_toList.mp hmem)

/-- **The end gives the failure to all that wait**, and nothing is left. -/
theorem Owes.ends {due : List (Due κ)} (h : c.Owes due) (hc : c.stage ≠ .closed)
    (hnumber : number < c.nextBatch) {failure : Failure} (turn : Turn κ α)
    (hturn : turn = c.fail failure ∨ turn = c.close ∧ failure = .connectionClosed) :
    turn.1.Absent k number ∧ resultsFor k turn.2
      = List.replicate ((due.filterMap (·.order.handler?)).count k) (.error failure) := by
  have hacc : c.Accounted := ⟨due, h, fun hclosed => absurd hclosed hc⟩
  have habsent : (c.ended []).Absent k number := ⟨hnumber, [], .nil rfl rfl rfl, nofun⟩
  obtain rfl | ⟨rfl, rfl⟩ := hturn
  · rw [hacc.fail hc, h.waiting]
    exact ⟨habsent, resultsFor_failures k failure _⟩
  · rw [hacc.close hc, h.waiting]
    exact ⟨habsent, resultsFor_failures k _ _⟩

theorem count_others {due : List (Due κ)} (h : ∀ d ∈ due, d.order.handler? ≠ some k) :
    (due.filterMap (·.order.handler?)).count k = 0 := by
  refine List.count_eq_zero.mpr fun hmem => ?_
  obtain ⟨d, hd, hk⟩ := List.mem_filterMap.mp hmem
  exact h d hd hk

theorem Absent.ends (h : c.Absent k number) {failure : Failure} (turn : Turn κ α)
    (hturn : turn = c.fail failure ∨ turn = c.close ∧ failure = .connectionClosed) :
    turn.1.Absent k number ∧ resultsFor k turn.2 = [] := by
  by_cases hc : c.stage = .closed
  · have hsame : turn = (c, []) := by
      obtain rfl | ⟨rfl, -⟩ := hturn
      · rw [Connection.fail, if_pos hc]
      · rw [Connection.close, if_pos hc]
    rw [hsame]
    exact ⟨h, rfl⟩
  · obtain ⟨hnumber, due, howes, hothers⟩ := h
    have hends := howes.ends (k := k) hc hnumber turn hturn
    rwa [count_others fun d hd => (hothers d hd).1] at hends

/-- **The end fails a batch that waits.** -/
theorem Waits.ends (h : c.Waits commands k number got) {failure : Failure} (turn : Turn κ α)
    (hturn : turn = c.fail failure ∨ turn = c.close ∧ failure = .connectionClosed) :
    Fate commands k number got turn.1 [] (resultsFor k turn.2) (some failure) := by
  obtain ⟨hopen, front, back, howes, hothers⟩ := h
  have hbatch : ⟨.batch commands k, number, got⟩ ∈ front ++ ⟨.batch commands k, number, got⟩ :: back :=
    List.mem_append_right _ List.mem_cons_self
  have hone : ((front ++ ⟨.batch commands k, number, got⟩ :: back).filterMap
      (·.order.handler?)).count k = 1 := by
    have hf := count_others fun d hd => hothers d (List.mem_append_left _ hd)
    have hb := count_others fun d hd => hothers d (List.mem_append_right _ hd)
    rw [List.filterMap_append, List.count_append, hf, Nat.zero_add]
    exact List.count_cons_self.trans (congrArg (· + 1) hb)
  obtain ⟨habsent, hresults⟩ := howes.ends (k := k) hopen howes.number_lt turn hturn
  rw [hresults, hone]
  exact .fails [] habsent (howes.unfinished _ hbatch) failure

/-- Reading stops. -/
theorem Absent.stop (h : c.Absent k number) (cause? : Option Malformed) :
    (c.stop cause?).1.Absent k number ∧ resultsFor k (c.stop cause?).2 = [] := by
  match cause? with
  | none => exact ⟨h, rfl⟩
  | some cause => exact h.ends _ (.inl rfl)

theorem Waits.stop (h : c.Waits commands k number got) (cause? : Option Malformed) :
    Fate commands k number got (c.stop cause?).1 [] (resultsFor k (c.stop cause?).2)
      (cause?.map .protocol) := by
  match cause? with
  | none => exact .waits [] (by rwa [List.append_nil])
  | some cause => exact h.ends _ (.inl rfl)

theorem Absent.perform (h : c.Absent k number) {op : Op κ α} (hk : op.handler? ≠ some k) :
    (c.perform op).1.Absent k number ∧ c.fillsAll number (c.routes op) = [] ∧
      resultsFor k (c.perform op).2 = [] := by
  by_cases ha : op.asks
  · rw [routes_of_asks ha]
    exact ⟨h.ask ha hk, rfl, resultsFor_ask ha hk⟩
  · cases op with
    | feed input =>
      by_cases hc : c.stage = .closed
      · rw [routes, if_pos hc, Connection.perform, (feed_closed hc input).1]
        exact ⟨h, rfl, rfl⟩
      · obtain ⟨hvalues, hfills, hresults⟩ := h.values (c.decoder.values input)
        obtain ⟨hlast, hstop⟩ := (hvalues.reading (c.decoder.after input)).stop (c.decoder.fault? input)
        rw [routes, if_neg hc, Connection.perform, (feed_eq hc input).1, resultsFor_append, hresults,
          hstop]
        exact ⟨hlast, hfills, rfl⟩
    | written n => exact ⟨h.congr rfl rfl rfl rfl, rfl, rfl⟩
    | fail failure =>
      obtain ⟨hlast, hresults⟩ := h.ends (c.fail failure) (.inl rfl)
      exact ⟨hlast, rfl, hresults⟩
    | close =>
      obtain ⟨hlast, hresults⟩ := h.ends c.close (.inr ⟨rfl, rfl⟩)
      exact ⟨hlast, rfl, hresults⟩
    | _ => exact absurd rfl ha

/-- **An operation of others and a batch that waits.** -/
theorem Waits.perform (h : c.Waits commands k number got) {op : Op κ α}
    (hk : op.handler? ≠ some k) :
    Fate commands k number got (c.perform op).1 (c.fillsAll number (c.routes op))
      (resultsFor k (c.perform op).2) (c.endsBy? op) := by
  have hstays {c' : Connection κ α} (h' : c'.Waits commands k number got) :
      Fate commands k number got c' [] [] none := .waits [] (by rwa [List.append_nil])
  by_cases ha : op.asks
  · have hends : c.endsBy? op = none := by
      cases op <;> first | rfl | cases ha
    rw [routes_of_asks ha, resultsFor_ask ha hk, hends]
    exact hstays (h.ask ha hk)
  · cases op with
    | feed input =>
      have hends : c.endsBy? (.feed input) = none.or (c.endsBy? (.feed input)) := Option.none_or.symm
      rw [routes, if_neg h.opened, Connection.perform, (feed_eq h.opened input).1, resultsFor_append,
        ← List.append_nil (c.fillsAll _ _), hends]
      refine (h.values _).trans (fun got h => (h.reading _).stop _) fun h => ?_
      obtain ⟨hlast, hstop⟩ := (h.reading (c.decoder.after input)).stop (c.decoder.fault? input)
      exact ⟨hlast, rfl, hstop⟩
    | written n => exact hstays (h.congr rfl rfl rfl rfl rfl)
    | fail failure => exact h.ends _ (.inl rfl)
    | close => exact h.ends _ (.inr ⟨rfl, rfl⟩)
    | _ => exact absurd rfl ha

theorem Absent.run (h : c.Absent k number) {ops : List (Op κ α)}
    (hk : ∀ op ∈ ops, op.handler? ≠ some k) :
    (c.run ops).1.Absent k number ∧ c.filled number ops = [] ∧ resultsFor k (c.run ops).2 = [] := by
  induction ops generalizing c with
  | nil => exact ⟨h, rfl, rfl⟩
  | cons op ops ih =>
    rw [List.forall_mem_cons] at hk
    obtain ⟨h', hfills, hresults⟩ := h.perform hk.1
    obtain ⟨hlast, hmore, hlater⟩ := ih h' hk.2
    rw [filled, Connection.run, resultsFor_append, hfills, hresults, hmore, hlater]
    exact ⟨hlast, rfl, rfl⟩

/-- **The fate of a batch in a run.** -/
theorem Waits.run (h : c.Waits commands k number got) {ops : List (Op κ α)}
    (hk : ∀ op ∈ ops, op.handler? ≠ some k) :
    Fate commands k number got (c.run ops).1 (c.filled number ops) (resultsFor k (c.run ops).2)
      (c.demise? ops) := by
  induction ops generalizing c got with
  | nil => exact .waits [] (by rwa [List.append_nil])
  | cons op ops ih =>
    rw [List.forall_mem_cons] at hk
    rw [filled, Connection.run, resultsFor_append, demise?]
    exact (h.perform hk.1).trans (fun got h => ih h hk.2) fun h => h.run hk.2


end Connection

/-! ## All or nothing -/

/-- **A run in which a batch is submitted.** -/
structure Submission (κ α : Type) where
  before : List (Op κ α) := []
  commands : List Command
  owner : κ
  after : List (Op κ α) := []
  /-- Values of a chunk that is being fed at the end. -/
  values : List Value := []

namespace Submission

/-- The connection to which the batch is submitted, … -/
def start (s : Submission κ α) : Connection κ α := (Connection.run {} s.before).1

/-- … the connection that has it, … -/
def accepted (s : Submission κ α) : Connection κ α := (s.start.submitBatch s.commands s.owner).1

/-- … and the connection at the end, with all the events. -/
def finish (s : Submission κ α) : Turn κ α :=
  let turn := Connection.run {} (s.before ++ .submitBatch s.commands s.owner :: s.after)
  let more := turn.1.dispatchAll s.values
  (more.1, turn.2 ++ more.2)

/-- **The replies to the commands of the batch**, each with the place of its command. -/
def replies (s : Submission κ α) : List (Value × Nat) :=
  s.accepted.filled s.start.nextBatch s.after
    ++ (s.accepted.run s.after).1.fillsAll s.start.nextBatch s.values

/-- The failure that ended the connection, if it ended. -/
def demise? (s : Submission κ α) : Option Failure := s.accepted.demise? s.after

/-- **The batch is accepted**: it has commands, and each of them may be sent.  No other operation passes
in its handler. -/
structure IsAccepted (s : Submission κ α) : Prop where
  nonempty : s.commands ≠ []
  admitted : ∀ command ∈ s.commands, s.start.refusal? command = none
  fresh : ∀ op ∈ s.before ++ s.after, op.handler? ≠ some s.owner

/-- **A batch is all or nothing.** -/
structure AllOrNothing [DecidableEq κ] (s : Submission κ α) : Prop where
  /-- Its commands are sent one after another, each with its place in the queue. -/
  sent : s.accepted.outbound = s.start.outbound ++ s.commands.flatMap Command.encode
  queued : s.accepted.pending = s.start.pending
    ++ (List.range s.commands.length).map fun i => ⟨.slot s.start.nextBatch i, .reply⟩
  /-- The replies come to its places in turn, at most one to each. -/
  places : s.replies.map Prod.snd = List.range s.replies.length
  atMost : s.replies.length ≤ s.commands.length
  /-- The owner is called once: with the array of all replies as soon as they are in, or with the
  failure that ended the connection before that.  Until then it waits. -/
  results : resultsFor s.owner s.finish.2
    = if s.replies.length = s.commands.length then [.ok (.array (s.replies.map Prod.fst))]
      else s.demise?.toList.map .error
  ended : s.finish.1.stage = .closed ↔ s.demise?.isSome
  /-- It would be the same in any other order. -/
  collects : s.accepted.Collects s.start.nextBatch s.owner s.commands.length

/-- **A batch that is accepted is all or nothing**, whatever comes before it, between its replies and
after them. -/
theorem all_or_nothing [DecidableEq κ] (s : Submission κ α) (h : s.IsAccepted) : s.AllOrNothing := by
  obtain ⟨hne, hadmitted, hfresh⟩ := h
  have hacc : s.start.Accounted := Connection.accounted_new.run s.before
  have ho : s.start.order? (.submitBatch s.commands s.owner) = some (.batch s.commands s.owner) := by
    rw [Connection.order?, List.isEmpty_eq_false_iff.mpr hne,
      List.findSome?_eq_none_iff.mpr hadmitted]
    rfl
  -- nobody has heard of the owner before
  have hunknown : s.owner ∉ called (Connection.run {} s.before).2 ++ s.start.waiting := by
    refine mt (Connection.accounted_new.called_append_waiting s.before).mem_iff.mp fun hmem => ?_
    obtain ⟨op, hop, hk⟩ := List.mem_filterMap.mp hmem
    exact hfresh op (List.mem_append_left _ hop) hk
  rw [List.mem_append, not_or] at hunknown
  obtain ⟨hwaits, hlookup, hpending, houtbound, hcalled⟩ :=
    Connection.waits_submitBatch hacc hunknown.2 ho
  have hlater := hwaits.run fun op hop => hfresh op (List.mem_append_right _ hop)
  -- the rest of the values ends nothing
  have hfate := hlater.trans (fun got h => h.values s.values) fun h => h.values s.values
  rw [Option.or_none] at hfate
  obtain ⟨hplaces, hmost, hresults⟩ := hfate.results_eq
  have hfinish : s.finish = (((s.accepted.run s.after).1.dispatchAll s.values).1,
      (Connection.run {} s.before).2 ++ ((s.start.submitBatch s.commands s.owner).2
        ++ (s.accepted.run s.after).2) ++ ((s.accepted.run s.after).1.dispatchAll s.values).2) := by
    rw [finish, Connection.run_append]
    rfl
  refine ⟨houtbound, hpending, hplaces, hmost, ?_, ?_, ?_⟩
  · rw [hfinish, resultsFor_append, resultsFor_append, resultsFor_append,
      resultsFor_eq_nil hunknown.1, resultsFor_eq_nil (hcalled ▸ List.not_mem_nil)]
    exact hresults
  · rw [hfinish]
    exact (Connection.dispatchAll_stage _ _).2.trans (Connection.closed_run_iff hwaits.opened s.after)
  · exact Connection.collects_start (List.length_pos_iff.mpr hne) hlookup

/-! ## Two commands between two others -/

/-- The command `GET` of a key. -/
def fetch (key : Bytes) : Command := ⟨Utf8.encode "GET", [key]⟩

/-- One value is being fetched when the batch is submitted, another is asked for meanwhile, and then the
connection is closed.  The server refuses the first command of the batch; its replies come in pieces. -/
def among : Submission Nat Nat where
  before := [.beginConnect, .connectSucceeded, .submit (fetch [97]) 0]
  commands := [fetch [98], fetch [99]]
  owner := 1
  after := [.feed (Utf8.encode ":7\r\n-ERR"), .submit (fetch [100]) 2,
    .feed (Utf8.encode "\r\n:9\r\n"), .close]

theorem all_or_nothing_among :
    among.IsAccepted ∧
      among.replies = [(.error (Utf8.encode "ERR"), 0), (.integer 9, 1)] ∧
      resultsFor 1 among.finish.2
        = [.ok (.array [.error (Utf8.encode "ERR"), .integer 9])] := by
  have haccepted : among.IsAccepted :=
    ⟨List.cons_ne_nil _ _, by decide +kernel, by decide +kernel⟩
  have hreplies : among.replies = [(.error (Utf8.encode "ERR"), 0), (.integer 9, 1)] := by
    decide +kernel
  have hresults := (among.all_or_nothing haccepted).results
  rw [hreplies] at hresults
  exact ⟨haccepted, hreplies, hresults⟩

end Submission

end RespClient

import RespClient.Proofs.Connection.Effect

/-!
# Proofs/Connection/Completion — every handler is called once, in order

    called by the queue so far  ++  waiting  =  all that joined the queue

Every operation keeps this equation (`Accounted.completed_append_waiting`): what joins the queue joins at
its end, and what is called leaves at its front.  Handlers that never join the queue are called by the
very operation that brings them (`Accounted.perform`).  Hence no handler is lost or called twice, and a
connection that is closed has called them all (`run_account`).
-/

namespace RespClient

namespace Connection

variable {κ α : Type}

/-! ## Who waits -/

/-- **The handler that an entry is the last for.**  The places of a batch are filled in order, so its
owner's result comes with the last of them. -/
def owner? (c : Connection κ α) (p : Pending κ) : Option κ :=
  match p.target with
  | .nobody => none
  | .handler k => some k
  | .slot number index =>
    (c.batches.lookup number).bind fun b =>
      if index + 1 = b.replies.size then some b.owner else none

/-- **The handlers that wait**, in the order of the queue. -/
def waiting (c : Connection κ α) : List κ := c.pending.filterMap c.owner?

/-- The entry leads to a call of the handler: it is its own, or a place in its batch. -/
def Owns (c : Connection κ α) (p : Pending κ) (k : κ) : Prop :=
  p.target = .handler k ∨
    ∃ number index b, p.target = .slot number index ∧ c.batches.lookup number = some b ∧ b.owner = k

theorem owns_of_owner? {c : Connection κ α} {p : Pending κ} {k : κ} (h : c.owner? p = some k) :
    c.Owns p k := by
  rw [owner?] at h
  split at h
  · cases h
  · rename_i ht
    cases h
    exact .inl ht
  · rename_i number index ht
    obtain ⟨b, hb, hk⟩ := Option.bind_eq_some_iff.mp h
    rw [Option.ite_none_right_eq_some] at hk
    exact .inr ⟨number, index, b, ht, hb, Option.some.inj hk.2⟩

theorem exists_owns {c : Connection κ α} {k : κ} (h : k ∈ c.waiting) :
    ∃ p ∈ c.pending, c.Owns p k := by
  obtain ⟨p, hp, hk⟩ := List.mem_filterMap.mp h
  exact ⟨p, hp, owns_of_owner? hk⟩

theorem lookup_of_mem {rows : List (Nat × Batch κ)} (hn : (rows.map Prod.fst).Nodup) {number : Nat}
    {b : Batch κ} (h : (number, b) ∈ rows) : rows.lookup number = some b := by
  obtain ⟨before, after, rfl⟩ := List.append_of_mem h
  rw [List.map_append, List.map_cons] at hn
  refine List.lookup_eq_some_iff.mpr ⟨before, after, rfl, fun row hrow => bne_iff_ne.mpr ?_⟩
  exact ((List.nodup_append.mp hn).2.2 _ (List.mem_map_of_mem hrow) _ List.mem_cons_self).symm

theorem owner?_slot {c : Connection κ α} {k : κ} {n number : Nat} {got : List Value}
    (hb : c.batches.lookup number = some (.gathered k n got)) (hu : got.length < n) (i : Nat) :
    c.owner? ⟨.slot number i, .reply⟩ = if i + 1 = n then some k else none := by
  have hsize : (Batch.gathered k n got).replies.size = n := by
    simp only [Batch.gathered, List.size_toArray, List.length_append, List.length_replicate]
    omega
  simp only [owner?, hb, Option.bind_some, hsize]
  rfl

/-- The owner of a batch is that of its last place. -/
theorem owner?_batch {c : Connection κ α} {cs : List Command} {k : κ} {number : Nat}
    {got : List Value} (hb : c.batches.lookup number = some (.gathered k cs.length got))
    (hu : got.length < cs.length) :
    (Due.entries ⟨.batch cs k, number, got⟩).filterMap c.owner? = [k] := by
  obtain ⟨m, hm⟩ : ∃ m, cs.length = m + 1 := ⟨cs.length - 1, by omega⟩
  rw [Due.entries, Order.entries, hm, List.range_succ, List.map_append,
    List.drop_append_of_le_length (by simp; omega), List.filterMap_append]
  have hfront : (((List.range m).map fun i => (⟨.slot number i, .reply⟩ : Pending κ)).drop
      got.length).filterMap c.owner? = [] := by
    refine List.filterMap_eq_nil_iff.mpr fun p hp => ?_
    obtain ⟨i, hi, rfl⟩ := List.mem_map.mp (List.mem_of_mem_drop hp)
    have := List.mem_range.mp hi
    rw [owner?_slot hb hu, if_neg (by omega)]
  rw [hfront, List.nil_append]
  simp [owner?_slot hb hu, hm]

/-- **The handlers that wait are those of the due orders**, in order. -/
theorem Owes.waiting {c : Connection κ α} {due : List (Due κ)} (h : Owes c due) :
    c.waiting = due.filterMap (·.order.handler?) := by
  have hone : ∀ d ∈ due, d.entries.filterMap c.owner? = d.order.handler?.toList := by
    intro d hd
    have hu := h.unfinished d hd
    cases d, hu using Due.unfinished_cases with
    | batch cs k number got hu =>
      refine owner?_batch (lookup_of_mem h.numbered ?_) hu
      rw [h.batches]
      exact List.mem_flatMap.mpr ⟨_, hd, List.mem_singleton_self _⟩
    | command cmd k => rfl
    | subscribe hd k => rfl
    | unsubscribe topic k => cases k <;> rfl
  rw [Connection.waiting, h.pending, List.filterMap_flatMap, List.flatMap_congr hone,
    List.filterMap_eq_flatMap_toList]

/-! ## One step -/

/-- **What a connection owes can be said**, and a closed one owes nothing. -/
def Accounted (c : Connection κ α) : Prop :=
  ∃ due, Owes c due ∧ (c.stage = .closed → due = [])

theorem Accounted.waiting_eq_nil {c : Connection κ α} (h : c.Accounted) (hc : c.stage = .closed) :
    c.waiting = [] ∧ c.pending = [] := by
  obtain ⟨due, hd, hnil⟩ := h
  obtain rfl := hnil hc
  exact ⟨hd.waiting, hd.pending⟩

theorem called_replies (calls : List (κ × Value)) :
    called (calls.map fun r => (.replied r.1 (.ok r.2) : Event κ α)) = calls.map Prod.fst := by
  rw [called, List.filterMap_map]
  exact congrFun (List.filterMap_eq_map (f := Prod.fst)) calls

theorem called_failures (failure : Failure) (ks : List κ) :
    called (ks.map fun k => (.replied k (.error failure) : Event κ α)) = ks := by
  rw [called, List.filterMap_map]
  exact List.filterMap_some

/-- A reply calls the handler of its order, or leaves it waiting. -/
theorem calls_append_next? (d : Due κ) (v : Value) :
    (d.calls v).map Prod.fst ++ (d.next? v).toList.filterMap (·.order.handler?)
      = d.order.handler?.toList := by
  rw [Due.calls, Due.next?]
  split
  · cases hk : d.order.handler? <;> simp [hk]
  · rw [Order.calls]
    cases d.order.handler? <;> rfl

/-- **A value calls the first handlers that wait**, and the others wait on. -/
theorem Accounted.dispatch {c : Connection κ α} (h : c.Accounted) (hc : c.stage ≠ .closed)
    (v : Value) :
    (c.dispatch v).1.Accounted ∧
      called (c.dispatch v).2 ++ (c.dispatch v).1.waiting = c.waiting := by
  obtain ⟨due, hd, -⟩ := h
  have hopen : (c.dispatch v).1.stage ≠ .closed := fun h => hc ((dispatch_stage c v).2.mp h)
  rw [hd.waiting]
  cases hp : c.pushed? v with
  | some push =>
    rw [dispatch_pushed hp] at hopen ⊢
    have hd' := hd.deliver push
    refine ⟨⟨_, hd', fun hc => absurd hc hopen⟩, ?_⟩
    rw [hd'.waiting, (deliver_effect c push).calls, Option.toList_none, ite_self, List.nil_append,
      List.filterMap_append]
    cases ho : c.parting? push with
    | none => exact List.append_nil _
    | some o =>
      have hk : o.handler? = none := (parting?_commands ho).2
      simp [hk]
  | none =>
    rw [dispatch_reply hp] at hopen ⊢
    cases due with
    | nil =>
      have hpend : c.pending = [] := hd.pending
      simp only [Connection.answer, hpend] at hopen ⊢
      exact ⟨⟨[], hd, fun _ => rfl⟩, hd.waiting⟩
    | cons d due =>
      obtain ⟨hd', hevents⟩ := hd.answer v
      refine ⟨⟨_, hd', fun hc => absurd hc hopen⟩, ?_⟩
      rw [hd'.waiting, hevents, called_replies, List.filterMap_append, ← List.append_assoc,
        calls_append_next?]
      cases hk : d.order.handler? <;> simp [hk]

theorem Accounted.dispatchAll {c : Connection κ α} (h : c.Accounted) (hc : c.stage ≠ .closed)
    (vs : List Value) :
    (c.dispatchAll vs).1.Accounted ∧
      called (c.dispatchAll vs).2 ++ (c.dispatchAll vs).1.waiting = c.waiting := by
  induction vs generalizing c with
  | nil => exact ⟨h, rfl⟩
  | cons v vs ih =>
    obtain ⟨h₁, k₁⟩ := h.dispatch hc v
    obtain ⟨h₂, k₂⟩ := ih h₁ fun hd => hc ((dispatch_stage c v).2.mp hd)
    refine ⟨h₂, ?_⟩
    rw [Connection.dispatchAll, called, List.filterMap_append, List.append_assoc]
    exact (congrArg (called (c.dispatch v).2 ++ ·) k₂).trans k₁

/-- **The end calls all that wait.** -/
theorem Accounted.fail {c : Connection κ α} (h : c.Accounted) (hc : c.stage ≠ .closed)
    (failure : Failure) :
    c.fail failure = (c.ended [],
      c.report failure :: c.waiting.map fun k => .replied k (.error failure)) := by
  obtain ⟨due, hd, -⟩ := h
  rw [fail_eq hc, hd.failAll, hd.waiting]

theorem Accounted.close {c : Connection κ α} (h : c.Accounted) (hc : c.stage ≠ .closed) :
    c.close = (c.ended [], c.waiting.map fun k => .replied k (.error .connectionClosed)) := by
  obtain ⟨due, hd, -⟩ := h
  rw [close_eq hc, hd.failAll, hd.waiting]

theorem accounted_ended (c : Connection κ α) : (c.ended []).Accounted :=
  ⟨[], .nil rfl rfl rfl, fun _ => rfl⟩

theorem Accounted.stop {c : Connection κ α} (h : c.Accounted) (hc : c.stage ≠ .closed)
    (cause? : Option Malformed) :
    (c.stop cause?).1.Accounted ∧
      called (c.stop cause?).2 ++ (c.stop cause?).1.waiting = c.waiting := by
  cases cause? with
  | none => exact ⟨h, rfl⟩
  | some cause =>
    rw [Connection.stop, h.fail hc]
    exact ⟨accounted_ended c, (List.append_nil _).trans (called_failures _ c.waiting)⟩

theorem Accounted.reading {c : Connection κ α} (h : c.Accounted) (d : Decoder) :
    (c.reading d).Accounted := by
  obtain ⟨due, hd, hnil⟩ := h
  exact ⟨due, hd.congr rfl rfl rfl rfl, hnil⟩

theorem Accounted.feed {c : Connection κ α} (h : c.Accounted) (input : Bytes) :
    (c.feed input).turn.1.Accounted ∧
      called (c.feed input).turn.2 ++ (c.feed input).turn.1.waiting = c.waiting := by
  by_cases hc : c.stage = .closed
  · rw [(feed_closed hc input).1]
    exact ⟨h, rfl⟩
  · obtain ⟨h₁, k₁⟩ := h.dispatchAll hc (c.decoder.values input)
    have hc₁ := fun hd => hc ((dispatchAll_stage c (c.decoder.values input)).2.mp hd)
    obtain ⟨h₂, k₂⟩ := (h₁.reading (c.decoder.after input)).stop hc₁ (c.decoder.fault? input)
    rw [(feed_eq hc input).1]
    refine ⟨h₂, ?_⟩
    rw [called, List.filterMap_append, List.append_assoc]
    exact (congrArg (called (c.dispatchAll (c.decoder.values input)).2 ++ ·) k₂).trans k₁

/-! ## A run -/

/-- **The handlers that join the queue** in a run: those that the operation which brings them does not
call at once. -/
def queued (c : Connection κ α) : List (Op κ α) → List κ
  | [] => []
  | op :: ops =>
    (if (called (c.perform op).2).isEmpty then op.handler?.toList else [])
      ++ (c.perform op).1.queued ops

/-- **The handlers that the queue calls** in a run: those called by an operation that brings none. -/
def completed (c : Connection κ α) : List (Op κ α) → List κ
  | [] => []
  | op :: ops =>
    (if op.handler?.isNone then called (c.perform op).2 else []) ++ (c.perform op).1.completed ops

/-- **What an operation does to the handlers**: it calls the first that wait, or its own, or its own
waits behind the others. -/
theorem Accounted.perform {c : Connection κ α} (h : c.Accounted) (op : Op κ α) :
    (c.perform op).1.Accounted ∧
      ((op.handler? = none ∧ called (c.perform op).2 ++ (c.perform op).1.waiting = c.waiting) ∨
        (called (c.perform op).2 = op.handler?.toList ∧ (c.perform op).1.waiting = c.waiting) ∨
        (called (c.perform op).2 = [] ∧
          (c.perform op).1.waiting = c.waiting ++ op.handler?.toList)) := by
  by_cases ha : op.asks
  · obtain ⟨hplaces, hcalls⟩ := perform_effect c ha
    obtain ⟨due, hd, hnil⟩ := h
    have hd' := hplaces.owes hd fun o ho => (order?_commands ho).1
    rw [hd'.waiting, hd.waiting, List.filterMap_append]
    cases ho : c.order? op with
    | none =>
      rw [ho] at hcalls hd'
      rw [Option.map_none, Option.toList_none, List.append_nil] at hd'
      exact ⟨⟨due, hd', fun hc => hnil ((perform_stage c ha).2.mp hc)⟩,
        .inr (.inl ⟨hcalls, List.append_nil _⟩)⟩
    | some o =>
      rw [ho] at hcalls hd'
      have hopen : (c.perform op).1.stage ≠ .closed := fun hc =>
        not_isOpen_of_closed ((perform_stage c ha).2.mp hc) (isOpen_of_order? ho)
      refine ⟨⟨_, hd', fun hc => absurd hc hopen⟩, .inr (.inr ⟨hcalls, ?_⟩)⟩
      rw [← (order?_commands ho).2]
      cases hk : o.handler? <;> simp [hk]
  · cases op with
    | feed input =>
      obtain ⟨h₁, h₂⟩ := h.feed input
      exact ⟨h₁, .inl ⟨rfl, h₂⟩⟩
    | written n =>
      obtain ⟨due, hd, hnil⟩ := h
      exact ⟨⟨due, hd.congr rfl rfl rfl rfl, hnil⟩, .inl ⟨rfl, rfl⟩⟩
    | fail failure =>
      by_cases hc : c.stage = .closed
      · rw [Connection.perform, Connection.fail, if_pos hc]
        exact ⟨h, .inl ⟨rfl, rfl⟩⟩
      · rw [Connection.perform, h.fail hc]
        exact ⟨accounted_ended c,
          .inl ⟨rfl, (List.append_nil _).trans (called_failures failure c.waiting)⟩⟩
    | close =>
      by_cases hc : c.stage = .closed
      · rw [Connection.perform, Connection.close, if_pos hc]
        exact ⟨h, .inl ⟨rfl, rfl⟩⟩
      · rw [Connection.perform, h.close hc]
        exact ⟨accounted_ended c, .inl ⟨rfl, (List.append_nil _).trans (called_failures _ c.waiting)⟩⟩
    | _ => exact absurd rfl ha

theorem called_run_cons (c : Connection κ α) (op : Op κ α) (ops : List (Op κ α)) :
    called (c.run (op :: ops)).2 = called (c.perform op).2 ++ called ((c.perform op).1.run ops).2 := by
  rw [Connection.run, called, List.filterMap_append]
  rfl

/-- **The queue calls in order what joined it in order.** -/
theorem Accounted.completed_append_waiting {c : Connection κ α} (h : c.Accounted)
    (ops : List (Op κ α)) :
    c.completed ops ++ (c.run ops).1.waiting = c.waiting ++ c.queued ops := by
  induction ops generalizing c with
  | nil => simp [completed, queued, Connection.run]
  | cons op ops ih =>
    obtain ⟨h₁, hstep⟩ := h.perform op
    have hrest : (c.perform op).1.completed ops ++ (c.run (op :: ops)).1.waiting
        = (c.perform op).1.waiting ++ (c.perform op).1.queued ops := ih h₁
    rw [completed, queued, List.append_assoc, hrest, ← List.append_assoc, ← List.append_assoc]
    congr 1
    obtain ⟨hk, hcalls⟩ | ⟨hcalls, hwait⟩ | ⟨hcalls, hwait⟩ := hstep
    · simp [hk, hcalls]
    · cases hk : op.handler? <;> simp [hk, hcalls, hwait]
    · simp [hcalls, hwait]

/-- **No handler is lost or called twice.** -/
theorem Accounted.called_append_waiting {c : Connection κ α} (h : c.Accounted)
    (ops : List (Op κ α)) :
    (called (c.run ops).2 ++ (c.run ops).1.waiting).Perm
      (c.waiting ++ ops.filterMap Op.handler?) := by
  induction ops generalizing c with
  | nil => simp [called, Connection.run]
  | cons op ops ih =>
    obtain ⟨h₁, hstep⟩ := h.perform op
    have hrest := (ih h₁).append_left (called (c.perform op).2)
    rw [called_run_cons, List.append_assoc]
    refine hrest.trans ?_
    have hcons : (op :: ops).filterMap Op.handler?
        = op.handler?.toList ++ ops.filterMap Op.handler? := by
      cases hk : op.handler? <;> simp [hk]
    rw [hcons, ← List.append_assoc, ← List.append_assoc]
    refine List.Perm.append_right _ ?_
    obtain ⟨hk, hcalls⟩ | ⟨hcalls, hwait⟩ | ⟨hcalls, hwait⟩ := hstep
    · rw [hk, hcalls, Option.toList_none, List.append_nil]
    · rw [hcalls, hwait]
      exact List.perm_append_comm
    · rw [hcalls, hwait, List.nil_append]

theorem Accounted.run {c : Connection κ α} (h : c.Accounted) (ops : List (Op κ α)) :
    (c.run ops).1.Accounted := by
  induction ops generalizing c with
  | nil => exact h
  | cons op ops ih => exact ih (h.perform op).1

theorem accounted_new : ({} : Connection κ α).Accounted := ⟨[], .nil rfl rfl rfl, fun h => by cases h⟩

/-! ## The whole account -/

/-- **What a value completes.**  A message completes nothing, and at most puts one entry behind the
others; a value that is none completes the oldest entry, or is reported where nothing waits. -/
structure Completes (c : Connection κ α) (v : Value) : Prop where
  message : ∀ push, c.pushed? v = some push →
    called (c.dispatch v).2 = [] ∧ ∃ new, (c.dispatch v).1.pending = c.pending ++ new
  unexpected : c.pushed? v = none → c.pending = [] →
    c.dispatch v = (c, [c.report (.unexpectedReply v.inspect)])
  oldest : c.pushed? v = none → ∀ p ps, c.pending = p :: ps →
    (c.dispatch v).1.pending = ps ∧
      ∃ result, (c.dispatch v).2 = (c.owner? p).toList.map fun k => .replied k (.ok result)
  /-- The handler of an entry of its own gets the value itself. -/
  itself : c.pushed? v = none → ∀ k expects ps, c.pending = ⟨.handler k, expects⟩ :: ps →
    (c.dispatch v).2 = [.replied k (.ok v)]

/-- **The account of a run**, of the connection and the events it led to. -/
structure Account (ops : List (Op κ α)) (c : Connection κ α) (events : List (Event κ α)) : Prop where
  /-- Each handler was called, or waits: none is lost, none was called twice. -/
  once : (called events ++ c.waiting).Perm (ops.filterMap Op.handler?)
  /-- One that waits is owned by an entry of the queue. -/
  owned : ∀ k ∈ c.waiting, ∃ p ∈ c.pending, c.Owns p k
  /-- The queue calls them in the order in which they joined it. -/
  inOrder : completed {} ops ++ c.waiting = queued {} ops
  /-- Entries join at the end. -/
  joins : ∀ op : Op κ α, op.asks → ∃ new, (c.perform op).1.pending = c.pending ++ new
  /-- The values that bytes complete are dispatched one after another, and the connection fails if the
  bytes are malformed. -/
  feeds : c.stage ≠ .closed → ∀ input,
    let turn := c.dispatchAll (c.decoder.values input)
    let last := (turn.1.reading (c.decoder.after input)).stop (c.decoder.fault? input)
    (c.feed input).turn = (last.1, turn.2 ++ last.2)
  completes : c.stage ≠ .closed → ∀ vs v, (c.dispatchAll vs).1.Completes v
  /-- A failure is reported once and then given to all that wait, in order. -/
  fails : c.stage ≠ .closed → ∀ failure,
    (c.fail failure).1.stage = .closed ∧ (c.fail failure).1.pending = [] ∧
      (c.fail failure).2 = c.report failure :: c.waiting.map fun k => .replied k (.error failure)
  closes : c.stage ≠ .closed →
    c.close.1.stage = .closed ∧ c.close.1.pending = [] ∧
      c.close.2 = c.waiting.map fun k => .replied k (.error .connectionClosed)
  /-- At the end all have been called, and nothing more happens. -/
  ended : c.stage = .closed → (called events).Perm (ops.filterMap Op.handler?) ∧ c.pending = [] ∧
    (∀ failure, c.fail failure = (c, [])) ∧ c.close = (c, [])

/-- Whom the oldest entry is the last for. -/
theorem Owes.owner?_head {c : Connection κ α} {d : Due κ} {due : List (Due κ)}
    (h : Owes c (d :: due)) {p : Pending κ} {ps : List (Pending κ)} (hp : c.pending = p :: ps) :
    c.owner? p = if d.goesOn then none else d.order.handler? := by
  have hu := h.unfinished d List.mem_cons_self
  rw [h.pending, List.flatMap_cons] at hp
  cases d, hu using Due.unfinished_cases with
  | batch cs k number got hu =>
    rw [entries_batch hu, List.cons_append] at hp
    obtain ⟨rfl, -⟩ := List.cons.inj hp
    have hb : c.batches.lookup number = some (.gathered k cs.length got) := by
      rw [h.batches]
      exact List.lookup_cons_self
    have hgoes : Due.goesOn (⟨.batch cs k, number, got⟩ : Due κ)
        = decide (got.length + 1 < cs.length) := rfl
    rw [owner?_slot hb hu, hgoes]
    by_cases hlast : got.length + 1 = cs.length
    · simp [hlast, Order.handler?]
    · have hmore : got.length + 1 < cs.length := by omega
      simp [hlast, hmore]
  | command cmd k =>
    obtain ⟨rfl, -⟩ := List.cons.inj hp
    rfl
  | subscribe hd k =>
    obtain ⟨rfl, -⟩ := List.cons.inj hp
    rfl
  | unsubscribe topic k =>
    obtain ⟨rfl, -⟩ := List.cons.inj hp
    cases k <;> rfl

theorem Accounted.completes {c : Connection κ α} (h : c.Accounted) (v : Value) : c.Completes v := by
  obtain ⟨due, hd, -⟩ := h
  refine ⟨fun push hp => ?_, fun hp hnil => ?_, fun hp p ps hcons => ?_,
    fun hp k expects ps hcons => ?_⟩
  · obtain ⟨hplaces, hcalls⟩ := deliver_effect c push
    rw [dispatch_pushed hp, hcalls, Option.toList_none, ite_self]
    refine ⟨rfl, ?_⟩
    rw [hplaces.pending]
    cases c.parting? push with
    | none => exact ⟨[], (List.append_nil _).symm⟩
    | some o => exact ⟨_, rfl⟩
  · rw [dispatch_reply hp, answer, hnil]
  · rw [dispatch_reply hp]
    constructor
    · rw [answer, hcons]
      dsimp only
      rw [settle_eq, acknowledge_pending]
    · cases due with
      | nil => cases hcons.symm.trans hd.pending
      | cons d due =>
        refine ⟨d.order.outcome (d.got ++ [v]), ?_⟩
        rw [(hd.answer v).2, hd.owner?_head hcons, Due.calls, Order.calls]
        cases d.goesOn with
        | true => rfl
        | false => cases d.order.handler? <;> rfl
  · rw [dispatch_reply hp, answer, hcons]
    rfl

/-- **Every handler is called once, in order**, whatever is done to a connection. -/
theorem run_account (ops : List (Op κ α)) : Account ops (run {} ops).1 (run {} ops).2 := by
  have hacc : (run ({} : Connection κ α) ops).1.Accounted := accounted_new.run ops
  have honce := accounted_new.called_append_waiting ops
  have horder := accounted_new.completed_append_waiting ops
  refine ⟨honce, fun k => exists_owns, horder, fun op hop => ?_, fun hc input => (feed_eq hc input).1,
    fun hc vs v => (hacc.dispatchAll hc vs).1.completes v, fun hc failure => ?_, fun hc => ?_,
    fun hc => ?_⟩
  · rw [(perform_effect _ hop).places.pending]
    cases order? _ op with
    | none => exact ⟨[], (List.append_nil _).symm⟩
    | some o => exact ⟨_, rfl⟩
  · rw [hacc.fail hc]
    exact ⟨rfl, rfl, rfl⟩
  · rw [hacc.close hc]
    exact ⟨rfl, rfl, rfl⟩
  · obtain ⟨hwait, hpend⟩ := hacc.waiting_eq_nil hc
    rw [hwait, List.append_nil] at honce
    exact ⟨honce, hpend, fun failure => if_pos hc, if_pos hc⟩

end Connection

end RespClient

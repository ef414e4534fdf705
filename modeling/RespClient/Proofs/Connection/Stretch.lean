import RespClient.Proofs.Connection.Batches

/-!
# Proofs/Connection/Stretch — the ledger of a stretch of a run

    ────── before ──────┼────────────── the stretch ──────────────
      queue at its beginning ++ accepted  =  answered ++ queue at its end
      outbound at its beginning ++ bytes  =  drained  ++ outbound at its end

A ledger looks at nothing it has written, so one that is opened in the middle of a run writes down what
the ledger of the whole run adds there (`run_eq_andThen`), and while the connection is open both halves of
the balance are those of the stretch alone (`Exact.stretch`).

Orders are placed for those who ask (`PlacedFor.run`).  What an operation with a handler accepts comes first
in its stretch, and what is accepted behind it on nobody's behalf stays behind it in the queue.  So as long
as the handler was not called, the last of its commands waits (`outstanding`).
-/

namespace RespClient

variable {κ α : Type}

namespace Ledger

/-! ## One ledger behind another -/

/-- **A ledger behind another**, which was closed before it was opened. -/
def andThen (base l : Ledger κ α) : Ledger κ α where
  now := l.now
  accepted := base.accepted ++ l.accepted
  answered := base.answered ++ l.answered
  appended := base.appended ++ l.appended
  drained := base.drained ++ l.drained

theorem enter_andThen (base l : Ledger κ α) (o? : Option (Order κ)) (next : Connection κ α) :
    (base.andThen l).enter o? next = base.andThen (l.enter o? next) := by
  simp only [enter, andThen, List.append_assoc]

theorem meet_andThen (base l : Ledger κ α) (v : Value) :
    (base.andThen l).meet v = base.andThen (l.meet v) := by
  simp only [meet, enter, andThen, List.append_assoc]

theorem meetAll_andThen (base l : Ledger κ α) (vs : List Value) :
    (base.andThen l).meetAll vs = base.andThen (l.meetAll vs) := by
  induction vs generalizing l with
  | nil => rfl
  | cons v vs ih =>
    have hfirst : (base.andThen l).meetAll (v :: vs) = ((base.andThen l).meet v).meetAll vs := rfl
    rw [hfirst, meet_andThen]
    exact ih (l.meet v)

theorem act_andThen (base l : Ledger κ α) (op : Op κ α) :
    (base.andThen l).act op = base.andThen (l.act op) := by
  cases op with
  | feed input =>
    rw [act, act]
    by_cases hc : l.now.stage = .closed
    · rw [if_pos hc, if_pos (show (base.andThen l).now.stage = .closed from hc)]
      rfl
    · rw [if_neg hc, if_neg (show ¬ (base.andThen l).now.stage = .closed from hc)]
      have hmeet := meetAll_andThen base l (l.now.decoder.values input)
      exact congrArg (fun m : Ledger κ α => { m with now := (l.now.feed input).turn.1 }) hmeet
  | written n =>
    simp only [act, andThen, List.append_assoc]
  | _ => exact enter_andThen base l _ _

theorem run_andThen (base l : Ledger κ α) (ops : List (Op κ α)) :
    (base.andThen l).run ops = base.andThen (l.run ops) := by
  induction ops generalizing l with
  | nil => rfl
  | cons op ops ih =>
    have hfirst : (base.andThen l).run (op :: ops) = ((base.andThen l).act op).run ops := rfl
    rw [hfirst, act_andThen]
    exact ih (l.act op)

/-- A ledger opened on the connection. -/
def opened (c : Connection κ α) : Ledger κ α := { now := c }

/-- **A run adds to a ledger what a ledger opened there writes down.** -/
theorem run_eq_andThen (l : Ledger κ α) (ops : List (Op κ α)) :
    l.run ops = l.andThen ((opened l.now).run ops) := by
  have hself : l.andThen (opened l.now) = l := by simp [andThen, opened]
  rw [← run_andThen, hself]

/-! ## The balance of a stretch -/

/-- **The balance of a stretch** of a run that is open at its end. -/
theorem Exact.stretch {base : Ledger κ α} (h : base.Exact) (ops : List (Op κ α))
    (hopen : ((opened base.now).run ops).now.stage ≠ .closed) :
    let l := (opened base.now).run ops
    base.now.pending ++ l.accepted.map Accepted.entry
        = l.answered.map Prod.fst ++ l.now.pending ∧
      base.now.outbound ++ l.commands.flatMap Command.encode = l.drained ++ l.now.outbound := by
  have hbase : base.now.stage ≠ .closed := fun hc => by
    refine hopen ((congrArg Connection.stage (now_run (opened base.now) ops)).trans ?_)
    exact Connection.run_closed hc ops
  have hwhole := h.run ops
  rw [run_eq_andThen] at hwhole
  obtain ⟨hbytes, hout, hqueue, -⟩ := h.balanced
  obtain ⟨hbytes', hout', hqueue', -⟩ := hwhole.balanced
  specialize hout hbase
  specialize hqueue hbase
  specialize hout' hopen
  specialize hqueue' hopen
  simp only [andThen, commands, List.map_append, List.flatMap_append, List.append_assoc]
    at hbytes' hout' hqueue'
  constructor
  · rw [hqueue, List.append_assoc] at hqueue'
    exact List.append_cancel_left hqueue'
  · rw [hbytes, commands] at hbytes'
    rw [List.append_cancel_left hbytes', ← hout, List.append_assoc] at hout'
    exact List.append_cancel_left hout'.symm

/-! ## What the answers are -/

theorem answers_meetAll (l : Ledger κ α) (vs : List Value) :
    ∃ replies, replies.Sublist vs ∧
      (l.meetAll vs).answered.map Prod.snd = l.answered.map Prod.snd ++ replies := by
  induction vs generalizing l with
  | nil => exact ⟨[], .slnil, (List.append_nil _).symm⟩
  | cons v vs ih =>
    obtain ⟨replies, hsub, heq⟩ := ih (l.meet v)
    have hmeet : (l.meet v).answered.map Prod.snd
        = l.answered.map Prod.snd ++ ((l.now.answered? v).map fun _ => v).toList := by
      rw [meet, List.map_append]
      cases l.now.answered? v <;> rfl
    refine ⟨((l.now.answered? v).map fun _ => v).toList ++ replies, ?_, ?_⟩
    · cases l.now.answered? v with
      | none => exact hsub.cons v
      | some p => exact hsub.cons_cons v
    · rw [← List.append_assoc, ← hmeet]
      exact heq

/-- **Answers are values that were routed**, in their order. -/
theorem answers_run {l : Ledger κ α} {j : Journal κ α} (hnow : l.now = j.now)
    (h : (l.answered.map Prod.snd).Sublist j.routed) (ops : List (Op κ α)) :
    ((l.run ops).answered.map Prod.snd).Sublist (j.run ops).routed := by
  induction ops generalizing l j with
  | nil => exact h
  | cons op ops ih =>
    have hnext : (l.act op).now = (j.act op).now := (l.now_act op).trans (hnow ▸ rfl)
    refine ih hnext ?_
    cases op with
    | feed input =>
      rw [act, Journal.act, Connection.routes, ← hnow]
      by_cases hc : l.now.stage = .closed
      · rw [if_pos hc, if_pos hc, List.append_nil]
        exact h
      · rw [if_neg hc, if_neg hc]
        obtain ⟨replies, hsub, heq⟩ := answers_meetAll l (l.now.decoder.values input)
        rw [heq]
        exact h.append hsub
    | _ => exact h.trans (List.sublist_append_left _ _)

/-! ## Who is answered -/

theorem target_of_accepts {o : Order κ} {number : Nat} {a : Accepted κ}
    (ha : a ∈ o.accepts number) (ho : o.handler? = none) : a.entry.target = .nobody := by
  cases o with
  | unsubscribe topic k? =>
    cases ho
    rw [List.mem_singleton.mp ha]
    rfl
  | _ => cases ho

theorem handler?_of_accepts {o : Order κ} {number : Nat} {a : Accepted κ} (ha : a ∈ o.accepts number) :
    a.handler? = o.handler? := by
  cases o with
  | batch cs k =>
    obtain ⟨i, hi, rfl⟩ := List.mem_mapIdx.mp ha
    rfl
  | _ => rw [List.mem_singleton.mp ha]; rfl

/-- What the ledger accepted was placed for handlers of this kind. -/
def PlacedFor (l : Ledger κ α) (P : Option κ → Prop) : Prop :=
  ∀ a ∈ l.accepted, ∃ (o : Order κ) (number : Nat), a ∈ o.accepts number ∧ P o.handler?

variable {P : Option κ → Prop}

theorem placedFor_opened (c : Connection κ α) : (opened c).PlacedFor P := List.forall_mem_nil _

theorem PlacedFor.handler? {l : Ledger κ α} (h : l.PlacedFor P) : ∀ a ∈ l.accepted, P a.handler? := by
  intro a ha
  obtain ⟨o, number, ha, ho⟩ := h a ha
  exact handler?_of_accepts ha ▸ ho

theorem PlacedFor.enter {l : Ledger κ α} (h : l.PlacedFor P) {o? : Option (Order κ)}
    (ho : ∀ o, o? = some o → P o.handler?) (next : Connection κ α) : (l.enter o? next).PlacedFor P := by
  intro a ha
  obtain ha | ha := List.mem_append.mp ha
  · exact h a ha
  · obtain ⟨o, hmem, ha⟩ := List.mem_flatMap.mp ha
    exact ⟨o, _, ha, ho o (Option.mem_toList.mp hmem)⟩

theorem PlacedFor.meetAll {l : Ledger κ α} (h : l.PlacedFor P) (hnone : P none) (vs : List Value) :
    (l.meetAll vs).PlacedFor P := by
  induction vs generalizing l with
  | nil => exact h
  | cons v vs ih =>
    refine ih (h.enter (fun o ho => ?_) (l.now.dispatch v).1)
    obtain ⟨push, -, hparting⟩ := Option.bind_eq_some_iff.mp ho
    exact (Connection.parting?_commands hparting).2 ▸ hnone

theorem PlacedFor.act {l : Ledger κ α} (h : l.PlacedFor P) (hnone : P none) {op : Op κ α}
    (hop : P op.handler?) : (l.act op).PlacedFor P := by
  have hask : (l.enter (l.now.order? op) (l.now.perform op).1).PlacedFor P :=
    h.enter (fun o ho => (Connection.order?_commands ho).2 ▸ hop) _
  cases op with
  | feed input =>
    rw [Ledger.act]
    split
    · exact h
    · exact h.meetAll hnone _
  | written n => exact h
  | _ => exact hask

/-- **Orders are placed for those who ask**, or for nobody. -/
theorem PlacedFor.run {l : Ledger κ α} (h : l.PlacedFor P) (hnone : P none) {ops : List (Op κ α)}
    (hops : ∀ op ∈ ops, P op.handler?) : (l.run ops).PlacedFor P := by
  induction ops generalizing l with
  | nil => exact h
  | cons op ops ih =>
    rw [List.forall_mem_cons] at hops
    exact ih (h.act hnone hops.1) hops.2

theorem accepted_act {l : Ledger κ α} {op : Op κ α} {o : Order κ} (ho : l.now.order? op = some o) :
    (l.act op).accepted = l.accepted ++ o.accepts l.now.nextBatch := by
  have henter : (l.enter (l.now.order? op) (l.now.perform op).1).accepted
      = l.accepted ++ o.accepts l.now.nextBatch := by
    rw [enter, ho, Option.toList_some, List.flatMap_singleton]
  cases op with
  | feed input => cases ho
  | written n => cases ho
  | _ => exact henter

end Ledger

namespace Connection

/-- An operation whose handler it does not call has placed an order. -/
theorem order?_of_not_called {c : Connection κ α} {op : Op κ α} (ha : op.asks) {k : κ}
    (hk : op.handler? = some k) (hcalled : k ∉ called (c.perform op).2) :
    ∃ o, c.order? op = some o ∧ o.handler? = some k := by
  have heffect := (perform_effect c ha).calls
  cases ho : c.order? op with
  | none =>
    rw [ho, hk] at heffect
    rw [heffect] at hcalled
    exact absurd (List.mem_singleton_self k) hcalled
  | some o => exact ⟨o, rfl, (order?_commands ho).2.trans hk⟩

/-- A handler that was not called waits. -/
theorem Accounted.waiting_of_not_called {c : Connection κ α} (h : c.Accounted) {ops : List (Op κ α)}
    {op : Op κ α} (hop : op ∈ ops) {k : κ} (hk : op.handler? = some k)
    (hcalled : k ∉ called (c.run ops).2) : k ∈ (c.run ops).1.waiting := by
  have hmem : k ∈ c.waiting ++ ops.filterMap Op.handler? :=
    List.mem_append_right _ (List.mem_filterMap.mpr ⟨op, hop, hk⟩)
  have hperm := (h.called_append_waiting ops).mem_iff.mpr hmem
  exact (List.mem_append.mp hperm).resolve_left hcalled

/-- Nobody's entry leads to no handler. -/
theorem not_owns_of_nobody {c : Connection κ α} {p : Pending κ} (hp : p.target = .nobody) (k : κ) :
    ¬ c.Owns p k := by
  rintro (h | ⟨number, index, b, h, -⟩) <;> cases hp.symm.trans h

end Connection

namespace Ledger

/-- **What became of a request** that was not answered yet, and of the queue it joined: the queue and the
request's own commands were answered from the front, the last of them still waits, and what was put
behind them later waits for nobody. -/
structure Outstanding (c : Connection κ α) (op : Op κ α) (l : Ledger κ α) : Prop where
  queue : ∃ o later left, c.order? op = some o ∧ l.accepted = o.accepts c.nextBatch ++ later ∧
    (∀ a ∈ later, a.entry.target = .nobody) ∧ left ≠ [] ∧
      c.pending ++ o.entries c.nextBatch = l.answered.map Prod.fst ++ left ∧
        l.now.pending = left ++ later.map Accepted.entry
  bytes : c.outbound ++ l.commands.flatMap Command.encode = l.drained ++ l.now.outbound

/-- **A request whose handler was not called is outstanding**, while the connection is open. -/
theorem outstanding {before : List (Op κ α)} {c : Connection κ α}
    (hc : (Connection.run {} before).1 = c) {op : Op κ α} (ha : op.asks) (ops : List (Op κ α)) {k : κ}
    (hk : op.handler? = some k) (hops : ∀ op ∈ ops, op.handler? = none)
    (hcalled : k ∉ called (c.run (op :: ops)).2) (hopen : (c.run (op :: ops)).1.stage ≠ .closed) :
    Outstanding c op ((opened c).run (op :: ops)) := by
  have hnow : ((opened c).run (op :: ops)).now = (c.run (op :: ops)).1 := now_run (opened c) _
  have hexact := (exact_new (κ := κ) (α := α)).run before
  have hbase : (run ({} : Ledger κ α) before).now = c := (now_run {} before).trans hc
  have hstretch := hexact.stretch (op :: ops) (by rw [hbase, hnow]; exact hopen)
  rw [hbase] at hstretch
  obtain ⟨hqueue, hbytes⟩ := hstretch
  have hfirst : k ∉ called (c.perform op).2 := fun h => by
    rw [called, Connection.run, List.filterMap_append] at hcalled
    exact hcalled (List.mem_append_left _ h)
  obtain ⟨o, ho, -⟩ := Connection.order?_of_not_called ha hk hfirst
  let later := ((opened ((opened c).act op).now).run ops).accepted
  have haccepted : ((opened c).run (op :: ops)).accepted = o.accepts c.nextBatch ++ later := by
    have hact : ((opened c).act op).accepted = o.accepts c.nextBatch := accepted_act ho
    rw [← hact]
    exact congrArg accepted (run_eq_andThen ((opened c).act op) ops)
  have hplaced := (placedFor_opened (P := (· = none)) ((opened c).act op).now).run rfl hops
  have hlater : ∀ a ∈ later, a.entry.target = .nobody := by
    intro a ha
    obtain ⟨o', number, ha, hnone⟩ := hplaced a ha
    exact target_of_accepts ha hnone
  -- an entry of the queue still leads to the handler, and none of the later ones does
  have hwait := (hc ▸ Connection.accounted_new.run before : c.Accounted).waiting_of_not_called
    List.mem_cons_self hk hcalled
  obtain ⟨p, hp, howns⟩ := Connection.exists_owns hwait
  rw [← hnow] at hp
  have hnot : p ∉ later.map Accepted.entry := fun hmem => by
    obtain ⟨a, ha, rfl⟩ := List.mem_map.mp hmem
    exact Connection.not_owns_of_nobody (hlater a ha) k howns
  rw [haccepted, List.map_append, Order.accepts_entries, ← List.append_assoc,
    List.append_eq_append_iff] at hqueue
  refine ⟨⟨o, later, ?_⟩, hbytes⟩
  obtain ⟨more, -, hrest⟩ | ⟨left, hfront, hrest⟩ := hqueue
  · rw [hrest] at hnot
    exact absurd (List.mem_append_right more hp) hnot
  · refine ⟨left, ho, haccepted, hlater, fun hnil => hnot ?_, hfront, hrest⟩
    rwa [hrest, hnil] at hp

end Ledger

end RespClient

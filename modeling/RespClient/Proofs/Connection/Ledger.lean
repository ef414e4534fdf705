import RespClient.Proofs.Connection.Completion

/-!
# Proofs/Connection/Ledger — one entry of the queue for each command on the wire

    accepted    a₁ … aₘ   aₘ₊₁ … aₙ        appended    the bytes of a₁ … aₙ
    entries    answered │ pending           bytes       drained │ outbound

A ledger is kept beside a connection (`Ledger.act`, `Ledger.meet`).  It writes down what the connection
itself forgets: the commands it accepted, the entries it answered, and the bytes it put out and gave
away.  No step looks at it, and the connection in it is that of the run (`Ledger.now_run`).

Commands come in by many ways, some while a value is dispatched, but each comes with its order, and an
order brings as many entries as commands (`Order.accepts`).  So queue and bytes stay in step
(`run_balanced`).
-/

namespace RespClient

variable {κ α : Type}

/-! ## What is accepted -/

/-- **A command that is accepted**, with its entry in the queue and the handler that waits for it. -/
structure Accepted (κ : Type) where
  command : Command
  entry : Pending κ
  handler? : Option κ

/-- **The commands that an order brings**, each with its entry; `number` is that of its batch. -/
def Order.accepts (number : Nat) : Order κ → List (Accepted κ)
  | command c k => [⟨c, ⟨.handler k, .reply⟩, some k⟩]
  | batch cs k => cs.mapIdx fun i c => ⟨c, ⟨.slot number i, .reply⟩, some k⟩
  | subscribe h k => [⟨h.topic.subscribe, ⟨.handler k, .subscribeAck h⟩, some k⟩]
  | unsubscribe topic k => [⟨topic.unsubscribe, ⟨k.elim .nobody .handler, .unsubscribeAck⟩, k⟩]

theorem Order.accepts_commands (number : Nat) (o : Order κ) :
    (o.accepts number).map Accepted.command = o.commands := by
  cases o with
  | batch cs k =>
    rw [accepts, List.mapIdx_eq_zipIdx_map, List.map_map]
    exact List.zipIdx_map_fst 0 cs
  | _ => rfl

theorem Order.accepts_entries (number : Nat) (o : Order κ) :
    (o.accepts number).map Accepted.entry = o.entries number := by
  cases o with
  | batch cs k =>
    rw [accepts, List.mapIdx_eq_zipIdx_map, List.map_map, entries, List.range_eq_range',
      ← List.zipIdx_map_snd 0 cs, List.map_map]
    rfl
  | _ => rfl

/-- What is accepted of an order and not answered yet. -/
def Due.accepts (d : Due κ) : List (Accepted κ) := (d.order.accepts d.number).drop d.got.length

theorem Due.accepts_entries (d : Due κ) : d.accepts.map Accepted.entry = d.entries := by
  rw [accepts, List.map_drop, Order.accepts_entries, entries]

/-- A reply answers the first command of an order, and leaves the others. -/
theorem Due.accepts_eq_cons {d : Due κ} (h : d.got.length < d.order.commands.length) (v : Value) :
    ∃ a, d.accepts = a :: (d.next? v).toList.flatMap Due.accepts := by
  have hlen : (d.order.accepts d.number).length = d.order.commands.length := by
    rw [← Order.accepts_commands d.number, List.length_map]
  rw [accepts, List.drop_eq_getElem_cons (hlen ▸ h), next?]
  refine ⟨_, congrArg _ ?_⟩
  split
  · rw [Option.toList_some, List.flatMap_singleton, accepts, List.length_append,
      List.length_singleton]
  · rename_i hlast
    rw [goesOn, decide_eq_true_eq, Nat.not_lt] at hlast
    rw [Option.toList_none, List.flatMap_nil]
    exact List.drop_eq_nil_of_le (hlen ▸ hlast)

/-- **The entry leads to the handler** of its command, or to nobody where it has none. -/
def Accepted.Reaches (a : Accepted κ) (c : Connection κ α) : Prop :=
  match a.handler? with
  | some k => c.Owns a.entry k
  | none => a.entry.target = .nobody

/-- What is due reaches its handlers: a batch that is due has its row. -/
theorem Connection.Owes.reaches {c : Connection κ α} {due : List (Due κ)} (h : Owes c due)
    {a : Accepted κ} (ha : a ∈ due.flatMap Due.accepts) : a.Reaches c := by
  obtain ⟨d, hd, ha⟩ := List.mem_flatMap.mp ha
  have hu := h.unfinished d hd
  cases d, hu using Due.unfinished_cases with
  | command cmd k =>
    obtain rfl := List.mem_singleton.mp ha
    exact .inl rfl
  | batch cs k number got hgot =>
    obtain ⟨i, hi, rfl⟩ := List.mem_mapIdx.mp (List.mem_of_mem_drop ha)
    refine .inr ⟨number, i, .gathered k cs.length got, rfl, lookup_of_mem h.numbered ?_, rfl⟩
    rw [h.batches]
    exact List.mem_flatMap.mpr ⟨_, hd, List.mem_singleton_self _⟩
  | subscribe hd' k =>
    obtain rfl := List.mem_singleton.mp ha
    exact .inl rfl
  | unsubscribe topic k =>
    obtain rfl := List.mem_singleton.mp ha
    cases k with
    | none => rfl
    | some k => exact .inl rfl

/-! ## The ledger -/

/-- **A connection and its history.** -/
structure Ledger (κ α : Type) where
  now : Connection κ α := {}
  /-- The commands it accepted, in order. -/
  accepted : List (Accepted κ) := []
  /-- The entries that a value answered, with this. -/
  answered : List (Pending κ × Value) := []
  /-- The bytes that were put into the outbound buffer, and … -/
  appended : Bytes := []
  /-- … those that were written and dropped from it. -/
  drained : Bytes := []

/-- The entry that a value answers, if it answers one. -/
def Connection.answered? (c : Connection κ α) (v : Value) : Option (Pending κ) :=
  if (c.pushed? v).isNone then c.pending.head? else none

namespace Ledger

/-- The commands that were accepted. -/
def commands (l : Ledger κ α) : List Command := l.accepted.map Accepted.command

/-- The connection becomes `next` and places the order, if there is one. -/
def enter (l : Ledger κ α) (o? : Option (Order κ)) (next : Connection κ α) : Ledger κ α :=
  { l with
      now := next
      accepted := l.accepted ++ o?.toList.flatMap (Order.accepts l.now.nextBatch)
      appended := l.appended ++ next.outbound.drop l.now.outbound.length }

/-- **A value is dispatched.** -/
def meet (l : Ledger κ α) (v : Value) : Ledger κ α :=
  { l.enter ((l.now.pushed? v).bind l.now.parting?) (l.now.dispatch v).1 with
      answered := l.answered ++ ((l.now.answered? v).map (·, v)).toList }

/-- Values are dispatched one after another. -/
def meetAll (l : Ledger κ α) (vs : List Value) : Ledger κ α := vs.foldl meet l

/-- **An operation is done.**  Bytes that are fed count by the values they complete, and a closed
connection reads none. -/
def act (l : Ledger κ α) : Op κ α → Ledger κ α
  | .feed input =>
    { (if l.now.stage = .closed then l else l.meetAll (l.now.decoder.values input)) with
        now := (l.now.feed input).turn.1 }
  | .written n =>
    { l with now := l.now.written n, drained := l.drained ++ l.now.outbound.take n }
  | op => l.enter (l.now.order? op) (l.now.perform op).1

/-- **The ledger of a run.** -/
def run (l : Ledger κ α) (ops : List (Op κ α)) : Ledger κ α := ops.foldl act l

theorem commands_enter (l : Ledger κ α) (o? : Option (Order κ)) (next : Connection κ α) :
    (l.enter o? next).commands = l.commands ++ o?.toList.flatMap Order.commands := by
  rw [commands, enter, List.map_append, commands]
  cases o? <;> simp [Order.accepts_commands]

theorem now_meetAll (l : Ledger κ α) (vs : List Value) :
    (l.meetAll vs).now = (l.now.dispatchAll vs).1 := by
  induction vs generalizing l with
  | nil => rfl
  | cons v vs ih => exact ih (l.meet v)

theorem now_act (l : Ledger κ α) (op : Op κ α) : (l.act op).now = (l.now.perform op).1 := by
  cases op <;> rfl

/-- The ledger as of a connection that has read on. -/
def reading (l : Ledger κ α) (d : Decoder) : Ledger κ α := { l with now := l.now.reading d }

/-- **What feeding comes to**: nothing, where the connection is closed; or the values that the bytes
complete, and then the end, if the bytes are malformed. -/
theorem act_feed (l : Ledger κ α) (input : Bytes) :
    l.act (.feed input) = l ∨ ∃ vs d, l.act (.feed input) = (l.meetAll vs).reading d ∨
      ∃ c, ((l.meetAll vs).reading d).now.Ends c ∧
        l.act (.feed input) = { l.meetAll vs with now := c } := by
  by_cases hc : l.now.stage = .closed
  · left
    rw [act, if_pos hc, (Connection.feed_closed hc input).1]
  · right
    refine ⟨l.now.decoder.values input, l.now.decoder.after input, ?_⟩
    rw [act, if_neg hc, (Connection.feed_eq hc input).1, ← now_meetAll]
    cases l.now.decoder.fault? input with
    | none => exact .inl rfl
    | some cause => exact .inr ⟨_, Connection.ends_fail _ (.protocol cause), rfl⟩

/-- **The connection in the ledger is that of the run.** -/
theorem now_run (l : Ledger κ α) (ops : List (Op κ α)) : (l.run ops).now = (l.now.run ops).1 := by
  induction ops generalizing l with
  | nil => rfl
  | cons op ops ih =>
    refine (ih (l.act op)).trans ?_
    rw [now_act, Connection.run]

/-! ## Queue and bytes are kept in step -/

/-- **The queue is in step**: what was accepted is answered or due. -/
def InStep (l : Ledger κ α) : Prop :=
  ∃ done due, Connection.Owes l.now due ∧ l.accepted = done ++ due.flatMap Due.accepts ∧
    done.map Accepted.entry = l.answered.map Prod.fst

/-- Only four fields of the connection matter, and neither the bytes. -/
theorem InStep.congr {l l' : Ledger κ α} (h : l.InStep) (hacc : l'.accepted = l.accepted)
    (hans : l'.answered = l.answered) (hp : l'.now.pending = l.now.pending)
    (hb : l'.now.batches = l.now.batches) (hn : l'.now.nextBatch = l.now.nextBatch)
    (ha : l'.now.acksOwed = l.now.acksOwed) : l'.InStep := by
  obtain ⟨done, due, howes, hrest⟩ := h
  exact ⟨done, due, howes.congr hp hb hn ha, hacc ▸ hans ▸ hrest⟩

/-- An order is due behind the others. -/
theorem InStep.enter {l : Ledger κ α} (h : l.InStep) {o? : Option (Order κ)} {next : Connection κ α}
    (hnext : ∀ due, Connection.Owes l.now due →
      Connection.Owes next (due ++ (o?.map fun o => ⟨o, l.now.nextBatch, []⟩).toList)) :
    (l.enter o? next).InStep := by
  obtain ⟨done, due, howes, hacc, hdone⟩ := h
  refine ⟨done, _, hnext due howes, ?_, hdone⟩
  rw [Ledger.enter, hacc, List.append_assoc, List.flatMap_append]
  cases o? <;> simp [Due.accepts]

/-- **A reply answers the first command** that is due. -/
theorem InStep.answer {l : Ledger κ α} (h : l.InStep) (v : Value) :
    { l with
        now := (l.now.answer v).1
        answered := l.answered ++ (l.now.pending.head?.map (·, v)).toList }.InStep := by
  obtain ⟨done, due, howes, hacc, hdone⟩ := h
  cases due with
  | nil =>
    have hnil : l.now.pending = [] := howes.pending
    rw [Connection.answer, hnil]
    exact ⟨done, [], howes, hacc, hdone.trans (by simp)⟩
  | cons d due =>
    obtain ⟨a, ha⟩ := Due.accepts_eq_cons (howes.unfinished d List.mem_cons_self) v
    have hhead : l.now.pending.head? = some a.entry := by
      rw [howes.pending, List.flatMap_cons, ← Due.accepts_entries, ha]
      rfl
    refine ⟨done ++ [a], _, (howes.answer v).1, ?_, ?_⟩
    · simp [hacc, ha]
    · simp [hdone, hhead]

/-- **The ledger is exact**: it accounts for every byte, and while the connection is not closed, for
the outbound buffer and the queue. -/
structure Exact (l : Ledger κ α) : Prop where
  bytes : l.appended = l.commands.flatMap Command.encode
  outbound : l.now.stage ≠ .closed → l.drained ++ l.now.outbound = l.appended
  queue : l.now.stage ≠ .closed → l.InStep

theorem exact_new : ({} : Ledger κ α).Exact :=
  ⟨rfl, fun _ => rfl, fun _ => ⟨[], [], .nil rfl rfl rfl, rfl, rfl⟩⟩

theorem placed_outbound (c : Connection κ α) (o? : Option (Order κ)) :
    (c.placed o?).outbound
      = c.outbound ++ o?.toList.flatMap fun o => o.commands.flatMap Command.encode := by
  cases o? with
  | none => exact (List.append_nil _).symm
  | some o =>
    rw [Option.toList_some, List.flatMap_singleton]
    rfl

/-- **The bytes of an order** are put out behind the others. -/
theorem Exact.enter_bytes {l : Ledger κ α} (h : l.Exact) {o? : Option (Order κ)}
    {next : Connection κ α} (hout : next.outbound = (l.now.placed o?).outbound) :
    (l.enter o? next).appended = (l.enter o? next).commands.flatMap Command.encode ∧
      (l.now.stage ≠ .closed → l.drained ++ next.outbound = (l.enter o? next).appended) := by
  rw [placed_outbound] at hout
  have happ : (l.enter o? next).appended
      = l.appended ++ o?.toList.flatMap fun o => o.commands.flatMap Command.encode := by
    rw [enter, hout, List.drop_left]
  refine ⟨?_, fun hc => ?_⟩
  · rw [happ, h.bytes, commands_enter, List.flatMap_append, List.flatMap_assoc]
  · rw [happ, hout, ← List.append_assoc, h.outbound hc]

/-- **A request keeps the ledger exact.** -/
theorem Exact.ask {l : Ledger κ α} (h : l.Exact) {op : Op κ α} (ha : op.asks) :
    (l.enter (l.now.order? op) (l.now.perform op).1).Exact := by
  have hplaces := (Connection.perform_effect l.now ha).places
  have hstage := (Connection.perform_stage l.now ha).2
  obtain ⟨hbytes, hout⟩ := h.enter_bytes hplaces.outbound
  refine ⟨hbytes, fun hc => hout (mt hstage.mpr hc), fun hc => ?_⟩
  exact (h.queue (mt hstage.mpr hc)).enter fun due howes =>
    hplaces.owes howes fun o ho => (Connection.order?_commands ho).1

/-- **A value keeps the ledger exact.** -/
theorem Exact.meet {l : Ledger κ α} (h : l.Exact) (v : Value) : (l.meet v).Exact := by
  have hstage := (Connection.dispatch_stage l.now v).2
  obtain ⟨hbytes, hout⟩ := h.enter_bytes (Connection.dispatch_outbound l.now v)
  refine ⟨hbytes, fun hc => hout (mt hstage.mpr hc), fun hc => ?_⟩
  have hqueue := h.queue (mt hstage.mpr hc)
  rw [Ledger.meet, Connection.answered?]
  cases hp : l.now.pushed? v with
  | some push =>
    rw [Connection.dispatch_pushed hp]
    have henter := hqueue.enter fun due howes => howes.deliver push
    exact henter.congr rfl (List.append_nil _) rfl rfl rfl rfl
  | none =>
    rw [Connection.dispatch_reply hp]
    exact (hqueue.answer v).congr (List.append_nil _) rfl rfl rfl rfl rfl

theorem Exact.meetAll {l : Ledger κ α} (h : l.Exact) (vs : List Value) : (l.meetAll vs).Exact := by
  induction vs generalizing l with
  | nil => exact h
  | cons v vs ih => exact ih (h.meet v)

/-- At the end only the bytes count that were put out before it. -/
theorem Exact.closed {l : Ledger κ α} (h : l.Exact) {c : Connection κ α} (hc : c.stage = .closed) :
    { l with now := c }.Exact :=
  ⟨h.bytes, fun hn => absurd hc hn, fun hn => absurd hc hn⟩

theorem Exact.feed {l : Ledger κ α} (h : l.Exact) (input : Bytes) : (l.act (.feed input)).Exact := by
  obtain hfed | ⟨vs, d, hfed | ⟨c, hends, hfed⟩⟩ := act_feed l input <;> rw [hfed]
  · exact h
  · have hall := h.meetAll vs
    exact ⟨hall.bytes, hall.outbound, fun hc => (hall.queue hc).congr rfl rfl rfl rfl rfl rfl⟩
  · exact (h.meetAll vs).closed hends.closed

theorem Exact.written {l : Ledger κ α} (h : l.Exact) (n : Nat) : (l.act (.written n)).Exact := by
  refine ⟨h.bytes, fun hc => ?_, fun hc => (h.queue hc).congr rfl rfl rfl rfl rfl rfl⟩
  rw [act, Connection.written, List.append_assoc, List.take_append_drop]
  exact h.outbound hc

/-- The end puts nothing out. -/
theorem Exact.ends {l : Ledger κ α} (h : l.Exact) {next : Connection κ α}
    (hends : l.now.Ends next) : (l.enter none next).Exact := by
  obtain ⟨-, rfl⟩ | ⟨batches, rfl⟩ := hends
  · simpa [enter] using h
  · simpa [enter, Connection.ended] using h.closed (c := l.now.ended batches) rfl

/-- **Every operation keeps the ledger exact.** -/
theorem Exact.act {l : Ledger κ α} (h : l.Exact) (op : Op κ α) : (l.act op).Exact := by
  cases op with
  | feed input => exact h.feed input
  | written n => exact h.written n
  | fail failure => exact h.ends (Connection.ends_fail l.now failure)
  | close => exact h.ends (Connection.ends_close l.now)
  | _ => exact h.ask rfl

theorem Exact.run {l : Ledger κ α} (h : l.Exact) (ops : List (Op κ α)) : (l.run ops).Exact := by
  induction ops generalizing l with
  | nil => exact h
  | cons op ops ih => exact ih (h.act op)

/-! ## The balance -/

/-- **The balance of a run.** -/
structure Balanced (l : Ledger κ α) : Prop where
  /-- The bytes ever put out are those of the accepted commands, one after another, … -/
  appended : l.appended = l.commands.flatMap Command.encode
  /-- … and no others than those drained so far and those that still wait. -/
  drained : l.now.stage ≠ .closed → l.drained ++ l.now.outbound = l.appended
  /-- The queue is, entry by entry, what was accepted and is not answered yet. -/
  pending : l.now.stage ≠ .closed →
    l.accepted.map Accepted.entry = l.answered.map Prod.fst ++ l.now.pending
  /-- Each of its entries leads to the handler of its own command. -/
  handlers : l.now.stage ≠ .closed → ∀ a ∈ l.accepted.drop l.answered.length, a.Reaches l.now

theorem Exact.balanced {l : Ledger κ α} (h : l.Exact) : l.Balanced := by
  refine ⟨h.bytes, h.outbound, fun hc => ?_, fun hc a ha => ?_⟩
  · obtain ⟨done, due, howes, hacc, hdone⟩ := h.queue hc
    rw [hacc, List.map_append, hdone, howes.pending, List.map_flatMap]
    exact congrArg _ (List.flatMap_congr fun d _ => d.accepts_entries)
  · obtain ⟨done, due, howes, hacc, hdone⟩ := h.queue hc
    have hlen : done.length = l.answered.length := by simpa using congrArg List.length hdone
    rw [hacc, ← hlen, List.drop_left] at ha
    exact howes.reaches ha

/-- **Queue and bytes stay in step with what is accepted**, after any operations and between the values
of a chunk that is fed. -/
theorem run_balanced (ops : List (Op κ α)) (vs : List Value) :
    let l : Ledger κ α := (run {} ops).meetAll vs
    l.now = ((Connection.run {} ops).1.dispatchAll vs).1 ∧ l.Balanced := by
  refine ⟨?_, ((exact_new.run ops).meetAll vs).balanced⟩
  rw [now_meetAll, now_run]

end Ledger

end RespClient

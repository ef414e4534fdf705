import RespClient.Proofs.Session.Correlation

/-!
# Proofs/Session/Solitary — a connection that nobody listens on

    asked      submit c₁     submit c₂     close      submit c₃
    ordered    c₁            c₂            ·          ·

While nobody is registered (`Solitary`), a connection is never subscribed and places no order of its own.
So the orders it has placed can be told from what was asked of it: all of it while it is open, and up to
the end once it is closed (`orders_run`).
-/

namespace RespClient

variable {κ α : Type}

/-- What has begun goes on or ends. -/
theorem Lifecycle.Leads.begun {s t : Lifecycle} (h : s.Leads t) (hs : s.isOpen ∨ s = closed) :
    t.isOpen ∨ t = closed := by
  cases h with
  | stays => exact hs
  | begins | givesUp | succeeds => exact hs.elim nofun nofun
  | listens | parts => exact .inl rfl
  | ends => exact .inr rfl

/-- What has begun has not gone back to its beginning. -/
theorem Connection.Tidy.begun_run {c : Connection κ α} (h : c.Tidy)
    (hb : c.isOpen ∨ c.stage = .closed) (ops : List (Op κ α)) :
    (c.run ops).1.isOpen ∨ (c.run ops).1.stage = .closed := by
  induction ops generalizing c with
  | nil => exact hb
  | cons op ops ih => exact ih (h.perform op) ((h.leads op).begun hb)

/-- **The order that a request is for**, where no registration plays a part. -/
def Op.order? : Op κ α → Option (Order κ)
  | submit command k => some (.command command k)
  | submitBatch [] _ => none
  | submitBatch commands k => some (.batch commands k)
  | _ => none

namespace Connection

/-- **Nobody listens**, and the connection is tidy. -/
structure Solitary (c : Connection κ α) : Prop where
  tidy : c.Tidy
  registry : c.registry = .empty

theorem solitary_new : ({} : Connection κ α).Solitary := ⟨tidy_new, rfl⟩

/-- A value registers nobody. -/
theorem dispatch_registry_empty {c : Connection κ α} (h : c.registry = .empty) (v : Value) :
    (c.dispatch v).1.registry = .empty := by
  rcases hp : c.pushed? v with _ | push
  · rw [dispatch_reply hp, (answer_registry c v).1, h]
    split <;> rfl
  · rw [dispatch_pushed hp, deliver_registry, h]
    rfl

theorem dispatchAll_registry_empty {c : Connection κ α} (h : c.registry = .empty) (vs : List Value) :
    (c.dispatchAll vs).1.registry = .empty := by
  induction vs generalizing c with
  | nil => exact h
  | cons v vs ih => exact ih (dispatch_registry_empty h v)

/-- …and parts with no topic. -/
theorem partings_of_empty {c : Connection κ α} (h : c.registry = .empty) (vs : List Value) :
    c.partings vs = [] := by
  induction vs generalizing c with
  | nil => rfl
  | cons v vs ih =>
    have hnone (push : Push) : c.parting? push = none := by
      rw [parting?, h]
      rfl
    rw [partings, ih (dispatch_registry_empty h v)]
    cases c.pushed? v with
    | none => rfl
    | some push => rw [Option.bind_some, hnone]; rfl

theorem Ends.registry_empty {c c' : Connection κ α} (h : c.Ends c') (hc : c.registry = .empty) :
    c'.registry = .empty := by
  obtain ⟨-, rfl⟩ | ⟨batches, rfl⟩ := h
  · exact hc
  · rfl

namespace Solitary

variable {c : Connection κ α}

theorem perform (h : c.Solitary) (op : Op κ α) (hp : op.isPlain) : (c.perform op).1.Solitary := by
  refine ⟨h.tidy.perform op, ?_⟩
  by_cases ha : op.asks
  · exact perform_registry_empty h.registry ha hp
  · cases op with
    | feed input =>
      rw [Connection.perform]
      by_cases hc : c.stage = .closed
      · rw [(feed_closed hc input).1]
        exact h.registry
      · have hall := dispatchAll_registry_empty h.registry (c.decoder.values input)
        rw [(feed_eq hc input).1]
        cases c.decoder.fault? input with
        | none => exact hall
        | some cause => exact (ends_fail _ _).registry_empty hall
    | written n => exact h.registry
    | fail failure => exact (ends_fail c failure).registry_empty h.registry
    | close => exact (ends_close c).registry_empty h.registry
    | _ => exact absurd rfl ha

/-- **It is not subscribed.** -/
theorem connected (h : c.Solitary) (ho : c.isOpen) : c.stage = .connected := by
  have hnot : c.stage ≠ .subscribed := fun hs => by
    have hsome := h.tidy.mirrors.mp hs
    rw [h.registry] at hsome
    cases hsome
  rw [isOpen] at ho
  cases hs : c.stage with
  | connected => rfl
  | subscribed => exact absurd hs hnot
  | _ => rw [hs] at ho; cases ho

/-- **It orders what it is asked for**, while it is open. -/
theorem order?_eq (h : c.Solitary) (ho : c.isOpen) {op : Op κ α} (hp : op.isPlain) :
    c.order? op = op.order? := by
  have hrefusal (command : Command) : c.refusal? command = none := by
    rw [refusal?, h.connected ho]
  have hleaves (hd : Handle) : c.leaves hd = false := by
    rw [leaves, h.registry]
    rfl
  cases op with
  | submit command k => rw [order?, hrefusal]; rfl
  | submitBatch commands k =>
    have hnone : commands.findSome? c.refusal? = none :=
      List.findSome?_eq_none_iff.mpr fun command _ => hrefusal command
    rw [order?, hnone]
    cases commands <;> rfl
  | register _ _ _ _ => cases hp
  | unsubscribe hd k => rw [order?, hleaves, Bool.and_false]; rfl
  | abandon hd => rw [order?, hleaves, Bool.and_false]; rfl
  | _ => rfl

theorem ordered (h : c.Solitary) (ho : c.isOpen) {op : Op κ α} (hp : op.isPlain) :
    c.ordered op = op.order?.toList := by
  have horder := h.order?_eq ho hp
  cases op with
  | feed input => exact partings_of_empty h.registry _
  | _ => exact congrArg Option.toList horder

end Solitary

/-- What is closed orders nothing. -/
theorem order?_of_closed {c : Connection κ α} (hc : c.stage = .closed) (op : Op κ α) :
    c.order? op = none := by
  have hopen : c.isOpen = false := Bool.eq_false_iff.mpr (not_isOpen_of_closed hc)
  cases op with
  | submit command k => rw [order?, refusal?_of_closed hc]; rfl
  | submitBatch commands k =>
    cases commands with
    | nil => rfl
    | cons command commands => rw [order?, List.findSome?_cons, refusal?_of_closed hc]; rfl
  | register topic persistence listener k => rw [order?, hopen]; rfl
  | unsubscribe h k => rw [order?, hopen]; rfl
  | abandon h => rw [order?, hopen]; rfl
  | _ => rfl

theorem ordered_of_closed {c : Connection κ α} (hc : c.stage = .closed) (op : Op κ α) :
    c.ordered op = [] := by
  have hnone := order?_of_closed hc op
  cases op with
  | feed input => rw [ordered, routes, if_pos hc, partings]
  | _ => exact congrArg Option.toList hnone

end Connection

namespace Journal

open Connection

/-- What is closed has placed its orders. -/
theorem orders_closed {j : Journal κ α} (hc : j.now.stage = .closed) (ops : List (Op κ α)) :
    (j.run ops).orders = j.orders := by
  induction ops generalizing j with
  | nil => rfl
  | cons op ops ih =>
    refine (ih (perform_closed hc op)).trans ?_
    rw [act, ordered_of_closed hc, List.append_nil]

/-- **The orders of a connection that nobody listens on** are those it was asked for, up to its end. -/
theorem orders_run {j : Journal κ α} (hj : j.now.Solitary)
    (hb : j.now.isOpen ∨ j.now.stage = .closed) {ops : List (Op κ α)} (hp : ∀ op ∈ ops, op.isPlain) :
    (j.run ops).orders <+: j.orders ++ ops.filterMap Op.order? ∧
      ((j.run ops).now.isOpen → (j.run ops).orders = j.orders ++ ops.filterMap Op.order?) := by
  induction ops generalizing j with
  | nil => exact ⟨List.prefix_append _ _, fun _ => (List.append_nil _).symm⟩
  | cons op ops ih =>
    obtain ⟨hop, hops⟩ := List.forall_mem_cons.mp hp
    obtain ho | hc := hb
    · have hnext : (j.act op).now.isOpen ∨ (j.act op).now.stage = .closed :=
        (hj.tidy.leads op).begun (.inl ho)
      have horders : (j.act op).orders ++ ops.filterMap Op.order?
          = j.orders ++ (op :: ops).filterMap Op.order? := by
        rw [act, hj.ordered ho hop, List.append_assoc]
        cases hw : op.order? <;> simp [hw]
      rw [← horders]
      exact ih (hj.perform op hop) hnext hops
    · rw [orders_closed hc]
      exact ⟨List.prefix_append _ _, fun ho =>
        absurd ho (not_isOpen_of_closed (closed_run hc (op :: ops)))⟩

end Journal

/-! ## What asks for nothing -/

/-- **What steps do to a connection**: they ask for nothing, and do not put the blame on the server. -/
def Op.isPassive : Op κ α → Bool
  | feed _ | written _ => true
  | fail failure | connectFailed failure => !failure.blamesServer
  | _ => false

theorem Op.isPlain_of_isPassive {op : Op κ α} (h : op.isPassive) : op.isPlain := by
  cases op <;> first | exact h | rfl

theorem Op.order?_of_isPassive {op : Op κ α} (h : op.isPassive) : op.order? = none := by
  cases op <;> first | rfl | cases h

/-- A stream at fault is none of the server's. -/
theorem Failure.blamesServer_ofFault (fault : StreamFault) (deadline : Deadline) :
    (Failure.ofFault fault deadline).blamesServer = false := by
  rw [ofFault]
  split <;> rfl

theorem Failure.blamesServer_of_isTimeout {failure : Failure} (h : failure.isTimeout) :
    failure.blamesServer = false := by
  cases failure <;> first | rfl | cases h

/-- **Nothing is asked for** along a trail. -/
def Trail.Passive (t : Trail κ α) : Prop := ∀ op ∈ t.ops, op.isPassive

namespace Trail.Passive

theorem nil : ({} : Trail κ α).Passive := nofun

theorem singleton {op : Op κ α} (h : op.isPassive) (tape : List Transfer) :
    Trail.Passive ⟨[op], tape⟩ := List.forall_mem_singleton.mpr h

/-- The stream is at fault. -/
theorem fault (fault : StreamFault) :
    Trail.Passive (⟨[.fail (.ofFault fault .command)], []⟩ : Trail κ α) := by
  refine singleton ?_ _
  rw [Op.isPassive, Failure.blamesServer_ofFault]
  rfl

theorem andThen {s t : Trail κ α} (h : s.Passive) (k : t.Passive) : (s.andThen t).Passive :=
  List.forall_mem_append.mpr ⟨h, k⟩

/-- It orders nothing. -/
theorem order? {t : Trail κ α} (h : t.Passive) : t.ops.filterMap Op.order? = [] :=
  List.filterMap_eq_nil_iff.mpr fun op hop => Op.order?_of_isPassive (h op hop)

end Trail.Passive

/-! ## Calls for data -/

/-- **A call for data**: one command, or several in one go. -/
inductive DataCall
  | one (command : Command)
  | many (commands : List Command)

namespace DataCall

def commands : DataCall → List Command
  | one command => [command]
  | many commands => commands

/-- What the caller is to get, from the replies to the commands. -/
def outcome : DataCall → List Value → Value
  | one _, replies => replies.headD .null
  | many _, replies => .array replies

/-- What it asks of the connection. -/
def op (d : DataCall) (k : κ) : Op κ α :=
  match d with
  | one command => .submit command k
  | many commands => .submitBatch commands k

theorem asks_op (d : DataCall) (k : κ) : (d.op k : Op κ α).asks := by
  cases d <;> rfl

theorem isPlain_op (d : DataCall) (k : κ) : (d.op k : Op κ α).isPlain := by
  cases d <;> rfl

/-- **A call gets its own**: the outcome of the replies to its commands, which come behind the replies to
the calls before it. -/
def Gets (d : DataCall) (before : List DataCall) (replies : List Value) (v : Value) : Prop :=
  ∃ own, own <+: replies.drop (before.flatMap commands).length ∧ own.length = d.commands.length ∧
    v = d.outcome own

theorem order?_op {d : DataCall} {k : κ} {o : Order κ} (h : (d.op k : Op κ α).order? = some o) :
    o.commands = d.commands ∧ o.handler? = some k ∧ o.outcome = d.outcome := by
  cases d with
  | one command =>
    cases h
    exact ⟨rfl, rfl, funext fun _ => rfl⟩
  | many commands =>
    cases commands with
    | nil => cases h
    | cons command commands =>
      cases h
      exact ⟨rfl, rfl, funext fun _ => rfl⟩

/-- The commands of the orders are those of the calls. -/
theorem commands_orders (calls : List (DataCall × κ)) :
    (calls.filterMap fun p => (p.1.op p.2 : Op κ α).order?).flatMap Order.commands
      = (calls.map Prod.fst).flatMap commands := by
  induction calls with
  | nil => rfl
  | cons p calls ih =>
    rw [List.map_cons, List.flatMap_cons, ← ih]
    obtain ⟨d, k⟩ := p
    cases d with
    | one command => rfl
    | many commands => cases commands <;> rfl

/-- **What a handler has earned**, where only calls placed orders, is its call's own. -/
theorem gets_of_earned {calls : List (DataCall × κ)} {replies : List Value} {k : κ} {v : Value}
    (h : Earned (calls.filterMap fun p => (p.1.op p.2 : Op κ α).order?) replies k v) :
    ∃ before d after, calls = before ++ (d, k) :: after ∧ d.Gets (before.map Prod.fst) replies v := by
  obtain ⟨ahead, o, behind, past, own, rest, horders, hk, rfl, hpast, hown, hv⟩ := h
  obtain ⟨before, others, rfl, rfl, hothers⟩ := List.filterMap_eq_append_iff.mp horders
  obtain ⟨idle, ⟨d, k'⟩, after, rfl, hidle, ho, -⟩ := List.filterMap_eq_cons_iff.mp hothers
  obtain ⟨hcommands, hhandler, houtcome⟩ := order?_op ho
  obtain rfl : k' = k := Option.some.inj (hhandler.symm.trans hk)
  refine ⟨before ++ idle, d, after, by rw [List.append_assoc], own, ?_, hcommands ▸ hown, houtcome ▸ hv⟩
  have hnone : idle.filterMap (fun p => (p.1.op p.2 : Op κ α).order?) = [] :=
    List.filterMap_eq_nil_iff.mpr hidle
  rw [← commands_orders (κ := κ) (α := α), List.filterMap_append, hnone, List.append_nil, ← hpast,
    List.append_assoc, List.drop_left]
  exact List.prefix_append own rest

end DataCall

end RespClient

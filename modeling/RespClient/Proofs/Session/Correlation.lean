import RespClient.Proofs.Connection.Delivery
import RespClient.Proofs.Connection.Journal
import RespClient.Proofs.Session.Synced
import Mathlib.Data.List.Induction
import Mathlib.Data.List.Infix

/-!
# Proofs/Session/Correlation — each handler gets the replies to its own commands

    orders     o₁      o₂        o₃  …           in the order their commands are written
    replies    r₁ │ r₂ r₃ r₄ │ r₅  …           in the order they come

Without registrations every value is a reply.  If the server answers each command once, in order, and not
before it has it (`Serves`), then no reply comes that nothing waits for, and a handler is only ever called
with the outcome of the replies at the places of its own commands (`Earned`).  This holds however the
bytes are cut, and wherever the conversation stops (`Fares.run`).
-/

namespace RespClient

variable {κ α : Type}

/-! ## The replies to an order's commands -/

/-- **The handler's own**: the value is the outcome of the replies at the places of the commands of one
of the orders, and the handler is that of the order. -/
def Earned (orders : List (Order κ)) (replies : List Value) (k : κ) (v : Value) : Prop :=
  ∃ before o after past own rest, orders = before ++ o :: after ∧ o.handler? = some k ∧
    replies = past ++ own ++ rest ∧ past.length = (before.flatMap Order.commands).length ∧
    own.length = o.commands.length ∧ v = o.outcome own

/-- More orders and more replies take nothing away. -/
theorem Earned.mono {orders : List (Order κ)} {replies : List Value} {k : κ} {v : Value}
    (h : Earned orders replies k v) {orders' : List (Order κ)} {replies' : List Value}
    (ho : orders <+: orders') (hr : replies <+: replies') : Earned orders' replies' k v := by
  obtain ⟨before, o, after, past, own, rest, rfl, hk, rfl, hpast, hown, hv⟩ := h
  obtain ⟨more, rfl⟩ := ho
  obtain ⟨others, rfl⟩ := hr
  exact ⟨before, o, after ++ more, past, own, rest ++ others, by simp, hk, by simp, hpast, hown, hv⟩

/-- **What handlers are to get is their own.** -/
theorem earned_of_mem_calls {orders : List (Order κ)} {replies : List Value} {k : κ} {v : Value}
    (h : (k, v) ∈ calls orders replies) : Earned orders replies k v := by
  induction orders generalizing replies with
  | nil => cases h
  | cons o orders ih =>
    rw [calls] at h
    split at h
    · cases h
    · rename_i hlen
      have htake : (replies.take o.commands.length).length = o.commands.length := by
        rw [List.length_take]
        omega
      obtain hfirst | hlater := List.mem_append.mp h
      · rw [Order.calls, Option.mem_toList, Option.map_eq_some_iff] at hfirst
        obtain ⟨k', hk, heq⟩ := hfirst
        obtain ⟨rfl, rfl⟩ := Prod.mk.inj heq
        exact ⟨[], o, orders, [], _, _, rfl, hk, (List.take_append_drop _ _).symm, rfl, htake, rfl⟩
      · obtain ⟨before, o', after, past, own, rest, rfl, hk, hreplies, hpast, hown, hv⟩ := ih hlater
        refine ⟨o :: before, o', after, replies.take o.commands.length ++ past, own, rest, rfl, hk, ?_,
          ?_, hown, hv⟩
        · rw [List.append_assoc, List.append_assoc, ← List.append_assoc past, ← hreplies,
            List.take_append_drop]
        · rw [List.length_append, htake, hpast, List.flatMap_cons, List.length_append]

/-! ## The server -/

/-- **A server that answers each command once, in order, and not before it has it**: what has come from it
at any time is the beginning of the replies to commands that have reached it. -/
structure Serves (replies : List (Bytes × Value)) (tape : List Transfer) : Prop where
  /-- The bytes of a reply spell one value. -/
  spells : ∀ r ∈ replies, Decoder.Spells r.1 r.2
  timely : ∀ t, t <+: tape → ∃ cs : List Command, cs.flatMap Command.encode <+: sent t ∧
    received t <+: (replies.take cs.length).flatMap Prod.fst

theorem Serves.of_prefix {replies : List (Bytes × Value)} {tape tape' : List Transfer}
    (h : Serves replies tape') (ht : tape <+: tape') : Serves replies tape :=
  ⟨h.spells, fun t hp => h.timely t (hp.trans ht)⟩

/-- **Whether a server answers so** can be told from the stages of the tape, given which commands have
reached it at each. -/
theorem Serves.of_stages {replies : List (Bytes × Value)} {tape : List Transfer}
    (hr : ∀ r ∈ replies, Decoder.Spells r.1 r.2) (stages : List (List Command))
    (h : ∀ t ∈ tape.inits, ∃ cs ∈ stages, cs.flatMap Command.encode <+: sent t ∧
      received t <+: (replies.take cs.length).flatMap Prod.fst) : Serves replies tape := by
  refine ⟨hr, fun t ht => ?_⟩
  obtain ⟨cs, -, hcs⟩ := h t ((List.mem_inits t tape).mpr ht)
  exact ⟨cs, hcs⟩

/-- Replies one after another are read as what they spell. -/
theorem reads_replies {replies : List (Bytes × Value)}
    (h : ∀ r ∈ replies, Decoder.Spells r.1 r.2) :
    Decoder.Reads .empty (replies.flatMap Prod.fst) (replies.map Prod.snd) := by
  induction replies using List.reverseRecOn with
  | nil => exact .nil
  | append_singleton replies r ih =>
    rw [List.flatMap_append, List.map_append, List.flatMap_singleton]
    exact (ih fun s hs => h s (List.mem_append_left _ hs)).append
      (h r (List.mem_append_right _ (List.mem_singleton_self r)))

/-- **Commands that begin a stream of commands** are the first of them. -/
theorem Command.prefix_of_prefix {cs ds : List Command}
    (h : cs.flatMap Command.encode <+: ds.flatMap Command.encode) : cs <+: ds := by
  induction cs generalizing ds with
  | nil => exact List.nil_prefix
  | cons c cs ih =>
    obtain ⟨rest, hrest⟩ := h
    rw [List.flatMap_cons, List.append_assoc] at hrest
    obtain ⟨ds', rfl, htail⟩ := Command.exists_cons_of_append_eq hrest
    exact (List.prefix_cons_inj c).mpr (ih ⟨rest, htail⟩)

/-! ## Orders without registrations -/

/-- **How far the orders are**, on a connection without registrations. -/
structure Correlates (c : Connection κ α) (orders : List (Order κ)) (routed : List Value)
    (due : List (Due κ)) : Prop where
  registry : c.registry = .empty
  acks : c.acksOwed = 0
  owes : c.Owes due
  progress : ∃ met, met.map Prod.snd = routed ∧ Progress orders met (calls orders routed) due

namespace Correlates

variable {c : Connection κ α} {orders : List (Order κ)} {routed : List Value} {due : List (Due κ)}

/-- No value is taken for a message. -/
theorem pushed? (h : Correlates c orders routed due) (v : Value) : c.pushed? v = none := by
  rw [Connection.pushed?, Connection.routesPushes, h.registry, h.acks]
  rfl

/-- **A reply to a command that waits** goes to the first of them. -/
theorem dispatch (h : Correlates c orders routed due)
    (hlen : routed.length < (orders.flatMap Order.commands).length) (v : Value) :
    ∃ due' ks, Correlates (c.dispatch v).1 orders (routed ++ [v]) due' ∧
      (c.dispatch v).2 = ks.map (fun r => .replied r.1 (.ok r.2)) ∧
      calls orders (routed ++ [v]) = calls orders routed ++ ks := by
  obtain ⟨met, hmet, hprogress⟩ := h.progress
  cases due with
  | nil =>
    have hall := congrArg List.length hprogress.commands
    rw [List.flatMap_nil, List.append_nil, List.length_map, ← List.length_map (f := Prod.snd),
      hmet] at hall
    omega
  | cons d due =>
    have hu := h.owes.unfinished d List.mem_cons_self
    obtain ⟨command, rest, hd⟩ : ∃ command rest, d.commands = command :: rest :=
      List.exists_cons_of_ne_nil (by rw [Due.commands, ne_eq, List.drop_eq_nil_iff]; omega)
    obtain ⟨howes, hevents⟩ := h.owes.answer v
    have hnext := hprogress.answer hu h.owes.fresh hd v
    have hmet' : (met ++ [(command, v)]).map Prod.snd = routed ++ [v] := by
      rw [List.map_append, hmet]
      rfl
    have hcalls := hnext.handed_eq howes.unfinished howes.fresh
    rw [hmet'] at hcalls
    rw [Connection.dispatch_reply (h.pushed? v)]
    refine ⟨_, _, ⟨?_, ?_, howes, _, hmet', hcalls ▸ hnext⟩, hevents, hcalls.symm⟩
    · rw [(Connection.answer_registry c v).1, h.registry]
      split <;> rfl
    · rw [Connection.answer]
      split
      · exact h.acks
      · rw [Connection.settle_eq]
        dsimp only
        rw [Connection.acknowledge_acksOwed, h.acks, Nat.zero_sub]

theorem dispatchAll (h : Correlates c orders routed due) {vs : List Value}
    (hlen : (routed ++ vs).length ≤ (orders.flatMap Order.commands).length) :
    ∃ due' ks, Correlates (c.dispatchAll vs).1 orders (routed ++ vs) due' ∧
      (c.dispatchAll vs).2 = ks.map (fun r => .replied r.1 (.ok r.2)) ∧
      calls orders (routed ++ vs) = calls orders routed ++ ks := by
  induction vs generalizing c routed due with
  | nil => exact ⟨due, [], by rwa [List.append_nil], rfl, by rw [List.append_nil, List.append_nil]⟩
  | cons v vs ih =>
    have hfirst : routed.length < (orders.flatMap Order.commands).length := by
      rw [List.length_append, List.length_cons] at hlen
      omega
    obtain ⟨due₁, ks₁, h₁, hevents₁, hcalls₁⟩ := h.dispatch hfirst v
    rw [List.append_cons] at hlen ⊢
    obtain ⟨due₂, ks₂, h₂, hevents₂, hcalls₂⟩ := ih h₁ hlen
    refine ⟨due₂, ks₁ ++ ks₂, h₂, ?_, ?_⟩
    · rw [Connection.dispatchAll, hevents₁, hevents₂, List.map_append]
    · rw [hcalls₂, hcalls₁, List.append_assoc]

/-- No order parts with a topic. -/
theorem partings (h : Correlates c orders routed due) {vs : List Value}
    (hlen : (routed ++ vs).length ≤ (orders.flatMap Order.commands).length) : c.partings vs = [] := by
  induction vs generalizing c routed due with
  | nil => rfl
  | cons v vs ih =>
    have hfirst : routed.length < (orders.flatMap Order.commands).length := by
      rw [List.length_append, List.length_cons] at hlen
      omega
    obtain ⟨due', ks, h', -, -⟩ := h.dispatch hfirst v
    rw [List.append_cons] at hlen
    rw [Connection.partings, h.pushed? v, ih h' hlen]
    rfl

end Correlates

/-! ## What an event may be -/

/-- Whether it is the server's bytes that are to blame. -/
def Failure.blamesServer : Failure → Bool
  | .unexpectedReply _ | .protocol _ => true
  | _ => false

/-- **An operation of a client that registers nobody**, and does not put the blame on the server. -/
def Op.isPlain : Op κ α → Bool
  | .register .. => false
  | .fail failure | .connectFailed failure => !failure.blamesServer
  | _ => true

/-- **A fair event**: a handler that gets a value gets its own, at once where no command is needed; and
nothing the server sent is reported. -/
def Event.Fair (orders : List (Order κ)) (replies : List Value) (ops : List (Op κ α)) :
    Event κ α → Prop
  | .replied k (.ok v) => Earned orders replies k v ∨ .submitBatch [] k ∈ ops ∧ v = .array [] ∨
      ∃ h, .unsubscribe h k ∈ ops ∧ v = .null
  | .reported _ failure => failure.blamesServer = false
  | _ => True

theorem Event.Fair.mono {orders orders' : List (Order κ)} {replies : List Value}
    {ops ops' : List (Op κ α)} {e : Event κ α} (h : e.Fair orders replies ops)
    (ho : orders <+: orders') (hops : ops ⊆ ops') : e.Fair orders' replies ops' := by
  cases e with
  | replied k result =>
    cases result with
    | error failure => exact trivial
    | ok v =>
      obtain hown | ⟨hbatch, hv⟩ | ⟨hd, hunsub, hv⟩ := h
      · exact .inl (hown.mono ho List.prefix_rfl)
      · exact .inr (.inl ⟨hops hbatch, hv⟩)
      · exact .inr (.inr ⟨hd, hops hunsub, hv⟩)
  | delivered listener payload => exact trivial
  | reported observer failure => exact h

namespace Connection

variable {orders : List (Order κ)} {replies : List Value}

/-- A failure that is passed on stays a failure. -/
theorem fair_settle (c : Connection κ α) (target : Target κ) (failure : Failure)
    (ops : List (Op κ α)) : ∀ e ∈ (c.settle target (.error failure)).2, e.Fair orders replies ops := by
  unfold settle
  split
  · exact List.forall_mem_nil _
  · intro e he
    rw [List.mem_singleton.mp he]
    exact trivial
  · split
    · exact List.forall_mem_nil _
    · intro e he
      rw [List.mem_singleton.mp he]
      exact trivial

theorem fair_failAll (failure : Failure) (ps : List (Pending κ)) (c : Connection κ α)
    (ops : List (Op κ α)) : ∀ e ∈ (failAll failure ps c).2, e.Fair orders replies ops := by
  induction ps generalizing c with
  | nil => exact List.forall_mem_nil _
  | cons p ps ih =>
    intro e he
    obtain he | he := List.mem_append.mp he
    · exact fair_settle c p.target failure ops e he
    · exact ih _ e he

theorem fair_close (c : Connection κ α) (ops : List (Op κ α)) :
    ∀ e ∈ c.close.2, e.Fair orders replies ops := by
  by_cases hc : c.stage = .closed
  · rw [close, if_pos hc]
    exact List.forall_mem_nil _
  · rw [close_eq hc]
    exact fair_failAll _ _ _ ops

theorem fair_fail (c : Connection κ α) {failure : Failure} (hf : failure.blamesServer = false)
    (ops : List (Op κ α)) : ∀ e ∈ (c.fail failure).2, e.Fair orders replies ops := by
  by_cases hc : c.stage = .closed
  · rw [fail, if_pos hc]
    exact List.forall_mem_nil _
  · rw [fail_eq hc]
    exact List.forall_mem_cons.mpr ⟨hf, fair_failAll _ _ _ ops⟩

theorem fair_refuse (c : Connection κ α) (k : κ) {failure : Failure}
    (hf : failure.blamesServer = false) (ops : List (Op κ α)) :
    ∀ e ∈ (c.refuse (.handler k) failure).2, e.Fair orders replies ops :=
  List.forall_mem_cons.mpr ⟨hf, fair_settle c (.handler k) failure ops⟩

theorem blamesServer_refusal? {c : Connection κ α} {command : Command} {failure : Failure}
    (h : c.refusal? command = some failure) : failure.blamesServer = false := by
  rw [refusal?] at h
  split at h
  · cases h
  · split at h
    · cases h
    · cases h
      rfl
  · cases h
    rfl

theorem blamesServer_closedTo? {c : Connection κ α} {operation : String} {failure : Failure}
    (h : c.closedTo? operation = some failure) : failure.blamesServer = false := by
  rw [closedTo?] at h
  split at h
  · cases h
  · cases h
    rfl

/-- **A request causes fair events**: it calls its handler with a failure, or with what needs no
command. -/
theorem fair_perform (c : Connection κ α) {op : Op κ α} (ha : op.asks) (hp : op.isPlain) :
    ∀ e ∈ (c.perform op).2, e.Fair orders replies [op] := by
  cases op with
  | beginConnect =>
    rw [perform, beginConnect]
    split
    · exact List.forall_mem_nil _
    · exact List.forall_mem_singleton.mpr rfl
  | connectSucceeded => exact List.forall_mem_nil _
  | connectFailed failure =>
    have hf : failure.blamesServer = false := by simpa [Op.isPlain] using hp
    exact List.forall_mem_singleton.mpr hf
  | observe name => exact List.forall_mem_nil _
  | submit command k =>
    rw [perform, submit]
    split
    · rename_i failure hr
      exact fair_refuse c k (blamesServer_refusal? hr) _
    · exact List.forall_mem_nil _
  | submitBatch commands k =>
    rw [perform, submitBatch]
    dsimp only
    split
    · rename_i failure hr
      refine fair_refuse c k ?_ _
      split at hr
      · exact blamesServer_closedTo? hr
      · obtain ⟨command, -, hc⟩ := List.exists_of_findSome?_eq_some hr
        exact blamesServer_refusal? hc
    · split
      · rename_i hempty
        obtain rfl := List.isEmpty_iff.mp hempty
        exact List.forall_mem_singleton.mpr (.inr (.inl ⟨List.mem_singleton_self _, rfl⟩))
      · exact List.forall_mem_nil _
  | register _ _ _ _ => cases hp
  | unsubscribe h k =>
    rw [perform, unsubscribe]
    split
    · rename_i failure hr
      exact fair_refuse c k (blamesServer_closedTo? hr) _
    · dsimp only
      split
      · exact List.forall_mem_nil _
      · exact List.forall_mem_singleton.mpr (.inr (.inr ⟨h, List.mem_singleton_self _, rfl⟩))
  | abandon h => exact List.forall_mem_nil _
  | feed _ => cases ha
  | written _ => cases ha
  | fail _ => cases ha
  | close => cases ha

/-- Where nobody is registered, nobody is after a request. -/
theorem perform_registry_empty {c : Connection κ α} (hc : c.registry = .empty) {op : Op κ α}
    (ha : op.asks) (hp : op.isPlain) : (c.perform op).1.registry = .empty := by
  by_cases hop : op.isAboutListeners
  · cases op with
    | register _ _ _ _ => cases hp
    | unsubscribe h k =>
      by_cases ho : c.isOpen
      · rw [perform, (unsubscribe_registry ho h k).1, hc]
        rfl
      · rw [perform, unsubscribe, closedTo?, if_neg ho]
        exact hc
    | abandon h =>
      rw [perform, (abandon_registry c h).1, hc]
      rfl
    | _ => cases hop
  · rw [(perform_registry c ha (Bool.eq_false_iff.mpr hop)).1, hc]

/-- Where nobody is registered, no order is the end of a subscription. -/
theorem order?_isPlain {c : Connection κ α} (hc : c.registry = .empty) {op : Op κ α}
    (hp : op.isPlain) {o : Order κ} (ho : c.order? op = some o) : o.isPlain := by
  have hleaves (h : Handle) : c.leaves h = false := by
    rw [leaves, hc]
    rfl
  cases op <;> simp only [order?, hleaves, Bool.and_false, Option.ite_none_right_eq_some,
    Option.some.injEq, reduceCtorEq, Bool.false_eq_true, false_and] at ho
  case submit command k => exact ho.2 ▸ rfl
  case submitBatch commands k => exact ho.2 ▸ rfl
  case register => cases hp

end Connection

namespace Correlates

variable {c : Connection κ α} {orders : List (Order κ)} {routed : List Value} {due : List (Due κ)}

theorem start : Correlates ({} : Connection κ α) [] [] [] :=
  ⟨rfl, rfl, .nil rfl rfl rfl, [], rfl, .start⟩

/-- Neither the bytes nor the stage matter. -/
theorem congr (h : Correlates c orders routed due) {c' : Connection κ α}
    (hr : c'.registry = c.registry) (hp : c'.pending = c.pending) (hb : c'.batches = c.batches)
    (hn : c'.nextBatch = c.nextBatch) (ha : c'.acksOwed = c.acksOwed) :
    Correlates c' orders routed due :=
  ⟨hr.trans h.registry, ha.trans h.acks, h.owes.congr hp hb hn ha, h.progress⟩

/-- **What waits and what came** are the commands that were ordered. -/
theorem length_pending (h : Correlates c orders routed due) :
    c.pending.length + routed.length = (orders.flatMap Order.commands).length := by
  obtain ⟨met, hmet, hprogress⟩ := h.progress
  have hentries (d : Due κ) : d.entries.length = d.commands.length := by
    rw [Due.entries, Due.commands, List.length_drop, List.length_drop, Order.length_entries]
  rw [h.owes.pending, hprogress.commands, ← hmet, List.length_append, List.length_flatMap,
    List.length_flatMap, List.length_map, List.length_map, Nat.add_comm]
  simp only [hentries]

/-- **A request** places its order behind the others. -/
theorem ask (h : Correlates c orders routed due) {op : Op κ α} (ha : op.asks) (hp : op.isPlain) :
    ∃ due', Correlates (c.perform op).1 (orders ++ (c.order? op).toList) routed due' := by
  have hplaces := (Connection.perform_effect c ha).places
  have howes := hplaces.owes h.owes fun o ho => (Connection.order?_commands ho).1
  obtain ⟨met, hmet, hprogress⟩ := h.progress
  have hplace := hprogress.place (c.order? op) c.nextBatch
  have hcalls := hplace.handed_eq howes.unfinished howes.fresh
  refine ⟨_, Connection.perform_registry_empty h.registry ha hp, ?_, howes, met, hmet, ?_⟩
  · rw [hplaces.acksOwed]
    cases ho : c.order? op with
    | none => exact h.acks
    | some o =>
      have hplain := Connection.order?_isPlain h.registry hp ho
      have hno : o.isUnsubscribe = false := by cases o <;> first | rfl | cases hplain
      rw [Connection.placed, Connection.place]
      dsimp only
      rw [h.acks, hno]
      rfl
  · rwa [← hmet, ← hcalls]

end Correlates

/-! ## What is received -/

namespace Serves

variable {replies : List (Bytes × Value)}

/-- **What comes is read as replies to commands that were sent**: no byte is malformed, and no more values
come than commands were ordered. -/
theorem routes {ops : List (Op κ α)} {input : Bytes}
    (h : Serves replies ((Journal.run ({} : Journal κ α) ops).act (.feed input)).tape)
    (hc : (Journal.run ({} : Journal κ α) ops).now.stage ≠ .closed) :
    let j : Journal κ α := Journal.run {} ops
    let vs := j.now.decoder.values input
    j.now.decoder.fault? input = none ∧ j.routed ++ vs <+: replies.map Prod.snd ∧
      (j.routed ++ vs).length ≤ j.commands.length := by
  intro j vs
  have hreads : j.Reads := Journal.routed_run hc
  obtain ⟨cs, hsent, rest, hrest⟩ := h.timely _ List.prefix_rfl
  have hreceived : received (j.act (.feed input)).tape = received j.tape ++ input := by
    rw [Journal.act, received_append]
    exact congrArg _ (List.append_nil _)
  have hall := reads_replies fun r hr => h.spells r (List.mem_of_mem_take (i := cs.length) hr)
  rw [← hrest, hreceived] at hall
  obtain ⟨hfault, ws, hws, -⟩ := hall.cut
  obtain ⟨hvalues, hrel, -⟩ := Decoder.read_append hreads.fault input
  rw [← hreads.decoder] at hvalues hrel
  rw [hvalues, ← hreads.values, List.map_take] at hws
  refine ⟨(Malformed.Alike.none_iff hrel).mp hfault, ?_, ?_⟩
  · exact (List.prefix_append _ ws).trans (hws ▸ List.take_prefix _ _)
  · -- the commands that reached the server are among those that were ordered
    have hbytes : cs.flatMap Command.encode <+: j.commands.flatMap Command.encode := by
      rw [Journal.act, sent_append] at hsent
      rw [← Journal.sent_run hc]
      exact hsent.trans ((List.prefix_append_right_inj _).mpr List.nil_prefix)
    have hlen := (Command.prefix_of_prefix hbytes).length_le
    have htaken := congrArg List.length hws
    rw [List.length_take, List.length_append] at htaken
    change (j.routed ++ j.now.decoder.values input).length ≤ _
    omega

end Serves

/-! ## A run -/

/-- **How far a run without registrations is**: its events are fair, and while it is open the values that
came are the first replies, each given to the order it is for. -/
structure Fares (replies : List Value) (ops : List (Op κ α)) : Prop where
  fair : ∀ e ∈ (Connection.run {} ops).2, e.Fair (Journal.run {} ops).orders replies ops
  correlates : (Journal.run ({} : Journal κ α) ops).now.stage ≠ .closed →
    (Journal.run ({} : Journal κ α) ops).routed <+: replies ∧
      ∃ due, Correlates (Journal.run ({} : Journal κ α) ops).now (Journal.run {} ops).orders
        (Journal.run ({} : Journal κ α) ops).routed due

namespace Fares

variable {replies : List Value} {ops : List (Op κ α)}

theorem journal_concat (op : Op κ α) :
    Journal.run ({} : Journal κ α) (ops ++ [op]) = (Journal.run {} ops).act op :=
  Journal.run_append {} ops [op]

/-- The events of one operation more. -/
theorem fair_concat (h : Fares replies ops) {op : Op κ α}
    (hop : ∀ e ∈ ((Journal.run {} ops).now.perform op).2,
      e.Fair (Journal.run {} (ops ++ [op])).orders replies (ops ++ [op])) :
    ∀ e ∈ (Connection.run {} (ops ++ [op])).2,
      e.Fair (Journal.run {} (ops ++ [op])).orders replies (ops ++ [op]) := by
  intro e he
  rw [Connection.run_append] at he
  obtain he | he := List.mem_append.mp he
  · refine (h.fair e he).mono ?_ (List.subset_append_left _ _)
    rw [journal_concat]
    exact List.prefix_append _ _
  · rw [Connection.run_singleton, ← Journal.now_run ({} : Journal κ α)] at he
    exact hop e he

/-- What an operation does that is none of the server's. -/
theorem ask (h : Fares replies ops) {op : Op κ α} (ha : op.asks) (hp : op.isPlain) :
    Fares replies (ops ++ [op]) := by
  have hfeed : ∀ input, op ≠ .feed input := by
    rintro input rfl
    cases ha
  refine ⟨h.fair_concat fun e he => ?_, fun hc => ?_⟩
  · exact (Connection.fair_perform _ ha hp e he).mono List.prefix_rfl (List.subset_append_right _ _)
  · rw [journal_concat] at hc ⊢
    have hopen := mt (fun hclosed => Connection.perform_closed hclosed op) hc
    obtain ⟨hfirst, due, hdue⟩ := h.correlates hopen
    have hrouted : ((Journal.run ({} : Journal κ α) ops).act op).routed
        = (Journal.run ({} : Journal κ α) ops).routed := by
      rw [Journal.act, Connection.routes_eq_nil _ hfeed, List.append_nil]
    obtain ⟨due', hdue'⟩ := hdue.ask ha hp
    rw [hrouted]
    refine ⟨hfirst, due', ?_⟩
    rw [Journal.act, Connection.ordered_eq _ hfeed]
    exact hdue'

/-- **Bytes come from the server.** -/
theorem feed {served : List (Bytes × Value)} (h : Fares (served.map Prod.snd) ops) {input : Bytes}
    (hs : Serves served ((Journal.run ({} : Journal κ α) ops).act (.feed input)).tape) :
    Fares (served.map Prod.snd) (ops ++ [.feed input]) := by
  by_cases hc : (Journal.run ({} : Journal κ α) ops).now.stage = .closed
  · refine ⟨h.fair_concat fun e he => ?_, fun hopen => ?_⟩
    · rw [Connection.perform, (Connection.feed_closed hc input).1] at he
      cases he
    · rw [journal_concat] at hopen
      exact absurd (Connection.perform_closed hc _) hopen
  · obtain ⟨hfault, hfirst, hlen⟩ := hs.routes hc
    obtain ⟨-, due, hdue⟩ := h.correlates hc
    obtain ⟨due', ks, hdue', hevents, hcalls⟩ := hdue.dispatchAll hlen
    have hturn := Connection.feed_dispatched hc input
    rw [hfault, Connection.dispatched_none] at hturn
    have hrouted : ((Journal.run ({} : Journal κ α) ops).act (.feed input)).routed
        = (Journal.run ({} : Journal κ α) ops).routed
          ++ (Journal.run ({} : Journal κ α) ops).now.decoder.values input := by
      rw [Journal.act, Connection.routes, if_neg hc]
    have horders : ((Journal.run ({} : Journal κ α) ops).act (.feed input)).orders
        = (Journal.run ({} : Journal κ α) ops).orders := by
      rw [Journal.act, Connection.ordered, Connection.routes, if_neg hc, hdue.partings hlen,
        List.append_nil]
    refine ⟨h.fair_concat fun e he => ?_, fun _ => ?_⟩
    · rw [Connection.perform, hturn, hevents] at he
      obtain ⟨⟨k, v⟩, hk, rfl⟩ := List.mem_map.mp he
      have hmem := List.mem_append_right (calls (Journal.run ({} : Journal κ α) ops).orders
        (Journal.run ({} : Journal κ α) ops).routed) hk
      rw [← hcalls] at hmem
      rw [journal_concat, horders]
      exact .inl ((earned_of_mem_calls hmem).mono List.prefix_rfl hfirst)
    · rw [journal_concat, hrouted, horders]
      refine ⟨hfirst, due', hdue'.congr ?_ ?_ ?_ ?_ ?_⟩ <;>
        · rw [Journal.act, Connection.perform, hturn]
          rfl

/-- **One operation more.** -/
theorem act {served : List (Bytes × Value)} (h : Fares (served.map Prod.snd) ops) {op : Op κ α}
    (hp : op.isPlain) (hs : Serves served ((Journal.run ({} : Journal κ α) ops).act op).tape) :
    Fares (served.map Prod.snd) (ops ++ [op]) := by
  by_cases ha : op.asks
  · exact h.ask ha hp
  · have hends (hclosed : ((Journal.run ({} : Journal κ α) ops).now.perform op).1.stage = .closed)
        (hfair : ∀ e ∈ ((Journal.run {} ops).now.perform op).2, e.Fair
          (Journal.run {} (ops ++ [op])).orders (served.map Prod.snd) (ops ++ [op])) :
        Fares (served.map Prod.snd) (ops ++ [op]) := by
      refine ⟨h.fair_concat hfair, fun hc => absurd ?_ hc⟩
      rw [journal_concat]
      exact hclosed
    cases op with
    | feed input => exact h.feed hs
    | written n =>
      refine ⟨h.fair_concat (List.forall_mem_nil _), fun hc => ?_⟩
      rw [journal_concat] at hc ⊢
      obtain ⟨hfirst, due, hdue⟩ := h.correlates hc
      simp only [Journal.act, Connection.routes, Connection.ordered, Connection.order?,
        Option.toList_none, List.append_nil]
      exact ⟨hfirst, due, hdue.congr rfl rfl rfl rfl rfl⟩
    | fail failure =>
      have hf : failure.blamesServer = false := by simpa [Op.isPlain] using hp
      exact hends (Connection.ends_fail _ failure).closed (Connection.fair_fail _ hf _)
    | close => exact hends (Connection.ends_close _).closed (Connection.fair_close _ _)
    | _ => exact absurd rfl ha

/-- **Every run fares well** against a server that answers each command once it has it. -/
theorem run {served : List (Bytes × Value)} {ops : List (Op κ α)} (hp : ∀ op ∈ ops, op.isPlain)
    (hs : Serves served (Journal.run ({} : Journal κ α) ops).tape) :
    Fares (served.map Prod.snd) ops := by
  induction ops using List.reverseRecOn with
  | nil => exact ⟨List.forall_mem_nil _, fun _ => ⟨List.nil_prefix, [], .start⟩⟩
  | append_singleton ops op ih =>
    rw [journal_concat] at hs
    have hbefore := ih (fun o ho => hp o (List.mem_append_left _ ho))
      (hs.of_prefix (List.prefix_append _ _))
    exact hbefore.act (hp op (List.mem_append_right _ (List.mem_singleton_self op))) hs

end Fares

end RespClient

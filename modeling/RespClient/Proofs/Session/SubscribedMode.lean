import RespClient.Proofs.Connection.Ledger
import RespClient.Proofs.Connection.Life
import RespClient.Proofs.Session.Server

/-!
# Proofs/Session/SubscribedMode — no data command while a topic is held

    SUBSCRIBE t   PING   UNSUBSCRIBE t   GET k   PSUBSCRIBE u   …
    └──────── t is open ────────┘         ▴      └─ u is open ─ …
                                   nothing is open

A connection leaves its subscribed stage with the last registration, long before the server has heard
of it.  That is safe because of the order in which the commands go out: a topic that is open in what
was sent so far is registered (`Ledger.Guarded`), so nobody is registered where a data command is
accepted, and nothing is open.  A server that carries out the commands in order then holds no topic
when the data command comes (`run_data_alone`).
-/

namespace RespClient

open Connection (allowedSubscribed)

variable {κ α : Type}

/-! ## Open topics -/

/-- **The topic is open after some commands**: it was subscribed to, and has not been unsubscribed
since. -/
def Topic.OpenAfter (t : Topic) (cs : List Command) : Prop :=
  ∃ earlier since, cs = earlier ++ t.subscribe :: since ∧ t.unsubscribe ∉ since

namespace Topic

variable {t : Topic} {cs : List Command} {c : Command}

theorem not_openAfter_nil (t : Topic) : ¬ t.OpenAfter [] := by
  rintro ⟨earlier, since, h, -⟩
  simp at h

/-- **The last command decides**: it opens the topic, or closes it, or leaves it as it was. -/
theorem openAfter_concat :
    t.OpenAfter (cs ++ [c]) ↔ c = t.subscribe ∨ c ≠ t.unsubscribe ∧ t.OpenAfter cs := by
  constructor
  · rintro ⟨earlier, since, h, hsince⟩
    obtain rfl | ⟨since, last, rfl⟩ := List.eq_nil_or_concat since
    · exact .inl (List.singleton_inj.mp (List.append_inj' h rfl).2)
    · rw [List.concat_eq_append, ← List.cons_append, ← List.append_assoc] at h
      obtain ⟨rfl, hc⟩ := List.append_inj' h rfl
      obtain rfl := List.singleton_inj.mp hc
      rw [List.concat_eq_append, List.mem_append, List.mem_singleton, not_or] at hsince
      exact .inr ⟨Ne.symm hsince.2, earlier, since, rfl, hsince.1⟩
  · rintro (rfl | ⟨hc, earlier, since, rfl, hsince⟩)
    · exact ⟨cs, [], rfl, List.not_mem_nil⟩
    · refine ⟨earlier, since ++ [c], by simp, ?_⟩
      rw [List.mem_append, List.mem_singleton, not_or]
      exact ⟨hsince, hc.symm⟩

/-- A command that is not reserved opens and closes nothing. -/
theorem openAfter_concat_civil (hc : c.reserved = false) :
    t.OpenAfter (cs ++ [c]) ↔ t.OpenAfter cs := by
  have hsub : c ≠ t.subscribe := by
    rintro rfl
    rw [reserved_subscribe] at hc
    cases hc
  have hunsub : c ≠ t.unsubscribe := by
    rintro rfl
    rw [reserved_unsubscribe] at hc
    cases hc
  rw [openAfter_concat, or_iff_right hsub, and_iff_right hunsub]

theorem openAfter_append_civil {more : List Command} (h : ∀ c ∈ more, c.reserved = false) :
    t.OpenAfter (cs ++ more) ↔ t.OpenAfter cs := by
  induction more generalizing cs with
  | nil => rw [List.append_nil]
  | cons c more ih =>
    rw [List.forall_mem_cons] at h
    rw [List.append_cons, ih h.2, openAfter_concat_civil h.1]

end Topic

/-- **A server carries out commands** one after another, and holds these topics then. -/
inductive Executes (m : Manners) : List Command → List Topic → Prop
  | nil : Executes m [] []
  | concat {cs : List Command} {held held' : List Topic} {c : Command} {v : Value}
    (h : Executes m cs held) (ha : Answers m held c v held') : Executes m (cs ++ [c]) held'

/-- **What a server holds is open.** -/
theorem Executes.openAfter {m : Manners} {cs : List Command} {held : List Topic}
    (h : Executes m cs held) {t : Topic} (ht : t ∈ held) : t.OpenAfter cs := by
  induction h with
  | nil => exact absurd ht List.not_mem_nil
  | concat h ha ih =>
    cases ha with
    | accepts u =>
      rw [Topic.openAfter_concat]
      obtain rfl | ht := List.mem_cons.mp ht
      · exact .inl rfl
      · exact .inr ⟨Topic.subscribe_ne_unsubscribe u t, ih ht⟩
    | refuses u => exact Topic.openAfter_concat.mpr (.inr ⟨Topic.subscribe_ne_unsubscribe u t, ih ht⟩)
    | ends u =>
      obtain ⟨ht, hne⟩ := List.mem_filter.mp ht
      refine Topic.openAfter_concat.mpr (.inr ⟨fun he => ?_, ih ht⟩)
      exact of_decide_eq_true hne (Topic.unsubscribe_injective he).symm
    | replies hc => exact (Topic.openAfter_concat_civil hc).mpr (ih ht)

/-! ## Data commands -/

/-- A reserved command may be sent by a connection with listeners. -/
theorem allowedSubscribed_of_reserved {c : Command} (h : c.reserved) : allowedSubscribed c := by
  rw [Command.reserved, List.any_eq_true] at h
  obtain ⟨name, hname, hc⟩ := h
  refine List.any_eq_true.mpr ⟨name, Connection.mem_subscribedNames.mpr ?_, hc⟩
  simp only [List.mem_cons, List.not_mem_nil, or_false] at hname
  tauto

/-- **Data commands stand alone**: where one is sent, no topic is open. -/
def DataAlone (cs : List Command) : Prop :=
  ∀ before data after, cs = before ++ data :: after → allowedSubscribed data = false →
    ∀ t : Topic, ¬ t.OpenAfter before

theorem DataAlone.append {cs more : List Command} (h : DataAlone cs)
    (hmore : ∀ before data after, more = before ++ data :: after → allowedSubscribed data = false →
      ∀ t : Topic, ¬ t.OpenAfter (cs ++ before)) : DataAlone (cs ++ more) := by
  intro before data after heq hdata
  obtain ⟨as, rfl, hrest⟩ | ⟨bs, rfl, hrest⟩ := List.append_eq_append_iff.mp heq
  · exact hmore as data after hrest hdata
  · cases bs with
    | nil =>
      have hnil := hmore [] data after hrest.symm hdata
      rwa [List.append_nil, List.append_nil] at hnil
    | cons b bs =>
      obtain ⟨rfl, -⟩ := List.cons.inj hrest
      exact h before data bs rfl hdata

/-- The commands that an operation passes in. -/
def Op.commands : Op κ α → List Command
  | submit command _ => [command]
  | submitBatch commands _ => commands
  | _ => []

/-- The connection's own orders come to reserved commands. -/
theorem Order.reserved_of_not_isPlain {o : Order κ} (h : ¬ o.isPlain) {c : Command}
    (hc : c ∈ o.commands) : c.reserved := by
  cases o with
  | subscribe hd k =>
    obtain rfl := List.mem_singleton.mp hc
    exact Topic.reserved_subscribe hd.topic
  | unsubscribe topic k =>
    obtain rfl := List.mem_singleton.mp hc
    exact Topic.reserved_unsubscribe topic
  | _ => exact absurd rfl h

namespace Connection

/-- The user's commands in an order may be sent now, and are not reserved. -/
def Admits (c : Connection κ α) (o? : Option (Order κ)) : Prop :=
  ∀ o, o? = some o → o.isPlain → ∀ command ∈ o.commands,
    c.refusal? command = none ∧ command.reserved = false

theorem admits_order? (c : Connection κ α) {op : Op κ α}
    (hop : ∀ command ∈ op.commands, command.reserved = false) : c.Admits (c.order? op) := by
  intro o ho hp command hcommand
  cases op <;> simp only [order?, Option.ite_none_right_eq_some, Option.some.injEq, reduceCtorEq]
    at ho
  case submit =>
    obtain ⟨hnone, rfl⟩ := ho
    obtain rfl := List.mem_singleton.mp hcommand
    exact ⟨Option.isNone_iff_eq_none.mp hnone, hop _ List.mem_cons_self⟩
  case submitBatch =>
    obtain ⟨hnone, rfl⟩ := ho
    rw [Bool.and_eq_true, Option.isNone_iff_eq_none, List.findSome?_eq_none_iff] at hnone
    exact ⟨hnone.2 command hcommand, hop command hcommand⟩
  all_goals
    obtain ⟨-, rfl⟩ := ho
    cases hp

theorem admits_parting? (c : Connection κ α) (push : Push) : c.Admits (c.parting? push) := by
  intro o ho hp
  simp only [parting?, Option.ite_none_right_eq_some, Option.some.injEq] at ho
  obtain ⟨-, rfl⟩ := ho
  cases hp

/-- **A data command is accepted without listeners only.** -/
theorem Tidy.not_contains_of_refusal? {c : Connection κ α} (h : c.Tidy) {data : Command}
    (hnone : c.refusal? data = none) (hdata : allowedSubscribed data = false) (t : Topic) :
    ¬ c.registry.contains t := by
  refine Registry.isEmpty_iff.mp (h.mirrors.isEmpty fun hs => ?_) t
  rw [refusal?, hs, hdata] at hnone
  cases hnone

/-- **An order brings no data command while a topic is open**, if what is open is registered. -/
theorem Tidy.alone {c : Connection κ α} (h : c.Tidy) {cs : List Command}
    (hcs : ∀ t : Topic, t.OpenAfter cs → c.registry.contains t) {o : Order κ}
    (hadmits : c.Admits (some o)) {before after : List Command} {data : Command}
    (hsplit : o.commands = before ++ data :: after) (hdata : allowedSubscribed data = false)
    (t : Topic) : ¬ t.OpenAfter (cs ++ before) := by
  have hmem : data ∈ o.commands := hsplit ▸ List.mem_append_right before List.mem_cons_self
  have hplain : o.isPlain := by
    by_contra hp
    rw [allowedSubscribed_of_reserved (Order.reserved_of_not_isPlain hp hmem)] at hdata
    cases hdata
  have hall := hadmits o rfl hplain
  have hbefore : ∀ command ∈ before, command.reserved = false := fun command hc =>
    (hall command (hsplit ▸ List.mem_append_left _ hc)).2
  rw [Topic.openAfter_append_civil hbefore]
  exact fun ht => h.not_contains_of_refusal? (hall data hmem).1 hdata t (hcs t ht)

/-- A topic that is open stays registered while the registry moves with an order. -/
theorem Moves.contains_of_open {r r' : Registry α} {next next' : Nat} {o? : Option (Order κ)}
    (h : Moves r next r' next' o?) (hs : r.Sound next) {cs : List Command}
    (hcs : ∀ t : Topic, t.OpenAfter cs → r.contains t)
    (ho : ∀ o, o? = some o → o.isPlain → ∀ command ∈ o.commands, command.reserved = false)
    {t : Topic} (ht : t.OpenAfter (cs ++ o?.toList.flatMap Order.commands)) : r'.contains t := by
  cases h with
  | stays o? plain =>
    cases o? with
    | none =>
      rw [Option.toList_none, List.flatMap_nil, List.append_nil] at ht
      exact hcs t ht
    | some o =>
      rw [Option.toList_some, List.flatMap_singleton,
        Topic.openAfter_append_civil (ho o rfl (plain o rfl))] at ht
      exact hcs t ht
  | enters topic persistence listener k =>
    rw [Registry.contains_insert hs]
    obtain heq | ⟨-, ht⟩ := Topic.openAfter_concat.mp ht
    · exact .inr (Topic.subscribe_injective heq).symm
    · exact .inl (hcs t ht)
  | thins sound fewer same =>
    rw [Option.toList_none, List.flatMap_nil, List.append_nil] at ht
    exact (same t).mpr (hcs t ht)
  | leaves sound fewer gone others k? =>
    obtain heq | ⟨hne, ht⟩ := Topic.openAfter_concat.mp ht
    · exact absurd heq.symm (Topic.subscribe_ne_unsubscribe t _)
    · refine (others t ?_).mpr (hcs t ht)
      rintro rfl
      exact hne rfl

end Connection

/-! ## What was sent is guarded -/

namespace Ledger

/-- **No subscription was refused**: no entry of one was answered with an error. -/
def Unrefused (l : Ledger κ α) : Prop :=
  ∀ r ∈ l.answered, ∀ h, r.1.expects = .subscribeAck h → r.2.isError = false

theorem Unrefused.of_prefix {l l' : Ledger κ α} (h : l'.Unrefused)
    (hl : l.answered <+: l'.answered) : l.Unrefused := fun r hr => h r (hl.subset hr)

theorem answered_meetAll (l : Ledger κ α) (vs : List Value) :
    l.answered <+: (l.meetAll vs).answered := by
  induction vs generalizing l with
  | nil => exact List.prefix_rfl
  | cons v vs ih => exact (List.prefix_append _ _).trans (ih (l.meet v))

theorem answered_act (l : Ledger κ α) (op : Op κ α) : l.answered <+: (l.act op).answered := by
  cases op with
  | feed input =>
    rw [act]
    split
    · exact List.prefix_rfl
    · exact answered_meetAll l _
  | _ => exact List.prefix_rfl

theorem answered_run (l : Ledger κ α) (ops : List (Op κ α)) :
    l.answered <+: (l.run ops).answered := by
  induction ops generalizing l with
  | nil => exact List.prefix_rfl
  | cons op ops ih => exact (answered_act l op).trans (ih (l.act op))

/-- **What was sent is guarded**: a topic that is open is registered, and data commands stand alone. -/
structure Guarded (l : Ledger κ α) : Prop where
  tidy : l.now.Tidy
  registered : l.now.stage ≠ .closed → ∀ t : Topic, t.OpenAfter l.commands → l.now.registry.contains t
  alone : DataAlone l.commands

theorem guarded_new : ({} : Ledger κ α).Guarded := by
  refine ⟨Connection.tidy_new, fun _ t ht => absurd ht t.not_openAfter_nil, ?_⟩
  intro before data after h
  simp [commands] at h

/-- **An order leaves what was sent guarded**, if the registry moves with it. -/
theorem Guarded.enter {l : Ledger κ α} (h : l.Guarded) {o? : Option (Order κ)}
    {next : Connection κ α} (htidy : next.Tidy) (hadmits : l.now.Admits o?)
    (hopen : o? ≠ none → l.now.stage ≠ .closed)
    (hmoves : next.stage ≠ .closed → l.now.stage ≠ .closed ∧
      Connection.Moves l.now.registry l.now.nextHandle next.registry next.nextHandle o?) :
    (l.enter o? next).Guarded := by
  refine ⟨htidy, fun hc t ht => ?_, ?_⟩
  · obtain ⟨hc, hm⟩ := hmoves hc
    rw [commands_enter] at ht
    exact hm.contains_of_open h.tidy.sound (h.registered hc)
      (fun o ho hp c hc => (hadmits o ho hp c hc).2) ht
  · rw [commands_enter]
    refine h.alone.append fun before data after hsplit hdata t ht => ?_
    cases o? with
    | none => simp at hsplit
    | some o =>
      rw [Option.toList_some, List.flatMap_singleton] at hsplit
      exact h.tidy.alone (h.registered (hopen nofun)) hadmits hsplit hdata t ht

/-- A reply that refuses no subscription refuses nobody. -/
theorem Unrefused.refused? {l : Ledger κ α} {v : Value} (h : (l.meet v).Unrefused)
    (hp : l.now.pushed? v = none) : l.now.refused? v = none := by
  rw [Connection.refused?]
  split
  · rename_i target hd ps heq
    have hmem : (⟨target, .subscribeAck hd⟩, v) ∈ (l.meet v).answered := by
      simp [meet, Connection.answered?, hp, heq]
    rw [h _ hmem hd rfl]
    rfl
  · rfl

/-- **A value leaves what was sent guarded**, if it refuses no subscription. -/
theorem Guarded.meet {l : Ledger κ α} (h : l.Guarded) {v : Value} (hu : (l.meet v).Unrefused) :
    (l.meet v).Guarded := by
  have hstage := (Connection.dispatch_stage l.now v).2
  have htidy := h.tidy.dispatch v
  suffices henter : (l.enter ((l.now.pushed? v).bind l.now.parting?) (l.now.dispatch v).1).Guarded by
    exact ⟨henter.tidy, henter.registered, henter.alone⟩
  cases hp : l.now.pushed? v with
  | some push =>
    have hopen : l.now.stage ≠ .closed := fun hc => by
      rw [(h.tidy.bare (Connection.not_isOpen_of_closed hc)).pushed?] at hp
      cases hp
    refine h.enter htidy (Connection.admits_parting? l.now push) (fun _ => hopen) fun _ => ⟨hopen, ?_⟩
    rw [Connection.dispatch_pushed hp]
    exact Connection.deliver_moves h.tidy.sound push
  | none =>
    refine h.enter htidy nofun (absurd rfl) fun hc => ⟨mt hstage.mpr hc, ?_⟩
    obtain ⟨hregistry, hnext⟩ := Connection.answer_registry l.now v
    rw [hu.refused? hp] at hregistry
    rw [Connection.dispatch_reply hp, hregistry, hnext]
    exact .stays none nofun

theorem Guarded.meetAll {l : Ledger κ α} (h : l.Guarded) (vs : List Value)
    (hu : (l.meetAll vs).Unrefused) : (l.meetAll vs).Guarded := by
  induction vs generalizing l with
  | nil => exact h
  | cons v vs ih => exact ih (h.meet (hu.of_prefix (answered_meetAll (l.meet v) vs))) hu

theorem Guarded.feed {l : Ledger κ α} (h : l.Guarded) {input : Bytes}
    (hu : (l.act (.feed input)).Unrefused) : (l.act (.feed input)).Guarded := by
  obtain hfed | ⟨vs, d, hfed | ⟨c, hends, hfed⟩⟩ := act_feed l input <;> rw [hfed] at hu ⊢
  · exact h
  · have hall := h.meetAll vs hu
    exact ⟨hall.tidy.reading d, hall.registered, hall.alone⟩
  · have hall := h.meetAll vs hu
    exact ⟨(hall.tidy.reading d).ends hends, fun hc => absurd hends.closed hc, hall.alone⟩

theorem Guarded.ends {l : Ledger κ α} (h : l.Guarded) {next : Connection κ α}
    (hends : l.now.Ends next) : (l.enter none next).Guarded :=
  h.enter (h.tidy.ends hends) nofun (absurd rfl) fun hc => absurd hends.closed hc

/-- **A request leaves what was sent guarded**, if no command of it is reserved. -/
theorem Guarded.ask {l : Ledger κ α} (h : l.Guarded) {op : Op κ α} (ha : op.asks)
    (hop : ∀ command ∈ op.commands, command.reserved = false) :
    (l.enter (l.now.order? op) (l.now.perform op).1).Guarded := by
  have hstage := (Connection.perform_stage l.now ha).2
  refine h.enter (h.tidy.perform op) (Connection.admits_order? l.now hop) (fun ho hc => ?_)
    fun hc => ⟨mt hstage.mpr hc, Connection.perform_moves h.tidy.sound h.tidy.idle ha⟩
  exact ho (Connection.order?_eq_none (Connection.not_isOpen_of_closed hc) op)

/-- **Every operation leaves what was sent guarded**, if it passes in no reserved command and no
subscription is refused. -/
theorem Guarded.act {l : Ledger κ α} (h : l.Guarded) {op : Op κ α}
    (hop : ∀ command ∈ op.commands, command.reserved = false) (hu : (l.act op).Unrefused) :
    (l.act op).Guarded := by
  cases op with
  | feed input => exact h.feed hu
  | written n => exact ⟨h.tidy.written n, h.registered, h.alone⟩
  | fail failure => exact h.ends (Connection.ends_fail l.now failure)
  | close => exact h.ends (Connection.ends_close l.now)
  | _ => exact h.ask rfl hop

theorem Guarded.run {l : Ledger κ α} (h : l.Guarded) {ops : List (Op κ α)}
    (hops : ∀ op ∈ ops, ∀ command ∈ op.commands, command.reserved = false)
    (hu : (l.run ops).Unrefused) : (l.run ops).Guarded := by
  induction ops generalizing l with
  | nil => exact h
  | cons op ops ih =>
    rw [List.forall_mem_cons] at hops
    exact ih (h.act hops.1 (hu.of_prefix (answered_run (l.act op) ops))) hops.2 hu

/-- **No data command in subscribed mode.**  While no subscription is refused and the user passes in no
reserved command, every topic that was subscribed to before a data command has been unsubscribed since,
in the order in which the commands are sent; so a server that carries them out in this order holds no
topic when the data command comes. -/
theorem run_data_alone (ops : List (Op κ α)) (vs : List Value)
    (hops : ∀ op ∈ ops, ∀ command ∈ op.commands, command.reserved = false)
    (hu : ((run {} ops).meetAll vs : Ledger κ α).Unrefused) :
    let l : Ledger κ α := (run {} ops).meetAll vs
    l.appended = l.commands.flatMap Command.encode ∧
      ∀ before data after, l.commands = before ++ data :: after → allowedSubscribed data = false →
        (∀ t : Topic, ¬ t.OpenAfter before) ∧
          ∀ m held, Executes m before held → held = [] := by
  have hrun : (run {} ops : Ledger κ α).Guarded :=
    guarded_new.run hops (hu.of_prefix (answered_meetAll _ vs))
  refine ⟨((exact_new.run ops).meetAll vs).bytes, fun before data after hsplit hdata => ?_⟩
  have halone := (hrun.meetAll vs hu).alone before data after hsplit hdata
  refine ⟨halone, fun m held hheld => List.eq_nil_iff_forall_not_mem.mpr fun t ht => ?_⟩
  exact halone t (hheld.openAfter ht)

/-! ## A listener for one message -/

/-- The command `GET k`. -/
def fetch : Command := ⟨Utf8.encode "GET", [[107]]⟩

/-- A listener waits for one message of the channel, gets it, and then a value is fetched. -/
def spent : List (Op Nat Nat) :=
  [.beginConnect, .connectSucceeded, .register Session.channel .singleShot 0 1,
    .feed (Wire.reply Session.welcome ++ Wire.reply Session.note), .submit fetch 2]

theorem run_data_alone_spent :
    (∀ op ∈ spent, ∀ command ∈ op.commands, command.reserved = false) ∧
      ((run {} spent).meetAll [] : Ledger Nat Nat).Unrefused ∧
      ((run {} spent).meetAll [] : Ledger Nat Nat).commands
        = [Session.channel.subscribe, Session.channel.unsubscribe, fetch] ∧
      allowedSubscribed fetch = false ∧
      ∀ t : Topic, ¬ t.OpenAfter [Session.channel.subscribe, Session.channel.unsubscribe] := by
  have hops : ∀ op ∈ spent, ∀ command ∈ op.commands, command.reserved = false := by decide +kernel
  have hanswered : ∀ r ∈ ((run {} spent).meetAll [] : Ledger Nat Nat).answered,
      r.2.isError = false := by decide +kernel
  have hu : ((run {} spent).meetAll [] : Ledger Nat Nat).Unrefused := fun r hr _ _ => hanswered r hr
  have hcommands : ((run {} spent).meetAll [] : Ledger Nat Nat).commands
      = [Session.channel.subscribe, Session.channel.unsubscribe, fetch] := by decide +kernel
  have hfetch : allowedSubscribed fetch = false := by decide +kernel
  have halone := (run_data_alone spent [] hops hu).2
    [Session.channel.subscribe, Session.channel.unsubscribe] fetch [] hcommands hfetch
  exact ⟨hops, hu, hcommands, hfetch, halone.1⟩

end Ledger

end RespClient

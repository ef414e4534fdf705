import RespClient.Proofs.Connection.Completion

/-!
# Proofs/Connection/Life — how far a connection has come, and what is left in it

    unconnected ◂──▸ connecting ──▸ connected ◂──▸ subscribed        each of them ──▸ closed

A connection is *tidy* (`Tidy`): its tables are sound, its stage mirrors them, and while it is not open
nothing is left in it.  Every operation and every value keeps this, because the stage moves in one of
four ways only (`Shifts`).  Hence a connection is subscribed exactly while someone listens
(`run_subscribed_iff`), its stage keeps to the arrows above, and a connection that is closed is left as
it is by whatever is done to it (`run_life`).
-/

namespace RespClient

/-- **Where a stage leads.** -/
inductive Lifecycle.Leads : Lifecycle → Lifecycle → Prop
  | stays (s : Lifecycle) : Leads s s
  | begins : Leads unconnected connecting
  | givesUp : Leads connecting unconnected
  | succeeds : Leads connecting connected
  | listens : Leads connected subscribed
  | parts : Leads subscribed connected
  | ends (s : Lifecycle) : Leads s closed

/-- An open stage leads to every open stage. -/
theorem Lifecycle.leads_of_isOpen {s t : Lifecycle} (hs : s.isOpen) (ht : t.isOpen) : s.Leads t := by
  cases s with
  | connected =>
    cases t with
    | connected => exact .stays _
    | subscribed => exact .listens
    | _ => cases ht
  | subscribed =>
    cases t with
    | connected => exact .parts
    | subscribed => exact .stays _
    | _ => cases ht
  | _ => cases hs

namespace Connection

variable {κ α : Type}

/-! ## The stage and the registry -/

/-- **The stage mirrors the registry**: a connection is subscribed exactly while someone listens. -/
def Mirrors (c : Connection κ α) : Prop := c.stage = .subscribed ↔ c.registry.isEmpty = false

theorem Mirrors.isEmpty {c : Connection κ α} (h : c.Mirrors) (hc : c.stage ≠ .subscribed) :
    c.registry.isEmpty := Bool.of_not_eq_false (mt h.mpr hc)

/-- **What becomes of the stage** in one step. -/
inductive Shifts (c c' : Connection κ α) : Prop
  /-- It stays, and no first listener comes and no last one goes. -/
  | stays (stage : c'.stage = c.stage) (same : c'.registry.isEmpty = c.registry.isEmpty)
  /-- An attempt to connect goes on, and the registry plays no part. -/
  | attempts (leads : c.stage.Leads c'.stage) (before : c.stage ≠ .subscribed)
    (after : c'.stage ≠ .subscribed) (same : c'.registry.isEmpty = c.registry.isEmpty)
  /-- The connection is open, and the stage follows the registry. -/
  | follows (before : c.isOpen)
    (after : c'.stage = if c'.registry.isEmpty then .connected else .subscribed)
  /-- The conversation ends. -/
  | ends (stage : c'.stage = .closed) (empty : c'.registry.isEmpty)

theorem Shifts.refl (c : Connection κ α) : Shifts c c := .stays rfl rfl

/-- Only the stage and the registry matter. -/
theorem Shifts.congr {c c' d : Connection κ α} (h : Shifts c c') (hs : d.stage = c'.stage)
    (hr : d.registry = c'.registry) : Shifts c d := by
  cases h with
  | stays stage same => exact .stays (hs.trans stage) (hr ▸ same)
  | attempts leads before after same => exact .attempts (hs ▸ leads) before (hs ▸ after) (hr ▸ same)
  | follows before after => exact .follows before (hs.trans (hr ▸ after))
  | ends stage empty => exact .ends (hs.trans stage) (hr ▸ empty)

/-- **The stage keeps to the arrows.** -/
theorem Shifts.leads {c c' : Connection κ α} (h : Shifts c c') : c.stage.Leads c'.stage := by
  cases h with
  | stays stage same => exact stage ▸ .stays _
  | attempts leads before after same => exact leads
  | follows before after =>
    refine Lifecycle.leads_of_isOpen before ?_
    rw [after]
    split <;> rfl
  | ends stage empty => exact stage ▸ .ends _

theorem Shifts.mirrors {c c' : Connection κ α} (h : Shifts c c') (hc : c.Mirrors) : c'.Mirrors := by
  rw [Mirrors] at hc ⊢
  cases h with
  | stays stage same => rw [stage, same, hc]
  | attempts leads before after same => exact iff_of_false after (same ▸ mt hc.mpr before)
  | follows before after => cases he : c'.registry.isEmpty <;> simp [after, he]
  | ends stage empty => simp [stage, empty]

/-- **The stage of an open connection is refreshed** from its registry. -/
theorem shifts_refresh {c d : Connection κ α} (hd : d.stage = c.stage) (hc : c.isOpen) :
    Shifts c d.refresh := by
  refine .follows hc ?_
  rw [refresh_registry, refresh]
  rw [isOpen, ← hd] at hc
  cases hs : d.stage with
  | connected => cases he : d.registry.isEmpty <;> simp [hs]
  | subscribed => cases he : d.registry.isEmpty <;> simp [hs]
  | _ =>
    rw [hs] at hc
    cases hc

theorem isOpen_of_closedTo? {c : Connection κ α} {operation : String}
    (h : c.closedTo? operation = none) : c.isOpen := by
  rw [closedTo?] at h
  by_contra hc
  rw [if_neg hc] at h
  cases h

/-! ## What a request does to the stage -/

theorem shifts_beginConnect (c : Connection κ α) : Shifts c c.beginConnect.2.1 := by
  rw [beginConnect]
  split
  · rename_i hs
    exact .attempts (hs ▸ .begins) (by simp [hs]) (by simp) rfl
  · exact .refl c

theorem shifts_connectSucceeded (c : Connection κ α) : Shifts c c.connectSucceeded := by
  rw [connectSucceeded]
  split
  · rename_i hs
    exact .attempts (hs ▸ .succeeds) (by simp [hs]) (by simp) rfl
  · exact .refl c

theorem shifts_connectFailed (c : Connection κ α) (failure : Failure) :
    Shifts c (c.connectFailed failure).1 := by
  rw [connectFailed]
  dsimp only
  split
  · rename_i hs
    exact .attempts (hs ▸ .givesUp) (by simp [hs]) (by simp) rfl
  · exact .refl c

theorem shifts_submit (c : Connection κ α) (command : Command) (k : κ) :
    Shifts c (c.submit command (.handler k)).1 := by
  rw [submit]
  split
  · exact .refl c
  · exact .stays rfl rfl

theorem shifts_submitBatch (c : Connection κ α) (commands : List Command) (k : κ) :
    Shifts c (c.submitBatch commands k).1 := by
  rw [submitBatch]
  dsimp only
  split
  · exact .refl c
  · split
    · exact .refl c
    · exact .stays rfl rfl

theorem shifts_register (c : Connection κ α) (topic : Topic) (persistence : Persistence)
    (listener : α) (k : κ) : Shifts c (c.register topic persistence listener (.handler k)).2.1 := by
  rw [register]
  split
  · exact .refl c
  · rename_i h
    exact shifts_refresh rfl (isOpen_of_closedTo? h)

theorem shifts_unsubscribe (c : Connection κ α) (h : Handle) (k : κ) :
    Shifts c (c.unsubscribe h (.handler k)).1 := by
  rw [unsubscribe]
  split
  · exact .refl c
  · rename_i ho
    dsimp only [settle]
    split <;> exact shifts_refresh rfl (isOpen_of_closedTo? ho)

/-- A registration goes on an open connection only, for a closed one has none. -/
theorem shifts_abandon {c : Connection κ α} (hidle : ¬ c.isOpen → ∀ k, ¬ c.registry.Lives k)
    (hs : c.registry.Sound c.nextHandle) (h : Handle) : Shifts c (c.abandon h) := by
  rw [abandon]
  split
  · exact .refl c
  · rename_i registry hr
    have hopen : c.isOpen := by
      by_contra hc
      exact hidle hc h (Registry.lives_of_remove? hs hr).1
    dsimp only
    split <;> exact shifts_refresh rfl hopen

/-! ## What a value does to the stage -/

/-- A message ends the registrations of a topic with an order, or ends no topic's. -/
theorem shifts_deliver {c : Connection κ α} (hs : c.registry.Sound c.nextHandle) (hc : c.isOpen)
    (push : Push) : Shifts c (c.deliver push).1 := by
  have hmoves := deliver_moves hs push
  rw [deliver] at hmoves ⊢
  rw [parting?] at hmoves
  dsimp only at hmoves ⊢
  split
  · exact shifts_refresh rfl hc
  · rename_i hn
    rw [if_neg hn, if_neg hn] at hmoves
    exact .stays rfl (Registry.isEmpty_congr hmoves.contains)

/-- A reply ends a registration by a refusal only. -/
theorem shifts_acknowledge {c d : Connection κ α} (hd : d.stage = c.stage)
    (hr : d.registry = c.registry) (hc : c.isOpen) (expects : Expect) (v : Value) :
    Shifts c (d.acknowledge expects v) := by
  have hstays : Shifts c d := .stays hd (congrArg _ hr)
  unfold acknowledge
  split
  · exact hstays
  · split
    · split
      · exact shifts_refresh hd hc
      · exact hstays
    · exact hstays
  · exact hstays.congr rfl rfl

theorem shifts_answer {c : Connection κ α} (hc : c.isOpen) (v : Value) :
    Shifts c (c.answer v).1 := by
  rw [answer]
  split
  · exact .refl c
  · rename_i p ps _
    have hack : Shifts c (acknowledge { c with pending := ps } p.expects v) :=
      shifts_acknowledge (c := c) (d := { c with pending := ps }) rfl rfl hc p.expects v
    rw [settle_eq]
    exact hack.congr rfl rfl

/-! ## Nothing is left -/

/-- **Nothing is left of a conversation**: no command waits, nobody listens, no answer is owed and
nothing is to be written. -/
structure Bare (c : Connection κ α) : Prop where
  pending : c.pending = []
  registry : c.registry = .empty
  acksOwed : c.acksOwed = 0
  outbound : c.outbound = []

/-- A bare connection takes no value for a message. -/
theorem Bare.pushed? {c : Connection κ α} (h : c.Bare) (v : Value) : c.pushed? v = none := by
  rw [Connection.pushed?, routesPushes, h.registry, h.acksOwed]
  rfl

/-- **A bare connection only reports a value.** -/
theorem Bare.dispatch {c : Connection κ α} (h : c.Bare) (v : Value) :
    c.dispatch v = (c, [c.report (.unexpectedReply v.inspect)]) := by
  rw [dispatch_reply (h.pushed? v), answer, h.pending]

theorem Bare.dispatchAll {c : Connection κ α} (h : c.Bare) (vs : List Value) :
    (c.dispatchAll vs).1 = c := by
  induction vs with
  | nil => rfl
  | cons v vs ih =>
    rw [Connection.dispatchAll, h.dispatch]
    exact ih

/-! ## A tidy connection -/

/-- **A connection is tidy**: its tables are sound, its stage mirrors them, and nothing is left in it
while it is not open. -/
structure Tidy (c : Connection κ α) : Prop where
  sound : c.registry.Sound c.nextHandle
  mirrors : c.Mirrors
  bare : ¬ c.isOpen → c.Bare

theorem tidy_new : ({} : Connection κ α).Tidy :=
  ⟨.empty 1, iff_of_false nofun nofun, fun _ => ⟨rfl, rfl, rfl, rfl⟩⟩

theorem tidy_ended (c : Connection κ α) (batches : List (Nat × Batch κ)) : (c.ended batches).Tidy :=
  ⟨.empty _, iff_of_false nofun nofun, fun _ => ⟨rfl, rfl, rfl, rfl⟩⟩

theorem Tidy.idle {c : Connection κ α} (h : c.Tidy) (hc : ¬ c.isOpen) (k : Handle) :
    ¬ c.registry.Lives k := by
  rw [(h.bare hc).registry]
  exact Registry.not_lives_empty k

theorem Tidy.reading {c : Connection κ α} (h : c.Tidy) (d : Decoder) : (c.reading d).Tidy := by
  refine ⟨h.sound, h.mirrors, fun hc => ?_⟩
  have hb := h.bare hc
  exact ⟨hb.pending, hb.registry, hb.acksOwed, hb.outbound⟩

/-- Without registrations a sound registry is empty. -/
theorem eq_empty_of_not_lives {r : Registry α} {next : Nat} (hs : r.Sound next)
    (h : ∀ k, ¬ r.Lives k) : r = .empty := by
  refine Registry.eq_empty_of_isEmpty (Registry.isEmpty_iff.mpr fun t ht => ?_)
  obtain ⟨id, hl⟩ := (Registry.contains_iff hs t).mp ht
  exact h ⟨id, t⟩ hl

/-- **What a request does to the stage.** -/
theorem Tidy.shifts {c : Connection κ α} (h : c.Tidy) {op : Op κ α} (ha : op.asks) :
    Shifts c (c.perform op).1 := by
  cases op with
  | beginConnect => exact shifts_beginConnect c
  | connectSucceeded => exact shifts_connectSucceeded c
  | connectFailed failure => exact shifts_connectFailed c failure
  | observe name => exact .stays rfl rfl
  | submit command k => exact shifts_submit c command k
  | submitBatch commands k => exact shifts_submitBatch c commands k
  | register topic persistence listener k => exact shifts_register c topic persistence listener k
  | unsubscribe hd k => exact shifts_unsubscribe c hd k
  | abandon hd => exact shifts_abandon h.idle h.sound hd
  | feed _ => cases ha
  | written _ => cases ha
  | fail _ => cases ha
  | close => cases ha

/-- **A request leaves a tidy connection.** -/
theorem Tidy.ask {c : Connection κ α} (h : c.Tidy) {op : Op κ α} (ha : op.asks) :
    (c.perform op).1.Tidy := by
  have hmoves := perform_moves h.sound h.idle ha
  refine ⟨hmoves.sound h.sound, (h.shifts ha).mirrors h.mirrors, fun hn => ?_⟩
  -- where the connection is not open afterwards it was not before, and no order was placed
  have hc : ¬ c.isOpen := fun ho => hn ((perform_stage c ha).1 ho)
  have hplaces := (perform_effect c ha).places
  rw [order?_eq_none hc] at hplaces hmoves
  have hb := h.bare hc
  exact ⟨hplaces.pending.trans hb.pending,
    eq_empty_of_not_lives (hmoves.sound h.sound) fun k hk => h.idle hc k (hmoves.fewer hk),
    hplaces.acksOwed.trans hb.acksOwed, hplaces.outbound.trans hb.outbound⟩

/-- **What a value does to the stage.** -/
theorem Tidy.shifts_dispatch {c : Connection κ α} (h : c.Tidy) (v : Value) :
    Shifts c (c.dispatch v).1 := by
  by_cases hc : c.isOpen
  · cases hp : c.pushed? v with
    | some push =>
      rw [dispatch_pushed hp]
      exact shifts_deliver h.sound hc push
    | none =>
      rw [dispatch_reply hp]
      exact shifts_answer hc v
  · rw [(h.bare hc).dispatch]
    exact .refl c

/-- A value keeps the tables sound. -/
theorem sound_dispatch {c : Connection κ α} (hs : c.registry.Sound c.nextHandle) (v : Value) :
    (c.dispatch v).1.registry.Sound (c.dispatch v).1.nextHandle := by
  cases hp : c.pushed? v with
  | some push =>
    rw [dispatch_pushed hp]
    exact (deliver_moves hs push).sound hs
  | none =>
    obtain ⟨hregistry, hnext⟩ := answer_registry c v
    rw [dispatch_reply hp, hregistry, hnext]
    split
    · exact hs.getD_remove? _
    · exact hs

/-- **A value leaves a tidy connection.** -/
theorem Tidy.dispatch {c : Connection κ α} (h : c.Tidy) (v : Value) : (c.dispatch v).1.Tidy := by
  refine ⟨sound_dispatch h.sound v, (h.shifts_dispatch v).mirrors h.mirrors, fun hn => ?_⟩
  rw [(dispatch_stage c v).1] at hn
  rw [(h.bare hn).dispatch]
  exact h.bare hn

theorem Tidy.dispatchAll {c : Connection κ α} (h : c.Tidy) (vs : List Value) :
    (c.dispatchAll vs).1.Tidy := by
  induction vs generalizing c with
  | nil => exact h
  | cons v vs ih => exact ih (h.dispatch v)

theorem Tidy.ends {c c' : Connection κ α} (h : c.Tidy) (hends : c.Ends c') : c'.Tidy := by
  obtain ⟨-, rfl⟩ | ⟨batches, rfl⟩ := hends
  · exact h
  · exact tidy_ended c batches

theorem Tidy.feed {c : Connection κ α} (h : c.Tidy) (input : Bytes) : (c.feed input).turn.1.Tidy := by
  by_cases hc : c.stage = .closed
  · rw [(feed_closed hc input).1]
    exact h
  · rw [(feed_eq hc input).1]
    have hread := (h.dispatchAll (c.decoder.values input)).reading (c.decoder.after input)
    cases c.decoder.fault? input with
    | none => exact hread
    | some cause => exact hread.ends (ends_fail _ _)

theorem Tidy.written {c : Connection κ α} (h : c.Tidy) (n : Nat) : (c.written n).Tidy := by
  refine ⟨h.sound, h.mirrors, fun hc => ?_⟩
  have hb := h.bare hc
  refine ⟨hb.pending, hb.registry, hb.acksOwed, ?_⟩
  rw [Connection.written, hb.outbound, List.drop_nil]

/-- **Every operation leaves a tidy connection.** -/
theorem Tidy.perform {c : Connection κ α} (h : c.Tidy) (op : Op κ α) : (c.perform op).1.Tidy := by
  by_cases ha : op.asks
  · exact h.ask ha
  · cases op with
    | feed input => exact h.feed input
    | written n => exact h.written n
    | fail failure => exact h.ends (ends_fail c failure)
    | close => exact h.ends (ends_close c)
    | _ => exact absurd rfl ha

theorem Tidy.run {c : Connection κ α} (h : c.Tidy) (ops : List (Op κ α)) : (c.run ops).1.Tidy := by
  induction ops generalizing c with
  | nil => exact h
  | cons op ops ih => exact ih (h.perform op)

/-- **What comes about is tidy**: after any operations, and between the values of a chunk. -/
theorem tidy_run (ops : List (Op κ α)) (vs : List Value) :
    ((run {} ops).1.dispatchAll vs : Turn κ α).1.Tidy := (tidy_new.run ops).dispatchAll vs

/-- **A connection is subscribed exactly while someone listens**, after any operations and between the
values of a chunk that is fed; at any other stage nobody is registered. -/
theorem run_subscribed_iff (ops : List (Op κ α)) (vs : List Value) :
    let c := ((run {} ops).1.dispatchAll vs).1
    (c.stage = .subscribed ↔ 0 < c.registry.size) ∧ (c.stage ≠ .subscribed → c.registry = .empty) := by
  intro c
  have h : c.Tidy := tidy_run ops vs
  refine ⟨h.mirrors.trans (Registry.size_pos_iff h.sound).symm, fun hc => ?_⟩
  exact Registry.eq_empty_of_isEmpty (h.mirrors.isEmpty hc)

/-! ## A closed connection -/

/-- A command is refused where the connection is closed. -/
theorem refusal?_of_closed {c : Connection κ α} (hc : c.stage = .closed) (command : Command) :
    c.refusal? command = some (c.notNow (Utf8.decode command.name)) := by
  rw [refusal?, hc]

theorem closedTo?_of_closed {c : Connection κ α} (hc : c.stage = .closed) (operation : String) :
    c.closedTo? operation = some (c.notNow operation) := if_neg (not_isOpen_of_closed hc)

theorem submitBatch_of_closed {c : Connection κ α} (hc : c.stage = .closed)
    (commands : List Command) (k : κ) : (c.submitBatch commands k).1 = c := by
  rw [submitBatch]
  cases commands with
  | nil =>
    simp only [List.isEmpty_nil, if_true, closedTo?_of_closed hc]
    rfl
  | cons command commands =>
    simp only [List.isEmpty_cons, Bool.false_eq_true, if_false, List.findSome?_cons,
      refusal?_of_closed hc]
    rfl

/-- **A closed connection is left as it is**, whatever is done to it; only its observer may change. -/
theorem Bare.perform {c : Connection κ α} (h : c.Bare) (hc : c.stage = .closed) {op : Op κ α}
    (hop : ∀ name, op ≠ .observe name) : (c.perform op).1 = c := by
  cases op with
  | beginConnect => rw [Connection.perform, beginConnect, if_neg (by simp [hc])]
  | connectSucceeded => rw [Connection.perform, connectSucceeded, if_neg (by simp [hc])]
  | connectFailed failure =>
    rw [Connection.perform, connectFailed]
    exact if_neg (by simp [hc])
  | observe name => exact absurd rfl (hop name)
  | submit command k =>
    rw [Connection.perform, submit, refusal?_of_closed hc]
    rfl
  | submitBatch commands k => exact submitBatch_of_closed hc commands k
  | register topic persistence listener k =>
    rw [Connection.perform, register, closedTo?_of_closed hc]
    rfl
  | unsubscribe hd k =>
    rw [Connection.perform, unsubscribe, closedTo?_of_closed hc]
    rfl
  | abandon hd =>
    rw [Connection.perform, abandon, h.registry]
    rfl
  | feed input => rw [Connection.perform, (feed_closed hc input).1]
  | written n =>
    have hout : c.outbound.drop n = c.outbound := by rw [h.outbound, List.drop_nil]
    rw [Connection.perform, Connection.written, hout]
  | fail failure => rw [Connection.perform, Connection.fail, if_pos hc]
  | close => rw [Connection.perform, Connection.close, if_pos hc]

/-- **Closed is the end**: a run leaves a closed connection as it is. -/
theorem Bare.run {c : Connection κ α} (h : c.Bare) (hc : c.stage = .closed) (ops : List (Op κ α)) :
    (c.run ops).1 = { c with observer := (c.run ops).1.observer } := by
  induction ops generalizing c with
  | nil => rfl
  | cons op ops ih =>
    rw [Connection.run]
    dsimp only
    by_cases hop : ∃ name, op = .observe name
    · obtain ⟨name, rfl⟩ := hop
      exact ih (c := { c with observer := name }) ⟨h.pending, h.registry, h.acksOwed, h.outbound⟩ hc
    · rw [h.perform hc (not_exists.mp hop)]
      exact ih h hc

/-! ## The life of a connection -/

/-- Values open and close nothing, and move no stage but an open one. -/
theorem Tidy.leads_dispatchAll {c : Connection κ α} (h : c.Tidy) (vs : List Value) :
    c.stage.Leads (c.dispatchAll vs).1.stage := by
  by_cases hc : c.isOpen
  · exact Lifecycle.leads_of_isOpen hc ((dispatchAll_stage c vs).1.trans hc)
  · rw [(h.bare hc).dispatchAll]
    exact .stays _

/-- **An operation leads along one arrow.** -/
theorem Tidy.leads {c : Connection κ α} (h : c.Tidy) (op : Op κ α) :
    c.stage.Leads (c.perform op).1.stage := by
  have hends {c' : Connection κ α} (he : c'.stage = .closed) : c.stage.Leads c'.stage :=
    he ▸ .ends c.stage
  by_cases ha : op.asks
  · exact (h.shifts ha).leads
  cases op with
  | feed input =>
    by_cases hc : c.stage = .closed
    · rw [Connection.perform, (feed_closed hc input).1]
      exact .stays _
    · rw [Connection.perform, (feed_eq hc input).1]
      cases c.decoder.fault? input with
      | none => exact h.leads_dispatchAll _
      | some cause => exact hends (ends_fail _ _).closed
  | written n => exact .stays _
  | fail failure => exact hends (ends_fail c failure).closed
  | close => exact hends (ends_close c).closed
  | _ => exact absurd rfl ha

/-- **The life of a connection**, as far as it has come. -/
structure Life (c : Connection κ α) : Prop where
  /-- What is done to it next leads along one arrow, … -/
  operation : ∀ op : Op κ α, c.stage.Leads (c.perform op).1.stage
  /-- … and so does the next value of a chunk that is fed. -/
  value : ∀ v, c.stage.Leads (c.dispatch v).1.stage
  /-- Nothing is left in it while it is not open, and no batch has replies due. -/
  bare : ¬ c.isOpen → c.Bare ∧ c.batches = []
  /-- Once it is closed, nothing that is done to it changes anything, … -/
  untouched : c.stage = .closed → ∀ op : Op κ α, (∀ name, op ≠ .observe name) → (c.perform op).1 = c
  /-- … and no run does, but for the name of the observer. -/
  final : c.stage = .closed → ∀ ops : List (Op κ α),
    (c.run ops).1 = { c with observer := (c.run ops).1.observer }

theorem Accounted.batches_eq_nil {c : Connection κ α} (h : c.Accounted) (hp : c.pending = []) :
    c.batches = [] := by
  obtain ⟨due, hd, -⟩ := h
  rw [hd.batches, hd.due_eq_nil hp]
  rfl

theorem accounted_run (ops : List (Op κ α)) (vs : List Value) :
    ((run {} ops).1.dispatchAll vs : Turn κ α).1.Accounted := by
  have hacc : (run ({} : Connection κ α) ops).1.Accounted := accounted_new.run ops
  by_cases hc : (run ({} : Connection κ α) ops).1.stage = .closed
  · rw [((tidy_new.run ops).bare (not_isOpen_of_closed hc)).dispatchAll]
    exact hacc
  · exact (hacc.dispatchAll hc vs).1

/-- **The life of every connection**, after any operations and between the values of a chunk. -/
theorem run_life (ops : List (Op κ α)) (vs : List Value) :
    Life ((run {} ops).1.dispatchAll vs : Turn κ α).1 := by
  have htidy := tidy_run (κ := κ) (α := α) ops vs
  refine ⟨htidy.leads, fun v => (htidy.shifts_dispatch v).leads, fun hc => ?_, fun hc op hop => ?_,
    fun hc ops => ?_⟩
  · exact ⟨htidy.bare hc, (accounted_run ops vs).batches_eq_nil (htidy.bare hc).pending⟩
  · exact (htidy.bare (not_isOpen_of_closed hc)).perform hc hop
  · exact (htidy.bare (not_isOpen_of_closed hc)).run hc ops

end Connection

end RespClient

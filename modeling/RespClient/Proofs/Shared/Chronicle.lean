import RespClient.Proofs.Shared.Callers

/-!
# Proofs/Shared/Chronicle — many callers, one wire

    happenings   call 1 · call 2 · request · giveUp 1 · request · write · arrive · read …
    trail        submit 1 · submit 2 · written · feed …
    wire         the commands of 1 · the commands of 2
    replies      the replies to 1 · the replies to 2   ──▸ nobody any more · caller 2

A chronicle is kept beside a client (`act`): what its connection was led through and what crossed its pipe.
No step looks at it.  Whatever happens, and in whatever order, the connection is the one that its trail
leads to, and the pipe has taken what the trail says was sent (`OnWire.run`); and what is on the trail,
with what is in the queue, is what callers asked for, in the order in which they did (`InChannel.run`).

With the journal of the connection this gives both results at once (`run_orderly`): the bytes on the wire
are the commands of the callers in their order, and each caller that gets a value gets that of its own
commands, whoever has given up before it.
-/

namespace RespClient

/-- **How a client begins.** -/
inductive Beginning
  | unconnected (config : Config) (network : Network) (growth : Growth)
  /-- Over a stream that is open already. -/
  | connected (transport : Transport) (config : Config) (network : Network) (growth : Growth)

/-- The room of a buffer that never has more than it was made for. -/
def leftOver (size : Nat) : List BufferDeed → Nat
  | [] | .reserved :: _ => size
  | .filled n :: deeds => leftOver size deeds - n

/-- A buffer that is never full, as far as it goes. -/
def Growth.plain : Growth := ⟨leftOver, leftOver⟩

/-- **A client and what became of it.** -/
structure Chronicle (α : Type) where
  client : SharedClient α
  /-- What its connection was led through, and what crossed its pipe. -/
  trail : Trail Caller α := {}
  /-- The bytes that its pipe had taken when the connection was opened. -/
  start : Bytes := []
  effects : List (Effect α) := []

variable {κ α : Type}

namespace Chronicle

/-- **A client at its beginning.** -/
def begin : Beginning → Chronicle α
  | .unconnected config network growth => { client := .new config network growth }
  | .connected transport config network growth =>
    { client := .ofTransport transport config network growth
      trail := ⟨[.beginConnect, .connectSucceeded], []⟩
      start := transport.taken }

/-- The trail of what happens. -/
def step (c : Chronicle α) (x : Happening α) : Trail Caller α :=
  ((c.client.deed? x).map SharedClient.Deed.trail).getD {}

/-- **Something happens.** -/
def act (c : Chronicle α) (x : Happening α) : Chronicle α where
  client := (c.client.happen x).1
  trail := c.trail.andThen (c.step x)
  start :=
    if c.client.task.connection.isOpen then c.start
    else (c.client.happen x).1.task.pipe.transport.taken
  effects := c.effects ++ (c.client.happen x).2

/-- What is no deed leaves no trail. -/
theorem trail_act_none {c : Chronicle α} {x : Happening α} (hd : c.client.deed? x = none) :
    (c.act x).trail = c.trail := by
  rw [act, step, hd]
  exact c.trail.andThen_nil

/-- **A deed leaves the task as its step does**, and its trail. -/
theorem act_deed {c : Chronicle α} {x : Happening α} {d : SharedClient.Deed α}
    (hd : c.client.deed? x = some d) :
    (c.act x).client.task = d.step.1 ∧ (c.act x).trail = c.trail.andThen d.trail := by
  obtain ⟨-, -, -, queue, -, hhappen⟩ := SharedClient.happen_deed hd
  refine ⟨?_, ?_⟩
  · rw [act, hhappen]
    exact (SharedClient.spread_keeps _ _).1
  · rw [act, step, hd]
    rfl

/-- **One thing happens after another.** -/
def run (c : Chronicle α) (xs : List (Happening α)) : Chronicle α := xs.foldl act c

/-- **A client that settles** goes one of the ways in which moves can follow one another. -/
theorem exists_settle (c : Chronicle α) :
    ∃ ms : List SharedClient.Move, (c.run (ms.map .move)).client = c.client.settle.1 ∧
      (c.run (ms.map .move)).effects = c.effects ++ c.client.settle.2 := by
  obtain ⟨client, trail, start, effects⟩ := c
  induction client using SharedClient.settle.induct generalizing trail start effects with
  | case1 client hnone =>
    have hsettle : client.settle = (client, []) := by
      rw [SharedClient.settle]
      split
      · rfl
      · rename_i hm
        cases hnone.symm.trans hm
    rw [hsettle]
    exact ⟨[], rfl, (List.append_nil _).symm⟩
  | case2 client m hm _ ih =>
    have hsettle : client.settle
        = ((client.make m).1.settle.1, (client.make m).2 ++ (client.make m).1.settle.2) := by
      rw [SharedClient.settle]
      split
      · rename_i hnone
        cases hnone.symm.trans hm
      · rename_i m' hm'
        cases hm.symm.trans hm'
        rfl
    have hhappen : client.happen (.move m) = client.make m :=
      if_pos (SharedClient.allows_of_next? hm)
    obtain ⟨ms, hclient, heffects⟩ := ih _ _ (effects ++ (client.make m).2)
    refine ⟨m :: ms, ?_⟩
    rw [hsettle, List.map_cons, run, List.foldl_cons, act, hhappen, ← run, hclient, heffects,
      List.append_assoc]
    exact ⟨rfl, rfl⟩

/-- **The journal of the connection.** -/
def journal (c : Chronicle α) : Journal Caller α := Journal.run {} c.trail.ops

/-! ## The wire -/

/-- **The chronicle tells of connection and pipe** as they are. -/
structure OnWire (c : Chronicle α) : Prop where
  atWork : c.client.task.running → c.client.task.AtWork ∧ c.journal.now = c.client.task.connection
  lost : c.client.task.running = false → ¬ c.client.task.connection.isOpen
  tape : c.journal.tape = c.trail.tape
  /-- Before the connection is open nothing crosses the pipe. -/
  fresh : c.client.task.running → c.client.task.connection.stage = .unconnected → c.trail.tape = []
  taken : c.client.task.connection.isOpen →
    c.client.task.pipe.transport.taken = c.start ++ sent c.trail.tape

theorem onWire_begin (b : Beginning) : (begin b : Chronicle α).OnWire := by
  cases b with
  | unconnected config network =>
    exact ⟨fun _ => ⟨⟨rfl, rfl, nofun, Connection.tidy_new, rfl⟩, rfl⟩, nofun, rfl, fun _ _ => rfl, nofun⟩
  | connected transport config network =>
    have htidy := (Connection.tidy_new.perform (.beginConnect : Op Caller α)).perform .connectSucceeded
    exact ⟨fun _ => ⟨⟨rfl, rfl, nofun, htidy, rfl⟩, rfl⟩, nofun, rfl, nofun,
      fun _ => (List.append_nil _).symm⟩

/-- Where no connection is open nothing crosses the pipe. -/
theorem tape_of_idle {c : SharedClient α} {d : SharedClient.Deed α} (h : d.Of c)
    (hw : c.task.AtWork) (hc : ¬ c.task.connection.isOpen) : d.trail.tape = [] := by
  have hnot : c.task.attached = false := hw.attached.trans (Bool.eq_false_iff.mpr hc)
  cases h with
  | read hr =>
    rw [Task.canRead, hnot] at hr
    cases hr
  | write hr =>
    rw [Task.canWrite, hnot] at hr
    cases hr
  | request _ => rfl
  | stop => rfl

namespace OnWire

variable {c : Chronicle α}

/-- While the connection is open the task runs. -/
theorem running (h : c.OnWire) (ho : c.client.task.connection.isOpen) : c.client.task.running := by
  cases hr : c.client.task.running with
  | true => rfl
  | false => exact absurd ho (h.lost hr)

/-- The task is left alone. -/
theorem rests (h : c.OnWire) {x : Happening α} (hd : c.client.deed? x = none) : (c.act x).OnWire := by
  have hrests := (SharedClient.happen_idles hd).task
  have htrail := trail_act_none hd
  have hjournal : (c.act x).journal = c.journal := by rw [journal, htrail, ← journal]
  refine ⟨fun hr => ?_, fun hr => ?_, ?_, fun hr hs => ?_, fun ho => ?_⟩
  · obtain ⟨hw, hnow⟩ := h.atWork (hrests.running ▸ hr)
    exact ⟨hrests.atWork hw, hjournal ▸ hnow.trans hrests.connection.symm⟩
  · rw [act, hrests.connection]
    exact h.lost (hrests.running ▸ hr)
  · rw [hjournal, htrail]
    exact h.tape
  · rw [htrail]
    exact h.fresh (hrests.running ▸ hr) (hrests.connection ▸ hs)
  · have hopen : c.client.task.connection.isOpen := by
      rw [act, hrests.connection] at ho
      exact ho
    rw [htrail, act, if_pos hopen, hrests.taken]
    exact h.taken hopen

/-- **The task does something.** -/
theorem deed (h : c.OnWire) {x : Happening α} {d : SharedClient.Deed α}
    (hd : c.client.deed? x = some d) : (c.act x).OnWire := by
  obtain ⟨-, hrunning, hof, -⟩ := SharedClient.happen_deed hd
  obtain ⟨hw, hnow⟩ := h.atWork hrunning
  have hleads := hof.leads hw
  obtain ⟨htask, htrail⟩ := act_deed hd
  have hjournal : (c.act x).journal = c.journal.run d.trail.ops := by
    rw [journal, htrail]
    exact Journal.run_append {} c.trail.ops d.trail.ops
  -- what was not open before has carried nothing, and carries nothing now
  have hsilent (hc : ¬ c.client.task.connection.isOpen)
      (hn : d.step.1.running ∧ d.step.1.connection.stage ≠ .closed) : (c.act x).trail.tape = [] := by
    have hstage : c.client.task.connection.stage = .unconnected := by
      cases hs : c.client.task.connection.stage with
      | unconnected => rfl
      | connecting => exact absurd hs hw.settled
      | closed =>
        have hclosed := Journal.closed_run (hnow ▸ hs : c.journal.now.stage = .closed) d.trail.ops
        rw [Journal.now_run, hnow, (hleads.goesOn hn.1).2] at hclosed
        exact absurd hclosed hn.2
      | _ =>
        rw [Connection.isOpen, hs] at hc
        exact absurd rfl hc
    rw [htrail, Trail.andThen, h.fresh hrunning hstage, tape_of_idle hof hw hc]
    rfl
  refine ⟨fun hr => ?_, fun hr => ?_, ?_, fun hr hs => ?_, fun ho => ?_⟩
  · rw [htask] at hr ⊢
    obtain ⟨hwork, hrun⟩ := hleads.goesOn hr
    rw [hjournal, Journal.now_run, hnow, hrun]
    exact ⟨hwork, rfl⟩
  · rw [htask] at hr ⊢
    exact hleads.lost hr
  · rw [hjournal, Journal.tape_run, hnow, hleads.tape, h.tape, htrail]
    rfl
  · rw [htask] at hr hs
    refine hsilent (fun hc => ?_) ⟨hr, fun hclosed => by cases hs.symm.trans hclosed⟩
    have hbegun := hw.tidy.begun_run (.inl hc) d.trail.ops
    rw [(hleads.goesOn hr).2, Connection.isOpen, hs] at hbegun
    obtain hopen | hclosed := hbegun
    · cases hopen
    · cases hclosed
  · have htaken : (c.act x).start = if c.client.task.connection.isOpen then c.start
        else (c.act x).client.task.pipe.transport.taken := rfl
    rw [htask] at ho htaken ⊢
    rw [htaken]
    split
    · rename_i hc
      rw [hleads.taken hc ho, h.taken hc, htrail, Trail.andThen, sent_append, List.append_assoc]
    · rename_i hc
      have hr : d.step.1.running = true := by
        cases hr : d.step.1.running with
        | true => rfl
        | false => exact absurd ho (hleads.lost hr)
      rw [hsilent hc ⟨hr, fun hclosed => Connection.not_isOpen_of_closed hclosed ho⟩]
      exact (List.append_nil _).symm

theorem act (h : c.OnWire) (x : Happening α) : (c.act x).OnWire := by
  cases hd : c.client.deed? x with
  | none => exact h.rests hd
  | some d => exact h.deed hd

/-- **The chronicle tells of connection and pipe**, whatever happens. -/
theorem run (h : c.OnWire) (xs : List (Happening α)) : (c.run xs).OnWire := by
  induction xs generalizing c with
  | nil => exact h
  | cons x xs ih => exact ih (h.act x)

end OnWire

/-! ## The channel -/

/-- **What callers asked for is on the trail or in the queue**, after all that has happened. -/
structure InChannel (c : Chronicle α) (xs : List (Happening α)) : Prop where
  /-- The callers' commands are there in the order in which they were asked for. -/
  owned : c.client.task.running →
    c.trail.ops.filterMap Op.owned? ++ c.client.queue.filterMap Request.owned?
      = xs.filterMap Happening.owned?
  requests : ∀ r ∈ c.client.queue, r.Stems xs
  ops : ∀ op ∈ c.trail.ops, op.Stems xs
  /-- A caller that got a value got it from the connection. -/
  told : ∀ id v, .ended id (.ok (.value v)) ∈ c.effects →
    .replied (.call id) (.ok v) ∈ (Connection.run {} c.trail.ops).2

theorem inChannel_begin (b : Beginning) : (begin b : Chronicle α).InChannel [] := by
  cases b with
  | unconnected config network => exact ⟨fun _ => rfl, nofun, nofun, nofun⟩
  | connected transport config network =>
    exact ⟨fun _ => rfl, nofun,
      List.forall_mem_cons.mpr ⟨trivial, List.forall_mem_singleton.mpr trivial⟩, nofun⟩

namespace InChannel

variable {c : Chronicle α} {xs : List (Happening α)}

/-- The trail of what happens is for the request that is taken. -/
theorem owned_step (c : Chronicle α) (x : Happening α) :
    (c.step x).ops.filterMap Op.owned?
      = ((c.client.deed? x).bind SharedClient.Deed.taken).toList.filterMap Request.owned? := by
  rw [step]
  cases hd : c.client.deed? x with
  | none => rfl
  | some d =>
    obtain ⟨-, -, hof, -⟩ := SharedClient.happen_deed hd
    exact hof.owned

theorem act (h : c.InChannel xs) (hw : c.OnWire) (x : Happening α) :
    (c.act x).InChannel (xs ++ [x]) := by
  obtain ⟨added, hqueue, hjoins⟩ := c.client.queue_happen x
  have hrequests : ∀ r ∈ c.client.queue ++ added, r.Stems (xs ++ [x]) :=
    List.forall_mem_append.mpr
      ⟨fun r hr => (h.requests r hr).mono (List.subset_append_left _ _),
        fun r hr => (hjoins.stems r hr).mono (List.subset_append_right _ _)⟩
  refine ⟨fun hr => ?_, fun r hr => ?_, ?_, fun id v hv => ?_⟩
  · have hrunning : c.client.task.running := by
      cases hd : c.client.deed? x with
      | none => exact (SharedClient.happen_idles hd).task.running ▸ hr
      | some d => exact (SharedClient.happen_deed hd).2.1
    have hq := congrArg (List.filterMap Request.owned?) hqueue
    rw [List.filterMap_append, List.filterMap_append, ← owned_step, hjoins.owned hrunning] at hq
    calc (c.act x).trail.ops.filterMap Op.owned? ++ (c.act x).client.queue.filterMap Request.owned?
        = c.trail.ops.filterMap Op.owned? ++ ((c.step x).ops.filterMap Op.owned?
            ++ (c.client.happen x).1.queue.filterMap Request.owned?) := by
          rw [Chronicle.act, Trail.andThen, List.filterMap_append, List.append_assoc]
      _ = xs.filterMap Happening.owned? ++ x.owned?.toList := by
          rw [hq, ← List.append_assoc, h.owned hrunning]
      _ = (xs ++ [x]).filterMap Happening.owned? := by
          rw [List.filterMap_append, List.filterMap_eq_flatMap_toList _ [x], List.flatMap_singleton]
  · exact hrequests r (hqueue ▸ List.mem_append_right _ hr)
  · refine List.forall_mem_append.mpr
      ⟨fun op hop => (h.ops op hop).mono (List.subset_append_left _ _), ?_⟩
    rw [step]
    cases hd : c.client.deed? x with
    | none => exact List.forall_mem_nil _
    | some d =>
      obtain ⟨-, -, hof, -⟩ := SharedClient.happen_deed hd
      exact hof.stems fun r hr => hrequests r (List.mem_append_left _ hr)
  · have hrun : (Connection.run {} (c.act x).trail.ops).2 = (Connection.run {} c.trail.ops).2
        ++ (c.journal.now.run (c.step x).ops).2 := by
      rw [Chronicle.act, Trail.andThen, Connection.run_append, journal, Journal.now_run]
    rw [hrun]
    obtain hold | hnew := List.mem_append.mp hv
    · exact List.mem_append_left _ (h.told id v hold)
    · obtain ⟨d, hd, hmem⟩ := SharedClient.ended_happen hnew
      obtain ⟨-, hrunning, hof, -⟩ := SharedClient.happen_deed hd
      obtain ⟨hwork, hnow⟩ := hw.atWork hrunning
      refine List.mem_append_right _ ?_
      rw [step, hd, hnow]
      exact (hof.leads hwork).told.subset hmem

/-- **What callers asked for is on the trail or in the queue**, whatever happens. -/
theorem run (h : c.InChannel xs) (hw : c.OnWire) (ys : List (Happening α)) :
    (c.run ys).InChannel (xs ++ ys) := by
  induction ys generalizing c xs with
  | nil => exact (List.append_nil xs).symm ▸ h
  | cons y ys ih =>
    rw [List.append_cons]
    exact ih (h.act hw y) (hw.act y)

end InChannel

end Chronicle

/-! ## To each caller its own -/

/-- **A caller gets its own**: its commands were ordered for it, and the value is the outcome of the
replies at their places. -/
def DataCall.Served (d : DataCall) (k : κ) (orders : List (Order κ)) (replies : List Value)
    (v : Value) : Prop :=
  ∃ before o after own, orders = before ++ o :: after ∧ o.owned? = some (k, d.commands) ∧
    own <+: replies.drop (before.flatMap Order.commands).length ∧
    own.length = d.commands.length ∧ v = d.outcome own

/-- What a handler has earned by the order of a call is the call's own. -/
theorem Earned.served {orders : List (Order κ)} {replies : List Value} {k : κ} {v : Value}
    (h : Earned orders replies k v) {d : DataCall}
    (hd : ∀ o ∈ orders, o.handler? = some k → o.commands = d.commands ∧ o.outcome = d.outcome) :
    d.Served k orders replies v := by
  obtain ⟨before, o, after, past, own, rest, rfl, hk, rfl, hpast, hown, rfl⟩ := h
  obtain ⟨hcommands, houtcome⟩ := hd o (List.mem_append_right _ List.mem_cons_self) hk
  refine ⟨before, o, after, own, rfl, ?_, ?_, hcommands ▸ hown, houtcome ▸ rfl⟩
  · rw [Order.owned?, hk, hcommands]
    rfl
  · rw [← hpast, List.append_assoc, List.drop_left]
    exact List.prefix_append own rest

namespace Chronicle

variable {c : Chronicle α} {xs : List (Happening α)} {data : DataCall} {id : Nat}

/-- **The orders of a call** are for its commands, where nobody registers a listener and calls have
numbers of their own. -/
theorem InChannel.order (h : c.InChannel xs) (hp : ∀ x ∈ xs, x.registers = false)
    (hn : (xs.filterMap Happening.id?).Nodup) (hx : .call data id ∈ xs) {o : Order Caller}
    (ho : o ∈ c.journal.orders) (hk : o.handler? = some (.call id)) :
    o.commands = data.commands ∧ o.outcome = data.outcome := by
  have hsame {y : Happening α} (hy : y ∈ xs) (hid : y.id? = some id) : y = .call data id :=
    Happening.eq_of_id? hn hy hx hid rfl
  obtain hnone | ⟨op, hop, c', hc'⟩ := Journal.exists_order? ho (by rw [hk]; rfl)
  · cases hnone
  · have hstems := h.ops op hop
    cases op with
    | submit command k =>
      rw [Connection.order?] at hc'
      split at hc' <;> cases hc'
      cases hk
      cases hsame hstems rfl
      exact ⟨rfl, rfl⟩
    | submitBatch commands k =>
      rw [Connection.order?] at hc'
      split at hc' <;> cases hc'
      cases hk
      cases hsame hstems rfl
      exact ⟨rfl, rfl⟩
    | register topic persistence listener k =>
      obtain ⟨id', hid⟩ := hstems
      cases hp _ hid
    | unsubscribe hd k =>
      rw [Connection.order?] at hc'
      split at hc' <;> cases hc'
      cases hk
      cases hsame hstems rfl
    | abandon hd =>
      rw [Connection.order?] at hc'
      split at hc' <;> cases hc'
      cases hk
    | _ => cases hc'

/-- **A caller that gets a value gets its own.** -/
theorem InChannel.served (h : c.InChannel xs) (hw : c.OnWire)
    (hp : ∀ x ∈ xs, x.registers = false) (hn : (xs.filterMap Happening.id?).Nodup)
    {served : List (Bytes × Value)} (hs : Serves served c.trail.tape) (hx : .call data id ∈ xs)
    {v : Value} (hv : .ended id (.ok (.value v)) ∈ c.effects) :
    data.commands = [] ∧ v = data.outcome [] ∨
      data.Served (.call id) c.journal.orders (served.map Prod.snd) v := by
  have hplain : ∀ op ∈ c.trail.ops, op.isPlain := fun op hop => (h.ops op hop).isPlain hp
  have hfares : Fares (served.map Prod.snd) c.trail.ops := Fares.run hplain (hw.tape.symm ▸ hs)
  obtain hearned | ⟨hbatch, rfl⟩ | ⟨hd, hunsub, -⟩ := hfares.fair _ (h.told id v hv)
  · exact .inr (hearned.served fun o => h.order hp hn hx)
  · cases Happening.eq_of_id? hn (h.ops _ hbatch) hx rfl rfl
    exact .inl ⟨rfl, rfl⟩
  · cases Happening.eq_of_id? hn (h.ops _ hunsub) hx rfl rfl

/-- The results that callers got, in order. -/
def results (c : Chronicle α) : List (Nat × Except Failure Answer) :=
  c.effects.filterMap fun
    | .ended id result => some (id, result)
    | .noticed _ => none

theorem mem_results {c : Chronicle α} {id : Nat} {result : Except Failure Answer} :
    (id, result) ∈ c.results ↔ .ended id result ∈ c.effects := by
  rw [results, List.mem_filterMap]
  constructor
  · rintro ⟨e, he, heq⟩
    cases e with
    | ended id' result' => cases heq; exact he
    | noticed notice => cases heq
  · exact fun he => ⟨_, he, rfl⟩

def get (key : UInt8) : Command := ⟨Utf8.encode "GET", [[key]]⟩

/-- The replies to the first three commands. -/
def served : List (Bytes × Value) :=
  [(Utf8.encode "+ok\r\n", .bytes (Utf8.encode "ok")), (Utf8.encode ":1\r\n", .integer 1),
    (Utf8.encode ":2\r\n", .integer 2)]

end Chronicle

end RespClient

import RespClient.Proofs.Blocking.Overdue
import RespClient.Proofs.Session.Subscribing

/-!
# Proofs/Blocking/Subscribing — a subscription that fails leaves nothing behind

    register ── … ──▸ ack          ──▸  the handle
    register ── … ──▸ error        ──▸  the refusal took the registration
    register ── … ──▸ ✕ ──abandon──▸    the call takes it back

A call that subscribes asks for one registration and brings nothing else (`subscribe_ops`), so all that is
known of a subscription in a run of others holds of it (`Ledger.Attends`).  However it fails, no registration
is there that was not before (`subscribes_of_isOpen`).
-/

namespace RespClient.BlockingClient

variable {α : Type} {c : BlockingClient α}

/-- The ledger of a call that subscribes, opened when it begins. -/
def subscriptionLedger (c : BlockingClient α) (topic : Topic) (persistence : Persistence) (listener : α) :
    Ledger Nat α :=
  (Ledger.opened c.connection).run (c.invocationTrail (.subscribe topic persistence listener)).ops

/-- **What comes of a call that subscribes.** -/
structure Subscribes (c : BlockingClient α) (topic : Topic) (persistence : Persistence) (listener : α)
    (done : Done α Handle) (l : Ledger Nat α) : Prop where
  /-- The ledger is that of the call, … -/
  now : l.now = done.2.1.connection
  /-- … and what it accepted was written or is outbound, in this order. -/
  bytes : done.2.1.connection.isOpen →
    c.connection.outbound ++ l.commands.flatMap Command.encode = l.drained ++ l.now.outbound
  /-- A call that fails has made no registration that is still there. -/
  gone : ∀ failure, done.1 = .error failure →
    ∀ h, done.2.1.connection.registry.Lives h → c.connection.registry.Lives h
  /-- If it failed in time, the connection is open and nobody listens to the topic, the server was told
  that the subscription ends, unless one was refused. -/
  told : ∀ deadline, done.1 = .error (.timeout deadline) → done.2.1.connection.isOpen →
    ¬ done.2.1.connection.registry.contains topic → ¬ l.Refused topic →
      ∃ h, h.topic = topic ∧ l.Told h c.nextCall
  /-- A call that returns a handle got it from an answer to its own command that is no error. -/
  accepted : ∀ h, done.1 = .ok h → h.topic = topic ∧ .asking h c.nextCall ∈ l.accepted ∧
    ∃ v, ((Accepted.asking h c.nextCall).entry, v) ∈ l.answered ∧ v.isError = false

/-! ## On an open connection -/

/-- **A call that subscribes asks for a registration** and brings nothing else. -/
theorem subscribe_ops (ho : c.connection.isOpen) (topic : Topic) (persistence : Persistence)
    (listener : α) : ∃ ops, (c.invocationTrail (.subscribe topic persistence listener)).ops
      = .register topic persistence listener c.nextCall :: ops ∧ ∀ op ∈ ops, op.handler? = none := by
  have hquiet : ∀ op ∈ (waitTrail { c with
      connection := (c.connection.perform (.register topic persistence listener c.nextCall)).1,
      nextCall := c.nextCall + 1 } c.nextCall (resultOf c.nextCall
        (c.connection.perform (.register topic persistence listener c.nextCall)).2)).ops,
      op.handler? = none :=
    fun op hop => Op.handler?_of_isPassive (passive_waitTrail _ _ _ op hop)
  rw [trail_subscribe ho]
  dsimp only
  split
  · exact ⟨_, rfl, hquiet⟩
  · exact ⟨_, rfl, List.forall_mem_append.mpr ⟨hquiet, List.forall_mem_singleton.mpr rfl⟩⟩

theorem Standing.attends (h : c.Standing) (ho : c.connection.isOpen) (topic : Topic)
    (persistence : Persistence) (listener : α) :
    (c.subscriptionLedger topic persistence listener).Attends ⟨c.connection.nextHandle, topic⟩ c.nextCall
      (c.subscribe topic persistence listener).2.2 := by
  obtain ⟨ops, hops, hquiet⟩ := subscribe_ops ho topic persistence listener
  have hrun := (subscribe_leads (h.underway_of_isOpen ho) topic persistence listener).run
  have hfresh : c.nextCall ∉ c.connection.waiting := fun hk => Nat.lt_irrefl _ (h.numbers _ hk)
  have hasked := Ledger.attends_register (Ledger.opened c.connection) [] h.tidy
    h.accounted ho hfresh nofun List.not_mem_nil topic persistence listener
  have hall := hasked.run ops fun op hop => by
    rw [hquiet op hop]
    nofun
  rw [hops] at hrun
  rw [subscriptionLedger, hops, ← congrArg Prod.snd hrun, Connection.run]
  rw [Ledger.now_act, List.nil_append] at hall
  exact hall

/-- **A registration that is there after the call** was there before it, or is the call's own. -/
theorem Standing.lives_subscribe (h : c.Standing) (ho : c.connection.isOpen) {topic : Topic}
    {persistence : Persistence} {listener : α} {h' : Handle}
    (hl : (c.subscribe topic persistence listener).2.1.connection.registry.Lives h') :
    c.connection.registry.Lives h' ∨ h' = ⟨c.connection.nextHandle, topic⟩ := by
  obtain ⟨ops, hops, hquiet⟩ := subscribe_ops ho topic persistence listener
  have hrun := (subscribe_leads (h.underway_of_isOpen ho) topic persistence listener).run
  rw [hops] at hrun
  have hend : (c.connection.run (.register topic persistence listener c.nextCall :: ops)).1
      = (c.subscribe topic persistence listener).2.1.connection := congrArg Prod.fst hrun
  rw [← hend] at hl
  have hasked := (h.tidy.perform _).lives_run hquiet hl
  rw [(Connection.register_registry ho topic persistence listener c.nextCall).1] at hasked
  exact (Registry.lives_insert _ _ _ _ _).mp hasked

theorem now_subscriptionLedger (h : c.Underway) (topic : Topic) (persistence : Persistence)
    (listener : α) : (c.subscriptionLedger topic persistence listener).now
      = (c.subscribe topic persistence listener).2.1.connection :=
  (Ledger.now_run _ _).trans (congrArg Prod.fst (subscribe_leads h topic persistence listener).run)

/-- **A call that subscribes** returns what its answer says, or it fails and takes its registration
back. -/
theorem Standing.subscribe_cases (h : c.Standing) (ho : c.connection.isOpen) (topic : Topic)
    (persistence : Persistence) (listener : α) :
    let own : Handle := ⟨c.connection.nextHandle, topic⟩
    let done := c.subscribe topic persistence listener
    (∃ ack, .replied c.nextCall (.ok ack) ∈ done.2.2 ∧ done.1 = Connection.outcome own ack) ∨
      ∃ failure d, done.1 = .error failure ∧ Connection.Tidy d ∧
        done.2.1.connection = d.abandon own := by
  have hunder := h.underway_of_isOpen ho
  have hasked := await_leads hunder (.register topic persistence listener c.nextCall) rfl
  dsimp only
  rw [subscribe_eq ho]
  dsimp only
  cases hr : (c.await (c.connection.perform
      (.register topic persistence listener c.nextCall))).1 with
  | ok ack =>
    exact .inl ⟨ack, mem_of_await hunder (by rfl) hr,
      rfl⟩
  | error failure =>
    have htidy := h.tidy.run (c.awaitTrail (.register topic persistence listener c.nextCall)).ops
    rw [hasked.run] at htidy
    exact .inr ⟨failure, _, rfl, htidy, rfl⟩

theorem Standing.subscribes_of_isOpen (h : c.Standing) (ho : c.connection.isOpen) (topic : Topic)
    (persistence : Persistence) (listener : α) :
    c.Subscribes topic persistence listener (c.subscribe topic persistence listener)
      (c.subscriptionLedger topic persistence listener) := by
  have hnow := now_subscriptionLedger (h.underway_of_isOpen ho) topic persistence listener
  have hattends := h.attends ho topic persistence listener
  have hcases := h.subscribe_cases ho topic persistence listener
  refine ⟨hnow, fun hopen => ?_, fun failure hf h' hl => ?_, fun deadline _ hopen hnone hrefused => ?_,
    fun h' hok => ?_⟩
  · obtain ⟨before, hbefore⟩ := h.came
    have hbase := (Ledger.now_run ({} : Ledger Nat α) before).trans hbefore
    have hbytes := (Ledger.exact_new.run before).stretch
      (c.invocationTrail (.subscribe topic persistence listener)).ops ?_
    · rw [hbase] at hbytes
      exact hbytes.2
    · rw [hbase]
      exact fun hclosed => Connection.not_isOpen_of_closed (hnow ▸ hclosed) hopen
  · refine (h.lives_subscribe ho hl).resolve_right ?_
    rintro rfl
    obtain ⟨ack, hmem, hresult⟩ | ⟨late, d, -, htidy, hgiven⟩ := hcases
    · obtain ⟨hack, -⟩ | ⟨reply, -, herror⟩ := Connection.outcome_cases ⟨c.connection.nextHandle, topic⟩ ack
      · cases hf.symm.trans (hresult.trans hack)
      · exact (hattends.answered ack hmem).2 herror (hnow ▸ hl)
    · rw [hgiven, (Connection.abandon_registry _ _).1] at hl
      exact ((lives_getD htidy.sound _).mp hl).2 rfl
  · rw [← hnow] at hopen hnone
    exact ⟨_, rfl, hattends.told (fun hc => Connection.not_isOpen_of_closed hc hopen) hnone hrefused⟩
  · obtain ⟨ack, hmem, hresult⟩ | ⟨late, d, hlate, -⟩ := hcases
    · obtain ⟨hack, hgood⟩ | ⟨reply, hack, -⟩ := Connection.outcome_cases ⟨c.connection.nextHandle, topic⟩ ack
      · obtain rfl := Except.ok.inj (hok.symm.trans (hresult.trans hack))
        exact ⟨rfl, hattends.mem_accepted, ack, (hattends.answered ack hmem).1, hgood⟩
      · cases hok.symm.trans (hresult.trans hack)
    · cases hok.symm.trans hlate

/-! ## On any connection -/

/-- **What comes of a call that subscribes**, whatever was called before. -/
theorem Standing.subscribes (h : c.Standing) (topic : Topic) (persistence : Persistence) (listener : α) :
    c.Subscribes topic persistence listener (c.subscribe topic persistence listener)
      (c.subscriptionLedger topic persistence listener) := by
  by_cases ho : c.connection.isOpen
  · exact h.subscribes_of_isOpen ho topic persistence listener
  · -- the registration is refused, and nothing has changed
    obtain ⟨hresult, hclient⟩ := subscribe_denied ho topic persistence listener
    have hconnection : (c.subscribe topic persistence listener).2.1.connection = c.connection := by
      rw [hclient]
    have hregister : c.connection.register topic persistence listener (.handler c.nextCall)
        = (.error (c.connection.notNow topic.kind.subscribe), c.connection.refuse (.handler c.nextCall)
          (c.connection.notNow topic.kind.subscribe)) := by
      rw [Connection.register, Connection.closedTo?, if_neg ho]
    refine ⟨?_, fun hopen => ?_, fun failure _ h' hl => ?_, fun deadline hlate => ?_, fun h' hok => ?_⟩
    · rw [hconnection, subscriptionLedger, Ledger.now_run, invocationTrail, hregister]
      exact congrArg (fun asked => asked.2.1) hregister
    · exact absurd (hconnection ▸ hopen) ho
    · rwa [hconnection] at hl
    · cases hresult.symm.trans hlate
    · cases hresult.symm.trans hok

end RespClient.BlockingClient

import RespClient.Proofs.Blocking.Pace

/-!
# Proofs/Blocking/Integrity — nothing is lost, repeated or moved on the stream

    taken by the transport ++ outbound   =   the commands' bytes, in the order they were accepted
    values routed                        =   what the bytes the transport gave spell, in one piece

Whatever is called, and however the transport behaves, both hold as long as the connection is open
(`Intact`): at the end of a script, and at every step on the way to it.  What it took and gave is the
transport's own account, and a client does nothing to it but read, write and close it, so no bytes that
wait to be read are thrown away.  And between transports that are calm alike a script cannot tell the
difference (`script_intact`).
-/

namespace RespClient

/-- **Feeding is dispatching what the bytes hold**, where the connection stays open. -/
theorem Connection.feed_routes {κ α : Type} {c : Connection κ α} {input : Bytes}
    (h : (c.perform (.feed input)).1.isOpen) :
    c.perform (.feed input)
      = ((c.dispatchAll (c.routes (.feed input))).1.reading (c.decoder.after input),
        (c.dispatchAll (c.routes (.feed input))).2) := by
  have hopen : c.stage ≠ .closed := fun hc => not_isOpen_of_closed (perform_closed hc _) h
  have hturn := feed_dispatched hopen input
  rw [perform] at h ⊢
  rw [routes, if_neg hopen]
  cases hf : c.decoder.fault? input with
  | none => rwa [hf, dispatched_none] at hturn
  | some cause =>
    rw [hf] at hturn
    rw [hturn] at h
    exact absurd h (not_isOpen_of_closed (ends_fail _ _).closed)

namespace BlockingClient

variable {α : Type}

/-- **The stream is unbroken** at a point of a connection's history. -/
structure Unbroken (j : Journal Nat α) : Prop where
  /-- What was sent and what is outbound are the commands that were accepted. -/
  sent : sent j.tape ++ j.now.outbound = j.commands.flatMap Command.encode
  /-- What was routed is what was received. -/
  routed : j.routed = Decoder.empty.values (received j.tape)

/-- **The stream of a client is intact**: `ops` is what was done to its connection since it was connected
over `start`, and `crossed` what crossed the transport. -/
structure Intact (start : Transport) (ops : List (Op Nat α)) (crossed : List Transfer)
    (client : BlockingClient α) (log : Log α) : Prop where
  /-- The client and its log are what came of the operations. -/
  run : Connection.run {} ops = (client.connection, log)
  /-- The transport was read, written and closed, and this is what crossed it. -/
  crosses : start.Crosses client.config.readBufferSize.toNat crossed client.transport
  /-- What the operations wrote and fed is what crossed the transport. -/
  tape : (Journal.run ({} : Journal Nat α) ops).tape = crossed
  taken : client.transport.taken = start.taken ++ sent crossed
  given : client.transport.given = start.given ++ received crossed
  /-- The bytes accepted and the outbound ones are the commands accepted, one after another. -/
  outbound : client.connection.isOpen →
    client.transport.taken ++ client.connection.outbound
      = start.taken ++ (Journal.run ({} : Journal Nat α) ops).commands.flatMap Command.encode
  /-- The values routed are those that all bytes given spell. -/
  routed : client.connection.isOpen →
    (Journal.run ({} : Journal Nat α) ops).routed = Decoder.empty.values (received crossed)
  /-- Both hold at every step on the way, in the middle of a call too. -/
  throughout : ∀ before, before <+: ops → (Journal.run ({} : Journal Nat α) before).now.isOpen →
    Unbroken (Journal.run ({} : Journal Nat α) before)
  /-- Values are routed by being dispatched, in order. -/
  dispatched : ∀ before input, before ++ [.feed input] <+: ops →
    let c := (Journal.run ({} : Journal Nat α) before).now
    (c.perform (.feed input)).1.isOpen → c.perform (.feed input)
      = ((c.dispatchAll (c.routes (.feed input))).1.reading (c.decoder.after input),
        (c.dispatchAll (c.routes (.feed input))).2)

theorem unbroken_run {ops : List (Op Nat α)} (h : (Journal.run ({} : Journal Nat α) ops).now.isOpen) :
    Unbroken (Journal.run ({} : Journal Nat α) ops) := by
  have hopen : (Journal.run ({} : Journal Nat α) ops).now.stage ≠ .closed := fun hc =>
    Connection.not_isOpen_of_closed hc h
  exact ⟨Journal.sent_run hopen, (Journal.routed_run hopen).values⟩

/-- **Every script leaves the stream intact.** -/
theorem intact_script (config : Config) (transport : Transport) (is : List (Invocation α)) :
    let done := (connected config transport : BlockingClient α).script is
    Intact transport (history config transport is) (done.2.1.transport.since transport) done.2.1
      done.2.2 := by
  have hrun := history_run (α := α) config transport is
  have htape := history_tape (α := α) config transport is
  have hnow : (Journal.run ({} : Journal Nat α) (history config transport is)).now
      = ((connected config transport).script is).2.1.connection := by
    rw [Journal.now_run, hrun]
  have hcrosses := script_crosses (α := α) config transport is
  dsimp only at hcrosses ⊢
  rw [hcrosses.since]
  refine ⟨hrun, hcrosses, htape, hcrosses.taken, hcrosses.given, fun ho => ?_, fun ho => ?_,
    fun before _ => unbroken_run, fun before input _ => Connection.feed_routes⟩
  · rw [← hnow] at ho ⊢
    rw [← (unbroken_run ho).sent, htape, ← List.append_assoc, hcrosses.taken]
  · rw [← hnow] at ho
    rw [(unbroken_run ho).routed, htape]

/-- **The stream of a client is kept intact**, and how it doles out bytes does not show: transports whose
writes do not fail, and which are calm alike, give the same results, the same events and the same client. -/
theorem script_intact (config : Config) (transport : Transport) (is : List (Invocation α)) :
    let done := (connected config transport : BlockingClient α).script is
    Intact transport (history config transport is) (done.2.1.transport.since transport) done.2.1
        done.2.2 ∧
      ∀ other : Transport, transport.Steady → other.Steady → transport.calm = other.calm →
        let done' := (connected config other : BlockingClient α).script is
        done'.1 = done.1 ∧ done'.2.2 = done.2.2 ∧ done'.2.1.calm = done.2.1.calm := by
  refine ⟨intact_script config transport is, fun other ht hu hcalm => ?_⟩
  have hpace : KeepsPace (connected config transport : BlockingClient α) (connected config other) :=
    ⟨other, rfl, hcalm, ht, hu⟩
  have hsame := hpace.script (connected_underway config transport) is
  exact ⟨hsame.result.symm, hsame.log.symm, hsame.client.calm.symm⟩

/-! ## A stream that doles out -/

/-- Every write is cut short or interrupted, and so is every read. -/
def doling : Transport where
  reads := [.fault ⟨.interrupted, none⟩, .data (Utf8.encode "+PO"), .fault ⟨.interrupted, none⟩,
    .data (Utf8.encode "NG\r\n")]
  writes := [.takes 1, .fault ⟨.interrupted, none⟩, .takes 3]

/-- The same stream at one go. -/
def flowing : Transport where
  reads := [.data (Utf8.encode "+PO"), .data (Utf8.encode "NG\r\n")]

theorem script_intact_doling :
    doling.Steady ∧ flowing.Steady ∧ doling.calm = flowing.calm ∧
      let is : List (Invocation Nat) := [.command ⟨Utf8.encode "PING", []⟩, .readMessages ⟨1⟩]
      let done := (connected {} doling).script is
      let done' := (connected {} flowing).script is
      Intact doling (history {} doling is) (done.2.1.transport.since doling) done.2.1 done.2.2 ∧
        done'.1 = done.1 ∧ done'.2.2 = done.2.2 ∧ done'.2.1.calm = done.2.1.calm := by
  have hdoling : doling.Steady := ⟨by decide, rfl, List.not_mem_nil⟩
  have hflowing : flowing.Steady := ⟨by decide, rfl, List.not_mem_nil⟩
  have hcalm : doling.calm = flowing.calm := rfl
  obtain ⟨hintact, hsame⟩ :=
    script_intact {} doling [.command ⟨Utf8.encode "PING", []⟩, .readMessages ⟨1⟩]
  exact ⟨hdoling, hflowing, hcalm, hintact, hsame flowing hdoling hflowing hcalm⟩

end BlockingClient

end RespClient

import RespClient.Connection
import RespClient.Config
import RespClient.Effort
import RespClient.Stream.Network

/-!
# Blocking/Client — a client whose calls return when they are done

    call ──▸ connection ──▸ write ──▸ … ──▸ read ──▸ connection ──▸ result

A blocking client owns a connection and a transport and moves bytes between them, in one step a write or
a read: it writes while anything is outbound, and reads otherwise.  A step that misses its deadline
leaves the connection as it was; any other fault closes it and drops the transport.

The handlers of its connection are the numbers of its calls.  Every step that succeeds uses up what its
transport has laid out or what is outbound (`step_headway`), so calls end.
-/

namespace RespClient

/-- **A client whose calls return when they are done.** -/
structure BlockingClient (α : Type) where
  connection : Connection Nat α := {}
  transport : Transport := {}
  /-- Whether the transport is the connection's. -/
  attached : Bool := false
  /-- Bytes read and not yet fed. -/
  buffer : Bytes := []
  config : Config := {}
  nextCall : Nat := 0

namespace BlockingClient

variable {α : Type}

/-- The events of a call, in order. -/
abbrev Log (α : Type) := List (Event Nat α)

/-- **What a call comes to**: its result, the client after it, and the events. -/
abbrev Done (α τ : Type) := Except Failure τ × BlockingClient α × Log α

/-- A client that is not connected. -/
def new (config : Config) : BlockingClient α := { config := config.sanitized }

/-! ## The transport comes and goes -/

/-- A stream is open and is the connection's from now on. -/
def attach (c : BlockingClient α) (transport : Transport) : BlockingClient α :=
  { c with transport, attached := true, connection := c.connection.connectSucceeded }

/-- The transport is closed, once, and what was read is forgotten. -/
def detach (c : BlockingClient α) : BlockingClient α :=
  { c with
      transport := if c.attached then c.transport.close else c.transport
      attached := false
      buffer := [] }

/-- A failure after which the connection cannot be used. -/
def fatal {τ : Type} (c : BlockingClient α) (failure : Failure) : Done α τ :=
  let (connection, events) := c.connection.fail failure
  (.error failure, { c with connection }.detach, events)

/-- A fault of the transport: a missed deadline leaves the connection open. -/
def faulted {τ : Type} (c : BlockingClient α) (fault : StreamFault) : Done α τ :=
  let failure := Failure.ofFault fault .command
  if failure.isTimeout then (.error failure, c, []) else c.fatal failure

/-! ## One step -/

/-- Outbound bytes are offered to the transport. -/
def writeOnce (c : BlockingClient α) : Done α Nat :=
  match c.transport.write c.connection.outbound with
  | (.ok 0, transport) => { c with transport }.fatal (.stream ⟨.writeZero, none⟩)
  | (.ok n, transport) =>
    (.ok 0, { c with transport, connection := c.connection.written n }, [])
  | (.error fault, transport) =>
    let c := { c with transport }
    if fault.kind = .interrupted then (.ok 0, c, []) else c.faulted fault

/-- Bytes are read and fed: how many values they completed. -/
def readOnce (c : BlockingClient α) : Done α Nat :=
  match c.transport.read c.config.readBufferSize.toNat with
  | (.ok [], transport) => { c with transport }.fatal .endOfStream
  | (.ok bytes, transport) =>
    let fed := c.connection.feed (c.buffer ++ bytes)
    let c := { c with transport, connection := fed.turn.1, buffer := fed.rest }
    match fed.result with
    | .ok n => (.ok n, c, fed.turn.2)
    | .error failure => (.error failure, c.detach, fed.turn.2)
  | (.error fault, transport) =>
    let c := { c with transport }
    if fault.kind = .interrupted then (.ok 0, c, []) else c.faulted fault

/-- **One write or read**, unless the deadline has passed or there is no transport. -/
def step (c : BlockingClient α) (expired : Bool) : Done α Nat :=
  if expired then (.error (.timeout .command), c, [])
  else if !c.attached then (.error .connectionClosed, c, [])
  else if c.connection.outbound.isEmpty then c.readOnce
  else c.writeOnce

/-! ## Steps make headway -/

/-- **What is left to do**: the reads laid out, then the writes laid out, then the outbound bytes. -/
def effort (c : BlockingClient α) : Effort :=
  (c.transport.patience, c.transport.writes.length, c.connection.outbound.length)

theorem fatal_not_ok {τ : Type} {c d : BlockingClient α} {failure : Failure} {x : τ} {log : Log α}
    (h : c.fatal failure = (.ok x, d, log)) : False := by
  cases h

theorem faulted_not_ok {τ : Type} {c d : BlockingClient α} {fault : StreamFault} {x : τ}
    {log : Log α} (h : c.faulted fault = (.ok x, d, log)) : False := by
  unfold faulted at h
  dsimp only at h
  split at h
  · cases h
  · exact fatal_not_ok h

theorem readOnce_headway {c d : BlockingClient α} {n : Nat} {log : Log α}
    (h : c.readOnce = (.ok n, d, log)) : d.effort.Less c.effort := by
  have used := @Transport.patience_read_lt c.transport c.config.readBufferSize.toNat
  unfold readOnce at h
  split at h
  · exact (fatal_not_ok h).elim
  · rename_i bytes transport hne hr
    rw [hr] at used
    dsimp only at h
    split at h
    · cases h
      exact .inl (used ⟨fun e => hne (by cases e; rfl), (nomatch ·)⟩)
    · cases h
  · rename_i fault transport hr
    rw [hr] at used
    dsimp only at h
    split at h
    · rename_i hk
      cases h
      exact .inl (used ⟨(nomatch ·), fun e => by cases e; cases hk⟩)
    · exact (faulted_not_ok h).elim

theorem writeOnce_headway {c d : BlockingClient α} {n : Nat} {log : Log α}
    (hout : c.connection.outbound ≠ []) (h : c.writeOnce = (.ok n, d, log)) :
    d.effort.Less c.effort := by
  have le := c.transport.patience_write_le c.connection.outbound
  have cases' := c.transport.write_cases c.connection.outbound
  have pos := List.length_pos_iff.mpr hout
  unfold writeOnce at h
  split at h
  · exact (fatal_not_ok h).elim
  · rename_i k transport hk hw
    rw [hw] at le cases'
    cases h
    refine .inr ⟨le, ?_⟩
    rcases cases' with hlt | ⟨heq, hall | ⟨_, hb⟩⟩
    · exact .inl hlt
    · refine .inr ⟨Nat.le_of_eq (congrArg List.length heq), ?_⟩
      cases hall
      simp only [effort, Connection.written, List.length_drop]
      omega
    · cases hb
  · rename_i fault transport hw
    rw [hw] at le cases'
    dsimp only at h
    split at h
    · rename_i hk
      cases h
      rcases cases' with hlt | ⟨_, hall | ⟨_, hb⟩⟩
      · exact .inr ⟨le, .inl hlt⟩
      · cases hall
      · cases hb; cases hk
    · exact (faulted_not_ok h).elim

/-- **A step that succeeds makes headway.** -/
theorem step_headway {c d : BlockingClient α} {expired : Bool} {n : Nat} {log : Log α}
    (h : c.step expired = (.ok n, d, log)) : d.effort.Less c.effort := by
  unfold step at h
  split at h
  · cases h
  · split at h
    · cases h
    · split at h
      · exact readOnce_headway h
      · rename_i hout
        exact writeOnce_headway (by simpa using hout) h

end BlockingClient

end RespClient

import RespClient.Connection
import RespClient.Config
import RespClient.Stream.Network
import RespClient.Shared.Pipe
import RespClient.Shared.Window

/-!
# Shared/Task — the owner of a connection that many callers share

    requests ──▸ task ──▸ write        read ──▸ task ──▸ results, messages

A task owns a connection and its pipe.  It takes one thing at a time: a request, a chunk of bytes, or
room for some of its outbound bytes (`handle`, `read`, `write`), and after each it publishes the
connection's stage.  What the world sees of it are notices, in order.

The task breaks when a handler of a command breaks while it runs.  Nothing is done after that: no other
handler gets its result, and what was published last stays.
-/

namespace RespClient

/-! ## What a task is asked, and what it says -/

/-- **Whose result it is.** -/
inductive Caller
  /-- A call that waits for it. -/
  | call (id : Nat)
  /-- A handler that runs on the task.  A faulty one breaks it. -/
  | callback (id : Nat) (faulty : Bool)
deriving DecidableEq

/-- **What a task is asked.** -/
inductive Request (α : Type)
  | connect (call : Nat) (endpoint : Endpoint)
  | command (command : Command) (caller : Caller)
  | batch (commands : List Command) (caller : Caller)
  | subscribe (topic : Topic) (persistence : Persistence) (listener : α) (call : Nat)
  | unsubscribe (h : Handle) (caller : Caller)
  /-- Nobody waits any more for the answer to this subscription. -/
  | abandon (h : Handle)
  /-- A failure only its caller saw is to be reported. -/
  | report (failure : Failure)
  | observe (observer : Option String)
  | disconnect

/-- **What the world sees of a task.** -/
inductive Notice (α : Type)
  /-- An event of its connection. -/
  | happened (event : Event Caller α)
  /-- The result of a call that connects. -/
  | opened (call : Nat) (result : Except Failure Unit)
  /-- The handle of a call that subscribes; the server has not answered yet. -/
  | registered (call : Nat) (result : Except Failure Handle)
  /-- The pipe is shut down in order. -/
  | shutDown
  /-- The pipe is let go. -/
  | dropped

/-- **The owner of a connection.** -/
structure Task (α : Type) where
  connection : Connection Caller α := {}
  pipe : Pipe := {}
  /-- Whether the pipe is the connection's.  Its two ends, one to read from and one to write to, come and go
  together. -/
  attached : Bool := false
  window : Window
  /-- Bytes read and not yet fed. -/
  buffer : Bytes := []
  config : Config
  /-- The stage others see. -/
  published : Lifecycle := .unconnected
  running : Bool := true

namespace Task

variable {α : Type}

/-- A task after something it did, and what was seen of it. -/
abbrev Step (α : Type) := Task α × List (Notice α)

/-- A task that is not connected. -/
def new (config : Config) (growth : Growth) : Task α :=
  { config := config.sanitized, window := ⟨config.sanitized.readBufferSize.toNat, growth, []⟩ }

/-- A task that is connected over a stream that is open already. -/
def ofTransport (transport : Transport) (config : Config) (growth : Growth) : Task α :=
  { (new config growth : Task α) with
      connection := ({} : Connection Caller α).beginConnect.2.1.connectSucceeded
      pipe := { transport }
      attached := true
      published := .connected }

/-! ## How it goes on -/

/-- The pipe is let go, and what was read is forgotten. -/
def detach (t : Task α) : Step α :=
  ({ t with attached := false, buffer := [] }, if t.attached then [.dropped] else [])

/-- More is done, unless the task broke. -/
def andThen (s : Step α) (next : Task α → Step α) : Step α :=
  if s.1.running then
    let (t, more) := next s.1
    (t, s.2 ++ more)
  else s

/-- More is said, unless the task broke. -/
def say (s : Step α) (notice : Notice α) : Step α := andThen s fun t => (t, [notice])

/-- The event in which a faulty handler gets its result. -/
def breaks : Event Caller α → Bool
  | .replied (.callback _ faulty) _ => faulty
  | _ => false

/-- The events up to the one that breaks the task, if one does. -/
def upToBreak : List (Event Caller α) → Option (List (Event Caller α))
  | [] => none
  | e :: rest => if breaks e then some [e] else (upToBreak rest).map (e :: ·)

/-- **The connection takes a turn.**  If a handler breaks the task, the turn is not finished, and the
connection is lost. -/
def take (t : Task α) (turn : Turn Caller α) : Step α :=
  match upToBreak turn.2 with
  | none => ({ t with connection := turn.1 }, turn.2.map .happened)
  | some events =>
    let (t, dropped) := { t with connection := {}, running := false }.detach
    (t, events.map .happened ++ dropped)

/-- The stage is published, unless the task broke. -/
def publish (s : Step α) : Step α :=
  if s.1.running then ({ s.1 with published := s.1.connection.stage }, s.2) else s

/-- A failure after which the connection cannot be used. -/
def fail (t : Task α) (failure : Failure) : Step α :=
  andThen (t.take (t.connection.fail failure)) detach

/-- **The connection is closed** and its pipe shut down. -/
def shutDown (t : Task α) : Step α :=
  andThen (t.take t.connection.close) fun t =>
    let (t', dropped) := t.detach
    (t', if t.attached then .shutDown :: dropped else dropped)

/-! ## Connecting -/

/-- **Opens a stream** within the deadline.  Only a fault that is known at once comes before a deadline
of no time. -/
def openStream (network : Network) (endpoint : Endpoint) (deadline : Option Duration) :
    Except Failure Transport :=
  match network.reach (.ofEndpointOrName endpoint) with
  | .rejected fault => .error (.ofFault fault .connect)
  | .refused fault =>
    .error (if deadline.any Duration.isZero then .timeout .connect else .ofFault fault .connect)
  | .accepted transport optionFault =>
    if deadline.any Duration.isZero then .error (.timeout .connect)
    else
      match endpoint, optionFault with
      | .network _, some fault => .error (.ofFault fault .connect)
      | _, _ => .ok transport

/-- **Connects for a call**, in one step.  While the stream is being opened the stage that others see would be
`connecting`; nobody looks in the middle of a step, and behind it the stage it came to is published. -/
def connect (t : Task α) (network : Network) (call : Nat) (endpoint : Endpoint) : Step α :=
  match t.connection.beginConnect with
  | (.error failure, turn) => say (t.take turn) (.opened call (.error failure))
  | (.ok _, connection, _) =>
    match openStream network endpoint t.config.connectTimeout with
    | .ok transport =>
      ({ t with connection := connection.connectSucceeded, pipe := { transport }, attached := true },
        [.opened call (.ok ())])
    | .error failure =>
      say (t.take (connection.connectFailed failure)) (.opened call (.error failure))

/-! ## One thing at a time -/

/-- What a request comes to. -/
def serve (t : Task α) (network : Network) : Request α → Step α
  | .connect call endpoint => t.connect network call endpoint
  | .command command caller => t.take (t.connection.submit command (.handler caller))
  | .batch commands caller => t.take (t.connection.submitBatch commands caller)
  | .subscribe topic persistence listener call =>
    let (result, turn) :=
      t.connection.register topic persistence listener (.handler (.call call))
    say (t.take turn) (.registered call result)
  | .unsubscribe h caller => t.take (t.connection.unsubscribe h (.handler caller))
  | .abandon h => ({ t with connection := t.connection.abandon h }, [])
  | .report failure => t.take (t.connection, [t.connection.report failure])
  | .observe observer => ({ t with connection := { t.connection with observer } }, [])
  | .disconnect => t.shutDown

/-- **A request is taken.** -/
def handle (t : Task α) (network : Network) (request : Request α) : Step α :=
  publish (t.serve network request)

/-- What a read comes to.  The connection is fed apart from the task, so that nothing it holds has to be
copied. -/
def received (t : Task α) : Except StreamFault Bytes → Step α
  | .ok [] => t.fail .endOfStream
  | .ok bytes =>
    let window := t.window.shrink bytes.length
    let input := t.buffer ++ bytes
    let connection := t.connection
    let rest := { t with connection := {}, window }
    let fed := connection.feed input
    andThen ({ rest with buffer := fed.rest }.take fed.turn) fun t =>
      match fed.result with
      | .ok _ => (t, [])
      | .error _ => t.detach
  | .error fault => t.fail (.ofFault fault .command)

/-- Whether there is a chunk to be read. -/
def canRead (t : Task α) : Bool := t.attached && t.pipe.canRead

/-- **A chunk is read and fed**, when one is there. -/
def read (t : Task α) : Step α :=
  let window := t.window.ready
  let answer := t.pipe.read window.room
  publish ({ t with window, pipe := answer.2 }.received answer.1)

/-- What a write comes to. -/
def wrote (t : Task α) : Except StreamFault Nat → Step α
  | .ok 0 => t.fail (.stream ⟨.writeZero, none⟩)
  | .ok n => ({ t with connection := t.connection.written n }, [])
  | .error fault => t.fail (.ofFault fault .command)

/-- Whether there are outbound bytes and a write of them would be answered. -/
def canWrite (t : Task α) : Bool :=
  t.attached && !t.connection.outbound.isEmpty && t.pipe.canWrite

/-- **Outbound bytes are written**, when there are any and a write would be answered. -/
def write (t : Task α) : Step α :=
  let answer := t.pipe.write t.connection.outbound
  publish ({ t with pipe := answer.2 }.wrote answer.1)

/-- **The task comes to its end.** -/
def stop (t : Task α) : Step α :=
  let s := publish t.shutDown
  ({ s.1 with running := false }, s.2)

/-! ## A failure lets the pipe go -/

theorem publish_attached (s : Step α) : (publish s).1.attached = s.1.attached := by
  unfold publish; split <;> rfl

theorem publish_pipe (s : Step α) : (publish s).1.pipe = s.1.pipe := by
  unfold publish; split <;> rfl

theorem publish_connection (s : Step α) : (publish s).1.connection = s.1.connection := by
  unfold publish; split <;> rfl

/-- **A turn is taken as it is, or it breaks the task**, which then has no pipe. -/
theorem take_cases (t : Task α) (turn : Turn Caller α) :
    (t.take turn).1 = { t with connection := turn.1 } ∨
      (t.take turn).1.running = false ∧ (t.take turn).1.attached = false := by
  unfold take
  split
  · exact .inl rfl
  · exact .inr ⟨rfl, rfl⟩

/-- What follows a turn in a task that runs: the task as the turn left it, or one without a pipe. -/
theorem andThen_take {t : Task α} (running : t.running = true) {turn : Turn Caller α}
    {next : Task α → Step α} :
    (andThen (t.take turn) next).1 = (next { t with connection := turn.1 }).1 ∨
      (andThen (t.take turn) next).1.attached = false := by
  unfold andThen
  rcases t.take_cases turn with h | ⟨hr, ha⟩
  · rw [h]
    exact .inl (by simp [running])
  · rw [if_neg (by simp [hr])]
    exact .inr ha

/-- **After a failure there is no pipe.** -/
theorem fail_attached {t : Task α} (running : t.running = true) (failure : Failure) :
    (t.fail failure).1.attached = false := by
  rcases andThen_take running with h | h
  · exact congrArg attached h
  · exact h

/-- A read leaves no pipe, or it gave bytes and the pipe is as before. -/
theorem received_cases {t : Task α} (running : t.running = true)
    (result : Except StreamFault Bytes) :
    (t.received result).1.attached = false ∨
      (∃ bytes, bytes ≠ [] ∧ result = .ok bytes) ∧
        (t.received result).1.attached = t.attached ∧ (t.received result).1.pipe = t.pipe := by
  unfold received
  split
  · exact .inl (fail_attached running _)
  · rename_i bytes hne
    dsimp only
    rcases andThen_take
        (t := { t with
          connection := {}
          window := t.window.shrink bytes.length
          buffer := (t.connection.feed (t.buffer ++ bytes)).rest })
        running with h | h
    · rw [h]
      split
      · exact .inr ⟨⟨bytes, fun e => hne (by rw [e]), rfl⟩, rfl, rfl⟩
      · exact .inl rfl
    · exact .inl h
  · exact .inl (fail_attached running _)

/-- A write leaves no pipe, or it took bytes and the pipe is as before. -/
theorem wrote_cases {t : Task α} (running : t.running = true) (result : Except StreamFault Nat) :
    (t.wrote result).1.attached = false ∨
      ∃ n, n ≠ 0 ∧ (t.wrote result).1 = { t with connection := t.connection.written n } := by
  unfold wrote
  split
  · exact .inl (fail_attached running _)
  · rename_i n hn
    exact .inr ⟨n, fun e => hn (by rw [e]), rfl⟩
  · exact .inl (fail_attached running _)

end Task

end RespClient

import RespClient.Wire.Decoder
import RespClient.Registry
import RespClient.Batch

/-!
# Connection — one conversation with a server

    commands ──▸ outbound bytes ──▸ …        … ──▸ inbound bytes ──▸ replies and messages

A connection touches no stream.  It turns what the client asks into bytes to be written, and bytes that
were read into calls of handlers, listeners and the error observer (`Event`).  The server answers in
order, so the oldest command still waiting owns the next reply that is not a message.

Every operation gives the connection after it and the events it caused, in order (`Turn`).  Handlers
(`κ`) and listeners (`α`) are labels: who they are is the caller's affair.
-/

namespace RespClient

/-! ## What a connection holds -/

/-- Whose turn it is when a reply comes. -/
inductive Target (κ : Type)
  /-- Nobody's: the client asked on its own account. -/
  | nobody
  | handler (k : κ)
  /-- The place `index` of a batch. -/
  | slot (batch index : Nat)
deriving DecidableEq

/-- What a reply means for the connection itself. -/
inductive Expect
  | reply
  /-- An answer to a subscription; an error undoes the registration. -/
  | subscribeAck (h : Handle)
  | unsubscribeAck
deriving DecidableEq

/-- **A command that waits for its reply.** -/
structure Pending (κ : Type) where
  target : Target κ
  expects : Expect

/-- **What a connection does to the world.** -/
inductive Event (κ α : Type)
  /-- A handler gets its result. -/
  | replied (handler : κ) (result : Except Failure Value)
  /-- A listener gets the bytes of a message. -/
  | delivered (listener : α) (payload : Bytes)
  /-- The error observer gets a failure; without one it is only logged. -/
  | reported (observer : Option String) (failure : Failure)

/-- **One conversation with a server.** -/
structure Connection (κ α : Type) where
  stage : Lifecycle := .unconnected
  /-- Commands without a reply, the oldest first. -/
  pending : List (Pending κ) := []
  /-- Batches with replies due, by number. -/
  batches : List (Nat × Batch κ) := []
  nextBatch : Nat := 0
  registry : Registry α := .empty
  nextHandle : Nat := 1
  /-- Answers to the end of a subscription that are due.  Messages may come until they are in. -/
  acksOwed : Nat := 0
  /-- The error observer's name. -/
  observer : Option String := none
  decoder : Decoder := .empty
  /-- Bytes to be written. -/
  outbound : Bytes := []

/-- A connection and the events that led to it. -/
abbrev Turn (κ α : Type) := Connection κ α × List (Event κ α)

namespace Connection

variable {κ α : Type}

/-- Whether commands may be sent. -/
def isOpen (c : Connection κ α) : Bool := c.stage.isOpen

/-- The observer hears of a failure. -/
def report (c : Connection κ α) (failure : Failure) : Event κ α := .reported c.observer failure

/-- The failure of an operation that the connection's stage does not allow. -/
def notNow (c : Connection κ α) (operation : String) : Failure := .invalidState operation c.stage

/-- The connection in one line. -/
def summary (c : Connection κ α) : String :=
  "Connection \x7b state: " ++ c.stage.name ++ ", pending: " ++ toString c.pending.length
    ++ ", subscriptions: " ++ toString c.registry.size
    ++ ", outbound: " ++ toString c.outbound.length ++ " \x7d"

/-- **What comes of a subscription**, by the server's answer: an error leaves no registration. -/
def outcome (h : Handle) (ack : Value) : Except Failure Handle :=
  if ack.isError then .error (.subscribeRejected h.topic.describe ack.text) else .ok h

/-! ## Results reach their owners -/

/-- **A result for a command.**  In a batch it takes its place, and the batch may finish; a batch that
has finished takes no more. -/
def settle (c : Connection κ α) (target : Target κ) (result : Except Failure Value) : Turn κ α :=
  match target with
  | .nobody => (c, [])
  | .handler k => (c, [.replied k result])
  | .slot number index =>
    match c.batches.lookup number with
    | none => (c, [])
    | some batch =>
      match batch.record index result with
      | .goesOn batch =>
        ({ c with
            batches := c.batches.map fun b => if b.1 = number then (number, batch) else b }, [])
      | .finished owner result =>
        ({ c with batches := c.batches.filter fun b => b.1 ≠ number }, [.replied owner result])

/-- Every waiting command fails, the oldest first. -/
def failAll (failure : Failure) : List (Pending κ) → Connection κ α → Turn κ α
  | [], c => (c, [])
  | p :: ps, c =>
    let (c, events) := c.settle p.target (.error failure)
    let (c, more) := failAll failure ps c
    (c, events ++ more)

/-- The queue is emptied, each command with the failure. -/
def drain (c : Connection κ α) (failure : Failure) : Turn κ α :=
  failAll failure c.pending { c with pending := [] }

/-! ## Its life -/

/-- Connecting begins, once in a connection's life unless it fails. -/
def beginConnect (c : Connection κ α) : Except Failure Unit × Turn κ α :=
  if c.stage = .unconnected then (.ok (), { c with stage := .connecting }, [])
  else
    let failure := c.notNow "connect"
    (.error failure, c, [c.report failure])

/-- A stream is open. -/
def connectSucceeded (c : Connection κ α) : Connection κ α :=
  if c.stage = .connecting then { c with stage := .connected } else c

/-- No stream could be opened; connecting may begin again. -/
def connectFailed (c : Connection κ α) (failure : Failure) : Turn κ α :=
  let c := if c.stage = .connecting then { c with stage := .unconnected } else c
  (c, [c.report failure])

/-- **The end.**  Whatever waits fails, and nothing is left of the conversation. -/
def close (c : Connection κ α) : Turn κ α :=
  if c.stage = .closed then (c, [])
  else
    let (c, events) := { c with stage := .closed }.drain .connectionClosed
    ({ c with registry := .empty, acksOwed := 0, outbound := [], decoder := .empty }, events)

/-- **A fatal failure**: it is reported, whatever waits fails with it, and the connection closes. -/
def fail (c : Connection κ α) (failure : Failure) : Turn κ α :=
  if c.stage = .closed then (c, [])
  else
    let reported := c.report failure
    let (c, events) := c.drain failure
    let (c, more) := c.close
    (c, reported :: events ++ more)

/-! ## Commands -/

/-- The names of the commands a connection with listeners may still send. -/
def subscribedNames : List String :=
  ["SUBSCRIBE", "PSUBSCRIBE", "UNSUBSCRIBE", "PUNSUBSCRIBE", "PUBLISH", "PING"]

/-- The six, one by one. -/
theorem mem_subscribedNames {name : String} : name ∈ subscribedNames ↔
    name = "SUBSCRIBE" ∨ name = "PSUBSCRIBE" ∨ name = "UNSUBSCRIBE" ∨ name = "PUNSUBSCRIBE" ∨
      name = "PUBLISH" ∨ name = "PING" := by
  simp [subscribedNames]

/-- Whether the server takes the command of a connection with listeners. -/
def allowedSubscribed (command : Command) : Bool :=
  subscribedNames.any fun name => command.isNamed (Utf8.encode name)

/-- Why a command cannot be sent now, if it cannot. -/
def refusal? (c : Connection κ α) (command : Command) : Option Failure :=
  match c.stage with
  | .connected => none
  | .subscribed =>
    if allowedSubscribed command then none else some (c.notNow (Utf8.decode command.name))
  | _ => some (c.notNow (Utf8.decode command.name))

/-- Why an operation cannot be done now, if it cannot. -/
def closedTo? (c : Connection κ α) (operation : String) : Option Failure :=
  if c.isOpen then none else some (c.notNow operation)

/-- **The command is to be written**, and waits for its reply behind those before it. -/
def enqueue (c : Connection κ α) (command : Command) (target : Target κ) (expects : Expect) :
    Connection κ α :=
  { c with
      outbound := c.outbound ++ command.encode
      pending := c.pending ++ [⟨target, expects⟩] }

/-- An operation is refused: the observer hears of it, and so does the handler. -/
def refuse (c : Connection κ α) (target : Target κ) (failure : Failure) : Turn κ α :=
  let (c', events) := c.settle target (.error failure)
  (c', c.report failure :: events)

/-- **One command.** -/
def submit (c : Connection κ α) (command : Command) (target : Target κ) : Turn κ α :=
  match c.refusal? command with
  | some failure => c.refuse target failure
  | none => (c.enqueue command target .reply, [])

/-- **Commands whose replies come back as one array.**  Either all of them are queued, or none. -/
def submitBatch (c : Connection κ α) (commands : List Command) (owner : κ) : Turn κ α :=
  let refused :=
    if commands.isEmpty then c.closedTo? "pipeline" else commands.findSome? c.refusal?
  match refused with
  | some failure => c.refuse (.handler owner) failure
  | none =>
    if commands.isEmpty then (c, [.replied owner (.ok (.array []))])
    else
      let number := c.nextBatch
      let slots := (List.range commands.length).map fun i => ⟨.slot number i, .reply⟩
      ({ c with
          outbound := c.outbound ++ commands.flatMap Command.encode
          pending := c.pending ++ slots
          batches := c.batches ++ [(number, .start owner commands.length)]
          nextBatch := number + 1 }, [])

/-- Some of the outbound bytes are written. -/
def written (c : Connection κ α) (n : Nat) : Connection κ α :=
  { c with outbound := c.outbound.drop n }

/-! ## Subscriptions -/

/-- The stage follows the registry: a connection is subscribed while someone listens. -/
def refresh (c : Connection κ α) : Connection κ α :=
  match c.stage with
  | .connected => if c.registry.isEmpty then c else { c with stage := .subscribed }
  | .subscribed => if c.registry.isEmpty then { c with stage := .connected } else c
  | _ => c

/-- **A listener is registered** and the server is asked for the topic; its answer goes to `target`. -/
def register (c : Connection κ α) (topic : Topic) (persistence : Persistence) (listener : α)
    (target : Target κ) : Except Failure Handle × Turn κ α :=
  match c.closedTo? topic.kind.subscribe with
  | some failure => (.error failure, c.refuse target failure)
  | none =>
    let h : Handle := ⟨c.nextHandle, topic⟩
    let c := { c with
      nextHandle := c.nextHandle + 1
      registry := c.registry.insert h persistence listener }
    (.ok h, (c.enqueue topic.subscribe target (.subscribeAck h)).refresh, [])

/-- The server is asked to end the subscription to a topic. -/
def sendUnsubscribe (c : Connection κ α) (topic : Topic) (target : Target κ) : Connection κ α :=
  { c with acksOwed := c.acksOwed + 1 }.enqueue topic.unsubscribe target .unsubscribeAck

/-- **A listener is removed.**  The server is told only when no one else listens to the topic;
otherwise the handler gets the null value at once. -/
def unsubscribe (c : Connection κ α) (h : Handle) (target : Target κ) : Turn κ α :=
  match c.closedTo? h.topic.kind.unsubscribe with
  | some failure => c.refuse target failure
  | none =>
    let kept := c.registry.remove? h
    let c := { c with registry := kept.getD c.registry }
    if kept.isSome && !c.registry.contains h.topic then
      ((c.sendUnsubscribe h.topic target).refresh, [])
    else
      let (c, events) := c.settle target (.ok .null)
      (c.refresh, events)

/-- **A registration whose answer nobody waits for any more is removed.**  The server may still act on
the subscription, so it is told to end it unless someone else listens to the topic. -/
def abandon (c : Connection κ α) (h : Handle) : Connection κ α :=
  match c.registry.remove? h with
  | none => c
  | some registry =>
    let c := { c with registry }
    if c.isOpen && !registry.contains h.topic then (c.sendUnsubscribe h.topic .nobody).refresh
    else c.refresh

/-! ## What the server sends -/

/-- Whether an array of a message's shape is a message: while someone listens, and while an answer to
the end of a subscription is due. -/
def routesPushes (c : Connection κ α) : Bool := !c.registry.isEmpty || 0 < c.acksOwed

/-- **A message goes to its listeners.**  When the last of them were single-shot, the server is told. -/
def deliver (c : Connection κ α) (push : Push) : Turn κ α :=
  let events := (c.registry.audience push.topic).map fun l => .delivered l push.payload
  let delivery := c.registry.delivery push.topic
  let c := { c with registry := c.registry.spend push.topic }
  if 0 < delivery.singleShot && !c.registry.contains push.topic then
    ((c.sendUnsubscribe push.topic .nobody).refresh, events)
  else (c, events)

/-- What a reply means for the connection itself, before its handler gets it. -/
def acknowledge (c : Connection κ α) (expects : Expect) (v : Value) : Connection κ α :=
  match expects with
  | .reply => c
  | .subscribeAck h =>
    if v.isError then
      match c.registry.remove? h with
      | some registry => { c with registry }.refresh
      | none => c
    else c
  | .unsubscribeAck => { c with acksOwed := c.acksOwed - 1 }

/-- **A reply goes to the oldest command that waits.** -/
def answer (c : Connection κ α) (v : Value) : Turn κ α :=
  match c.pending with
  | [] => (c, [c.report (.unexpectedReply v.inspect)])
  | p :: ps => ({ c with pending := ps }.acknowledge p.expects v).settle p.target (.ok v)

/-- **A value from the server**: a message, or a reply. -/
def dispatch (c : Connection κ α) (v : Value) : Turn κ α :=
  match if c.routesPushes then Push.ofValue? v else none with
  | some push => c.deliver push
  | none => c.answer v

/-! ## A value leaves the decoder alone -/

theorem settle_decoder (c : Connection κ α) (target : Target κ) (result : Except Failure Value) :
    (c.settle target result).1.decoder = c.decoder := by
  unfold settle
  split
  · rfl
  · rfl
  · split
    · rfl
    · split <;> rfl

theorem refresh_decoder (c : Connection κ α) : c.refresh.decoder = c.decoder := by
  unfold refresh
  split
  · split <;> rfl
  · split <;> rfl
  · rfl

theorem acknowledge_decoder (c : Connection κ α) (expects : Expect) (v : Value) :
    (c.acknowledge expects v).decoder = c.decoder := by
  unfold acknowledge
  split
  · rfl
  · split
    · split
      · exact refresh_decoder _
      · rfl
    · rfl
  · rfl

theorem deliver_decoder (c : Connection κ α) (push : Push) :
    (c.deliver push).1.decoder = c.decoder := by
  unfold deliver
  dsimp only
  split
  · exact refresh_decoder _
  · rfl

theorem dispatch_decoder (c : Connection κ α) (v : Value) :
    (c.dispatch v).1.decoder = c.decoder := by
  unfold dispatch
  split
  · exact deliver_decoder c _
  · unfold answer
    split
    · rfl
    · exact (settle_decoder _ _ _).trans (acknowledge_decoder _ _ v)

/-! ## Feeding -/

/-- **What feeding bytes comes to**: how many values they held or why it stopped, the bytes left over,
and the turn. -/
structure Fed (κ α : Type) where
  result : Except Failure Nat
  rest : Bytes
  turn : Turn κ α

/-- **Bytes that were read**: every value they complete is dispatched before the next is decoded, and
malformed bytes close the connection. -/
def feed (c : Connection κ α) (input : Bytes) : Fed κ α :=
  if input.isEmpty then ⟨.ok 0, [], c, []⟩
  else if c.stage = .closed then ⟨.error .connectionClosed, [], c, []⟩
  else
    match _hp : c.decoder.parse input with
    | (.completed, rest, decoder) =>
      match _ht : decoder.take with
      | (some v, decoder) =>
        let turn := { c with decoder }.dispatch v
        let fed := turn.1.feed rest
        ⟨fed.result.map (· + 1), fed.rest, fed.turn.1, turn.2 ++ fed.turn.2⟩
      | (none, decoder) => ⟨.ok 0, rest, { c with decoder }, []⟩
    | (.incomplete, rest, decoder) => ⟨.ok 0, rest, { c with decoder }, []⟩
    | (.failed cause, _, decoder) =>
      let failure := .protocol cause
      ⟨.error failure, [], { c with decoder }.fail failure⟩
termination_by c.decoder.backlog input
decreasing_by
  rw [dispatch_decoder]
  exact Decoder.backlog_lt_of_take _hp _ht

end Connection

end RespClient

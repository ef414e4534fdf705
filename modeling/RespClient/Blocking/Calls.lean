import RespClient.Blocking.Client

/-!
# Blocking/Calls — what a blocking client can be asked

A call hands its command to the connection and steps until its own reply is there.  One deadline bounds
the whole call; a call that misses it reports the failure and leaves its command in the queue, where the
late reply is taken by nobody.
-/

namespace RespClient.BlockingClient

variable {α : Type}

/-- The result a call's handler got, if it did. -/
def resultOf (call : Nat) (log : Log α) : Option (Except Failure Value) :=
  log.findSome? fun
    | .replied k result => if k = call then some result else none
    | _ => none

/-- Events that came before. -/
def after {τ : Type} (log : Log α) (done : Done α τ) : Done α τ :=
  (done.1, done.2.1, log ++ done.2.2)

/-- Whether a deadline has passed as soon as it is set; any other outlasts the call. -/
def expires (deadline : Option Duration) : Bool := deadline.any Duration.isZero

/-- **Steps until the call's handler has its result**, or a step fails. -/
def wait (c : BlockingClient α) (call : Nat) (result : Option (Except Failure Value)) :
    Done α Value :=
  match result with
  | some result => (result, c, [])
  | none =>
    match _h : c.step (expires c.config.commandTimeout) with
    | (.ok _, c, log) => after log (c.wait call (resultOf call log))
    | (.error failure, c, log) =>
      (.error failure, c, if failure.isTimeout then log ++ [c.connection.report failure] else log)
termination_by c.effort
decreasing_by exact (step_headway _h).lex

/-- **The connection takes the turn, and the call waits for its result.** -/
def await (c : BlockingClient α) (turn : Turn Nat α) : Done α Value :=
  let call := c.nextCall
  after turn.2
    ({ c with connection := turn.1, nextCall := call + 1 }.wait call (resultOf call turn.2))

/-! ## Commands -/

/-- **One command and its reply.**  An error reply is a reply. -/
def command (c : BlockingClient α) (command : Command) : Done α Value :=
  c.await (c.connection.submit command (.handler c.nextCall))

/-- **Commands in one go, and their replies as one array.** -/
def pipelined (c : BlockingClient α) (commands : List Command) : Done α Value :=
  c.await (c.connection.submitBatch commands c.nextCall)

/-- A message is published. -/
def publish (c : BlockingClient α) (channel message : Bytes) : Done α Value :=
  c.command (.publish channel message)

/-! ## Subscriptions -/

/-- **A listener is registered**, once the server has agreed.  Nothing is left of a registration whose
answer did not come. -/
def subscribe (c : BlockingClient α) (topic : Topic) (persistence : Persistence) (listener : α) :
    Done α Handle :=
  match c.connection.register topic persistence listener (.handler c.nextCall) with
  | (.error failure, connection, log) =>
    (.error failure, { c with connection, nextCall := c.nextCall + 1 }, log)
  | (.ok h, turn) =>
    match c.await turn with
    | (.ok ack, c, log) => (Connection.outcome h ack, c, log)
    | (.error failure, c, log) =>
      (.error failure, { c with connection := c.connection.abandon h }, log)

/-- **A listener is removed**: the server's answer, or null when others still listen to the topic. -/
def unsubscribe (c : BlockingClient α) (h : Handle) : Done α Value :=
  c.await (c.connection.unsubscribe h (.handler c.nextCall))

/-- Steps until the deadline or a failure: how many values came. -/
def readUntil (c : BlockingClient α) (expired : Bool) (routed : Nat) : Done α Nat :=
  match _h : c.step expired with
  | (.ok n, c, log) => after log (c.readUntil expired (routed + n))
  | (.error failure, c, log) =>
    (if failure.isTimeout then .ok routed else .error failure, c, log)
termination_by c.effort
decreasing_by exact (step_headway _h).lex

/-- **Messages are read until the time is over**: how many values came. -/
def readMessages (c : BlockingClient α) (time : Duration) : Done α Nat := c.readUntil time.isZero 0

/-! ## Connecting -/

/-- **Opens a stream.**  A network stream has to be opened within the deadline, which cannot be one of
no time; the socket of a path answers at once. -/
def openStream (network : Network) (endpoint : Endpoint) (deadline : Option Duration) :
    Except Failure Transport :=
  let late : Failure := .stream ⟨.invalidInput, some "cannot set a 0 duration timeout"⟩
  match endpoint, network.reach (.ofEndpoint endpoint) with
  | .network _, .rejected fault => .error (.ofFault fault .connect)
  | .network _, .refused fault =>
    .error (if expires deadline then late else .ofFault fault .connect)
  | .network _, .accepted transport optionFault =>
    if expires deadline then .error late
    else
      match optionFault with
      | some fault => .error (.stream fault)
      | none => .ok transport
  | .socket _, .rejected fault | .socket _, .refused fault => .error (.stream fault)
  | .socket _, .accepted transport _ => .ok transport

/-- **Connects to an endpoint.** -/
def connectTo (c : BlockingClient α) (network : Network) (endpoint : Endpoint) : Done α Unit :=
  match c.connection.beginConnect with
  | (.error failure, connection, log) => (.error failure, { c with connection }, log)
  | (.ok _, connection, log) =>
    match openStream network endpoint c.config.connectTimeout with
    | .ok transport => (.ok (), { c with connection }.attach transport, log)
    | .error failure =>
      let (connection, more) := connection.connectFailed failure
      (.error failure, { c with connection }, log ++ more)

/-- **Connects to the endpoint of the configuration.** -/
def connect (c : BlockingClient α) (network : Network) : Done α Unit :=
  match Endpoint.parse c.config.endpoint with
  | .ok endpoint => c.connectTo network endpoint
  | .error failure => (.error failure, c, [c.connection.report failure])

/-- **Connects over a stream that is open already.** -/
def connectOver (c : BlockingClient α) (transport : Transport) : Done α Unit :=
  match c.connection.beginConnect with
  | (.error failure, connection, log) => (.error failure, { c with connection }, log)
  | (.ok _, connection, log) => (.ok (), { c with connection }.attach transport, log)

/-- **The connection is closed.** -/
def disconnect (c : BlockingClient α) : BlockingClient α × Log α :=
  let (connection, log) := c.connection.close
  ({ c with connection }.detach, log)

/-- Another observer hears of failures from now on. -/
def observe (c : BlockingClient α) (observer : Option String) : BlockingClient α :=
  { c with connection := { c.connection with observer } }

end RespClient.BlockingClient

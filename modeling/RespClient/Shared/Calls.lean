import RespClient.Shared.Client

/-!
# Shared/Calls — what a shared client can be asked

A call gets a number of its own, hands over its request and waits.  Its deadline counts from then; that
of a subscription counts from its handle.  Nothing happens before the client settles.
-/

namespace RespClient.SharedClient

variable {α : Type}

/-! ## Beginnings -/

/-- A client that is not connected. -/
def new (config : Config) (network : Network) (growth : Growth) : SharedClient α :=
  { task := .new config growth, network }

/-- A client over a stream that is open already. -/
def ofTransport (transport : Transport) (config : Config) (network : Network) (growth : Growth) :
    SharedClient α :=
  { task := .ofTransport transport config growth, network }

/-- Its callers' configuration. -/
def config (c : SharedClient α) : Config := c.task.config

/-- The stage that callers see. -/
def stage (c : SharedClient α) : Lifecycle := c.task.published

/-! ## Calls -/

/-- **A call begins**; without a task it ends at once. -/
def start (c : SharedClient α) (call : Call) (request : Request α) : Outcome α :=
  if c.task.running then
    ({ c with calls := c.calls ++ [call] }.enqueue [request], [])
  else (c, [.ended call.id (.error .connectionClosed)])

/-- **One command and its reply.** -/
def command (c : SharedClient α) (id : Nat) (command : Command) : Outcome α :=
  c.start ⟨id, .reply c.deadline⟩ (.command command (.call id))

/-- **Commands in one go, and their replies as one array.** -/
def pipelined (c : SharedClient α) (id : Nat) (commands : List Command) : Outcome α :=
  c.start ⟨id, .reply c.deadline⟩ (.batch commands (.call id))

/-- A message is published. -/
def publish (c : SharedClient α) (id : Nat) (channel message : Bytes) : Outcome α :=
  c.command id (.publish channel message)

/-- **A listener is registered**, once the server has agreed. -/
def subscribe (c : SharedClient α) (id : Nat) (topic : Topic) (persistence : Persistence)
    (listener : α) : Outcome α :=
  c.start ⟨id, .handle⟩ (.subscribe topic persistence listener id)

/-- **A listener is removed**: the server's answer, or null when others still listen to the topic. -/
def unsubscribe (c : SharedClient α) (id : Nat) (h : Handle) : Outcome α :=
  c.start ⟨id, .reply c.deadline⟩ (.unsubscribe h (.call id))

/-- **Connects to an endpoint.** -/
def connectTo (c : SharedClient α) (id : Nat) (endpoint : Endpoint) : Outcome α :=
  c.start ⟨id, .opening⟩ (.connect id endpoint)

/-- **Connects to the endpoint of the configuration.**  One that is no address only its caller sees. -/
def connect (c : SharedClient α) (id : Nat) : Outcome α :=
  match Endpoint.parse c.config.endpoint with
  | .ok endpoint => c.connectTo id endpoint
  | .error failure => (c, [.ended id (.error failure)])

/-- **Waits for a stage**, or for the task's end. -/
def waitFor (c : SharedClient α) (id : Nat) (target : Lifecycle) : Outcome α :=
  ({ c with calls := c.calls ++ [⟨id, .stage target⟩] }, [])

/-! ## Requests that nobody waits for -/

/-- A request joins the queue, unless there is no task to take it. -/
def ask (c : SharedClient α) (request : Request α) : SharedClient α :=
  if c.task.running then c.enqueue [request] else c

/-- **One command, whose reply goes to a handler on the task.** -/
def commandWith (c : SharedClient α) (handler : Nat) (faulty : Bool) (command : Command) :
    Outcome α :=
  let caller := Caller.callback handler faulty
  (c.ask (.command command caller),
    if c.task.running then []
    else [.noticed (.happened (.replied caller (.error .connectionClosed)))])

/-- The connection is to be closed. -/
def disconnect (c : SharedClient α) : SharedClient α := c.ask .disconnect

/-- Another observer is to hear of failures. -/
def observe (c : SharedClient α) (observer : Option String) : SharedClient α :=
  c.ask (.observe observer)

/-! ## What callers do with their calls -/

/-- A call is given up; whatever it asked for is done all the same. -/
def cancel (c : SharedClient α) (id : Nat) : SharedClient α :=
  { c with calls := c.calls.filter fun call => call.id ≠ id }

/-- Nobody but the calls under way holds the client any more. -/
def release (c : SharedClient α) : SharedClient α := { c with held := false }

/-- Time passes. -/
def elapse (c : SharedClient α) (milliseconds : Nat) : SharedClient α :=
  { c with clock := c.clock + milliseconds }

/-- Something happens, and then all that follows from it. -/
def run (o : Outcome α) : Outcome α :=
  let settled := o.1.settle
  (settled.1, o.2 ++ settled.2)

end RespClient.SharedClient

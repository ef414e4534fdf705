import RespClient.Wire.Malformed

/-!
# Failure — why a call fails

A server that refuses is no failure: its error reply is a value.  A failure is *fatal* when the
connection cannot be used after it (`isFatal`), and a missed deadline is not (`not_fatal_of_timeout`).
-/

namespace RespClient

/-! ## The life of a connection -/

/-- **How far a connection has come.**  `subscribed` is `connected` with listeners registered. -/
inductive Lifecycle
  | unconnected
  | connecting
  | connected
  | subscribed
  | closed
deriving DecidableEq

namespace Lifecycle

/-- Whether commands may be sent. -/
def isOpen : Lifecycle → Bool
  | connected | subscribed => true
  | unconnected | connecting | closed => false

def name : Lifecycle → String
  | unconnected => "Unconnected"
  | connecting => "Connecting"
  | connected => "Connected"
  | subscribed => "Subscribed"
  | closed => "Closed"

end Lifecycle

/-! ## What a stream may answer -/

/-- The kinds of fault a stream reports. -/
inductive FaultKind
  | notFound
  | permissionDenied
  | connectionRefused
  | connectionReset
  | connectionAborted
  | networkUnreachable
  | notConnected
  | brokenPipe
  | wouldBlock
  | invalidInput
  | invalidData
  | timedOut
  | writeZero
  | interrupted
  | unexpectedEof
  | other
deriving DecidableEq

/-- The kind in words, for a fault that brings none of its own. -/
def FaultKind.description : FaultKind → String
  | notFound => "entity not found"
  | permissionDenied => "permission denied"
  | connectionRefused => "connection refused"
  | connectionReset => "connection reset"
  | connectionAborted => "connection aborted"
  | networkUnreachable => "network unreachable"
  | notConnected => "not connected"
  | brokenPipe => "broken pipe"
  | wouldBlock => "operation would block"
  | invalidInput => "invalid input parameter"
  | invalidData => "invalid data"
  | timedOut => "timed out"
  | writeZero => "write zero"
  | interrupted => "operation interrupted"
  | unexpectedEof => "unexpected end of file"
  | other => "other error"

/-- **A fault of a stream**, with words of its own or those of its kind. -/
structure StreamFault where
  kind : FaultKind
  detail : Option String := none
deriving DecidableEq

namespace StreamFault

def message (f : StreamFault) : String := f.detail.getD f.kind.description

/-- Whether the stream only says that nothing came in time. -/
def isTimeout (f : StreamFault) : Bool := f.kind = .timedOut || f.kind = .wouldBlock

end StreamFault

/-! ## Failures -/

/-- Which deadline was missed. -/
inductive Deadline
  | connect
  | command
deriving DecidableEq

def Deadline.name : Deadline → String
  | connect => "connect"
  | command => "command"

/-- **Why a call fails.** -/
inductive Failure
  /-- The stream is at fault. -/
  | stream (fault : StreamFault)
  /-- A deadline was missed. -/
  | timeout (deadline : Deadline)
  /-- The server's bytes are no reply. -/
  | protocol (cause : Malformed)
  /-- A reply came that nothing waited for. -/
  | unexpectedReply (reply : String)
  /-- The server refused a subscription. -/
  | subscribeRejected (topic reply : String)
  /-- The operation is not allowed at this point of the connection's life. -/
  | invalidState (operation : String) (stage : Lifecycle)
  /-- The connection closed before the reply came. -/
  | connectionClosed
  /-- The endpoint is no address. -/
  | invalidAddress (text : String)
  /-- The configuration is not acceptable. -/
  | config (text : String)
deriving DecidableEq

namespace Failure

/-- The peer ended the stream. -/
def endOfStream : Failure := .stream ⟨.unexpectedEof, some "connection closed by peer"⟩

/-- A fault of the stream, where one that only says *not in time* is a missed deadline. -/
def ofFault (fault : StreamFault) (deadline : Deadline) : Failure :=
  if fault.isTimeout then .timeout deadline else .stream fault

def message : Failure → String
  | stream fault => "io error: " ++ fault.message
  | timeout deadline => deadline.name ++ " timed out"
  | protocol cause => "protocol error: " ++ cause.message
  | unexpectedReply reply => "unexpected reply with no pending command: " ++ reply
  | subscribeRejected topic reply => "subscribe to " ++ topic ++ " rejected: " ++ reply
  | invalidState operation stage =>
    operation ++ " called with invalid state " ++ stage.name
  | connectionClosed => "connection closed"
  | invalidAddress text => "invalid address: " ++ text
  | config text => "configuration error: " ++ text

/-- The words of what lies beneath, where something does. -/
def source? : Failure → Option String
  | stream fault => some fault.message
  | protocol cause => some cause.message
  | _ => none

/-- The failure in words, and after it the words of what lies beneath. -/
def account (f : Failure) : String :=
  match f.source? with
  | some source => f.message ++ ": " ++ source
  | none => f.message

def isTimeout : Failure → Bool
  | timeout _ => true
  | _ => false

/-- Whether the connection cannot be used after this failure. -/
def isFatal : Failure → Bool
  | stream _ | protocol _ | connectionClosed => true
  | _ => false

theorem not_fatal_of_timeout {f : Failure} (h : f.isTimeout) : f.isFatal = false := by
  cases f <;> simp_all [isTimeout, isFatal]

end Failure

end RespClient

import RespClient.Benchmark.Run
import RespClient.Blocking.Calls
import Std.Async.TCP
import Std.Async.Timer

/-!
# Main — the benchmark's command line

    benchmark [endpoint] [operations] [batch] [value size]

The outer layer: it moves bytes between a connection and a network stream, looks at the clock and
prints.  Streams to addresses are opened here, sockets of paths are not; the zone of an address is left
to the system.
-/

open Std.Async

namespace RespClient.Benchmark.CommandLine

/-- A connection and the stream under it. -/
structure Live where
  socket : TCP.Socket.Client
  connection : Connection Nat Empty

/-- **What the program holds**: its connections, and when the phase began. -/
structure World where
  inTurn : Option Live := none
  shared : Option Live := none
  since : Nat := 0

/-- The kinds of fault that the system tells by number. -/
def kindOf (number : Nat) : FaultKind :=
  let known : List (Nat × FaultKind) :=
    [(2, .notFound), (13, .permissionDenied), (32, .brokenPipe), (101, .networkUnreachable),
      (103, .connectionAborted), (104, .connectionReset), (107, .notConnected), (110, .timedOut),
      (111, .connectionRefused)]
  (known.lookup number).getD .other

/-- What the system says of an error: its number, which may come negated, and its words. -/
def told? : IO.Error → Option (Nat × String)
  | .otherError number words | .resourceVanished number words | .timeExpired number words
  | .protocolError number words | .illegalOperation number words | .resourceBusy number words
  | .unsupportedOperation number words | .noSuchThing _ number words
  | .invalidArgument _ number words | .permissionDenied _ number words
  | .resourceExhausted _ number words | .alreadyExists _ number words =>
    some ((min number (0 - number)).toNat, words)
  | _ => none

/-- A fault as the system tells of it. -/
def faultOf (e : IO.Error) : StreamFault :=
  match told? e with
  | some (number, words) =>
    ⟨kindOf number, some (words.capitalize ++ " (os error " ++ toString number ++ ")")⟩
  | none => ⟨.other, some (toString e)⟩

/-- The address as the system takes it. -/
def systemAddress (a : SocketAddress) : Std.Net.SocketAddress :=
  match a.host with
  | .v4 octets => .v4 ⟨⟨Vector.ofFn fun i => octets.getD i 0⟩, a.port⟩
  | .v6 groups _ => .v6 ⟨⟨Vector.ofFn fun i => groups.getD i 0⟩, a.port⟩

/-- The milliseconds of a deadline; one that is not set never comes. -/
def milliseconds (deadline : Option Duration) : Nat :=
  (deadline.map Duration.ceilMillis).getD (365 * 86400000)

/-- **Opens a stream** within the deadline. -/
def openStream (config : Config) : IO (Except Failure TCP.Socket.Client) := do
  match Endpoint.parse config.endpoint with
  | .error failure => return .error failure
  | .ok (.socket _) =>
    return .error (.stream ⟨.other, some "sockets of paths are not supported"⟩)
  | .ok (.network address) =>
    let late : Async Unit := sleep (.ofNat (milliseconds config.connectTimeout))
    try
      let socket ← TCP.Socket.Client.mk
      let connecting : Async Bool := do
        socket.connect (systemAddress address)
        return true
      let inTime ← (Async.race connecting (do late; return false)).block
      if inTime then
        if config.nodelay then socket.noDelay
        return .ok socket
      else return .error (.timeout .connect)
    catch e => return .error (.ofFault (faultOf e) .connect)

/-- A connection over a stream opened for it. -/
def connect (config : Config) : IO (Except Failure Live) := do
  match ← openStream config with
  | .ok socket =>
    let opening : Connection Nat Empty := {}
    return .ok ⟨socket, opening.beginConnect.2.1.connectSucceeded⟩
  | .error failure => return .error failure

/-- Bytes that come within so many milliseconds; the stream's end brings none. -/
def receive (config : Config) (socket : TCP.Socket.Client) (limit : Nat) :
    IO (Option (Option ByteArray)) := Async.block do
  let late ← Selector.sleep (.ofNat limit)
  Selectable.one #[
    .case (socket.recvSelector config.readBufferSize) fun data => return some data,
    .case late fun _ => return none]

/-- **The connection takes a turn**, and bytes are moved until every call has its result. -/
def converse (config : Config) (live : Live) (turn : Turn Nat Empty) (calls : List Nat) :
    IO (List (Except Failure Value) × Live) := do
  let limit := milliseconds config.commandTimeout
  let start ← IO.monoMsNow
  let mut connection := turn.1
  let mut log := turn.2
  let mut broken : Option Failure := none
  while broken.isNone && calls.any fun call => (BlockingClient.resultOf call log).isNone do
    let mut fatal : Option Failure := none
    try
      if connection.outbound.isEmpty then
        match ← receive config live.socket (limit - ((← IO.monoMsNow) - start)) with
        | none => broken := some (.timeout .command)
        | some none => fatal := some .endOfStream
        | some (some data) =>
          let fed := connection.feed data.toList
          connection := fed.turn.1
          log := log ++ fed.turn.2
          if let .error failure := fed.result then broken := some failure
      else
        (live.socket.send (ByteArray.mk connection.outbound.toArray)).block
        connection := connection.written connection.outbound.length
    catch e => fatal := some (.ofFault (faultOf e) .command)
    if let some failure := fatal then
      let closed := connection.fail failure
      connection := closed.1
      log := log ++ closed.2
      broken := some failure
  let results := calls.map fun call =>
    (BlockingClient.resultOf call log).getD (.error (broken.getD .connectionClosed))
  return (results, { live with connection })

/-- The stream is shut down. -/
def leave (live : Option Live) : IO Unit := do
  if let some live := live then
    try live.socket.shutdown.block
    catch _ => return

/-- **The service of the command line.** -/
def service (p : Plan) : Service (StateT World IO) where
  connect := do
    match ← connect p.config with
    | .ok live => do
      modify fun w => { w with inTurn := some live }
      return .ok ()
    | .error failure => return .error failure
  command c := one fun connection => connection.submit c (.handler 0)
  pipelined cs := one fun connection => connection.submitBatch cs 0
  disconnect := do
    leave (← get).inTurn
    modify fun w => { w with inTurn := none }
  share := do
    match ← connect p.config with
    | .ok live => do
      modify fun w => { w with shared := some live }
      return .ok ()
    | .error failure => return .error failure
  together cs := do
    match (← get).shared with
    | none => return cs.map fun _ => .error .connectionClosed
    | some live =>
      let turn := cs.zipIdx.foldl (fun (t : Turn Nat Empty) (c, id) =>
        let next := t.1.submit c (.handler id)
        (next.1, t.2 ++ next.2)) (live.connection, [])
      let (results, live) ← converse p.config live turn (List.range cs.length)
      modify fun w => { w with shared := some live }
      return results
  leave := do leave (← get).shared
  begins := do
    let since ← IO.monoNanosNow
    modify fun w => { w with since }
  ended phase := do
    let elapsed := (← IO.monoNanosNow) - (← get).since
    IO.println (phase.line p.operations ⟨elapsed⟩)
where
  /-- One call over the connection for calls in turn. -/
  one (ask : Connection Nat Empty → Turn Nat Empty) : StateT World IO (Except Failure Value) := do
    match (← get).inTurn with
    | none => return .error .connectionClosed
    | some live =>
      let (results, live) ← converse p.config live (ask live.connection) [0]
      modify fun w => { w with inTurn := some live }
      return results.headD (.error .connectionClosed)

end RespClient.Benchmark.CommandLine

open RespClient.Benchmark in
/-- Runs the benchmark of the command line's plan; trouble is told and ends with code 1. -/
def main (arguments : List String) : IO UInt32 := do
  let plan := Plan.ofArguments arguments
  IO.println plan.summary
  let (result, _) ← (run (CommandLine.service plan) plan).run.run {}
  match result with
  | .ok _ => return 0
  | .error trouble =>
    IO.eprintln trouble.line
    return 1

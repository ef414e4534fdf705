import RespClient.Benchmark.Run
import RespClient.Blocking.Calls
import RespClient.Shared.Calls

/-!
# Benchmark/Rehearsal — a benchmark without a clock

A rehearsal runs a benchmark in a world that is all known beforehand: a network, a server that answers
every command by its words alone, and how a buffer grows.  What comes out is what was sent over each
connection, which phases ended, and the trouble met, if any; only the time it takes is left out.
-/

namespace RespClient.Benchmark

/-- **A world that is known beforehand**, and how far the benchmark has come in it. -/
structure Rehearsal where
  network : Network
  /-- What the server answers to a command. -/
  server : Command → Bytes
  /-- How the buffer of the shared client grows. -/
  growth : Growth
  /-- The client of calls in turn, once it is connected. -/
  inTurn : Option (BlockingClient Empty) := none
  /-- The client that callers share, once it is connected. -/
  together : Option (SharedClient Empty) := none
  ended : Array Phase := #[]

namespace Rehearsal

/-- What the server does when the commands come. -/
def exchanges (r : Rehearsal) (commands : List Command) : List Exchange :=
  commands.map fun c => .answer c.encode (r.server c)

/-- Opens the connection for calls in turn. -/
def connect (p : Plan) : StateM Rehearsal (Except Failure Unit) := do
  let r ← get
  let (result, client, _) := (BlockingClient.new p.config : BlockingClient Empty).connect r.network
  if let .ok _ := result then set { r with inTurn := some client }
  return result

/-- A call of the connected client, to which the server answers as the commands say. -/
def call (commands : List Command) (ask : BlockingClient Empty → BlockingClient.Done Empty Value) :
    StateM Rehearsal (Except Failure Value) := do
  let r ← get
  match r.inTurn with
  | none => return .error .connectionClosed
  | some client =>
    let transport := client.transport.schedule (r.exchanges commands)
    let (result, client, _) := ask { client with transport }
    set { r with inTurn := some client }
    return result

/-- Opens the connection that callers share. -/
def share (p : Plan) : StateM Rehearsal (Except Failure Unit) := do
  let r ← get
  let client : SharedClient Empty := .new p.config r.network r.growth
  let (client, effects) := SharedClient.run (client.connect 0)
  match effects.findSome? fun | .ended _ (.error failure) => some failure | _ => none with
  | some failure => return .error failure
  | none =>
    set { r with together := some client }
    return .ok ()

/-- The results of so many calls that read, from what was seen. -/
def resultsOf (effects : List (Effect Empty)) (calls : Nat) : List (Except Failure Value) :=
  (effects.foldl (fun (results : Array (Except Failure Value)) effect =>
      match effect with
      | .ended call (.ok (.value v)) => results.setIfInBounds call (.ok v)
      | .ended call (.error failure) => results.setIfInBounds call (.error failure)
      | _ => results)
    (Array.replicate calls (.error .connectionClosed))).toList

/-- Calls at the same time.  Those without a reply miss their deadline. -/
def callTogether (commands : List Command) :
    StateM Rehearsal (List (Except Failure Value)) := do
  let r ← get
  match r.together with
  | none => return commands.map fun _ => .error .connectionClosed
  | some client =>
    let pipe := { client.task.pipe with
      transport := client.task.pipe.transport.schedule (r.exchanges commands) }
    let client := { client with task := { client.task with pipe } }
    let started := commands.zipIdx.foldl (fun (o : SharedClient.Outcome Empty) (c, id) =>
      let next := o.1.command id c
      (next.1, o.2 ++ next.2)) (client, [])
    let (client, effects) := SharedClient.run started
    let time := (client.config.commandTimeout.map Duration.ceilMillis).getD 0
    let (client, late) := SharedClient.run (client.elapse time, [])
    set { r with together := some client }
    return resultsOf (effects ++ late) commands.length

/-- **The service of a rehearsal.** -/
def service (p : Plan) : Service (StateM Rehearsal) where
  connect := connect p
  command c := call [c] (·.command c)
  pipelined cs := call cs (·.pipelined cs)
  disconnect := modify fun r => { r with inTurn := r.inTurn.map (·.disconnect.1) }
  share := share p
  together := callTogether
  leave := modify fun r =>
    { r with together := r.together.map fun c => (SharedClient.run (c.disconnect, [])).1 }
  begins := pure ()
  ended phase := modify fun r => { r with ended := r.ended.push phase }

/-- **Rehearses a plan**: the trouble met, if any, and the world after it. -/
def rehearse (p : Plan) (r : Rehearsal) : Except Trouble Unit × Rehearsal :=
  (run (service p) p).run.run r

/-- The bytes sent over each connection, in the order in which they were opened. -/
def sent (r : Rehearsal) : List Bytes :=
  let transports :=
    r.inTurn.toList.map (·.transport) ++ r.together.toList.map (·.task.pipe.transport)
  transports.map (·.accepted.flatten)

end Rehearsal

end RespClient.Benchmark

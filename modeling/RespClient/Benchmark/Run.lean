import RespClient.Benchmark.Plan
import RespClient.Value

/-!
# Benchmark/Run — the phases of a benchmark

A benchmark writes every key in turn, reads every key in turn, reads in batches, and at last reads over
a second connection that many callers share.  It needs a service to do so, which may be real or not, and
stops at the first trouble; a server that refuses a write is trouble, one that refuses a read is not.
-/

namespace RespClient.Benchmark

/-- **Why a benchmark stops.** -/
inductive Trouble
  /-- No connection for the calls in turn. -/
  | connecting (endpoint : String) (failure : Failure)
  /-- No connection to be shared. -/
  | sharing (failure : Failure)
  /-- A call failed. -/
  | call (failure : Failure)
  /-- The server refused a write. -/
  | rejected (reply : Value)

/-- The trouble in words. -/
def Trouble.message : Trouble → String
  | connecting endpoint failure => "connecting to " ++ endpoint ++ ": " ++ failure.account
  | sharing failure => "async connect: " ++ failure.account
  | call failure => failure.account
  | rejected reply => "SET rejected: " ++ reply.inspect

/-- The line that tells of the trouble. -/
def Trouble.line (t : Trouble) : String := "redwire-bench failed: " ++ t.message

/-! ## Phases -/

/-- **The parts of a benchmark.** -/
inductive Phase
  | writes
  | reads
  | batchedReads
  | sharedReads
deriving DecidableEq

def Phase.name : Phase → String
  | writes => "SET sequential"
  | reads => "GET sequential"
  | batchedReads => "GET pipelined"
  | sharedReads => "GET async concurrent"

/-- A quotient to so many places, a half going up; without a divisor there is no number. -/
def fixed (places numerator denominator : Nat) : String :=
  if denominator = 0 then if numerator = 0 then "NaN" else "inf"
  else
    let unit := Nat.pow 10 places
    let scaled := (2 * numerator * unit + denominator) / (2 * denominator)
    let digits := toString (scaled % unit)
    let padding := String.ofList (List.replicate (places - digits.length) '0')
    toString (scaled / unit) ++ if places = 0 then "" else "." ++ padding ++ digits

/-- **The line of a finished phase**: how many operations in how much time, and their rate. -/
def Phase.line (phase : Phase) (operations : Nat) (elapsed : Duration) : String :=
  let time := elapsed.nanoseconds
  phase.name ++ ": " ++ toString operations ++ " ops in " ++ fixed 3 time 1000000000 ++ "s ("
    ++ fixed 0 (operations * 1000000000) time ++ " ops/s, "
    ++ fixed 2 time (operations * 1000) ++ " us/op)"

/-! ## The run -/

/-- **What a benchmark needs of the world.** -/
structure Service (m : Type → Type) where
  /-- Opens the connection for calls in turn. -/
  connect : m (Except Failure Unit)
  command : Command → m (Except Failure Value)
  pipelined : List Command → m (Except Failure Value)
  /-- Closes that connection. -/
  disconnect : m Unit
  /-- Opens the connection that callers share. -/
  share : m (Except Failure Unit)
  /-- A call for each command, all at the same time, and their results in order. -/
  together : List Command → m (List (Except Failure Value))
  /-- Closes the connection that callers share. -/
  leave : m Unit
  /-- A phase begins. -/
  begins : m Unit
  /-- A phase has ended. -/
  ended : Phase → m Unit

variable {m : Type → Type} [Monad m]

/-- A result, or trouble. -/
def need {τ : Type} (trouble : Failure → Trouble) (result : Except Failure τ) : ExceptT Trouble m τ :=
  match result with
  | .ok x => pure x
  | .error failure => throw (trouble failure)

/-- **One part of the benchmark.** -/
def inPhase (s : Service m) (phase : Phase) (work : ExceptT Trouble m Unit) :
    ExceptT Trouble m Unit := do
  ExceptT.lift s.begins
  work
  ExceptT.lift (s.ended phase)

/-- Writes a key; the server must take it. -/
def write (s : Service m) (command : Command) : ExceptT Trouble m Unit := do
  let reply ← need .call (← ExceptT.lift (s.command command))
  if reply.isError then throw (.rejected reply)

/-- Reads a key, whatever the answer. -/
def read (s : Service m) (command : Command) : ExceptT Trouble m Unit := do
  let _ ← need .call (← ExceptT.lift (s.command command))

/-- Reads keys in one go. -/
def readBatch (s : Service m) (commands : List Command) : ExceptT Trouble m Unit := do
  let _ ← need .call (← ExceptT.lift (s.pipelined commands))

/-- Reads keys at the same time; of several failures the first in order counts. -/
def readTogether (s : Service m) (commands : List Command) : ExceptT Trouble m Unit := do
  for result in ← ExceptT.lift (s.together commands) do
    let _ ← need .call result

/-- **The whole benchmark.** -/
def run (s : Service m) (p : Plan) : ExceptT Trouble m Unit := do
  need (.connecting p.endpoint) (← ExceptT.lift s.connect)
  inPhase s .writes (p.numbers.forM fun i => write s (p.set i))
  inPhase s .reads (p.numbers.forM fun i => read s (Plan.get i))
  inPhase s .batchedReads (p.batches.forM (readBatch s))
  ExceptT.lift s.disconnect
  need .sharing (← ExceptT.lift s.share)
  inPhase s .sharedReads (p.batches.forM (readTogether s))
  ExceptT.lift s.leave

end RespClient.Benchmark

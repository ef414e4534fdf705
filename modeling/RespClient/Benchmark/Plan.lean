import RespClient.Command
import RespClient.Config

/-!
# Benchmark/Plan — how much work, on what

A plan says how often a key is written and read, how many reads go together, and how long the values
are.  Keys and values follow from the number of the operation, so that every run does the same work.
-/

namespace RespClient.Benchmark

/-- **How much work, on what.** -/
structure Plan where
  endpoint : String := "127.0.0.1:6379"
  operations : Nat := 100000
  /-- How many reads go together. -/
  batch : Nat := 64
  /-- How many bytes a value has. -/
  valueSize : Nat := 128
  batch_pos : 0 < batch := by decide

namespace Plan

/-- **A plan from a command line**: endpoint, operations, batch and value size.  What is missing, or is
no count, is as in the default plan, and a batch has one operation or more. -/
def ofArguments (arguments : List String) : Plan :=
  let standard : Plan := {}
  let count (place otherwise : Nat) : Nat := (arguments[place]?.bind Decimal.count?).getD otherwise
  { endpoint := arguments.headD standard.endpoint
    operations := count 1 standard.operations
    batch := max 1 (count 2 standard.batch)
    valueSize := count 3 standard.valueSize
    batch_pos := Nat.lt_of_lt_of_le Nat.one_pos (Nat.le_max_left ..) }

/-- The plan in one line. -/
def summary (p : Plan) : String :=
  "endpoint=" ++ p.endpoint ++ ", ops=" ++ toString p.operations ++ ", batch=" ++ toString p.batch
    ++ ", value_size=" ++ toString p.valueSize

/-- The clients' configuration: two seconds to connect, five for a call. -/
def config (p : Plan) : Config :=
  { endpoint := p.endpoint
    connectTimeout := some (.ofSeconds 2)
    commandTimeout := some (.ofSeconds 5) }

/-! ## The work -/

/-- A word in sixteen hexadecimal digits. -/
def stamp (n : UInt64) : Bytes :=
  (List.range 16).map fun i =>
    UInt8.ofNat (Nat.digitChar (n.toNat >>> (4 * (15 - i)) % 16)).toNat

/-- How many keys there are. -/
def keyCount : Nat := 4096

/-- The number of an operation's key. -/
def keyNumber (operation : Nat) : UInt64 := UInt64.ofNat (operation % keyCount)

/-- The key of an operation. -/
def key (operation : Nat) : Bytes := stamp (0xA5A5A5A5A5A5A5A5 ^^^ keyNumber operation)

/-- The value of an operation: a stamp, cut or filled up to the value size. -/
def value (p : Plan) (operation : Nat) : Bytes :=
  let stamp := stamp (0x5A5A5A5A5A5A5A5A ^^^ keyNumber operation)
  stamp.take p.valueSize ++ List.replicate (p.valueSize - stamp.length) 120

/-- The command that writes the key of an operation. -/
def set (p : Plan) (operation : Nat) : Command :=
  ⟨Utf8.encode "SET", [key operation, p.value operation]⟩

/-- The command that reads the key of an operation. -/
def get (operation : Nat) : Command := ⟨Utf8.encode "GET", [key operation]⟩

/-- The numbers of the operations. -/
def numbers (p : Plan) : List Nat := List.range p.operations

/-- Numbers in groups of `size`, the last of which may be smaller. -/
def groupsOf (size : Nat) (pos : 0 < size) (numbers : List Nat) : List (List Nat) :=
  if _h : numbers.isEmpty then []
  else numbers.take size :: groupsOf size pos (numbers.drop size)
termination_by numbers.length
decreasing_by
  have : numbers.length ≠ 0 := by simpa using _h
  rw [List.length_drop]
  omega

/-- **The reads that go together.** -/
def batches (p : Plan) : List (List Command) :=
  (groupsOf p.batch p.batch_pos p.numbers).map (·.map get)

end Plan

end RespClient.Benchmark

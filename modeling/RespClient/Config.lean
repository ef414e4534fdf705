import RespClient.Endpoint

/-!
# Config — how a client behaves

Without deadlines a client waits as long as it takes.
-/

namespace RespClient

/-- **A span of time**, to the nanosecond. -/
structure Duration where
  nanoseconds : Nat
deriving DecidableEq

namespace Duration

def ofMillis (n : Nat) : Duration := ⟨n * 1000000⟩

def ofSeconds (n : Nat) : Duration := ⟨n * 1000000000⟩

/-- The whole milliseconds in it. -/
def wholeMillis (d : Duration) : Nat := d.nanoseconds / 1000000

/-- The milliseconds after which it is over. -/
def ceilMillis (d : Duration) : Nat := (d.nanoseconds + 999999) / 1000000

/-- A deadline of no time has passed as soon as it is set. -/
def isZero (d : Duration) : Bool := d.nanoseconds = 0

end Duration

/-- How many bytes are asked for at a time, unless said otherwise. -/
def defaultReadBufferSize : UInt64 := 4096

/-- **How a client behaves.** -/
structure Config where
  endpoint : String := "127.0.0.1:6379"
  /-- For opening a stream. -/
  connectTimeout : Option Duration := none
  /-- For one call. -/
  commandTimeout : Option Duration := none
  /-- Whether small writes go out at once. -/
  nodelay : Bool := true
  /-- How many bytes are asked for at a time. -/
  readBufferSize : UInt64 := defaultReadBufferSize
deriving DecidableEq

namespace Config

/-- **Whether a client can run with it as it stands**, and if not, why: first the buffer, then the
endpoint. -/
def validate (c : Config) : Except Failure Unit :=
  if c.readBufferSize = 0 then .error (.config "read_buffer_size must be greater than zero")
  else (Endpoint.parse c.endpoint).map fun _ => ()

/-- What no client can run with is replaced by the default: a buffer that holds nothing. -/
def sanitized (c : Config) : Config :=
  if c.readBufferSize = 0 then { c with readBufferSize := defaultReadBufferSize } else c

theorem sanitized_readBufferSize_ne_zero (c : Config) : c.sanitized.readBufferSize ≠ 0 := by
  unfold sanitized
  split
  · exact (by decide : defaultReadBufferSize ≠ 0)
  · assumption

end Config

end RespClient

import RespClient.Stream.Transport

/-!
# Shared/Pipe — a stream that can make its users wait

A pipe answers reads and writes from a transport, but one that has nothing to be read gives no answer
yet (`canRead`), and neither does one without room for a byte more (`canWrite`).  Whoever uses it does
something else meanwhile.

A read that gives bytes uses the transport's patience up (`patience_read_lt`), and a write adds none
(`patience_write_le`).
-/

namespace RespClient

/-- **How a pipe takes bytes.** -/
inductive Gate
  /-- As many as there is room for; without a bound, all. -/
  | takes (room : Option Nat)
  /-- None, although it answers. -/
  | nothing
  | fault (f : StreamFault)
deriving DecidableEq

/-- **A stream that can make its users wait.** -/
structure Pipe where
  transport : Transport := {}
  gate : Gate := .takes none

namespace Pipe

/-- There is room for so many bytes from now on.  A pipe that takes nothing, or fails, goes on so. -/
def allow (p : Pipe) (room : Option Nat) : Pipe :=
  match p.gate with
  | .takes _ => { p with gate := .takes room }
  | .nothing | .fault _ => p

/-- Whether there is anything to be read. -/
def canRead (p : Pipe) : Bool := !p.transport.reads.isEmpty

/-- **A read of up to `limit` bytes**, when there is something to be read. -/
def read (p : Pipe) (limit : Nat) : Except StreamFault Bytes × Pipe :=
  let (result, transport) := p.transport.read limit
  (result, { p with transport })

/-- Whether a write would be answered: the pipe has room, or it fails. -/
def canWrite (p : Pipe) : Bool := p.transport.peer.hungUp || p.gate != .takes (some 0)

/-- Bytes are taken. -/
def accept (p : Pipe) (bytes : Bytes) : Pipe := { p with transport := p.transport.accept bytes }

/-- **A write of the bytes offered**, when it would be answered: how many were taken. -/
def write (p : Pipe) (offered : Bytes) : Except StreamFault Nat × Pipe :=
  if p.transport.peer.hungUp then (.error ⟨.brokenPipe, some "Broken pipe (os error 32)"⟩, p)
  else
    match p.gate with
    | .takes none => (.ok offered.length, p.accept offered)
    | .takes (some room) =>
      let taken := offered.take room
      (.ok taken.length, { p with gate := .takes (some (room - taken.length)) }.accept taken)
    | .nothing => (.ok 0, p)
    | .fault f => (.error f, p)

/-- How many reads may still come, at one byte a read. -/
def patience (p : Pipe) : Nat := p.transport.patience

/-- **A read that gives bytes uses patience up.** -/
theorem patience_read_lt {p next : Pipe} {limit : Nat} {bytes : Bytes}
    (h : p.read limit = (.ok bytes, next)) (hne : bytes ≠ []) : next.patience < p.patience := by
  have used := @Transport.patience_read_lt p.transport limit
  unfold read at h
  cases hr : p.transport.read limit with
  | mk result transport =>
    rw [hr] at h used
    cases h
    exact used ⟨fun e => hne (by cases e; rfl), (nomatch ·)⟩

theorem patience_accept_le (p : Pipe) (bytes : Bytes) : (p.accept bytes).patience ≤ p.patience :=
  p.transport.patience_accept_le bytes

/-- **A write adds no patience.** -/
theorem patience_write_le (p : Pipe) (offered : Bytes) :
    (p.write offered).2.patience ≤ p.patience := by
  unfold write
  split
  · exact Nat.le_refl _
  · split
    · exact patience_accept_le _ _
    · exact patience_accept_le { p with gate := _ } _
    · exact Nat.le_refl _
    · exact Nat.le_refl _

end Pipe

end RespClient

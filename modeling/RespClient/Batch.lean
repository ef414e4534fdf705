import RespClient.Failure
import RespClient.Value

/-!
# Batch — many replies as one

A batch gathers the replies to its commands, each in the place of its command.  When all are there it
finishes with one array; a failure finishes it at once.  Error replies are replies like any other.
-/

namespace RespClient

/-- **The replies of a batch so far**, and who waits for them. -/
structure Batch (κ : Type) where
  owner : κ
  replies : Array Value
  received : Nat

namespace Batch

variable {κ : Type}

/-- A batch of `n` commands, nothing received. -/
def start (owner : κ) (n : Nat) : Batch κ := ⟨owner, Array.replicate n .null, 0⟩

/-- What one more result does to a batch. -/
inductive Progress (κ : Type)
  /-- More replies are due. -/
  | goesOn (batch : Batch κ)
  /-- The owner's result. -/
  | finished (owner : κ) (result : Except Failure Value)

/-- **The result of the command at `index`.** -/
def record (b : Batch κ) (index : Nat) : Except Failure Value → Progress κ
  | .error failure => .finished b.owner (.error failure)
  | .ok v =>
    let replies := b.replies.setIfInBounds index v
    if b.received + 1 < replies.size then .goesOn { b with replies, received := b.received + 1 }
    else .finished b.owner (.ok (.array replies.toList))

end Batch

end RespClient

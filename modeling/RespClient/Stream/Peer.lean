import RespClient.Failure
import RespClient.Text.Utf8
import RespClient.Total

/-!
# Stream/Peer — the far end of a stream

A peer follows a script: it waits for so many bytes, notes whether they are those it expected, and sends
its answer; or it hangs up.  After its script it stays silent.  `respond` never gives back more than the
script holds (`weight_respond`), so a client that keeps reading comes to an end.
-/

namespace RespClient

/-- **What a read will find.** -/
inductive Inbound
  /-- Bytes that have come. -/
  | data (bytes : Bytes)
  /-- The other side has ended the stream. -/
  | endOfStream
  | fault (f : StreamFault)
deriving DecidableEq

/-- How many reads it is good for, at one byte a read. -/
def Inbound.weight : Inbound → Nat
  | data bytes => bytes.length + 1
  | endOfStream | fault _ => 1

/-- One entry of a peer's script. -/
inductive Exchange
  | answer (expected reply : Bytes)
  | hangUp
deriving DecidableEq

/-- How many reads the entry is good for. -/
def Exchange.weight : Exchange → Nat
  | answer _ reply => reply.length + 1
  | hangUp => 1

/-- **The far end of a stream.** -/
structure Peer where
  script : List Exchange := []
  /-- Bytes that belong to no exchange yet. -/
  heard : Bytes := []
  /-- Of each exchange so far, whether its bytes were the expected ones. -/
  matched : Array Bool := #[]
  hungUp : Bool := false

namespace Peer

/-- How many reads the rest of the script is good for. -/
def weight (p : Peer) : Nat := total Exchange.weight p.script

/-- **As much of the script as the bytes heard allow**, and what it sends. -/
def respond (heard : Bytes) (matched : Array Bool) : List Exchange → Peer × List Inbound
  | [] => ({ heard, matched }, [])
  | .hangUp :: _ => ({ heard, matched, hungUp := true }, [.endOfStream])
  | .answer expected reply :: rest =>
    let said := heard.take expected.length
    if said.length < expected.length then
      ({ script := .answer expected reply :: rest, heard, matched }, [])
    else
      let matched := matched.push (said = expected)
      let (peer, more) := respond (heard.drop expected.length) matched rest
      (peer, if reply.isEmpty then more else .data reply :: more)

/-- **Bytes reach the peer.**  One that has hung up hears nothing. -/
def hear (p : Peer) (bytes : Bytes) : Peer × List Inbound :=
  if p.hungUp then (p, []) else respond (p.heard ++ bytes) p.matched p.script

theorem weight_respond (heard : Bytes) (matched : Array Bool) (script : List Exchange) :
    total Inbound.weight (respond heard matched script).2
        + (respond heard matched script).1.weight
      ≤ total Exchange.weight script := by
  induction script generalizing heard matched with
  | nil => exact Nat.le_refl _
  | cons x rest ih =>
    cases x with
    | hangUp =>
      simp only [respond, weight, total, Inbound.weight, Exchange.weight]
      omega
    | answer expected reply =>
      unfold respond
      dsimp only
      split
      · simp [weight, total]
      · have := ih (heard.drop expected.length)
          (matched.push (heard.take expected.length = expected))
        dsimp only
        split <;>
          simp only [total, Inbound.weight, Exchange.weight] at * <;> omega

theorem weight_hear (p : Peer) (bytes : Bytes) :
    total Inbound.weight (p.hear bytes).2 + (p.hear bytes).1.weight ≤ p.weight := by
  unfold hear
  split
  · simp [total]
  · exact weight_respond _ _ _

end Peer

end RespClient

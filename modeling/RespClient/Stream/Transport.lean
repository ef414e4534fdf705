import RespClient.Stream.Peer

/-!
# Stream/Transport — a stream that behaves as laid out

A transport answers reads and writes from what is laid out for it: what each read finds, and how much
each write may take.  With nothing laid out a read finds nothing in time and a write takes all it is
offered; a peer at the far end lays out more as it hears.  What was done on the stream is written down
(`Access`): every read, with the room it had and what it met, and the bytes of every write that was taken.

`patience` counts the reads still laid out.  A read that gives bytes uses some up
(`patience_read_lt`), and no write adds to it (`patience_write_le`).
-/

namespace RespClient

/-- **How a write goes.** -/
inductive Acceptance
  /-- Up to `n` bytes are taken. -/
  | takes (n : Nat)
  | fault (f : StreamFault)
deriving DecidableEq

/-- **A read**: how many bytes it has room for, and what it meets, if anything is laid out. -/
structure Reading where
  room : Nat
  meets : Option Inbound
deriving DecidableEq

namespace Reading

/-- **What a read comes to.**  No bytes at all mean the end of the stream. -/
def answer (r : Reading) : Except StreamFault Bytes :=
  match r.meets with
  | none => .error ⟨.wouldBlock, none⟩
  | some (.data bytes) => .ok (bytes.take r.room)
  | some .endOfStream => .ok []
  | some (.fault f) => .error f

/-- What it leaves of what it meets, for the next read. -/
def leaves (r : Reading) : List Inbound :=
  match r.meets with
  | some (.data bytes) =>
    let left := bytes.drop r.room
    if left.isEmpty then [] else [.data left]
  | _ => []

end Reading

/-- **What is done on a stream.** -/
inductive Access
  | read (r : Reading)
  /-- A write takes these bytes. -/
  | wrote (bytes : Bytes)
deriving DecidableEq

/-- The bytes that are written, if any are. -/
def Access.written? : Access → Option Bytes
  | .read _ => none
  | .wrote bytes => some bytes

/-- **A stream that behaves as laid out.** -/
structure Transport where
  reads : List Inbound := []
  writes : List Acceptance := []
  peer : Peer := {}
  /-- What was done on the stream so far. -/
  accesses : Array Access := #[]
  /-- How often the stream was closed. -/
  closes : Nat := 0

namespace Transport

/-- More is laid out. -/
def layOut (t : Transport) (reads : List Inbound) (writes : List Acceptance) : Transport :=
  { t with reads := t.reads ++ reads, writes := t.writes ++ writes }

/-- The peer's script grows. -/
def schedule (t : Transport) (more : List Exchange) : Transport :=
  { t with peer := { t.peer with script := t.peer.script ++ more } }

/-- The bytes of each write so far. -/
def accepted (t : Transport) : List Bytes := t.accesses.toList.filterMap Access.written?

/-- A stream to a peer that follows a script. -/
def ofScript (script : List Exchange) : Transport :=
  let (peer, reads) := Peer.respond [] #[] script
  { peer, reads }

/-- **A read of up to `limit` bytes.** -/
def read (t : Transport) (limit : Nat) : Except StreamFault Bytes × Transport :=
  let r : Reading := ⟨limit, t.reads.head?⟩
  (r.answer,
    { t with reads := r.leaves ++ t.reads.tail, accesses := t.accesses.push (.read r) })

/-- Bytes are taken, and the peer hears them. -/
def accept (t : Transport) (bytes : Bytes) : Transport :=
  let (peer, reads) := t.peer.hear bytes
  { t with peer, reads := t.reads ++ reads, accesses := t.accesses.push (.wrote bytes) }

/-- **A write of the bytes offered**: how many were taken. -/
def write (t : Transport) (offered : Bytes) : Except StreamFault Nat × Transport :=
  if t.peer.hungUp then (.error ⟨.brokenPipe, some "Broken pipe (os error 32)"⟩, t)
  else
    match t.writes with
    | [] => (.ok offered.length, t.accept offered)
    | .takes n :: rest =>
      let taken := offered.take n
      (.ok taken.length, { t with writes := rest }.accept taken)
    | .fault f :: rest => (.error f, { t with writes := rest })

/-- The stream is closed. -/
def close (t : Transport) : Transport := { t with closes := t.closes + 1 }

/-! ## Patience -/

/-- **How many reads are laid out or may be**, at one byte a read. -/
def patience (t : Transport) : Nat := total Inbound.weight t.reads + t.peer.weight

/-- **A read that gives bytes, or a fault of its own, uses patience up.** -/
theorem patience_read_lt {t : Transport} {limit : Nat}
    (h : (t.read limit).1 ≠ .ok [] ∧ (t.read limit).1 ≠ .error ⟨.wouldBlock, none⟩) :
    (t.read limit).2.patience < t.patience := by
  rcases hr : t.reads with _ | ⟨r, rest⟩ <;>
    simp only [read, Reading.answer, Reading.leaves, patience, hr, List.head?_nil, List.head?_cons,
      List.tail_cons, List.nil_append] at h ⊢
  · exact absurd rfl h.2
  cases r with
  | data bytes =>
    have hne : bytes.take limit ≠ [] := fun e => h.1 (congrArg _ e)
    have hpos : 0 < limit ∧ 0 < bytes.length := by
      constructor
      · exact Nat.pos_of_ne_zero fun e => hne (by simp [e])
      · exact List.length_pos_iff.mpr fun e => hne (by simp [e])
    dsimp only
    split <;>
      simp only [List.nil_append, List.cons_append, total, Inbound.weight, List.length_drop] <;> omega
  | endOfStream => exact absurd rfl h.1
  | fault f =>
    simp only [List.nil_append, total, Inbound.weight]
    omega

theorem writes_accept (t : Transport) (bytes : Bytes) : (t.accept bytes).writes = t.writes := rfl

theorem patience_accept_le (t : Transport) (bytes : Bytes) :
    (t.accept bytes).patience ≤ t.patience := by
  have := t.peer.weight_hear bytes
  simp only [accept, patience, total_append]
  omega

/-- **A write adds no patience.** -/
theorem patience_write_le (t : Transport) (offered : Bytes) :
    (t.write offered).2.patience ≤ t.patience := by
  unfold write
  split
  · exact Nat.le_refl _
  · split
    · exact patience_accept_le _ _
    · exact patience_accept_le { t with writes := _ } _
    · exact Nat.le_refl _

/-- A write uses up one entry, or takes all it is offered, or meets a peer that is gone. -/
theorem write_cases (t : Transport) (offered : Bytes) :
    (t.write offered).2.writes.length < t.writes.length
      ∨ (t.write offered).2.writes = t.writes
        ∧ ((t.write offered).1 = .ok offered.length
          ∨ ∃ detail, (t.write offered).1 = .error ⟨.brokenPipe, detail⟩) := by
  unfold write
  split
  · exact .inr ⟨rfl, .inr ⟨_, rfl⟩⟩
  · split
    case h_1 hw => exact .inr ⟨rfl, .inl rfl⟩
    case h_2 hw => exact .inl (by simp [hw, writes_accept])
    case h_3 hw => exact .inl (by simp [hw])

end Transport

end RespClient

import RespClient.Proofs.Connection.Journal
import RespClient.Stream.Transport

/-!
# Proofs/Stream/Crossing — what crosses a transport

    accesses    wrote w₁ · read r₁ · read nothing in time · wrote w₂ · read r₂
    tape        sent w₁ · received r₁ · sent w₂ · received r₂

What crossed a transport is read off what was done on it (`tape`), so it is the transport's own account and
not that of whoever uses it.  A transport is **used** if it is read, written and closed and nothing else is
done to it (`Used`): what is laid out goes away by being read, and by being read it gets on the tape.
-/

namespace RespClient

/-- What a read lets cross.  One that gives no bytes lets nothing cross. -/
def Transfer.ofRead : Except StreamFault Bytes → List Transfer
  | .ok [] | .error _ => []
  | .ok (b :: bytes) => [.received (b :: bytes)]

/-- What a write lets cross, of the bytes that were offered. -/
def Transfer.ofWrite (offered : Bytes) : Except StreamFault Nat → List Transfer
  | .ok 0 | .error _ => []
  | .ok (n + 1) => [.sent (offered.take (n + 1))]

namespace Access

/-- **What crosses the wire.** -/
def transfers : Access → List Transfer
  | .read r => Transfer.ofRead r.answer
  | .wrote bytes => Transfer.ofWrite bytes (.ok bytes.length)

/-- The read, if it is one. -/
def reading? : Access → Option Reading
  | .read r => some r
  | .wrote _ => none

end Access

namespace Transport

/-- **What crossed a transport**, one after another. -/
def tape (t : Transport) : List Transfer := t.accesses.toList.flatMap Access.transfers

/-- What crossed it since it was another. -/
def since (t start : Transport) : List Transfer := t.tape.drop start.tape.length

/-- The bytes that a transport has accepted, one after another. -/
def taken (t : Transport) : Bytes := t.accepted.flatten

/-- The bytes that a transport has given, one after another. -/
def given (t : Transport) : Bytes := received t.tape

/-- The reads that were issued, in order. -/
def issued (t : Transport) : List Reading := t.accesses.toList.filterMap Access.reading?

/-! ## Reads and writes -/

theorem tape_push {t u : Transport} {a : Access} (h : u.accesses = t.accesses.push a) :
    u.tape = t.tape ++ a.transfers := by
  rw [tape, tape, h, Array.toList_push, List.flatMap_append, List.flatMap_singleton]

/-- **What a read gives is on the tape.** -/
theorem tape_read (t : Transport) (limit : Nat) :
    (t.read limit).2.tape = t.tape ++ Transfer.ofRead (t.read limit).1 :=
  tape_push (a := .read ⟨limit, t.reads.head?⟩) rfl

theorem sent_ofRead (found : Except StreamFault Bytes) : sent (Transfer.ofRead found) = [] := by
  rw [Transfer.ofRead.eq_def]
  split <;> rfl

theorem sent_ofWrite (bytes : Bytes) : sent (Transfer.ofWrite bytes (.ok bytes.length)) = bytes := by
  cases bytes with
  | nil => rfl
  | cons b bytes =>
    change (b :: bytes).take (b :: bytes).length ++ [] = b :: bytes
    rw [List.append_nil, List.take_length]

/-- **What was accepted was sent.** -/
theorem taken_eq (t : Transport) : t.taken = sent t.tape := by
  rw [taken, accepted, List.filterMap_eq_flatMap_toList, ← List.flatMap_id, List.flatMap_assoc, tape, sent,
    List.flatMap_assoc]
  refine List.flatMap_congr fun a _ => ?_
  cases a with
  | read r => exact (sent_ofRead r.answer).symm
  | wrote bytes => exact (List.append_nil _).trans (sent_ofWrite bytes).symm

theorem taken_read (t : Transport) (limit : Nat) : (t.read limit).2.taken = t.taken := by
  rw [taken_eq, taken_eq, tape_read, sent_append, sent_ofRead, List.append_nil]

theorem tape_accept (t : Transport) (bytes : Bytes) :
    (t.accept bytes).tape = t.tape ++ Transfer.ofWrite bytes (.ok bytes.length) :=
  tape_push (a := .wrote bytes) rfl

theorem taken_accept (t : Transport) (bytes : Bytes) : (t.accept bytes).taken = t.taken ++ bytes := by
  rw [taken_eq, taken_eq, tape_accept, sent_append, sent_ofWrite]

/-- A write that takes a part is one of that part. -/
theorem ofWrite_take (offered : Bytes) (n : Nat) :
    Transfer.ofWrite (offered.take n) (.ok (offered.take n).length)
      = Transfer.ofWrite offered (.ok (offered.take n).length) := by
  have hall : (offered.take n).take (offered.take n).length = offered.take n := List.take_length
  have hpart : offered.take (offered.take n).length = offered.take n := by
    rw [List.length_take, ← List.take_eq_take_min]
  cases hlen : (offered.take n).length with
  | zero => rfl
  | succ m =>
    rw [hlen] at hall hpart
    rw [Transfer.ofWrite, Transfer.ofWrite, hall, hpart]

/-- **A write accepts as many bytes as it says**, and they are on the tape. -/
theorem tape_write (t : Transport) (offered : Bytes) :
    (t.write offered).2.tape = t.tape ++ Transfer.ofWrite offered (t.write offered).1 := by
  unfold write
  split
  · exact (List.append_nil _).symm
  · split
    · exact t.tape_accept offered
    · rename_i n rest _
      exact (tape_accept { t with writes := rest } (offered.take n)).trans
        (congrArg (t.tape ++ ·) (ofWrite_take offered n))
    · exact (List.append_nil _).symm

/-! ## A transport in use -/

/-- **A transport is used**: it is read, with so much `room` at a time, written and closed. -/
inductive Used (room : Nat) (t : Transport) : Transport → Prop
  | unused : Used room t t
  | read {u : Transport} (h : Used room t u) : Used room t (u.read room).2
  | write {u : Transport} (h : Used room t u) (offered : Bytes) : Used room t (u.write offered).2
  | close {u : Transport} (h : Used room t u) : Used room t u.close

variable {room : Nat} {t u v : Transport} {crossed more : List Transfer}

theorem Used.trans (h : Used room t u) (k : Used room u v) : Used room t v := by
  induction k with
  | unused => exact h
  | read _ ih => exact ih.read
  | write _ offered ih => exact ih.write offered
  | close _ ih => exact ih.close

/-- A write issues no read. -/
theorem issued_write (t : Transport) (offered : Bytes) : (t.write offered).2.issued = t.issued := by
  have haccept (t : Transport) (bytes : Bytes) : (t.accept bytes).issued = t.issued := by
    simp [accept, issued, Access.reading?]
  unfold write
  split
  · rfl
  · split
    · exact haccept _ _
    · exact haccept { t with writes := _ } _
    · rfl

/-- **Every read of a transport in use is written down, with its room.** -/
theorem Used.issued (h : Used room t u) :
    ∃ more, u.issued = t.issued ++ more ∧ ∀ r ∈ more, r.room = room := by
  induction h with
  | unused => exact ⟨[], (List.append_nil _).symm, List.forall_mem_nil _⟩
  | @read u _ ih =>
    obtain ⟨more, heq, hroom⟩ := ih
    refine ⟨more ++ [⟨room, u.reads.head?⟩], ?_, ?_⟩
    · rw [← List.append_assoc, ← heq]
      simp [Transport.read, Transport.issued, Access.reading?]
    · exact List.forall_mem_append.mpr ⟨hroom, List.forall_mem_singleton.mpr rfl⟩
  | @write u _ offered ih => exact u.issued_write offered ▸ ih
  | close _ ih => exact ih

/-- **What crosses a transport** while it is used, until it is another. -/
structure Crosses (room : Nat) (t : Transport) (crossed : List Transfer) (u : Transport) : Prop where
  used : Used room t u
  tape : u.tape = t.tape ++ crossed

theorem crosses_nothing (room : Nat) (t : Transport) : t.Crosses room [] t :=
  ⟨.unused, (List.append_nil _).symm⟩

theorem crosses_read (t : Transport) (room : Nat) :
    t.Crosses room (Transfer.ofRead (t.read room).1) (t.read room).2 := ⟨.read .unused, t.tape_read room⟩

theorem crosses_write (room : Nat) (t : Transport) (offered : Bytes) :
    t.Crosses room (Transfer.ofWrite offered (t.write offered).1) (t.write offered).2 :=
  ⟨.write .unused offered, t.tape_write offered⟩

namespace Crosses

theorem close (h : t.Crosses room crossed u) : t.Crosses room crossed u.close := ⟨h.used.close, h.tape⟩

theorem trans (h : t.Crosses room crossed u) (k : u.Crosses room more v) :
    t.Crosses room (crossed ++ more) v :=
  ⟨h.used.trans k.used, by rw [k.tape, h.tape, List.append_assoc]⟩

theorem since (h : t.Crosses room crossed u) : u.since t = crossed := by
  rw [Transport.since, h.tape, List.drop_left]

theorem taken (h : t.Crosses room crossed u) : u.taken = t.taken ++ sent crossed := by
  rw [taken_eq, taken_eq, h.tape, sent_append]

theorem given (h : t.Crosses room crossed u) : u.given = t.given ++ received crossed := by
  rw [Transport.given, h.tape, received_append]
  rfl

end Crosses

end Transport

end RespClient

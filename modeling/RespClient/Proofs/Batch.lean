import RespClient.Batch
import Mathlib.Data.List.Perm.Basic
import Mathlib.Tactic.Common

/-!
# Proofs/Batch — a batch fills in any order

    replies    ·  r₁ ·  ·        one received
    replies    r₀ r₁ ·  r₃       three received
    replies    r₀ r₁ r₂ r₃       four received: the batch is finished

A reply takes the place of its command, so it does not matter in which order the places are filled
(`putAll_start`).  A batch counts its replies, and the count tells the last of them (`record_ok`).
-/

namespace RespClient

namespace Batch

variable {κ : Type}

/-- A reply takes its place. -/
def put (b : Batch κ) (index : Nat) (v : Value) : Batch κ :=
  { b with replies := b.replies.setIfInBounds index v, received := b.received + 1 }

/-- **A reply fills a place**, and the last one finishes the batch. -/
theorem record_ok (b : Batch κ) (index : Nat) (v : Value) :
    b.record index (.ok v) =
      if b.received + 1 < b.replies.size then .goesOn (b.put index v)
      else .finished b.owner (.ok (.array (b.put index v).replies.toList)) := by
  rw [record, Array.size_setIfInBounds]
  rfl

/-- Replies take their places one after another. -/
def putAll (b : Batch κ) (got : List (Nat × Value)) : Batch κ :=
  got.foldl (fun b r => b.put r.1 r.2) b

theorem putAll_cons (b : Batch κ) (r : Nat × Value) (got : List (Nat × Value)) :
    b.putAll (r :: got) = (b.put r.1 r.2).putAll got := rfl

theorem size_putAll (b : Batch κ) (got : List (Nat × Value)) :
    (b.putAll got).replies.size = b.replies.size := by
  induction got generalizing b with
  | nil => rfl
  | cons r got ih => exact (ih (b.put r.1 r.2)).trans Array.size_setIfInBounds

theorem putAll_concat (b : Batch κ) (got : List (Nat × Value)) (r : Nat × Value) :
    b.putAll (got ++ [r]) = (b.putAll got).put r.1 r.2 := List.foldl_append

theorem owner_putAll (b : Batch κ) (got : List (Nat × Value)) : (b.putAll got).owner = b.owner := by
  induction got generalizing b with
  | nil => rfl
  | cons r got ih => exact ih (b.put r.1 r.2)

theorem received_putAll (b : Batch κ) (got : List (Nat × Value)) :
    (b.putAll got).received = b.received + got.length := by
  induction got generalizing b with
  | nil => rfl
  | cons r got ih =>
    rw [putAll_cons, ih, List.length_cons, Nat.add_comm got.length, ← Nat.add_assoc]
    rfl

/-- **Each place has the reply to its command**, whichever came first. -/
theorem getElem?_putAll (b : Batch κ) (values : Nat → Value) (order : List Nat) {i : Nat}
    (hi : i < b.replies.size) :
    (b.putAll (order.map fun j => (j, values j))).replies[i]?
      = if i ∈ order then some (values i) else b.replies[i]? := by
  induction order generalizing b with
  | nil => exact (if_neg List.not_mem_nil).symm
  | cons j order ih =>
    have hsize : i < (b.put j (values j)).replies.size := by
      rwa [put, Array.size_setIfInBounds]
    rw [List.map_cons, putAll_cons, ih (b.put j (values j)) hsize]
    by_cases hlater : i ∈ order
    · rw [if_pos hlater, if_pos (List.mem_cons_of_mem j hlater)]
    · rw [if_neg hlater, put, Array.getElem?_setIfInBounds]
      by_cases hij : j = i
      · rw [if_pos hij, if_pos (hij ▸ hi), if_pos (hij ▸ List.mem_cons_self), hij]
      · rw [if_neg hij, if_neg fun hmem => (List.mem_cons.mp hmem).elim (Ne.symm hij) hlater]

/-- **A batch that is full has all replies in place**, in whatever order they came. -/
theorem putAll_start (owner : κ) {n : Nat} (values : Nat → Value) {order : List Nat}
    (h : order.Perm (List.range n)) :
    ((start owner n).putAll (order.map fun i => (i, values i))).replies.toList
      = (List.range n).map values := by
  have hsize : (start owner n).replies.size = n := Array.size_replicate
  refine List.ext_getElem? fun i => ?_
  rw [Array.getElem?_toList]
  by_cases hi : i < n
  · rw [getElem?_putAll _ _ _ (hsize.symm ▸ hi), if_pos (h.mem_iff.mpr (List.mem_range.mpr hi)),
      List.getElem?_map, List.getElem?_range hi, Option.map_some]
  · rw [Nat.not_lt] at hi
    rw [Array.getElem?_eq_none (by rwa [size_putAll, hsize]),
      List.getElem?_eq_none (by rwa [List.length_map, List.length_range])]

end Batch

end RespClient

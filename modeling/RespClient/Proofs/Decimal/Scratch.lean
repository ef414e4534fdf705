import RespClient.Proofs.Decimal
import Mathlib.Algebra.Ring.Int.Defs
import Mathlib.Data.List.Basic
import Mathlib.Data.List.Induction

/-!
# Proofs/Decimal/Scratch — words through a buffer of twenty bytes, and back

    word ──put, put, …──▸ digits, the last first ──turned round──▸ line ──extend, extend, …──▸ word

A word is written into a buffer of its own (`Scratch`), digit by digit from the last to the first, and the
buffer is then turned round.  Nothing in its type makes it long enough: a digit beyond its end is a fault.  No
word has one (`fill?_eq`), and what is written is the **canonical** form, the only digits that spell the number
with no zero in front (`canonical_iff`).  The size of a word fits an unsigned word, that of the least word too
(`toNat_size`).

Reading is refused step by step, and yet only a number that does not fit is refused (`read?_isSome_iff`):
what stands in front of a digit is no greater than what it comes to (`exists_beginning`).
-/

namespace RespClient.Decimal

/-! ## The canonical form -/

/-- **The canonical digits of a number** spell it, with no zero in front, except for zero itself. -/
structure Canonical (digits : Bytes) (n : Nat) : Prop where
  some_digit : digits ≠ []
  all : ∀ b ∈ digits, isDigit b
  value : spelled digits = n
  lead : digits.head? = some (digit 0) → digits = [digit 0]

theorem ofNat_of_lt {n : Nat} (h : n < 10) : ofNat n = [digit n] := by
  rw [ofNat, if_pos h]

theorem ofNat_of_ge {n : Nat} (h : 10 ≤ n) : ofNat n = ofNat (n / 10) ++ [digit n] := by
  rw [ofNat, if_neg (Nat.not_lt.mpr h)]

/-- Zero is the only number that begins with a zero. -/
theorem eq_zero_of_head? {n : Nat} (h : (ofNat n).head? = some (digit 0)) : n = 0 := by
  induction n using Nat.strongRecOn with
  | ind n ih =>
    rcases Nat.lt_or_ge n 10 with hn | hn
    · rw [ofNat_of_lt hn] at h
      have hd := toNat_digit n
      rw [Option.some.inj h] at hd
      have : 0 = n % 10 := hd
      omega
    · rw [ofNat_of_ge hn, List.head?_append_of_ne_nil _ (ofNat_ne_nil _)] at h
      have := ih (n / 10) (by omega) h
      omega

theorem canonical_ofNat (n : Nat) : Canonical (ofNat n) n where
  some_digit := ofNat_ne_nil n
  all := isDigit_of_mem_ofNat n
  value := spelled_ofNat n
  lead h := by rw [eq_zero_of_head? h, ofNat_of_lt (by decide)]

theorem spelled_concat (digits : Bytes) (b : UInt8) :
    spelled (digits ++ [b]) = 10 * spelled digits + (b.toNat - 48) := by
  rw [spelled, spelled, List.foldl_append, List.foldl_cons, List.foldl_nil]

theorem isDigit_iff {b : UInt8} : isDigit b ↔ 48 ≤ b.toNat ∧ b.toNat ≤ 57 := by
  rw [isDigit, Bool.and_eq_true, decide_eq_true_eq, decide_eq_true_eq, UInt8.le_iff_toNat_le,
    UInt8.le_iff_toNat_le]
  rfl

section

variable {front : Bytes} {b : UInt8} {n : Nat} (h : Canonical (front ++ [b]) n)

include h

/-- The last digit is that of the number, and those in front spell its tens. -/
theorem Canonical.last : b = digit n ∧ n / 10 = spelled front := by
  have hvalue := h.value
  rw [spelled_concat] at hvalue
  have hb := isDigit_iff.mp (h.all b (List.mem_append_right _ (List.mem_singleton_self b)))
  refine ⟨UInt8.toNat_inj.mp ?_, by omega⟩
  rw [digit, UInt8.toNat_ofNat']
  omega

/-- Of two digits or more, the first is no zero. -/
theorem Canonical.head_ne (hfront : front ≠ []) : front.head? ≠ some (digit 0) := by
  intro hzero
  have hall := h.lead ((List.head?_append_of_ne_nil front hfront).trans hzero)
  have hlen := congrArg List.length hall
  rw [List.length_append, List.length_singleton, List.length_singleton] at hlen
  exact hfront (List.length_eq_zero_iff.mp (by omega))

end

theorem Canonical.eq_ofNat {digits : Bytes} {n : Nat} (h : Canonical digits n) : digits = ofNat n := by
  induction digits using List.reverseRecOn generalizing n with
  | nil => exact absurd rfl h.some_digit
  | append_singleton front b ih =>
    obtain ⟨rfl, htens⟩ := h.last
    by_cases hfront : front = []
    · subst hfront
      have hn : n < 10 := by
        have : n / 10 = 0 := htens
        omega
      rw [ofNat_of_lt hn]
      rfl
    · have hhead := h.head_ne hfront
      have hih := ih ⟨hfront, fun c hc => h.all c (List.mem_append_left _ hc), htens.symm,
        fun hzero => absurd hzero hhead⟩
      have hpos : n / 10 ≠ 0 := fun hzero => hhead (by
        rw [hih, hzero, ofNat_of_lt (by decide)]
        rfl)
      rw [ofNat_of_ge (by omega), ← hih]

/-- **There is one canonical form.** -/
theorem canonical_iff {digits : Bytes} {n : Nat} : Canonical digits n ↔ digits = ofNat n :=
  ⟨Canonical.eq_ofNat, fun h => h ▸ canonical_ofNat n⟩

/-! ## Written into a buffer -/

/-- **A buffer of twenty bytes**, and how many of them are taken. -/
structure Scratch where
  bytes : Vector UInt8 20 := Vector.replicate 20 0
  taken : Nat := 0

namespace Scratch

/-- One more byte, if there is a place for it. -/
def put? (s : Scratch) (b : UInt8) : Option Scratch :=
  if h : s.taken < 20 then some ⟨s.bytes.set s.taken b, s.taken + 1⟩ else none

/-- **The digits of a word**, the last first. -/
def fill? (s : Scratch) (n : UInt64) : Option Scratch :=
  if _h : n = 0 then some s
  else
    match s.put? (48 + (n % 10).toUInt8) with
    | none => none
    | some s => s.fill? (n / 10)
termination_by n.toNat
decreasing_by
  have hn : n.toNat ≠ 0 := fun h => _h (UInt64.toNat_inj.mp h)
  rw [UInt64.toNat_div]
  exact Nat.div_lt_self (Nat.pos_of_ne_zero hn) (by decide)

/-- What is taken, turned round. -/
def turned (s : Scratch) : Bytes := (s.bytes.toList.take s.taken).reverse

/-- A byte put last stands first in what is turned round. -/
theorem exists_put? {s : Scratch} (h : s.taken < 20) (b : UInt8) :
    ∃ next, s.put? b = some next ∧ next.taken = s.taken + 1 ∧ next.turned = b :: s.turned := by
  refine ⟨_, dif_pos h, rfl, ?_⟩
  have hlen : s.taken < s.bytes.toList.length := by
    rw [Vector.length_toList]
    exact h
  rw [turned, turned, Vector.toList_set, List.take_succ_eq_append_getElem (by simpa using h),
    List.getElem_set_self, List.take_set_of_le (Nat.le_refl _), List.reverse_append]
  rfl

end Scratch

/-- The digits of a number, none for zero. -/
def bare (n : Nat) : Bytes := if n = 0 then [] else ofNat n

theorem bare_of_pos {n : Nat} (h : 0 < n) : bare n = bare (n / 10) ++ [digit n] := by
  rw [bare, if_neg (Nat.ne_of_gt h), bare]
  rcases Nat.lt_or_ge n 10 with hn | hn
  · rw [ofNat_of_lt hn, if_pos (Nat.div_eq_of_lt hn)]
    rfl
  · rw [ofNat_of_ge hn, if_neg (by omega)]

theorem digit_word (n : UInt64) : 48 + (n % 10).toUInt8 = digit n.toNat := by
  refine UInt8.toNat_inj.mp ?_
  rw [digit, UInt8.toNat_add, UInt64.toNat_toUInt8, UInt64.toNat_mod, UInt8.toNat_ofNat']
  change (48 + n.toNat % 10 % 2 ^ 8) % 2 ^ 8 = (48 + n.toNat % 10) % 2 ^ 8
  omega

namespace Scratch

/-- **A buffer with room for the digits** takes them without a fault; turned round, they stand in front of what
it had. -/
theorem fill?_eq {s : Scratch} {n : UInt64} {k : Nat} (hn : n.toNat < 10 ^ k) (hk : s.taken + k ≤ 20) :
    ∃ last, s.fill? n = some last ∧ last.turned = bare n.toNat ++ s.turned := by
  induction k generalizing s n with
  | zero =>
    obtain rfl : n = 0 := UInt64.toNat_inj.mp (Nat.lt_one_iff.mp hn)
    exact ⟨s, by rw [fill?, dif_pos rfl], rfl⟩
  | succ k ih =>
    by_cases hzero : n = 0
    · subst hzero
      exact ⟨s, by rw [fill?, dif_pos rfl], rfl⟩
    · have hpos : 0 < n.toNat := Nat.pos_of_ne_zero fun h => hzero (UInt64.toNat_inj.mp h)
      obtain ⟨next, hput, htaken, hturned⟩ :=
        exists_put? (s := s) (by omega) (48 + (n % 10).toUInt8)
      have hdiv : (n / 10).toNat = n.toNat / 10 := UInt64.toNat_div n 10
      have htens : (n / 10).toNat < 10 ^ k := by
        rw [hdiv]
        exact Nat.div_lt_of_lt_mul (by rwa [Nat.pow_succ, Nat.mul_comm] at hn)
      obtain ⟨last, hlast, hall⟩ := ih (s := next) htens (by omega)
      refine ⟨last, ?_, ?_⟩
      · rw [fill?, dif_neg hzero, hput]
        exact hlast
      · rw [hall, hturned, hdiv, bare_of_pos hpos, digit_word, List.append_assoc]
        rfl

end Scratch

/-- **A word is written**: zero as a digit of its own, any other word digit by digit. -/
def writeWord? (n : UInt64) : Option Bytes :=
  let empty : Scratch := {}
  (if n = 0 then empty.put? 48 else empty.fill? n).map Scratch.turned

theorem writeWord?_eq (n : UInt64) : writeWord? n = some (ofNat n.toNat) := by
  rw [writeWord?]
  by_cases hzero : n = 0
  · subst hzero
    obtain ⟨next, hput, -, hturned⟩ := Scratch.exists_put? (s := {}) (by decide) 48
    rw [if_pos rfl, hput, Option.map_some, hturned, ofNat_of_lt (by decide)]
    rfl
  · have hpos : n.toNat ≠ 0 := fun h => hzero (UInt64.toNat_inj.mp h)
    have hmax : n.toNat < 10 ^ 20 := Nat.lt_trans n.toNat_lt (by decide)
    obtain ⟨last, hfill, hturned⟩ := Scratch.fill?_eq (s := {}) hmax (Nat.le_refl 20)
    rw [if_neg hzero, hfill, Option.map_some, hturned, bare, if_neg hpos]
    exact congrArg some (List.append_nil _)

/-- The size of a signed word, as an unsigned one.  That of the least word has its bits. -/
def size (n : Int64) : UInt64 := n.abs.toUInt64

theorem toNat_size (n : Int64) : (size n).toNat = n.toInt.natAbs := by
  rw [size, ← Int64.toNat_toBitVec, Int64.toBitVec_abs, BitVec.toNat_abs, ← Int64.toInt_toBitVec,
    BitVec.toInt_eq_msb_cond]
  have := n.toBitVec.isLt
  split <;> omega

theorem lt_zero_iff (n : Int64) : n < 0 ↔ n.toInt < 0 := Int64.lt_iff_toInt_lt

/-- **A signed word is written**, with a minus sign in front of a negative one. -/
def writeInt? (n : Int64) : Option Bytes :=
  (writeWord? (size n)).map fun digits => if n < 0 then minus :: digits else digits

theorem writeInt?_eq (n : Int64) : writeInt? n = some (ofInt n.toInt) := by
  rw [writeInt?, writeWord?_eq, Option.map_some, toNat_size, ofInt]
  exact congrArg some (if_congr (lt_zero_iff n) rfl rfl)

/-! ## Read back -/

/-- **The bytes spell an integer**: one digit or more behind an optional minus sign, with any number of zeros
in front. -/
inductive Spelling : Bytes → Int → Prop
  | plain {digits : Bytes} (some_digit : digits ≠ []) (all : ∀ b ∈ digits, isDigit b) :
      Spelling digits (spelled digits)
  | negative {digits : Bytes} (some_digit : digits ≠ []) (all : ∀ b ∈ digits, isDigit b) :
      Spelling (minus :: digits) (-(spelled digits : Int))

theorem numeral_iff_spelling {line : Bytes} {n : Int64} : Numeral line n ↔ Spelling line n.toInt := by
  constructor
  · rintro (⟨hsome, hall, hvalue⟩ | ⟨hsome, hall, hvalue⟩)
    · exact hvalue ▸ .plain hsome hall
    · exact hvalue ▸ .negative hsome hall
  · intro h
    generalize hi : n.toInt = i at h
    rcases h with ⟨hsome, hall⟩ | ⟨hsome, hall⟩
    · exact .plain hsome hall hi
    · exact .negative hsome hall hi

/-- The integers that a signed word holds. -/
theorem exists_toInt_iff {i : Int} : (∃ n : Int64, n.toInt = i) ↔ -2 ^ 63 ≤ i ∧ i < 2 ^ 63 := by
  constructor
  · rintro ⟨n, rfl⟩
    exact ⟨n.le_toInt, n.toInt_lt⟩
  · rintro ⟨hlow, hhigh⟩
    exact ⟨.ofInt i, Int64.toInt_ofInt_of_le hlow hhigh⟩

/-- **What spells an integer that fits is taken**, and nothing else. -/
theorem read?_isSome_iff {line : Bytes} :
    (read? line).isSome ↔ ∃ i, Spelling line i ∧ -2 ^ 63 ≤ i ∧ i < 2 ^ 63 := by
  simp only [Option.isSome_iff_exists, read?_eq_some_iff, numeral_iff_spelling, ← exists_toInt_iff]
  constructor
  · rintro ⟨n, h⟩
    exact ⟨n.toInt, h, n, rfl⟩
  · rintro ⟨i, h, n, rfl⟩
    exact ⟨n, h⟩

theorem spelled_le_append (front back : Bytes) : spelled front ≤ spelled (front ++ back) := by
  rw [spelled, spelled, List.foldl_append]
  exact le_foldl_digits back _

/-- **No step on the way is refused** where the whole fits: each beginning comes to the number it spells. -/
theorem exists_beginning {negative : Bool} {front back : Bytes} {n : Int64}
    (hall : ∀ b ∈ front, isDigit b) (hn : n.toInt = signed negative (spelled (front ++ back))) :
    ∃ w, front.foldlM (extend negative) 0 = some w ∧ w.toInt = signed negative (spelled front) := by
  have hzero : (0 : Int64).toInt = signed negative 0 := by cases negative <;> rfl
  obtain ⟨w, hw⟩ := exists_word_of_le hn (spelled_le_append front back)
  exact ⟨w, (foldlM_extend_eq_some_iff front hzero).mpr ⟨hall, hw⟩, hw⟩

/-! ## The statement -/

/-- **Numbers are written and read exactly.**  A word finds room in twenty bytes and is written in the one
canonical form; a signed word is written as its size behind its sign, and read back.  Of all lines those are
taken that spell an integer within the signed words, each for that integer; and no step before its end is
refused. -/
theorem codec_exact :
    (∀ n : UInt64, writeWord? n = some (ofNat n.toNat) ∧ (ofNat n.toNat).length ≤ 20 ∧
      ∀ digits, Canonical digits n.toNat ↔ digits = ofNat n.toNat) ∧
    (∀ n : Int64, writeInt? n = some (ofInt n.toInt) ∧
      (∃ digits, Canonical digits n.toInt.natAbs ∧
        ofInt n.toInt = if n < 0 then minus :: digits else digits) ∧
      read? (ofInt n.toInt) = some n) ∧
    (∀ line, ((read? line).isSome ↔ ∃ i, Spelling line i ∧ -2 ^ 63 ≤ i ∧ i < 2 ^ 63) ∧
      ∀ n, read? line = some n ↔ Spelling line n.toInt) ∧
    ∀ (negative : Bool) (front back : Bytes) (n : Int64), (∀ b ∈ front, isDigit b) →
      n.toInt = signed negative (spelled (front ++ back)) →
      ∃ w, front.foldlM (extend negative) 0 = some w ∧ w.toInt = signed negative (spelled front) := by
  refine ⟨fun n => ⟨writeWord?_eq n, length_ofNat (by decide) ?_, fun _ => canonical_iff⟩,
    fun n => ⟨writeInt?_eq n, ⟨ofNat n.toInt.natAbs, canonical_ofNat _, ?_⟩, ?_⟩,
    fun line => ⟨read?_isSome_iff, fun n => read?_eq_some_iff.trans numeral_iff_spelling⟩,
    fun _ _ _ _ => exists_beginning⟩
  · exact Nat.lt_trans n.toNat_lt (by decide)
  · exact if_congr (lt_zero_iff n).symm rfl rfl
  · exact read?_eq_some_iff.mpr (numeral_ofInt n)

end RespClient.Decimal

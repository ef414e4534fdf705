import RespClient.Decimal
import Mathlib.Algebra.Ring.Nat
import Mathlib.Data.Option.Basic

/-!
# Proofs/Decimal — which numbers digits spell

Digits spell a natural number, the most significant first (`spelled`).  A **numeral** is one digit or
more behind an optional minus sign, leading zeros allowed (`Numeral`).

* **Reading takes the numerals of the words** and nothing else (`read?_eq_some_iff`): more digits never
  bring a number back that has left the word, so each step may be refused on its own.
* The canonical form is a numeral of its number (`numeral_ofInt`), and a short one (`length_ofInt`).
-/

namespace RespClient.Decimal

/-! ## Digits -/

theorem isDigit_digit (n : Nat) : isDigit (digit n) := by
  have h : n % 10 < 10 := Nat.mod_lt n (by decide)
  have hd : ∀ k < 10, isDigit (UInt8.ofNat (48 + k)) := by decide
  exact hd _ h

theorem isDigit_of_mem_ofNat (n : Nat) : ∀ b ∈ ofNat n, isDigit b := by
  induction n using Nat.strongRecOn with
  | ind n ih =>
    rw [ofNat]
    split
    · intro b hb
      rw [List.mem_singleton.mp hb]
      exact isDigit_digit n
    · intro b hb
      obtain hb | hb := List.mem_append.mp hb
      · exact ih (n / 10) (by omega) b hb
      · rw [List.mem_singleton.mp hb]
        exact isDigit_digit n

/-- The number that digits spell, most significant first. -/
def spelled (digits : Bytes) : Nat := digits.foldl (fun n b => 10 * n + (b.toNat - 48)) 0

theorem toNat_digit (n : Nat) : (digit n).toNat - 48 = n % 10 := by
  have h : n % 10 < 10 := Nat.mod_lt n (by decide)
  rw [digit, UInt8.toNat_ofNat']
  omega

/-- **The canonical form spells the number.** -/
theorem spelled_ofNat (n : Nat) : spelled (ofNat n) = n := by
  induction n using Nat.strongRecOn with
  | ind n ih =>
    rw [ofNat]
    split
    · rw [spelled, List.foldl_cons, List.foldl_nil, toNat_digit]
      omega
    · have h := ih (n / 10) (by omega)
      rw [spelled] at h ⊢
      rw [List.foldl_append, h, List.foldl_cons, List.foldl_nil, toNat_digit]
      omega

theorem ofNat_injective : Function.Injective ofNat := fun m n h => by
  rw [← spelled_ofNat m, h, spelled_ofNat]

theorem ofNat_ne_nil (n : Nat) : ofNat n ≠ [] := by
  rw [ofNat]
  split
  · exact List.cons_ne_nil _ _
  · exact List.append_ne_nil_of_right_ne_nil _ (List.cons_ne_nil _ _)

/-- A number below `10 ^ k` takes `k` digits at most. -/
theorem length_ofNat {n k : Nat} (hk : 0 < k) (h : n < 10 ^ k) : (ofNat n).length ≤ k := by
  induction k generalizing n with
  | zero => exact absurd hk (Nat.lt_irrefl 0)
  | succ k ih =>
    rw [ofNat]
    split
    · exact Nat.succ_pos k
    · rename_i hn
      rw [Nat.pow_succ] at h
      have hpos : 0 < k := by
        rcases k with _ | k
        · omega
        · exact Nat.succ_pos k
      have := ih hpos (n := n / 10) (by omega)
      rw [List.length_append, List.length_singleton]
      omega

/-! ## Numerals -/

/-- **The bytes are a numeral of the word**: one digit or more, behind an optional minus sign. -/
inductive Numeral : Bytes → Int64 → Prop
  | plain {digits : Bytes} {n : Int64} (some_digit : digits ≠ []) (all : ∀ b ∈ digits, isDigit b)
      (value : n.toInt = spelled digits) : Numeral digits n
  | negative {digits : Bytes} {n : Int64} (some_digit : digits ≠ [])
      (all : ∀ b ∈ digits, isDigit b) (value : n.toInt = -(spelled digits : Int)) :
      Numeral (minus :: digits) n

/-- A number with its sign. -/
def signed (negative : Bool) (n : Nat) : Int := if negative then -n else n

theorem word?_eq_some_iff {i : Int} {n : Int64} : word? i = some n ↔ n.toInt = i := by
  unfold word?
  split
  · rename_i h
    rw [Int64.toInt_minValue, Int64.toInt_maxValue] at h
    have hi : (Int64.ofInt i).toInt = i := Int64.toInt_ofInt_of_le h.1 (by omega)
    refine ⟨fun hn => ?_, fun hn => ?_⟩
    · rw [← Option.some.inj hn, hi]
    · rw [← hn, Int64.ofInt_toInt]
  · rename_i h
    refine ⟨fun hn => absurd hn (by simp), fun hn => ?_⟩
    exact absurd ⟨hn ▸ n.minValue_le_toInt, hn ▸ n.toInt_le⟩ h

/-- A number of smaller size and the same sign fits the word as well. -/
theorem exists_word_of_le {negative : Bool} {n : Int64} {m k : Nat}
    (hn : n.toInt = signed negative k) (h : m ≤ k) : ∃ w : Int64, w.toInt = signed negative m := by
  have hlow := n.le_toInt
  have hhigh := n.toInt_lt
  refine ⟨Int64.ofInt (signed negative m), Int64.toInt_ofInt_of_le ?_ ?_⟩
  all_goals
    unfold signed at hn ⊢
    split at hn <;> split <;> omega

/-- **One more digit** is taken if it is a digit and the number stays in the word. -/
theorem extend_eq_some_iff {negative : Bool} {w n : Int64} {m : Nat} {b : UInt8}
    (hw : w.toInt = signed negative m) :
    extend negative w b = some n ↔
      isDigit b ∧ n.toInt = signed negative (10 * m + (b.toNat - 48)) := by
  have htens : w.toInt * 10 = signed negative (10 * m) := by
    rw [hw]
    unfold signed
    split <;> omega
  have hunits (t : Int64) (ht : t.toInt = signed negative (10 * m)) :
      (if negative then t.toInt - (b.toNat - 48 : Nat) else t.toInt + (b.toNat - 48 : Nat))
        = signed negative (10 * m + (b.toNat - 48)) := by
    rw [ht]
    unfold signed
    split <;> omega
  simp only [extend, Option.bind_eq_bind, Option.bind_eq_some_iff, Option.guard_eq_some',
    exists_const, word?_eq_some_iff]
  constructor
  · rintro ⟨hb, t, ht, hn⟩
    exact ⟨hb, hn.trans (hunits t (ht.trans htens))⟩
  · rintro ⟨hb, hn⟩
    obtain ⟨t, ht⟩ := exists_word_of_le hn (Nat.le_add_right (10 * m) _)
    exact ⟨hb, t, ht.trans htens.symm, hn.trans (hunits t ht).symm⟩

/-- Digits behind a number make it no smaller. -/
theorem le_foldl_digits (digits : Bytes) (m : Nat) :
    m ≤ digits.foldl (fun n b => 10 * n + (b.toNat - 48)) m := by
  induction digits generalizing m with
  | nil => exact Nat.le_refl m
  | cons b digits ih =>
    have := ih (10 * m + (b.toNat - 48))
    rw [List.foldl_cons]
    omega

/-- **Digit after digit** is taken if all are digits and the number they come to fits the word. -/
theorem foldlM_extend_eq_some_iff {negative : Bool} {w n : Int64} {m : Nat} (digits : Bytes)
    (hw : w.toInt = signed negative m) :
    digits.foldlM (extend negative) w = some n ↔ (∀ b ∈ digits, isDigit b) ∧
      n.toInt = signed negative (digits.foldl (fun n b => 10 * n + (b.toNat - 48)) m) := by
  induction digits generalizing w m with
  | nil =>
    rw [List.foldlM_nil, List.foldl_nil, ← hw, Int64.toInt_inj]
    refine ⟨fun h => ⟨fun b hb => absurd hb List.not_mem_nil, (Option.some.inj h).symm⟩, ?_⟩
    rintro ⟨-, rfl⟩
    rfl
  | cons b digits ih =>
    rw [List.foldlM_cons, Option.bind_eq_bind, Option.bind_eq_some_iff, List.foldl_cons,
      List.forall_mem_cons]
    constructor
    · rintro ⟨t, ht, hn⟩
      obtain ⟨hb, ht⟩ := (extend_eq_some_iff hw).mp ht
      obtain ⟨hall, hn⟩ := (ih ht).mp hn
      exact ⟨⟨hb, hall⟩, hn⟩
    · rintro ⟨⟨hb, hall⟩, hn⟩
      obtain ⟨t, ht⟩ := exists_word_of_le hn (le_foldl_digits digits _)
      exact ⟨t, (extend_eq_some_iff hw).mpr ⟨hb, ht⟩, (ih ht).mpr ⟨hall, hn⟩⟩

theorem minus_not_digit : isDigit minus = false := by decide

/-- **Reading takes exactly the numerals.** -/
theorem read?_eq_some_iff {line : Bytes} {n : Int64} : read? line = some n ↔ Numeral line n := by
  rcases line with _ | ⟨first, rest⟩
  · constructor
    · intro h
      cases h
    · rintro ⟨hne, -, -⟩
      exact absurd rfl hne
  · have hzero (negative : Bool) : (0 : Int64).toInt = signed negative 0 := by
      cases negative <;> rfl
    by_cases hm : first = minus
    · subst hm
      have hr : read? (minus :: rest)
          = if rest.isEmpty then none else rest.foldlM (extend true) 0 := by simp [read?]
      rw [hr]
      constructor
      · intro h
        split at h
        · cases h
        · rename_i hne
          obtain ⟨hall, hn⟩ := (foldlM_extend_eq_some_iff rest (hzero true)).mp h
          exact .negative (by simpa using hne) hall hn
      · rintro (⟨-, hall, -⟩ | ⟨hne, hall, hn⟩)
        · exact absurd (hall minus List.mem_cons_self) (by simp [minus_not_digit])
        · rw [if_neg (by simpa using hne)]
          exact (foldlM_extend_eq_some_iff rest (hzero true)).mpr ⟨hall, hn⟩
    · have hr : read? (first :: rest) = (first :: rest).foldlM (extend false) 0 := by
        simp [read?, hm]
      rw [hr, foldlM_extend_eq_some_iff _ (hzero false)]
      constructor
      · rintro ⟨hall, hn⟩
        exact .plain (List.cons_ne_nil _ _) hall hn
      · intro h
        generalize hl : first :: rest = line at h
        rcases h with ⟨-, hall, hn⟩ | ⟨-, -, -⟩
        · exact ⟨hall, hn⟩
        · exact absurd (List.cons.inj hl).1 hm

/-! ## The canonical form is a numeral -/

theorem numeral_ofNat {n : Nat} {w : Int64} (h : w.toInt = n) : Numeral (ofNat n) w :=
  .plain (ofNat_ne_nil n) (isDigit_of_mem_ofNat n) (by rw [h, spelled_ofNat])

/-- **The canonical form of a word is a numeral of it.** -/
theorem numeral_ofInt (n : Int64) : Numeral (ofInt n.toInt) n := by
  rw [ofInt]
  split
  · refine .negative (ofNat_ne_nil _) (isDigit_of_mem_ofNat _) ?_
    rw [spelled_ofNat]
    omega
  · exact numeral_ofNat (by omega)

/-- The canonical form of a word takes twenty bytes at most. -/
theorem length_ofInt (n : Int64) : (ofInt n.toInt).length ≤ 20 := by
  have hlow := n.le_toInt
  have hhigh := n.toInt_lt
  have hdigits : (ofNat n.toInt.natAbs).length ≤ 19 := length_ofNat (by decide) (by omega)
  rw [ofInt]
  split
  · rw [List.length_cons]
    omega
  · omega

/-- A numeral holds digits and minus signs only. -/
theorem Numeral.isDigit {line : Bytes} {n : Int64} (h : Numeral line n) :
    ∀ b ∈ line, b = minus ∨ isDigit b := by
  intro b hb
  rcases h with ⟨-, hall, -⟩ | ⟨-, hall, -⟩
  · exact .inr (hall b hb)
  · rcases List.mem_cons.mp hb with rfl | hb
    · exact .inl rfl
    · exact .inr (hall b hb)

end RespClient.Decimal

import RespClient.Proofs.Wire.Reading

/-!
# Proofs/Wire/Hearing — waiting for so many values, read by read

    reads      r₁      r₂            r₃
    values     v₁ │ v₂      v₃ │ ✗             enough for two after r₂, for three never

Whoever waits for `n` values stops with the first read after which they are all there, or with the first
that is malformed (`hear`).  A read that completes the values and goes wrong behind them counts as
malformed, so where the stream is cut plays a part in this one case: the values are `Clean` if some read
ends between the last of them and the fault.  Apart from that only the whole stream matters
(`hear_alike_iff`).
-/

namespace RespClient

/-- **What comes of waiting for values.** -/
inductive Hearing
  /-- They are there. -/
  | enough (values : List Value)
  /-- The stream went wrong. -/
  | broken (cause : Malformed)
  /-- Nothing more comes. -/
  | silence
deriving DecidableEq

namespace Hearing

/-- The same, up to the number of bytes seen of a line too long. -/
inductive Alike : Hearing → Hearing → Prop
  | enough (values : List Value) : Alike (.enough values) (.enough values)
  | broken {a b : Malformed} (h : a.Alike b) : Alike (.broken a) (.broken b)
  | silence : Alike .silence .silence

theorem Alike.symm {h k : Hearing} (hk : h.Alike k) : k.Alike h := by
  cases hk with
  | enough values => exact .enough values
  | broken ha => exact .broken ha.symm
  | silence => exact .silence

theorem Alike.trans {h k l : Hearing} (hk : h.Alike k) (kl : k.Alike l) : h.Alike l := by
  cases hk with
  | enough values => exact kl
  | broken ha =>
    cases kl with
    | broken hb => exact .broken (ha.trans hb)
  | silence => exact kl

/-- What is heard of a stream that does not hold what is waited for. -/
def ofFault : Option Malformed → Hearing
  | some cause => .broken cause
  | none => .silence

theorem alike_ofFault {a? b? : Option Malformed} (h : Option.Rel Malformed.Alike a? b?) :
    (ofFault a?).Alike (ofFault b?) := by
  cases h with
  | some h => exact .broken h
  | none => exact .silence

/-- Whether it holds what is waited for. -/
def isEnough : Hearing → Bool
  | enough _ => true
  | _ => false

theorem Alike.isEnough {h k : Hearing} (hk : h.Alike k) : h.isEnough = k.isEnough := by
  cases hk <;> rfl

theorem isEnough_ofFault (cause? : Option Malformed) : (ofFault cause?).isEnough = false := by
  cases cause? <;> rfl

end Hearing

namespace Decoder

/-- **Reads until `n` values are there**, those that came before included. -/
def hear (n : Nat) (d : Decoder) (got : List Value) : List Bytes → Hearing
  | [] => .silence
  | r :: rs =>
    match d.fault? r with
    | some cause => .broken cause
    | none =>
      if n ≤ (got ++ d.values r).length then .enough ((got ++ d.values r).take n)
      else (d.after r).hear n (got ++ d.values r) rs

/-- **A read ends with all values there and no fault seen.** -/
def Clean (n : Nat) (d : Decoder) (got : List Value) (rs : List Bytes) : Prop :=
  ∃ k, n ≤ (got ++ d.values (rs.take k).flatten).length ∧ d.fault? (rs.take k).flatten = none

variable {n : Nat} {d : Decoder} {got : List Value} {r : Bytes} {rs ts : List Bytes}

/-- What is not there yet is not there before the first read. -/
theorem not_enough_nil (hlt : got.length < n) : ¬ n ≤ (got ++ d.values []).length := by
  rw [(read_nil d).1, List.append_nil]
  exact Nat.not_le.mpr hlt

theorem clean_cons_of_fault {cause : Malformed} (hlt : got.length < n) (hr : d.fault? r = some cause) :
    ¬ d.Clean n got (r :: rs) := by
  rintro ⟨k, hk, hnone⟩
  cases k with
  | zero => exact not_enough_nil hlt hk
  | succ k =>
    rw [List.take_succ_cons, List.flatten_cons] at hnone
    obtain ⟨-, a, ha, -⟩ := read_append_of_fault hr (rs.take k).flatten
    cases ha.symm.trans hnone

theorem clean_cons (hlt : got.length < n) (hr : d.fault? r = none) :
    d.Clean n got (r :: rs) ↔ n ≤ (got ++ d.values r).length ∨
      (d.after r).Clean n (got ++ d.values r) rs := by
  have happend (k : Nat) := read_append hr (rs.take k).flatten
  constructor
  · rintro ⟨k, hk, hnone⟩
    cases k with
    | zero => exact absurd hk (not_enough_nil hlt)
    | succ k =>
      rw [List.take_succ_cons, List.flatten_cons] at hk hnone
      obtain ⟨hvalues, hfault, -⟩ := happend k
      rw [hvalues, ← List.append_assoc] at hk
      exact .inr ⟨k, hk, (Malformed.Alike.none_iff hfault).mp hnone⟩
  · rintro (hk | ⟨k, hk, hnone⟩)
    · refine ⟨1, ?_, ?_⟩
      · simpa using hk
      · simpa using hr
    · obtain ⟨hvalues, hfault, -⟩ := happend k
      refine ⟨k + 1, ?_, ?_⟩
      · rw [List.take_succ_cons, List.flatten_cons, hvalues, ← List.append_assoc]
        exact hk
      · rw [List.take_succ_cons, List.flatten_cons]
        exact (Malformed.Alike.none_iff hfault).mpr hnone

/-- **What is heard of a stream**: its first `n` values if a read ends cleanly behind them, and otherwise
its fault, or nothing. -/
theorem hear_eq (rs : List Bytes) (hlt : got.length < n) :
    (d.Clean n got rs → d.hear n got rs = .enough ((got ++ d.values rs.flatten).take n)) ∧
      (¬ d.Clean n got rs → (d.hear n got rs).Alike (.ofFault (d.fault? rs.flatten))) := by
  induction rs generalizing d got with
  | nil =>
    refine ⟨fun ⟨k, hk, _⟩ => ?_, fun _ => ?_⟩
    · rw [List.take_nil] at hk
      exact absurd hk (not_enough_nil hlt)
    · rw [List.flatten_nil, (read_nil d).2.1]
      exact .silence
  | cons r rs ih =>
    cases hr : d.fault? r with
    | some cause =>
      have hnot : ¬ d.Clean n got (r :: rs) := clean_cons_of_fault hlt hr
      obtain ⟨-, seen, hseen, halike⟩ := read_append_of_fault hr rs.flatten
      rw [List.flatten_cons, hseen, hear, hr]
      exact ⟨fun h => absurd h hnot, fun _ => .broken halike⟩
    | none =>
      obtain ⟨hvalues, hfault, -⟩ := read_append hr rs.flatten
      rw [clean_cons hlt hr, List.flatten_cons, hvalues, ← List.append_assoc, hear, hr]
      dsimp only
      by_cases henough : n ≤ (got ++ d.values r).length
      · rw [if_pos henough, List.take_append_of_le_length henough]
        exact ⟨fun _ => rfl, fun hnot => absurd (.inl henough) hnot⟩
      · obtain ⟨hclean, hunclean⟩ := ih (d := d.after r) (Nat.not_le.mp henough)
        rw [if_neg henough]
        refine ⟨fun h => hclean (h.resolve_left henough), fun hnot => ?_⟩
        exact (hunclean fun h => hnot (.inr h)).trans (Hearing.alike_ofFault hfault).symm

/-- **The values are heard** if, and only if, a read ends cleanly behind them. -/
theorem isEnough_hear (hlt : got.length < n) : (d.hear n got rs).isEnough ↔ d.Clean n got rs := by
  obtain ⟨hclean, hunclean⟩ := hear_eq (d := d) rs hlt
  by_cases h : d.Clean n got rs
  · rw [hclean h]
    exact iff_of_true rfl h
  · rw [(hunclean h).isEnough, Hearing.isEnough_ofFault]
    exact iff_of_false Bool.false_ne_true h

/-- **Only one cut matters**: two ways to read a stream come to the same if, and only if, the values are
clean in both of them or in neither. -/
theorem hear_alike_iff (hlt : got.length < n) (h : rs.flatten = ts.flatten) :
    (d.hear n got rs).Alike (d.hear n got ts) ↔ (d.Clean n got rs ↔ d.Clean n got ts) := by
  constructor
  · intro halike
    rw [← isEnough_hear hlt, ← isEnough_hear hlt, halike.isEnough]
  · intro hiff
    obtain ⟨hrs, hrs'⟩ := hear_eq (d := d) rs hlt
    obtain ⟨hts, hts'⟩ := hear_eq (d := d) ts hlt
    rw [h] at hrs hrs'
    by_cases hr : d.Clean n got rs
    · rw [hrs hr, hts (hiff.mp hr)]
      exact .enough _
    · exact (hrs' hr).trans (hts' fun ht => hr (hiff.mpr ht)).symm

/-- Of a stream without a fault the last read is clean if any is. -/
theorem clean_iff_of_sound (h : d.fault? rs.flatten = none) :
    d.Clean n got rs ↔ n ≤ (got ++ d.values rs.flatten).length := by
  constructor
  · rintro ⟨k, hk, hnone⟩
    have hsplit : rs.flatten = (rs.take k).flatten ++ (rs.drop k).flatten := by
      rw [← List.flatten_append, List.take_append_drop]
    rw [hsplit, (read_append hnone _).1, ← List.append_assoc, List.length_append]
    exact Nat.le_trans hk (Nat.le_add_right _ _)
  · intro hn
    refine ⟨rs.length, ?_, ?_⟩
    · rwa [List.take_length]
    · rwa [List.take_length]

/-- Values that are not all in the stream are never clean. -/
theorem not_clean_of_lt (h : (got ++ d.values rs.flatten).length < n) : ¬ d.Clean n got rs := by
  rintro ⟨k, hk, hnone⟩
  have hsplit : rs.flatten = (rs.take k).flatten ++ (rs.drop k).flatten := by
    rw [← List.flatten_append, List.take_append_drop]
  rw [hsplit, (read_append hnone _).1, ← List.append_assoc, List.length_append] at h
  omega

end Decoder

end RespClient

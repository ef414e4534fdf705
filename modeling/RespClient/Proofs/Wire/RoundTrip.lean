import RespClient.Proofs.Wire.Grammar

/-!
# Proofs/Wire/RoundTrip — which values survive the wire

A value comes back as it was sent exactly if each refusal in it fits a line, without a CR, and each
string in it fits a bulk string (`parse_reply`).

* What is written of such a value derives it in the grammar (`derives_reply`).
* The grammar derives no other value (`fits_of_derives`), so a value that does not fit is lost wherever
  in it the misfit stands, and whatever its bytes are taken for instead.
-/

namespace RespClient

open Wire Decoder

namespace Value

/-! ## Values inside a value -/

/-- **A value inside another**, at any depth. -/
inductive Inside : Value → Value → Prop
  | self (v : Value) : Inside v v
  | item {u w : Value} {items : List Value} (hw : w ∈ items) (h : Inside u w) :
      Inside u (.array items)

/-- What holds of a value and of all values inside it. -/
def Everywhere (p : Value → Prop) (v : Value) : Prop := ∀ u, Inside u v → p u

section

variable {p : Value → Prop}

theorem everywhere_array_iff {items : List Value} :
    Everywhere p (.array items) ↔ p (.array items) ∧ ∀ w ∈ items, Everywhere p w := by
  constructor
  · intro h
    exact ⟨h _ (.self _), fun w hw u hu => h u (.item hw hu)⟩
  · rintro ⟨hself, hitems⟩ u hu
    rcases hu with _ | ⟨hw, hu⟩
    · exact hself
    · exact hitems _ hw u hu

/-- A value that is no array holds nothing but itself. -/
theorem everywhere_iff {v : Value} (hv : ∀ items, v ≠ .array items) : Everywhere p v ↔ p v := by
  constructor
  · intro h
    exact h v (.self v)
  · intro h u hu
    rcases hu with _ | ⟨_, _⟩
    · exact h
    · exact absurd rfl (hv _)

variable [DecidablePred p]

mutual
/-- A property holds everywhere in a value or not. -/
def decEverywhere : (v : Value) → Decidable (Everywhere p v)
  | .array items =>
    have := decEverywhereAll items
    decidable_of_iff' _ everywhere_array_iff
  | .null => decidable_of_iff' _ (everywhere_iff nofun)
  | .integer _ => decidable_of_iff' _ (everywhere_iff nofun)
  | .bytes _ => decidable_of_iff' _ (everywhere_iff nofun)
  | .error _ => decidable_of_iff' _ (everywhere_iff nofun)

/-- A property holds everywhere in some values or not. -/
def decEverywhereAll : (vs : List Value) → Decidable (∀ w ∈ vs, Everywhere p w)
  | [] => .isTrue fun _ hw => absurd hw List.not_mem_nil
  | v :: vs =>
    have := decEverywhere v
    have := decEverywhereAll vs
    decidable_of_iff' _ List.forall_mem_cons
end

instance (v : Value) : Decidable (Everywhere p v) := decEverywhere v

end

/-- A refusal fits a line, and a string a bulk string. -/
def Fits : Value → Prop
  | .error message => IsText message
  | .bytes data => data.length ≤ maxBulk
  | _ => True

/-- The length of an array fits a word. -/
def HasCount : Value → Prop
  | .array items => items.length < 2 ^ 63
  | _ => True

instance : DecidablePred Fits
  | .error message => inferInstanceAs (Decidable (IsText message))
  | .bytes data => inferInstanceAs (Decidable (data.length ≤ maxBulk))
  | .null | .integer _ | .array _ => inferInstanceAs (Decidable True)

instance : DecidablePred HasCount
  | .array items => inferInstanceAs (Decidable (items.length < 2 ^ 63))
  | .null | .integer _ | .bytes _ | .error _ => inferInstanceAs (Decidable True)

end Value

/-! ## What is written derives -/

namespace Wire

/-- A numeral that is short is the text of a line. -/
theorem isText_of_numeral {text : Bytes} {n : Int64} (h : Decimal.Numeral text n)
    (hlen : text.length ≤ maxLine) : IsText text := by
  refine ⟨hlen, fun hcr => ?_⟩
  rcases h.isDigit cr hcr with hminus | hdigit
  · exact absurd hminus (by decide)
  · exact absurd hdigit (by decide)

theorem isText_ofInt (n : Int64) : IsText (Decimal.ofInt n.toInt) := by
  have hlen := Decimal.length_ofInt n
  have hmax : 20 ≤ maxLine := by decide
  exact isText_of_numeral (Decimal.numeral_ofInt n) (by omega)

theorem declares_ofNat {length : Nat} (h : length < 2 ^ 63) :
    Declares (Decimal.ofNat length) length := by
  have hn : (Int64.ofInt length).toInt = length := Int64.toInt_ofInt_of_le (by omega) (by omega)
  have hform : Decimal.ofInt (Int64.ofInt length).toInt = Decimal.ofNat length := by
    rw [hn, Decimal.ofInt, if_neg (by omega), Int.natAbs_natCast]
  rw [← hform]
  exact ⟨isText_ofInt _, _, Decimal.numeral_ofInt _, hn⟩

mutual
/-- **What is written of a value derives it.** -/
theorem derives_reply (v : Value) (hs : v.Everywhere Value.Fits) (hc : v.Everywhere Value.HasCount) :
    Derives (reply v) v := by
  have hfits : v.Fits := hs v (.self v)
  have hcount : v.HasCount := hc v (.self v)
  rcases v with _ | n | data | items | message
  · rw [reply_null]
    exact .absentBulk (isText_ofInt (-1)) (Decimal.numeral_ofInt (-1))
  · rw [reply_integer]
    exact .integer (isText_ofInt n) (Decimal.numeral_ofInt n)
  · have hmax : data.length ≤ maxBulk := hfits
    have hword : maxBulk < 2 ^ 63 := by decide
    rw [reply_bytes, bulk]
    exact .bulk (declares_ofNat (by omega)) hmax
  · have hall := derivesAll_replies items (Value.everywhere_array_iff.mp hs).2
      (Value.everywhere_array_iff.mp hc).2
    rw [reply_array]
    exact .array (declares_ofNat hcount) hall
  · rw [reply_error]
    exact .error hfits

theorem derivesAll_replies (vs : List Value) (hs : ∀ w ∈ vs, w.Everywhere Value.Fits)
    (hc : ∀ w ∈ vs, w.Everywhere Value.HasCount) : DerivesAll (replies vs) vs := by
  rcases vs with _ | ⟨v, vs⟩
  · exact .nil
  · rw [List.forall_mem_cons] at hs hc
    rw [replies_cons]
    exact .cons (derives_reply v hs.1 hc.1) (derivesAll_replies vs hs.2 hc.2)
end

/-! ## What derives can be sent -/

theorem DerivesAll.exists_derives {bytes : Bytes} {vs : List Value} (h : DerivesAll bytes vs) :
    ∀ w ∈ vs, ∃ bytes, Derives bytes w := by
  induction vs generalizing bytes with
  | nil => exact fun w hw => absurd hw List.not_mem_nil
  | cons v vs ih =>
    rcases h with _ | ⟨hv, hvs⟩
    exact List.forall_mem_cons.mpr ⟨⟨_, hv⟩, ih hvs⟩

/-- **A value inside one that derives** derives. -/
theorem exists_derives_of_inside {bytes : Bytes} {u v : Value} (hu : Value.Inside u v)
    (h : Derives bytes v) : ∃ bytes, Derives bytes u := by
  induction hu generalizing bytes with
  | self => exact ⟨bytes, h⟩
  | item hw _ ih =>
    rcases h with _ | _ | _ | _ | _ | _ | ⟨-, hs⟩
    obtain ⟨bytes, hderives⟩ := hs.exists_derives _ hw
    exact ih hderives

/-- **Whatever is read can be sent.** -/
theorem fits_of_derives {bytes : Bytes} {v : Value} (h : Derives bytes v) :
    v.Everywhere Value.Fits := by
  intro u hu
  obtain ⟨bytes, hderives⟩ := exists_derives_of_inside hu h
  rcases hderives with ht | ht | _ | _ | _ | ⟨-, hmax⟩ | _
  · have hbulk : maxLine ≤ maxBulk := by decide
    exact Nat.le_trans ht.length_le hbulk
  · exact ht
  · trivial
  · trivial
  · trivial
  · exact hmax
  · trivial

/-- No array that is read is longer than a word can say. -/
theorem hasCount_of_derives {bytes : Bytes} {v : Value} (h : Derives bytes v) :
    v.Everywhere Value.HasCount := by
  intro u hu
  obtain ⟨bytes, hderives⟩ := exists_derives_of_inside hu h
  rcases hderives with _ | _ | _ | _ | _ | _ | ⟨⟨-, n, -, hlen⟩, -⟩
  case array items =>
    have hword := n.toInt_lt
    rw [hlen] at hword
    exact Int.ofNat_lt.mp hword
  all_goals trivial

end Wire

/-! ## There and back -/

namespace Decoder

/-- **A value comes back as it was sent exactly if it fits the wire everywhere**, whatever comes after
it. -/
theorem parse_reply (v : Value) (hv : v.Everywhere Value.HasCount) :
    (v.Everywhere Value.Fits → ∀ rest,
        empty.Yields (reply v ++ rest) (reply v).length v ∧
          (empty.parse (reply v ++ rest)).2.2.depth = 0) ∧
      (¬ v.Everywhere Value.Fits → ∀ rest, ¬ empty.Yields (reply v ++ rest) (reply v).length v) := by
  constructor
  · intro hs rest
    have hd := derives_reply v hs hv
    refine ⟨yields_empty_iff.mpr ⟨?_, ?_⟩, ?_⟩
    · rw [List.length_append]
      exact Nat.le_add_right _ _
    · rw [List.take_left]
      exact hd
    · rw [parse_of_derives hd]
      rfl
  · intro hs rest hy
    exact hs (fits_of_derives (yields_empty_iff.mp hy).2)

/-- The end of a line inside a string. -/
def sound : Value := .array [.error (Utf8.encode "ERR"), .array [.bytes crlf, .null], .integer (-42)]

/-- The end of a line inside a refusal. -/
def torn : Value := .array [.integer 1, .array [.error (Utf8.encode "ERR" ++ crlf)]]

theorem parse_reply_sound :
    (sound.Everywhere Value.HasCount ∧ sound.Everywhere Value.Fits ∧
        ∀ rest, empty.Yields (reply sound ++ rest) (reply sound).length sound ∧
          (empty.parse (reply sound ++ rest)).2.2.depth = 0) ∧
      torn.Everywhere Value.HasCount ∧ ¬ torn.Everywhere Value.Fits ∧
        ∀ rest, ¬ empty.Yields (reply torn ++ rest) (reply torn).length torn := by
  have hsound : sound.Everywhere Value.HasCount := by decide +kernel
  have htorn : torn.Everywhere Value.HasCount := by decide +kernel
  have hfits : sound.Everywhere Value.Fits := by decide +kernel
  have hnot : ¬ torn.Everywhere Value.Fits := by decide +kernel
  exact ⟨⟨hsound, hfits, (parse_reply sound hsound).1 hfits⟩,
    htorn, hnot, (parse_reply torn htorn).2 hnot⟩

end Decoder

end RespClient

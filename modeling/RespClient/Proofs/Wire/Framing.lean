import RespClient.Command
import RespClient.Proofs.Decimal

/-!
# Proofs/Wire/Framing — where a command ends

A length is written in digits and ends with CR, so it cannot be mistaken for another one; what it
announces is then counted off.  Hence no command begins another (`prefixFree_encode`), and whoever reads
a stream of commands finds the first of them (`exists_cons_of_append_eq`), and in the end all of them
(`PrefixFree.flatMap_injective`), whatever bytes the arguments hold.
-/

namespace RespClient

namespace Wire

/-- **No form begins another**: bytes that begin with the form of something do so in one way. -/
def PrefixFree {τ : Type} (f : τ → Bytes) : Prop :=
  ∀ ⦃a b : τ⦄ ⦃x y : Bytes⦄, f a ++ x = f b ++ y → a = b ∧ x = y

section

variable {τ : Type} {f : τ → Bytes} (hf : PrefixFree f) (hne : ∀ a, f a ≠ [])

include hf hne

/-- **The first form of a stream** is the one it begins with. -/
theorem PrefixFree.exists_cons {a : τ} {rest : Bytes} {as : List τ} (h : f a ++ rest = as.flatMap f) :
    ∃ as', as = a :: as' ∧ rest = as'.flatMap f := by
  cases as with
  | nil => exact absurd (List.append_eq_nil_iff.mp h).1 (hne a)
  | cons b as =>
    obtain ⟨rfl, hrest⟩ := hf (h.trans (List.flatMap_cons ..))
    exact ⟨as, rfl, hrest⟩

/-- **A stream of forms** is read in one way. -/
theorem PrefixFree.flatMap_injective {as bs : List τ} (h : as.flatMap f = bs.flatMap f) : as = bs := by
  induction as generalizing bs with
  | nil =>
    cases bs with
    | nil => rfl
    | cons b bs => exact absurd (List.append_eq_nil_iff.mp h.symm).1 (hne b)
  | cons a as ih =>
    obtain ⟨bs, rfl, hrest⟩ := hf.exists_cons hne h
    rw [ih hrest]

end

theorem cr_notMem_ofNat (n : Nat) : cr ∉ Decimal.ofNat n := fun h =>
  absurd (Decimal.isDigit_of_mem_ofNat n cr h) (by decide)

/-- Text without CR ends at the first CR. -/
theorem append_cr_inj {s t x y : Bytes} (hs : cr ∉ s) (ht : cr ∉ t)
    (h : s ++ cr :: x = t ++ cr :: y) : s = t ∧ x = y := by
  induction s generalizing t with
  | nil =>
    cases t with
    | nil => exact ⟨rfl, (List.cons.inj h).2⟩
    | cons b t => exact absurd ((List.cons.inj h).1 ▸ List.mem_cons_self) ht
  | cons a s ih =>
    cases t with
    | nil => exact absurd ((List.cons.inj h).1 ▸ List.mem_cons_self) hs
    | cons b t =>
      obtain ⟨rfl, htail⟩ := List.cons.inj h
      obtain ⟨rfl, hxy⟩ := ih (fun hm => hs (List.mem_cons_of_mem a hm))
        (fun hm => ht (List.mem_cons_of_mem a hm)) htail
      exact ⟨rfl, hxy⟩

/-- A line that holds a length. -/
theorem prefixFree_lengthLine (mark : UInt8) : PrefixFree fun n => line mark (Decimal.ofNat n) := by
  intro m n x y h
  simp only [line, crlf, List.cons_append, List.append_assoc, List.nil_append] at h
  obtain ⟨hd, hxy⟩ := append_cr_inj (cr_notMem_ofNat m) (cr_notMem_ofNat n) (List.cons.inj h).2
  exact ⟨Decimal.ofNat_injective hd, (List.cons.inj hxy).2⟩

theorem prefixFree_bulk : PrefixFree bulk := by
  intro a b x y h
  simp only [bulk, List.append_assoc] at h
  obtain ⟨hlen, h⟩ := prefixFree_lengthLine bulkMark h
  obtain ⟨rfl, htail⟩ := List.append_inj h hlen
  exact ⟨rfl, List.append_cancel_left htail⟩

/-- Equally many bulk strings. -/
theorem flatMap_bulk_inj {as bs : List Bytes} {x y : Bytes} (hlen : as.length = bs.length)
    (h : as.flatMap bulk ++ x = bs.flatMap bulk ++ y) : as = bs ∧ x = y := by
  induction as generalizing bs with
  | nil =>
    obtain rfl := List.eq_nil_of_length_eq_zero hlen.symm
    exact ⟨rfl, h⟩
  | cons a as ih =>
    obtain ⟨b, bs, rfl⟩ := List.exists_cons_of_length_eq_add_one hlen.symm
    rw [List.flatMap_cons, List.flatMap_cons, List.append_assoc, List.append_assoc] at h
    obtain ⟨rfl, htail⟩ := prefixFree_bulk h
    obtain ⟨rfl, hxy⟩ := ih (Nat.succ.inj hlen) htail
    exact ⟨rfl, hxy⟩

theorem prefixFree_command : PrefixFree command := by
  intro as bs x y h
  rw [command, command, List.append_assoc, List.append_assoc] at h
  obtain ⟨hlen, h⟩ := prefixFree_lengthLine arrayMark h
  exact flatMap_bulk_inj hlen h

theorem command_ne_nil (arguments : List Bytes) : command arguments ≠ [] := List.cons_ne_nil _ _

end Wire

namespace Command

/-- **No command begins another.** -/
theorem prefixFree_encode : Wire.PrefixFree encode := by
  rintro ⟨name, operands⟩ ⟨name', operands'⟩ x y h
  obtain ⟨ha, hxy⟩ := Wire.prefixFree_command h
  obtain ⟨rfl, rfl⟩ := List.cons.inj ha
  exact ⟨rfl, hxy⟩

theorem encode_ne_nil (c : Command) : c.encode ≠ [] := Wire.command_ne_nil c.arguments

/-- **The first command of a stream** is the one it begins with. -/
theorem exists_cons_of_append_eq {c : Command} {rest : Bytes} {cs : List Command}
    (h : c.encode ++ rest = cs.flatMap encode) :
    ∃ cs', cs = c :: cs' ∧ rest = cs'.flatMap encode := prefixFree_encode.exists_cons encode_ne_nil h

/-- **A stream of commands** is read in one way. -/
theorem flatMap_encode_injective {cs cs' : List Command} (h : cs.flatMap encode = cs'.flatMap encode) :
    cs = cs' := prefixFree_encode.flatMap_injective encode_ne_nil h

end Command

end RespClient

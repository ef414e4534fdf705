/-!
# Total — a sum over a list

`total f xs` is the sum of what `f` gives of every entry.  It is at most that of a greater `f`
(`total_le`), and less if the greater `f` is greater somewhere (`total_lt`).
-/

namespace RespClient

variable {τ : Type}

/-- **The sum of what `f` gives of every entry.** -/
def total (f : τ → Nat) : List τ → Nat
  | [] => 0
  | x :: xs => f x + total f xs

theorem total_append (f : τ → Nat) (xs ys : List τ) :
    total f (xs ++ ys) = total f xs + total f ys := by
  induction xs with
  | nil => exact (Nat.zero_add _).symm
  | cons x xs ih => rw [List.cons_append, total, total, ih, Nat.add_assoc]

theorem total_le {f g : τ → Nat} (h : ∀ x, f x ≤ g x) (xs : List τ) : total f xs ≤ total g xs := by
  induction xs with
  | nil => exact Nat.le_refl _
  | cons x xs ih => exact Nat.add_le_add (h x) ih

theorem total_lt {f g : τ → Nat} (h : ∀ x, f x ≤ g x) {p : τ → Bool} (hp : ∀ x, p x → f x < g x)
    {xs : List τ} (hany : xs.any p) : total f xs < total g xs := by
  induction xs with
  | nil => cases hany
  | cons x xs ih =>
    rw [List.any_cons, Bool.or_eq_true] at hany
    rcases hany with hx | hxs
    · exact Nat.add_lt_add_of_lt_of_le (hp x hx) (total_le h xs)
    · exact Nat.add_lt_add_of_le_of_lt (h x) (ih hxs)

end RespClient

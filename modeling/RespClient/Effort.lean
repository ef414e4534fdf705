/-!
# Effort — what is left to do

A client that moves bytes comes to an end because each of its steps uses something up: first of all what
others may still ask of it, then what its stream still holds, then what it has yet to send.  `Less` is
the order in which that goes down, and it is well founded (`Less.lex`).
-/

namespace RespClient

/-- **What is left to do**, the weightiest part first. -/
abbrev Effort := Nat × Nat × Nat

namespace Effort

/-- One effort is less than another: a part is less, and no weightier part is more. -/
def Less (a b : Effort) : Prop :=
  a.1 < b.1 ∨ a.1 ≤ b.1 ∧ (a.2.1 < b.2.1 ∨ a.2.1 ≤ b.2.1 ∧ a.2.2 < b.2.2)

theorem Less.lex {a b : Effort} (h : Less a b) :
    Prod.Lex (· < ·) (Prod.Lex (· < ·) (· < ·)) a b := by
  obtain ⟨a₁, a₂, a₃⟩ := a
  obtain ⟨b₁, b₂, b₃⟩ := b
  simp only [Less, Prod.lex_def] at *
  omega

end Effort

end RespClient

import Mathlib.Data.Nat.Basic

/-! # Programs that add to a state

Programs that read a state, add to it what is due, and have a result.  Nothing that was
added is ever taken back, so a run leaves its state as it was exactly when nothing was
due on the way (`run_eq_iff`). -/

namespace Accretion

/-- The additions to a state.  One that is not due changes nothing; one that is due makes
the state larger, in some measure. -/
structure Store (σ ω : Type) where
  due : ω → σ → Bool
  add : ω → σ → σ
  add_of_not_due : ∀ w s, due w s = false → add w s = s
  grows : ∃ size : σ → Nat, ∀ w s, due w s = true → size s < size (add w s)

inductive Prog (σ ω ρ : Type) where
  | done (result : ρ)
  | look (next : σ → Prog σ ω ρ)
  | add (w : ω) (next : Prog σ ω ρ)

namespace Prog
variable {σ ω ρ : Type} (S : Store σ ω)

/-- The result, and the state afterwards. -/
def run : Prog σ ω ρ → σ → ρ × σ
  | .done r, s => (r, s)
  | .look next, s => (next s).run s
  | .add w next, s => next.run (S.add w s)

/-- Nothing is due when the program comes to it. -/
def Complete : Prog σ ω ρ → σ → Prop
  | .done _, _ => True
  | .look next, s => (next s).Complete s
  | .add w next, s => S.due w s = false ∧ next.Complete s

variable {S} {p : Prog σ ω ρ} {s : σ}

/-- A run takes nothing back. -/
theorem size_le_run {size : σ → Nat} (hsize : ∀ w s, S.due w s = true → size s < size (S.add w s)) :
    size s ≤ size (p.run S s).2 := by
  induction p generalizing s with
  | done r => exact Nat.le_refl _
  | look next ih => exact ih s
  | add w next ih =>
    have hadd : size s ≤ size (S.add w s) := by
      cases hdue : S.due w s with
      | false => rw [S.add_of_not_due w s hdue]
      | true => exact Nat.le_of_lt (hsize w s hdue)
    exact Nat.le_trans hadd ih

/-- **A run leaves the state as it was exactly when nothing is due on the way.** -/
theorem run_eq_iff : (p.run S s).2 = s ↔ p.Complete S s := by
  induction p generalizing s with
  | done r => exact ⟨fun _ => trivial, fun _ => rfl⟩
  | look next ih => exact ih s
  | add w next ih =>
    unfold run Complete
    cases hdue : S.due w s with
    | false =>
      rw [S.add_of_not_due w s hdue, ih]
      exact ⟨fun h => ⟨rfl, h⟩, fun h => h.2⟩
    | true =>
      -- what was added is still there in the end
      obtain ⟨size, hsize⟩ := S.grows
      have hlt : size s < size (next.run S (S.add w s)).2 :=
        Nat.lt_of_lt_of_le (hsize w s hdue) (size_le_run hsize)
      constructor
      · intro h
        rw [h] at hlt
        exact absurd hlt (Nat.lt_irrefl _)
      · rintro ⟨h, -⟩
        cases h

end Prog

end Accretion

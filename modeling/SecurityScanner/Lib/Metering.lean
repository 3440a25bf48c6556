import Mathlib.Algebra.Order.Group.Defs
import Mathlib.Tactic.Abel

/-!
# Metered machines

A machine that grants amounts along its run. When each grant and the stock it leaves are
covered by the stock before and by what the step earns, a run grants no more than its first
stock and its income.
-/

namespace Metering

variable {σ ι K : Type}

structure Machine (σ ι K : Type) where
  step : σ → ι → σ
  grant : σ → ι → K

namespace Machine

variable (M : Machine σ ι K)

/-- The state after the inputs `is`. -/
def run (s : σ) (is : List ι) : σ := is.foldl M.step s

@[simp] lemma run_nil (s : σ) : M.run s [] = s := rfl

@[simp] lemma run_cons (s : σ) (i : ι) (is : List ι) : M.run s (i :: is) = M.run (M.step s i) is :=
  rfl

/-- An invariant of the states that the run from `s` passes, given what is ahead. -/
lemma run_invariant (Inv : σ → List ι → Prop)
    (hstep : ∀ s i is, Inv s (i :: is) → Inv (M.step s i) is) {s : σ} (is js : List ι)
    (h : Inv s (is ++ js)) : Inv (M.run s is) js := by
  induction is generalizing s with
  | nil => exact h
  | cons i is ih => exact ih (hstep s i (is ++ js) h)

variable [AddCommGroup K]

/-- What the run grants in total. -/
def total : σ → List ι → K
  | _, [] => 0
  | s, i :: is => M.grant s i + total (M.step s i) is

/-- What the run earns when a step earns `earned`. -/
def income (earned : σ → ι → K) : σ → List ι → K
  | _, [] => 0
  | s, i :: is => earned s i + income earned (M.step s i) is

/-- Steps that earn the growth of `f` earn its growth over the run. -/
lemma income_sub (f : σ → K) (s : σ) (is : List ι) :
    M.income (fun s i => f (M.step s i) - f s) s is = f (M.run s is) - f s := by
  induction is generalizing s with
  | nil => simp [income]
  | cons i is ih =>
    rw [income, ih, run_cons]
    abel

variable [LinearOrder K] [IsOrderedAddMonoid K]

/-- The rule of the meter. -/
theorem total_add_stock_le (Inv : σ → List ι → Prop) (stock : σ → K) (earned : σ → ι → K)
    (hstep : ∀ s i is, Inv s (i :: is) → Inv (M.step s i) is)
    (hpay : ∀ s i is, Inv s (i :: is) → M.grant s i + stock (M.step s i) ≤ stock s + earned s i)
    {s : σ} (is : List ι) (h : Inv s is) :
    M.total s is + stock (M.run s is) ≤ stock s + M.income earned s is := by
  induction is generalizing s with
  | nil => simp [total, income]
  | cons i is ih =>
    have hrest := ih (hstep s i is h)
    have hfirst := hpay s i is h
    calc M.total s (i :: is) + stock (M.run s (i :: is))
        = M.grant s i + (M.total (M.step s i) is + stock (M.run (M.step s i) is)) := by
          simp only [total, run_cons]
          abel
      _ ≤ M.grant s i + (stock (M.step s i) + M.income earned (M.step s i) is) := by
          gcongr
      _ = M.grant s i + stock (M.step s i) + M.income earned (M.step s i) is := by abel
      _ ≤ stock s + earned s i + M.income earned (M.step s i) is := by gcongr
      _ = stock s + M.income earned s (i :: is) := by
          simp only [income]
          abel

end Machine

end Metering

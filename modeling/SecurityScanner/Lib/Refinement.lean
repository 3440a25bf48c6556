import SecurityScanner.Lib.Fallible

/-!
# Matching computations that can raise

A computation refines another one up to a relation of their results when it returns related
values and raises the same exceptions, apart from those that it may raise by itself. The rules
follow the structure of the computations: sequences, loops, and loops over an image.
-/

namespace Fallible

variable {ε α β γ δ σ τ : Type}

/-- `x` refines `y`: it returns what is related to the value of `y`, or raises what `y` raises
or `may` admits. -/
def Matches (may : ε → Prop) (R : α → β → Prop) : Except ε α → Except ε β → Prop
  | .ok a, .ok b => R a b
  | .ok _, .error _ => False
  | .error e, y => may e ∨ y = .error e

variable {may : ε → Prop} {R : α → β → Prop} {S : γ → δ → Prop}

lemma matches_pure {a : α} {b : β} (h : R a b) : Matches may R (pure a) (pure b) := h

lemma Matches.exists_ok {a : α} {y : Except ε β} (h : Matches may R (.ok a) y) :
    ∃ b, y = .ok b ∧ R a b := by
  cases y with
  | ok b => exact ⟨b, rfl, h⟩
  | error e => exact h.elim

lemma Matches.error {e : ε} {y : Except ε β} (h : Matches may R (.error e) y) :
    may e ∨ y = .error e := h

lemma Matches.mono {R' : α → β → Prop} {x : Except ε α} {y : Except ε β} (h : Matches may R x y)
    (hR : ∀ a b, R a b → R' a b) : Matches may R' x y := by
  cases x with
  | ok a =>
    obtain ⟨b, rfl, hab⟩ := h.exists_ok
    exact hR a b hab
  | error e => exact h

lemma Matches.bind {x : Except ε α} {y : Except ε β} {f : α → Except ε γ} {g : β → Except ε δ}
    (h : Matches may R x y) (hfg : ∀ a b, R a b → Matches may S (f a) (g b)) :
    Matches may S (x >>= f) (y >>= g) := by
  cases x with
  | ok a =>
    obtain ⟨b, rfl, hab⟩ := h.exists_ok
    exact hfg a b hab
  | error e =>
    rcases h.error with hmay | rfl
    · exact Or.inl hmay
    · exact Or.inr rfl

/-- A loop refines a loop over the images of its elements, when each round refines the round of
the image. -/
lemma matches_foldlM {R : σ → τ → Prop} {f : σ → α → Except ε σ} {g : τ → β → Except ε τ}
    (inline : α → β) {xs : List α}
    (h : ∀ x ∈ xs, ∀ s t, R s t → Matches may R (f s x) (g t (inline x))) {s : σ} {t : τ}
    (hst : R s t) : Matches may R (xs.foldlM f s) ((xs.map inline).foldlM g t) := by
  induction xs generalizing s t with
  | nil => exact matches_pure hst
  | cons x xs ih =>
    rw [List.foldlM_cons, List.map_cons, List.foldlM_cons]
    exact (h x List.mem_cons_self s t hst).bind fun s' t' hst' =>
      ih (fun y hy => h y (List.mem_cons_of_mem x hy)) hst'

/-- A loop refines a loop that raises nothing. -/
lemma matches_foldl {R : σ → τ → Prop} {f : σ → α → Except ε σ} {g : τ → β → τ} (inline : α → β)
    {xs : List α} (h : ∀ x ∈ xs, ∀ s t, R s t → Matches may R (f s x) (.ok (g t (inline x))))
    {s : σ} {t : τ} (hst : R s t) :
    Matches may R (xs.foldlM f s) (.ok ((xs.map inline).foldl g t)) := by
  have hpure : (xs.map inline).foldlM (fun t y => (pure (g t y) : Except ε τ)) t =
      .ok ((xs.map inline).foldl g t) := List.foldlM_pure
  rw [← hpure]
  exact matches_foldlM inline h hst

/-- Up to equality, and with no exceptions of its own, a computation only refines itself. -/
lemma Matches.eq {x y : Except ε α} (h : Matches (fun _ => False) (fun a b => a = b) x y) :
    x = y := by
  cases x with
  | ok a =>
    obtain ⟨b, rfl, rfl⟩ := h.exists_ok
    rfl
  | error e => exact (h.error.resolve_left id).symm

end Fallible

import Mathlib.Data.List.Forall2

/-!
# Computations that can raise

When a computation in `Except` returns. A loop returns exactly when each of its rounds does,
as far as what a round does to the accumulator has no say in whether the next one returns.
-/

namespace Fallible

variable {ε α β σ : Type}

/-- The computation returns a value. -/
def Returns (x : Except ε α) : Prop := ∃ a, x = .ok a

instance (x : Except ε α) : Decidable (Returns x) :=
  match x with
  | .ok a => .isTrue ⟨a, rfl⟩
  | .error _ => .isFalse fun ⟨_, h⟩ => nomatch h

@[simp] lemma returns_ok (a : α) : Returns (.ok a : Except ε α) := ⟨a, rfl⟩

@[simp] lemma returns_pure (a : α) : Returns (pure a : Except ε α) := ⟨a, rfl⟩

@[simp] lemma not_returns_error (e : ε) : ¬Returns (.error e : Except ε α) := by
  rintro ⟨a, h⟩
  cases h

@[simp] lemma not_returns_throw (e : ε) : ¬Returns (throw e : Except ε α) := not_returns_error e

lemma returns_bind {x : Except ε α} {f : α → Except ε β} :
    Returns (x >>= f) ↔ ∃ a, x = .ok a ∧ Returns (f a) := by
  cases x with
  | error e =>
    constructor
    · intro h
      exact absurd h (not_returns_error e)
    · rintro ⟨a, ha, -⟩
      cases ha
  | ok a =>
    constructor
    · exact fun h => ⟨a, rfl, h⟩
    · rintro ⟨b, hb, h⟩
      exact Except.ok.inj hb ▸ h

/-- The rest of a computation returns whatever it is given. -/
lemma returns_bind_of_forall {x : Except ε α} {f : α → Except ε β} (hf : ∀ a, Returns (f a)) :
    Returns (x >>= f) ↔ Returns x := by
  rw [returns_bind]
  constructor
  · rintro ⟨a, ha, -⟩
    exact ⟨a, ha⟩
  · rintro ⟨a, ha⟩
    exact ⟨a, ha, hf a⟩

/-- The rest of a computation does not depend on what it is given. -/
lemma returns_bind_const {x : Except ε α} {f : α → Except ε β} {p : Prop}
    (hf : ∀ a, Returns (f a) ↔ p) : Returns (x >>= f) ↔ Returns x ∧ p := by
  rw [returns_bind]
  constructor
  · rintro ⟨a, ha, h⟩
    exact ⟨⟨a, ha⟩, (hf a).mp h⟩
  · rintro ⟨⟨a, ha⟩, hp⟩
    exact ⟨a, ha, (hf a).mpr hp⟩

lemma returns_map {x : Except ε α} {f : α → β} : Returns (x.map f) ↔ Returns x := by
  cases x with
  | error e => exact Iff.intro (absurd · (not_returns_error e)) (absurd · (not_returns_error e))
  | ok a => exact iff_of_true (returns_ok (f a)) (returns_ok a)

lemma ok_bind (a : α) (f : α → Except ε β) : (Except.ok a >>= f) = f a := rfl

lemma error_bind (e : ε) (f : α → Except ε β) : (Except.error e >>= f) = .error e := rfl

lemma throw_bind (e : ε) (f : α → Except ε β) :
    ((throw e : Except ε α) >>= f) = (throw e : Except ε β) := rfl

lemma returns_mapM {f : α → Except ε β} {xs : List α} :
    Returns (xs.mapM f) ↔ ∀ x ∈ xs, Returns (f x) := by
  induction xs with
  | nil => simp
  | cons x xs ih =>
    rw [List.mapM_cons, returns_bind, List.forall_mem_cons, ← ih]
    constructor
    · rintro ⟨y, hy, hrest⟩
      exact ⟨⟨y, hy⟩, (returns_bind_of_forall fun _ => returns_pure _).mp hrest⟩
    · rintro ⟨⟨y, hy⟩, hrest⟩
      exact ⟨y, hy, (returns_bind_of_forall fun _ => returns_pure _).mpr hrest⟩

/-- A loop of rounds that return. -/
lemma mapM_eq_ok {f : α → Except ε β} {g : α → β} {xs : List α} (h : ∀ x ∈ xs, f x = .ok (g x)) :
    xs.mapM f = .ok (xs.map g) := by
  induction xs with
  | nil => rfl
  | cons x xs ih =>
    rw [List.mapM_cons, h x List.mem_cons_self, ok_bind,
      ih fun y hy => h y (List.mem_cons_of_mem _ hy)]
    rfl

/-- A loop that returns has made each of its values of the element in the same place. -/
lemma mapM_eq_ok_iff {f : α → Except ε β} {xs : List α} {ys : List β} :
    xs.mapM f = .ok ys ↔ List.Forall₂ (fun x y => f x = .ok y) xs ys := by
  induction xs generalizing ys with
  | nil =>
    constructor
    · intro h
      obtain rfl : [] = ys := Except.ok.inj h
      exact List.Forall₂.nil
    · rintro ⟨⟩
      rfl
  | cons x xs ih =>
    rw [List.mapM_cons]
    constructor
    · intro h
      obtain ⟨y, hy, -⟩ := returns_bind.mp ⟨ys, h⟩
      rw [hy, ok_bind] at h
      obtain ⟨zs, hzs, -⟩ := returns_bind.mp ⟨ys, h⟩
      rw [hzs] at h
      obtain rfl : y :: zs = ys := Except.ok.inj h
      exact List.Forall₂.cons hy (ih.mp hzs)
    · rintro (_ | ⟨hy, hys⟩)
      rw [hy, ok_bind, ih.mpr hys]
      rfl

/-- What the values and the elements have in common. -/
lemma map_of_mapM {γ : Type} {f : α → Except ε β} {g : β → γ} {key : α → γ}
    (h : ∀ x y, f x = .ok y → g y = key x) {xs : List α} {ys : List β} (hrun : xs.mapM f = .ok ys) :
    ys.map g = xs.map key := by
  rw [mapM_eq_ok_iff] at hrun
  induction hrun with
  | nil => rfl
  | cons hy _ ih => rw [List.map_cons, List.map_cons, h _ _ hy, ih]

lemma returns_foldlM {f : σ → α → Except ε σ} {R : α → Prop} (h : ∀ s x, Returns (f s x) ↔ R x)
    {xs : List α} {s : σ} : Returns (xs.foldlM f s) ↔ ∀ x ∈ xs, R x := by
  induction xs generalizing s with
  | nil => simp
  | cons x xs ih =>
    rw [List.foldlM_cons, returns_bind, List.forall_mem_cons]
    constructor
    · rintro ⟨s', hs', hrest⟩
      exact ⟨(h s x).mp ⟨s', hs'⟩, ih.mp hrest⟩
    · rintro ⟨hx, hrest⟩
      obtain ⟨s', hs'⟩ := (h s x).mpr hx
      exact ⟨s', hs', ih.mpr hrest⟩

/-- What a loop has added when it returns, if each round that returns adds its share. -/
lemma foldlM_observe {f : σ → α → Except ε σ} (observe : σ → List β) (share : α → List β)
    (h : ∀ s x s', f s x = .ok s' → observe s' = observe s ++ share x) {xs : List α} {s s' : σ}
    (hrun : xs.foldlM f s = .ok s') : observe s' = observe s ++ xs.flatMap share := by
  induction xs generalizing s with
  | nil =>
    obtain rfl : s = s' := Except.ok.inj hrun
    simp
  | cons x xs ih =>
    rw [List.foldlM_cons] at hrun
    cases hx : f s x with
    | error e =>
      rw [hx] at hrun
      cases hrun
    | ok t =>
      rw [hx, ok_bind] at hrun
      rw [ih hrun, h s x t hx, List.flatMap_cons, List.append_assoc]

/-- A loop whose rounds return whatever has come before. -/
lemma returns_foldlM_of_forall {f : σ → α → Except ε σ} {xs : List α}
    (h : ∀ x ∈ xs, ∀ s, Returns (f s x)) {s : σ} : Returns (xs.foldlM f s) := by
  induction xs generalizing s with
  | nil => exact returns_pure s
  | cons x xs ih =>
    obtain ⟨s', hs'⟩ := h x List.mem_cons_self s
    rw [List.foldlM_cons, hs', ok_bind]
    exact ih fun y hy => h y (List.mem_cons_of_mem _ hy)

end Fallible

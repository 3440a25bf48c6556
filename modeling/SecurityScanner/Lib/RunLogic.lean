import SecurityScanner.Lib.Program

/-!
# A logic of runs

A program that runs alone, from states that meet an invariant: every call keeps the invariant,
and what the program returns satisfies its postcondition. There is one rule for each way to
build a program.
-/

namespace Interleaving

namespace Prog

variable {C : Type} {R : C → Type} {ε α β σ : Type}
  {handle : (c : C) → σ → Except ε (R c) × σ} {I : σ → Prop}

/-- From states that meet `I` the program ends in such states, and what it returns satisfies
`Q`. -/
def Gives (handle : (c : C) → σ → Except ε (R c) × σ) (I : σ → Prop) (p : Prog C R ε α)
    (Q : α → Prop) : Prop :=
  ∀ s, I s → I (p.run handle s).2 ∧ ∀ a, (p.run handle s).1 = .ok a → Q a

lemma gives_pure {a : α} {Q : α → Prop} (h : Q a) :
    (Pure.pure a : Prog C R ε α).Gives handle I Q := by
  refine fun s hs => ⟨hs, fun b hb => ?_⟩
  obtain rfl := Except.ok.inj hb
  exact h

lemma gives_throw {e : ε} {Q : α → Prop} : (throw e : Prog C R ε α).Gives handle I Q :=
  fun _ hs => ⟨hs, fun _ h => nomatch h⟩

lemma gives_perform {c : C} {Q : R c → Prop}
    (h : ∀ s, I s → I (handle c s).2 ∧ ∀ r, (handle c s).1 = .ok r → Q r) :
    (perform c : Prog C R ε (R c)).Gives handle I Q := by
  intro s hs
  rw [run_perform]
  exact h s hs

lemma Gives.bind {p : Prog C R ε α} {f : α → Prog C R ε β} {P : α → Prop} {Q : β → Prop}
    (hp : p.Gives handle I P) (hf : ∀ a, P a → (f a).Gives handle I Q) :
    (p >>= f).Gives handle I Q := by
  intro s hs
  obtain ⟨hkeeps, hresult⟩ := hp s hs
  rw [run_bind]
  cases hrun : p.run handle s with
  | mk r s' =>
    rw [hrun] at hkeeps hresult
    cases r with
    | ok a => exact hf a (hresult a rfl) s' hkeeps
    | error e => exact ⟨hkeeps, fun _ h => nomatch h⟩

/-- Where every call keeps the invariant, every program does. -/
lemma gives_of_keeps (h : ∀ c s, I s → I (handle c s).2) (p : Prog C R ε α) :
    p.Gives handle I fun _ => True := by
  induction p with
  | pure a => exact gives_pure trivial
  | raise e => exact gives_throw
  | call c k ih => exact fun s hs => ih _ _ (h c s hs)

end Prog

end Interleaving

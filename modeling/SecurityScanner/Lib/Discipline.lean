import SecurityScanner.Lib.ThreadPool

/-!
# Disciplines of calls

A discipline tells which calls threads make and what they are answered; it asks for no ghost
states. `System.raising` is an environment in which calls raise as well, before they have had
their effect or after it.
-/

namespace Interleaving

variable {C : Type} {R : C → Type} {ε σ A α β : Type}

section raising

/-- What becomes of a call: the environment answers it, or it raises instead of having its
effect, or after it. -/
inductive Fate (A ε : Type) where
  | answered (a : A)
  | raised (e : ε)
  | raisedLate (a : A) (e : ε)

/-- The system in which the calls of `may` can raise. -/
def System.raising (S : System C R ε σ A) (may : C → Bool) : System C R ε σ (Fate A ε) where
  effect c fate s :=
    match fate with
    | .answered a => S.effect c a s
    | .raised e => if may c then some (.error e, s) else none
    | .raisedLate a e => if may c then (S.effect c a s).map fun rs => (.error e, rs.2) else none
  fork := S.fork

/-- A call has its effect or not, and one without a reply is one that may raise. -/
lemma System.raising_effect {S : System C R ε σ A} {may : C → Bool} {c : C} {fate : Fate A ε}
    {s s' : σ} {r : Except ε (R c)} (h : (S.raising may).effect c fate s = some (r, s')) :
    (∃ a, S.effect c a s = some (r, s')) ∨
      (may c = true ∧ (∃ e, r = .error e) ∧ (s' = s ∨ ∃ a r', S.effect c a s = some (r', s'))) := by
  cases fate with
  | answered a => exact Or.inl ⟨a, h⟩
  | raised e =>
    simp only [System.raising, Option.ite_none_right_eq_some] at h
    obtain ⟨hmay, h⟩ := h
    obtain ⟨rfl, rfl⟩ := Prod.mk.inj (Option.some.inj h)
    exact Or.inr ⟨hmay, ⟨e, rfl⟩, Or.inl rfl⟩
  | raisedLate a e =>
    simp only [System.raising, Option.ite_none_right_eq_some] at h
    obtain ⟨hmay, h⟩ := h
    obtain ⟨⟨r', s''⟩, he, h⟩ := Option.map_eq_some_iff.mp h
    obtain ⟨rfl, rfl⟩ := Prod.mk.inj h
    exact Or.inr ⟨hmay, ⟨e, rfl⟩, Or.inr ⟨a, r', he⟩⟩

end raising

section discipline

/-- Threads make the calls of `sends`, and a reply that is no exception is one of `answers`. -/
structure Discipline (C : Type) (R : C → Type) where
  sends : C → Prop
  answers : (c : C) → R c → Prop

variable (D : Discipline C R)

/-- Whatever the answers, the program keeps to the discipline, and what it returns is in `Q`. -/
def Discipline.Keeps : Prog C R ε α → (α → Prop) → Prop
  | .pure a, Q => Q a
  | .raise _, _ => True
  | .call c k, Q => D.sends c ∧ ∀ r, (∀ a, r = .ok a → D.answers c a) → Keeps (k r) Q

variable {D}

@[simp] lemma Discipline.keeps_pure {a : α} {Q : α → Prop} :
    D.Keeps (pure a : Prog C R ε α) Q ↔ Q a := Iff.rfl

@[simp] lemma Discipline.keeps_throw {e : ε} {Q : α → Prop} :
    D.Keeps (throw e : Prog C R ε α) Q ↔ True := Iff.rfl

lemma Discipline.keeps_perform {c : C} (h : D.sends c) :
    D.Keeps (Prog.perform c : Prog C R ε (R c)) (D.answers c) := by
  refine ⟨h, fun r hr => ?_⟩
  cases r with
  | ok a => exact hr a rfl
  | error e => trivial

lemma Discipline.Keeps.mono {p : Prog C R ε α} {Q Q' : α → Prop} (h : D.Keeps p Q)
    (hQ : ∀ a, Q a → Q' a) : D.Keeps p Q' := by
  induction p with
  | pure a => exact hQ a h
  | raise e => trivial
  | call c k ih => exact ⟨h.1, fun r hr => ih r (h.2 r hr)⟩

lemma Discipline.Keeps.bind {p : Prog C R ε α} {f : α → Prog C R ε β} {Q : α → Prop}
    {Q' : β → Prop} (h : D.Keeps p Q) (hf : ∀ a, Q a → D.Keeps (f a) Q') :
    D.Keeps (p >>= f) Q' := by
  change D.Keeps (p.bind f) Q'
  induction p with
  | pure a => exact hf a h
  | raise e => trivial
  | call c k ih => exact ⟨h.1, fun r hr => ih r (h.2 r hr)⟩

lemma Discipline.Keeps.tryCatch {p : Prog C R ε α} {f : ε → Prog C R ε α} {Q : α → Prop}
    (h : D.Keeps p Q) (hf : ∀ e, D.Keeps (f e) Q) : D.Keeps (MonadExcept.tryCatch p f) Q := by
  change D.Keeps (p.tryCatch f) Q
  induction p with
  | pure a => exact h
  | raise e => exact hf e
  | call c k ih => exact ⟨h.1, fun r hr => ih r (h.2 r hr)⟩

lemma Discipline.compositional :
    Prog.Compositional fun α (p : Prog C R ε α) => D.Keeps p fun _ => True where
  pure _ := trivial
  throw _ := trivial
  bind hp hf := hp.bind fun a _ => hf a
  tryCatch := Discipline.Keeps.tryCatch

/-- A thread keeps to the discipline in each of its rounds. -/
def Discipline.Thread (D : Discipline C R) (t : Interleaving.Thread C R ε) : Prop :=
  D.Keeps t.body (fun _ => True) ∧ ∀ l, t.loop = some l → D.Keeps l fun _ => True

/-- The invariant rule: the threads rely on answers that the invariant of the store gives. -/
theorem Reachable.disciplined {S : System C R ε σ A} {ok : Pool C R ε σ → Act A → Prop}
    {init : Pool C R ε σ → Prop} {J : σ → Prop}
    (hinit : ∀ p, init p → J p.store ∧ ∀ t ∈ p.threads, D.Thread t)
    (hfork : ∀ c r q, D.sends c → S.fork c r = some q → D.Keeps q fun _ => True)
    (hstep : ∀ c a s r s', J s → D.sends c → S.effect c a s = some (r, s') →
      (∀ a, r = .ok a → D.answers c a) ∧ J s')
    {p : Pool C R ε σ} (h : Reachable S ok init p) : J p.store ∧ ∀ t ∈ p.threads, D.Thread t := by
  induction h with
  | start hi => exact hinit _ hi
  | step act _ _ hs ih =>
    obtain ⟨hJ, hthreads⟩ := ih
    cases act with
    | run i a =>
      obtain ⟨c, k, l, r, s', ht, he, rfl⟩ := Pool.step_run hs
      obtain ⟨hbody, hloop⟩ := hthreads _ (List.mem_of_getElem? ht)
      obtain ⟨hr, hJ'⟩ := hstep c a _ r s' hJ hbody.1 he
      refine ⟨hJ', fun t htm => ?_⟩
      rcases List.mem_append.mp htm with htm | htm
      · rcases List.mem_or_eq_of_mem_set htm with htm | rfl
        · exact hthreads t htm
        · exact ⟨hbody.2 r hr, hloop⟩
      · obtain ⟨q, hq, rfl⟩ := List.mem_map.mp htm
        exact ⟨hfork c r q hbody.1 (Option.mem_toList.mp hq), by simp⟩
    | again i =>
      obtain ⟨u, l, ht, rfl⟩ := Pool.step_again hs
      obtain ⟨hbody, hloop⟩ := hthreads _ (List.mem_of_getElem? ht)
      refine ⟨hJ, fun t htm => ?_⟩
      rcases List.mem_or_eq_of_mem_set htm with htm | rfl
      · exact hthreads t htm
      · exact ⟨hloop l rfl, hloop⟩

/-- The next call of a thread is one of the discipline. -/
lemma Discipline.Thread.head {t : Interleaving.Thread C R ε} (h : D.Thread t) {c : C}
    (hc : t.body.head? = some c) : D.sends c := by
  obtain ⟨q, l⟩ := t
  cases q with
  | pure a => cases hc
  | raise e => cases hc
  | call c' k => exact Option.some.inj hc ▸ h.1.1

end discipline

end Interleaving

import SecurityScanner.Lib.ThreadPool
import Mathlib.Logic.Relation

/-!
# Progress of a pool

What some schedule can bring a pool to: a thread to the end of its round, alone or with the
help of the others, and a loop through a round that its program can run.
-/

namespace Interleaving

variable {C : Type} {R : C → Type} {ε σ A α β : Type} {S : System C R ε σ A}

/-- Some schedule leads from `p` to `p'`. -/
def Pool.Leads (S : System C R ε σ A) : Pool C R ε σ → Pool C R ε σ → Prop :=
  Relation.ReflTransGen fun p p' => ∃ act, p.step S act = some p'

lemma Pool.Leads.reachable {init : Pool C R ε σ → Prop} {p p' : Pool C R ε σ}
    (h : Pool.Leads S p p') (hp : Reachable S (fun _ _ => True) init p) :
    Reachable S (fun _ _ => True) init p' := by
  induction h with
  | refl => exact hp
  | tail _ hs ih =>
    obtain ⟨act, hact⟩ := hs
    exact .step act ih trivial hact

/-- The thread has ended its round. -/
def Thread.Ended (t : Thread C R ε) : Prop := t.body.head? = none

/-- A thread that, with the help of the others, is never blocked can be run to the end of
its round. -/
theorem Pool.leads_ended {Good : Pool C R ε σ → Prop} {i : ℕ}
    (hgood : ∀ p c k l, Good p → p.threads[i]? = some ⟨.call c k, l⟩ →
      ∃ p₁ a p', Pool.Leads S p p₁ ∧ p₁.threads[i]? = p.threads[i]? ∧
        p₁.step S (.run i a) = some p' ∧ Good p')
    {p : Pool C R ε σ} {t : Thread C R ε} (ht : p.threads[i]? = some t) (hp : Good p) :
    ∃ p' t', Pool.Leads S p p' ∧ Good p' ∧ p'.threads[i]? = some t' ∧ t'.Ended := by
  obtain ⟨q, l⟩ := t
  induction q generalizing p with
  | pure a => exact ⟨p, _, .refl, hp, ht, rfl⟩
  | raise e => exact ⟨p, _, .refl, hp, ht, rfl⟩
  | call c k ih =>
    obtain ⟨p₁, a, p₂, hleads₁, hsame, hs, hp₂⟩ := hgood p c k l hp ht
    obtain ⟨c', k', l', r, s', ht', -, heq⟩ := Pool.step_run hs
    rw [hsame, ht, Option.some.injEq, Thread.mk.injEq] at ht'
    obtain ⟨hck, rfl⟩ := ht'
    cases hck
    have ht₂ : p₂.threads[i]? = some ⟨k r, l⟩ := by
      obtain ⟨hlt, -⟩ := List.getElem?_eq_some_iff.mp (hsame.trans ht)
      rw [heq, List.getElem?_append_left (by simpa using hlt), List.getElem?_set_self hlt]
    obtain ⟨p₃, t₃, hleads, hgood₃, ht₃, hend⟩ := ih r hp₂ ht₂
    exact ⟨p₃, t₃, (hleads₁.tail ⟨_, hs⟩).trans hleads, hgood₃, ht₃, hend⟩

section all

variable {Good : Pool C R ε σ → Prop} {T : ℕ → Prop}

/-- A thread that is never blocked and starts no others can be run to the end of its round
while the others wait. -/
lemma Pool.leads_ended_alone
    (hgood : ∀ p i c k l, Good p → T i → p.threads[i]? = some ⟨.call c k, l⟩ →
      ∃ a p', p.step S (.run i a) = some p' ∧ (∀ r, S.fork c r = none) ∧ Good p')
    {p : Pool C R ε σ} (hp : Good p) {i : ℕ} (hi : T i) {t : Thread C R ε}
    (ht : p.threads[i]? = some t) :
    ∃ p', Pool.Leads S p p' ∧ Good p' ∧ p'.threads.length = p.threads.length ∧
      (∀ t, p'.threads[i]? = some t → t.Ended) ∧ ∀ j ≠ i, p'.threads[j]? = p.threads[j]? := by
  have halone : ∀ q c k l, (Good q ∧ q.threads.length = p.threads.length ∧
        ∀ j ≠ i, q.threads[j]? = p.threads[j]?) → q.threads[i]? = some ⟨.call c k, l⟩ →
      ∃ q₁ a q', Pool.Leads S q q₁ ∧ q₁.threads[i]? = q.threads[i]? ∧
        q₁.step S (.run i a) = some q' ∧ Good q' ∧ q'.threads.length = p.threads.length ∧
        ∀ j ≠ i, q'.threads[j]? = p.threads[j]? := by
    rintro q c k l ⟨hq, hlen, hothers⟩ hcall
    obtain ⟨a, q', hs, hfork, hq'⟩ := hgood q i c k l hq hi hcall
    obtain ⟨c', k', l', r, s', hcall', -, rfl⟩ := Pool.step_run hs
    rw [hcall, Option.some.injEq, Thread.mk.injEq] at hcall'
    obtain ⟨hck, rfl⟩ := hcall'
    cases hck
    refine ⟨q, a, _, .refl, rfl, hs, hq', by simpa [hfork] using hlen, fun j hj => ?_⟩
    simp only [hfork, Option.toList_none, List.map_nil, List.append_nil]
    rw [List.getElem?_set_ne (Ne.symm hj), hothers j hj]
  obtain ⟨p', t', hleads, ⟨hp', hlen, hothers⟩, ht', hend⟩ :=
    Pool.leads_ended halone ht ⟨hp, rfl, fun _ _ => rfl⟩
  refine ⟨p', hleads, hp', hlen, fun t'' ht'' => ?_, hothers⟩
  rwa [← Option.some.inj (ht'.symm.trans ht'')]

/-- So can all such threads be run to the end of their rounds. -/
theorem Pool.leads_all_ended
    (hgood : ∀ p i c k l, Good p → T i → p.threads[i]? = some ⟨.call c k, l⟩ →
      ∃ a p', p.step S (.run i a) = some p' ∧ (∀ r, S.fork c r = none) ∧ Good p')
    {p : Pool C R ε σ} (hp : Good p) :
    ∃ p', Pool.Leads S p p' ∧ Good p' ∧ (∀ i t, T i → p'.threads[i]? = some t → t.Ended) ∧
      ∀ i, ¬T i → p'.threads[i]? = p.threads[i]? := by
  -- the threads before `n` have been run
  have hmain : ∀ n, ∃ p', Pool.Leads S p p' ∧ Good p' ∧
      p'.threads.length = p.threads.length ∧
      (∀ i < n, ∀ t, T i → p'.threads[i]? = some t → t.Ended) ∧
      ∀ i, ¬T i → p'.threads[i]? = p.threads[i]? := by
    intro n
    induction n with
    | zero => exact ⟨p, .refl, hp, rfl, fun i hi => absurd hi (Nat.not_lt_zero i), fun _ _ => rfl⟩
    | succ n ih =>
      obtain ⟨p₁, hleads₁, hp₁, hlen₁, hend₁, hsame₁⟩ := ih
      by_cases hn : T n ∧ n < p₁.threads.length
      · obtain ⟨hT, hlt⟩ := hn
        obtain ⟨p₂, hleads₂, hp₂, hlen₂, hend₂, hothers⟩ :=
          Pool.leads_ended_alone hgood hp₁ hT (List.getElem?_eq_getElem hlt)
        refine ⟨p₂, hleads₁.trans hleads₂, hp₂, hlen₂.trans hlen₁, fun i hi t hTi ht => ?_,
          fun i hTi => ?_⟩
        · by_cases hin : i = n
          · exact hend₂ t (hin ▸ ht)
          · exact hend₁ i (by omega) t hTi ((hothers i hin).symm.trans ht)
        · rw [hothers i (fun h => hTi (h ▸ hT)), hsame₁ i hTi]
      · refine ⟨p₁, hleads₁, hp₁, hlen₁, fun i hi t hTi ht => ?_, hsame₁⟩
        obtain ⟨hlt, -⟩ := List.getElem?_eq_some_iff.mp ht
        have hin : i ≠ n := fun h => hn (h ▸ ⟨hTi, hlt⟩)
        exact hend₁ i (by omega) t hTi ht
  obtain ⟨p', hleads, hp', hlen, hend, hsame⟩ := hmain p.threads.length
  refine ⟨p', hleads, hp', fun i t hT ht => ?_, hsame⟩
  obtain ⟨hlt, -⟩ := List.getElem?_eq_some_iff.mp ht
  exact hend i (hlen ▸ hlt) t hT ht

end all

section runs

/-- Some answers of the environment let the program end in `r` when it runs alone. -/
def Prog.Runs (effect : (c : C) → A → σ → Option (Except ε (R c) × σ)) :
    Prog C R ε α → σ → Except ε α → σ → Prop
  | .pure a, s, r, s' => r = .ok a ∧ s' = s
  | .raise e, s, r, s' => r = .error e ∧ s' = s
  | .call c k, s, r, s' => ∃ a r₁ s₁, effect c a s = some (r₁, s₁) ∧ (k r₁).Runs effect s₁ r s'

variable {effect : (c : C) → A → σ → Option (Except ε (R c) × σ)} {s s₁ s' : σ}

lemma Prog.Runs.perform {c : C} {a : A} {r : Except ε (R c)} (h : effect c a s = some (r, s')) :
    (Prog.perform c).Runs effect s r s' := by
  refine ⟨a, r, s', h, ?_⟩
  cases r <;> exact ⟨rfl, rfl⟩

lemma Prog.Runs.bind {p : Prog C R ε α} {f : α → Prog C R ε β} {a : α} {r : Except ε β}
    (hp : p.Runs effect s (.ok a) s₁) (hf : (f a).Runs effect s₁ r s') :
    (p >>= f).Runs effect s r s' := by
  change (p.bind f).Runs effect s r s'
  induction p generalizing s with
  | pure b =>
    obtain ⟨hb, rfl⟩ := hp
    cases hb
    exact hf
  | raise e =>
    obtain ⟨hb, -⟩ := hp
    cases hb
  | call c k ih =>
    obtain ⟨x, r₁, s₂, he, hk⟩ := hp
    exact ⟨x, r₁, s₂, he, ih r₁ hk⟩

lemma Prog.Runs.tryCatch {p : Prog C R ε α} {h : ε → Prog C R ε α} {a : α}
    (hp : p.Runs effect s (.ok a) s') : (MonadExcept.tryCatch p h).Runs effect s (.ok a) s' := by
  change (p.tryCatch h).Runs effect s (.ok a) s'
  induction p generalizing s with
  | pure b => exact hp
  | raise e =>
    obtain ⟨hb, -⟩ := hp
    cases hb
  | call c k ih =>
    obtain ⟨x, r₁, s₂, he, hk⟩ := hp
    exact ⟨x, r₁, s₂, he, ih r₁ hk⟩

/-- A thread can do what its program does alone. -/
theorem Pool.leads_runs {i : ℕ} {q : Prog C R ε Unit} {l : Option (Prog C R ε Unit)}
    {p : Pool C R ε σ} (ht : p.threads[i]? = some ⟨q, l⟩) {r : Except ε Unit}
    (h : q.Runs S.effect p.store r s') : ∃ p', Pool.Leads S p p' ∧ p'.store = s' := by
  induction q generalizing p with
  | pure a => exact ⟨p, .refl, h.2.symm⟩
  | raise e => exact ⟨p, .refl, h.2.symm⟩
  | call c k ih =>
    obtain ⟨a, r₁, s₁, he, hk⟩ := h
    have hs := Pool.step_of_effect ht he
    obtain ⟨hlt, -⟩ := List.getElem?_eq_some_iff.mp ht
    have ht₁ : (p.threads.set i ⟨k r₁, l⟩ ++
        (S.fork c r₁).toList.map (⟨·, none⟩))[i]? = some ⟨k r₁, l⟩ := by
      rw [List.getElem?_append_left (by simpa using hlt), List.getElem?_set_self hlt]
    obtain ⟨p', hleads, hp'⟩ := ih r₁ (p := ⟨s₁, _⟩) ht₁ hk
    exact ⟨p', .head ⟨_, hs⟩ hleads, hp'⟩

end runs

/-- The threads that calls start do what their programs do. -/
lemma Reachable.started_callsOnly {ok : Pool C R ε σ → Act A → Prop}
    {init : Pool C R ε σ → Prop} {T : C → Prop} {n : ℕ}
    (hinit : ∀ p, init p → p.threads.length = n)
    (hfork : ∀ c r q, S.fork c r = some q → q.CallsOnly T) {p : Pool C R ε σ}
    (h : Reachable S ok init p) :
    n ≤ p.threads.length ∧
      ∀ i t, n ≤ i → p.threads[i]? = some t → t.body.CallsOnly T ∧ t.loop = none := by
  induction h with
  | start hi =>
    refine ⟨Nat.le_of_eq (hinit _ hi).symm, fun i t hni ht => ?_⟩
    obtain ⟨hlt, -⟩ := List.getElem?_eq_some_iff.mp ht
    exact absurd (hinit _ hi ▸ hlt) (Nat.not_lt.mpr hni)
  | step act _ _ hs ih =>
    obtain ⟨hlen, ih⟩ := ih
    cases act with
    | run i a =>
      obtain ⟨c, k, l, r, s', ht, -, rfl⟩ := Pool.step_run hs
      refine ⟨by simp; omega, fun j t hnj hj => ?_⟩
      rw [List.getElem?_append] at hj
      split at hj
      · rw [List.getElem?_set] at hj
        by_cases hij : i = j
        · subst hij
          obtain ⟨hcalls, hloop⟩ := ih i _ hnj ht
          obtain ⟨hlt, -⟩ := List.getElem?_eq_some_iff.mp ht
          simp only [hlt, ↓reduceIte, Option.some.injEq] at hj
          subst hj
          exact ⟨hcalls.2 r, hloop⟩
        · simp only [hij, ↓reduceIte] at hj
          exact ih j t hnj hj
      · obtain ⟨q, hq, rfl⟩ := List.mem_map.mp (List.mem_of_getElem? hj)
        exact ⟨hfork c r q (Option.mem_toList.mp hq), rfl⟩
    | again i =>
      obtain ⟨u, l, ht, rfl⟩ := Pool.step_again hs
      refine ⟨by simpa using hlen, fun j t hnj hj => ?_⟩
      rw [List.getElem?_set] at hj
      by_cases hij : i = j
      · subst hij
        cases (ih i _ hnj ht).2
      · simp only [hij, ↓reduceIte] at hj
        exact ih j t hnj hj

/-- A thread keeps its loop. -/
lemma Reachable.loops {ok : Pool C R ε σ → Act A → Prop} {init : Pool C R ε σ → Prop} {i : ℕ}
    {l : Option (Prog C R ε Unit)} (hinit : ∀ p, init p → ∃ q, p.threads[i]? = some ⟨q, l⟩)
    {p : Pool C R ε σ} (h : Reachable S ok init p) : ∃ q, p.threads[i]? = some ⟨q, l⟩ := by
  induction h with
  | start hi => exact hinit _ hi
  | step act _ _ hs ih =>
    obtain ⟨q, hq⟩ := ih
    obtain ⟨hlt, -⟩ := List.getElem?_eq_some_iff.mp hq
    cases act with
    | run j a =>
      obtain ⟨c, k, l', r, s', ht, -, rfl⟩ := Pool.step_run hs
      rw [List.getElem?_append_left (by simpa using hlt)]
      by_cases hij : j = i
      · subst hij
        obtain rfl : l = l' := (Thread.mk.inj (Option.some.inj (hq.symm.trans ht))).2
        exact ⟨k r, List.getElem?_set_self hlt⟩
      · exact ⟨q, (List.getElem?_set_ne hij).trans hq⟩
    | again j =>
      obtain ⟨u, l', ht, rfl⟩ := Pool.step_again hs
      by_cases hij : j = i
      · subst hij
        obtain rfl : l = some l' := (Thread.mk.inj (Option.some.inj (hq.symm.trans ht))).2
        exact ⟨l', List.getElem?_set_self hlt⟩
      · exact ⟨q, (List.getElem?_set_ne hij).trans hq⟩

end Interleaving

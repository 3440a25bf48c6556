import SecurityScanner.Lib.ThreadPool

/-!
# Rely and guarantee

The threads of a pool are numbered by their places in it. A thread is proved alone: between
its calls the store changes as the thread relies on, and each of its calls keeps what the
thread guarantees to the others. `Reachable.kept` puts the threads together.
-/

namespace Interleaving

variable {C : Type} {R : C → Type} {ε σ A α β : Type}

/-- How threads share a store. `size` counts the threads, `start` holds of a thread when it
is started and `done` when it has ended. -/
structure Sharing (S : System C R ε σ A) where
  inv : σ → Prop
  size : σ → ℕ
  rely : ℕ → σ → σ → Prop
  guar : ℕ → σ → σ → Prop
  start : ℕ → Prog C R ε Unit → σ → Prop
  done : ℕ → Except ε Unit → σ → Prop
  rely_refl : ∀ i s, rely i s s
  rely_trans : ∀ i s₁ s₂ s₃, rely i s₁ s₂ → rely i s₂ s₃ → rely i s₁ s₃
  rely_of_guar : ∀ i j s s', i ≠ j → guar i s s' → rely j s s'
  done_stable : ∀ i r s s', rely i s s' → done i r s → done i r s'

variable {S : System C R ε σ A} (H : Sharing S)

/-- The thread that a call starts begins as it has to. -/
def Sharing.Starts (c : C) (r : Except ε (R c)) (s s' : σ) : Prop :=
  match S.fork c r with
  | none => H.size s' = H.size s
  | some q => H.size s' = H.size s + 1 ∧ H.start (H.size s) q s'

/-- Whatever the others do within its rely, the thread `i` keeps the invariant and its
guarantee at each call, and the program ends in `Q`. -/
def Ensures (i : ℕ) : Prog C R ε α → (Except ε α → σ → Prop) → σ → Prop
  | .pure a, Q, s => Q (.ok a) s
  | .raise e, Q, s => Q (.error e) s
  | .call c k, Q, s => ∀ s₁, H.inv s₁ → H.rely i s s₁ → ∀ a r s',
    S.effect c a s₁ = some (r, s') →
      H.inv s' ∧ H.guar i s₁ s' ∧ H.Starts c r s₁ s' ∧ Ensures i (k r) Q s'

variable {H}

@[simp] lemma ensures_pure {i : ℕ} {a : α} {Q : Except ε α → σ → Prop} {s : σ} :
    Ensures H i (pure a : Prog C R ε α) Q s ↔ Q (.ok a) s := Iff.rfl

@[simp] lemma ensures_throw {i : ℕ} {e : ε} {Q : Except ε α → σ → Prop} {s : σ} :
    Ensures H i (throw e : Prog C R ε α) Q s ↔ Q (.error e) s := Iff.rfl

lemma ensures_perform {i : ℕ} {c : C} {Q : Except ε (R c) → σ → Prop} {s : σ} :
    Ensures H i (Prog.perform c) Q s ↔ ∀ s₁, H.inv s₁ → H.rely i s s₁ → ∀ a r s',
      S.effect c a s₁ = some (r, s') →
        H.inv s' ∧ H.guar i s₁ s' ∧ H.Starts c r s₁ s' ∧ Q r s' := by
  unfold Prog.perform Ensures
  refine forall_congr' fun s₁ => imp_congr_right fun _ => imp_congr_right fun _ =>
    forall_congr' fun a => forall_congr' fun r => forall_congr' fun s' =>
      imp_congr_right fun _ => ?_
  cases r <;> exact Iff.rfl

lemma ensures_bind {i : ℕ} {p : Prog C R ε α} {f : α → Prog C R ε β}
    {Q : Except ε β → σ → Prop} {s : σ} :
    Ensures H i (p >>= f) Q s ↔ Ensures H i p (fun r s' =>
      match r with
      | .ok a => Ensures H i (f a) Q s'
      | .error e => Q (.error e) s') s := by
  change Ensures H i (p.bind f) Q s ↔ _
  induction p generalizing s with
  | pure a => exact Iff.rfl
  | raise e => exact Iff.rfl
  | call c k ih =>
    simp only [Prog.bind, Ensures]
    refine forall_congr' fun s₁ => imp_congr_right fun _ => imp_congr_right fun _ =>
      forall_congr' fun a => forall_congr' fun r => forall_congr' fun s' =>
        imp_congr_right fun _ => and_congr_right fun _ => and_congr_right fun _ =>
          and_congr_right fun _ => ih r

lemma ensures_tryCatch {i : ℕ} {p : Prog C R ε α} {h : ε → Prog C R ε α}
    {Q : Except ε α → σ → Prop} {s : σ} :
    Ensures H i (tryCatch p h) Q s ↔ Ensures H i p (fun r s' =>
      match r with
      | .ok a => Q (.ok a) s'
      | .error e => Ensures H i (h e) Q s') s := by
  change Ensures H i (p.tryCatch h) Q s ↔ _
  induction p generalizing s with
  | pure a => exact Iff.rfl
  | raise e => exact Iff.rfl
  | call c k ih =>
    simp only [Prog.tryCatch, Ensures]
    refine forall_congr' fun s₁ => imp_congr_right fun _ => imp_congr_right fun _ =>
      forall_congr' fun a => forall_congr' fun r => forall_congr' fun s' =>
        imp_congr_right fun _ => and_congr_right fun _ => and_congr_right fun _ =>
          and_congr_right fun _ => ih r

lemma Ensures.mono {i : ℕ} {p : Prog C R ε α} {Q Q' : Except ε α → σ → Prop} {s : σ}
    (h : Ensures H i p Q s) (hQ : ∀ r s', Q r s' → Q' r s') : Ensures H i p Q' s := by
  induction p generalizing s with
  | pure a => exact hQ _ _ h
  | raise e => exact hQ _ _ h
  | call c k ih =>
    intro s₁ hinv hrely a r s' he
    obtain ⟨hinv', hguar, hstarts, hk⟩ := h s₁ hinv hrely a r s' he
    exact ⟨hinv', hguar, hstarts, ih r hk⟩

lemma Ensures.ended {i : ℕ} {p : Prog C R ε α} {Q : Except ε α → σ → Prop} {s : σ}
    (h : Ensures H i p Q s) (hp : p.head? = none) : ∃ r, Q r s := by
  cases p with
  | pure a => exact ⟨_, h⟩
  | raise e => exact ⟨_, h⟩
  | call c k => cases hp

/-- What a thread ensures does not depend on what the others do meanwhile. -/
lemma Ensures.rely {i : ℕ} {p : Prog C R ε α} {Q : Except ε α → σ → Prop} {s s' : σ}
    (h : Ensures H i p Q s) (hs : H.rely i s s')
    (hQ : ∀ r, Q r s → Q r s') : Ensures H i p Q s' := by
  cases p with
  | pure a => exact hQ _ h
  | raise e => exact hQ _ h
  | call c k => exact fun s₁ hinv hrely => h s₁ hinv (H.rely_trans _ _ _ _ hs hrely)

/-- Every thread of the pool ensures that it ends well, in each of its rounds. -/
structure Sharing.Kept (H : Sharing S) (p : Pool C R ε σ) : Prop where
  inv : H.inv p.store
  size : H.size p.store = p.threads.length
  threads : ∀ (i : ℕ) (t : Thread C R ε), p.threads[i]? = some t →
    Ensures H i t.body (H.done i) p.store ∧ ∀ l, t.loop = some l → ∀ u s, H.inv s →
      H.done i (.ok u) s → Ensures H i l (H.done i) s

lemma Sharing.Kept.run {p p' : Pool C R ε σ} (h : H.Kept p)
    (hstart : ∀ n q s, H.inv s → H.start n q s → Ensures H n q (H.done n) s) {i : ℕ} {a : A}
    (hs : p.step S (.run i a) = some p') : H.Kept p' := by
  obtain ⟨c, k, l, r, s', ht, he, rfl⟩ := Pool.step_run hs
  obtain ⟨hbody, hloop⟩ := h.threads i _ ht
  obtain ⟨hinv, hguar, hstarts, hk⟩ := hbody p.store h.inv (H.rely_refl _ _) a r s' he
  have hset : ∀ (j : ℕ) (t : Thread C R ε), (p.threads.set i ⟨k r, l⟩)[j]? = some t →
      Ensures H j t.body (H.done j) s' ∧ ∀ l, t.loop = some l → ∀ u s, H.inv s →
        H.done j (.ok u) s → Ensures H j l (H.done j) s := by
    intro j t hj
    rw [List.getElem?_set] at hj
    by_cases hij : i = j
    · subst hij
      obtain ⟨hlt, -⟩ := List.getElem?_eq_some_iff.mp ht
      simp only [hlt, ↓reduceIte, Option.some.injEq] at hj
      subst hj
      exact ⟨hk, hloop⟩
    · simp only [hij, ↓reduceIte] at hj
      obtain ⟨hj, hjloop⟩ := h.threads j t hj
      have hrely := H.rely_of_guar i j _ _ hij hguar
      exact ⟨hj.rely hrely fun r => H.done_stable j r _ _ hrely, hjloop⟩
  unfold Sharing.Starts at hstarts
  cases hf : S.fork c r with
  | none =>
    rw [hf] at hstarts
    refine ⟨hinv, ?_, fun j t hj => hset j t (by simpa using hj)⟩
    simpa using hstarts.trans h.size
  | some q =>
    rw [hf] at hstarts
    obtain ⟨hsize, hq⟩ := hstarts
    refine ⟨hinv, by simp [hsize, h.size], fun j t hj => ?_⟩
    rw [List.getElem?_append] at hj
    split at hj
    · exact hset j t hj
    · rename_i hlen
      rw [List.length_set] at hlen hj
      obtain ⟨hzero, ht⟩ := List.getElem?_eq_some_iff.mp hj
      have hplace : j = H.size p.store := by
        rw [h.size]
        simp at hzero
        omega
      simp only [Option.toList_some, List.map_cons, List.map_nil, List.getElem_singleton] at ht
      subst ht hplace
      exact ⟨hstart _ q s' hinv hq, by simp⟩

lemma Sharing.Kept.again {p p' : Pool C R ε σ} (h : H.Kept p) {i : ℕ}
    (hs : p.step S (.again i) = some p') : H.Kept p' := by
  obtain ⟨u, l, ht, rfl⟩ := Pool.step_again hs
  obtain ⟨hbody, hloop⟩ := h.threads i _ ht
  refine ⟨h.inv, by simpa using h.size, fun j t hj => ?_⟩
  rw [List.getElem?_set] at hj
  by_cases hij : i = j
  · subst hij
    obtain ⟨hlt, -⟩ := List.getElem?_eq_some_iff.mp ht
    simp only [hlt, ↓reduceIte, Option.some.injEq] at hj
    subst hj
    exact ⟨hloop l rfl u p.store h.inv hbody, hloop⟩
  · simp only [hij, ↓reduceIte] at hj
    exact h.threads j t hj

/-- The rule of parallel composition. -/
theorem Reachable.kept {ok : Pool C R ε σ → Act A → Prop} {init : Pool C R ε σ → Prop}
    (hinit : ∀ p, init p → H.Kept p)
    (hstart : ∀ n q s, H.inv s → H.start n q s → Ensures H n q (H.done n) s)
    {p : Pool C R ε σ} (h : Reachable S ok init p) : H.Kept p := by
  induction h with
  | start hi => exact hinit _ hi
  | step act _ _ hs ih =>
    cases act with
    | run i a => exact ih.run hstart hs
    | again i => exact ih.again hs

/-- What a thread ensures of an execution that nothing disturbs. -/
lemma Ensures.exec {i : ℕ} {p : Prog C R ε α} {Q : Except ε α → σ → Prop} {s s' : σ}
    {as as' : List A} {r : Except ε α} (h : Ensures H i p Q s) (hs : H.inv s)
    (hexec : p.exec S.effect as s = some (r, as', s')) : H.inv s' ∧ Q r s' := by
  induction p generalizing as s with
  | pure a =>
    cases hexec
    exact ⟨hs, h⟩
  | raise e =>
    cases hexec
    exact ⟨hs, h⟩
  | call c k ih =>
    cases as with
    | nil => cases hexec
    | cons a as =>
      unfold Prog.exec at hexec
      split at hexec
      · rename_i rc s₁ he
        obtain ⟨hinv, -, -, hk⟩ := h s hs (H.rely_refl _ _) a rc s₁ he
        exact ih rc hk hinv hexec
      · cases hexec

section alone

variable (S) in
/-- A single thread, which starts no other and has the store for itself. -/
def Sharing.alone (inv : σ → Prop) : Sharing S where
  inv := inv
  size _ := 1
  rely i s s' := i = 0 → s' = s
  guar i _ _ := i = 0
  start _ _ _ := False
  done _ _ _ := True
  rely_refl _ _ _ := rfl
  rely_trans _ _ _ _ h h' hi := (h' hi).trans (h hi)
  rely_of_guar _ _ _ _ hij hi hj := absurd (hi.trans hj.symm) hij
  done_stable _ _ _ _ _ _ := trivial

variable (S) in
/-- From the store `s` the program keeps the invariant at each call, and what it returns is in
`Q` with the store it leaves. -/
def Returns (inv : σ → Prop) (p : Prog C R ε α) (s : σ) (Q : α → σ → Prop) : Prop :=
  Ensures (Sharing.alone S inv) 0 p (fun r s' => ∀ a, r = .ok a → Q a s') s

variable {inv : σ → Prop}

lemma returns_pure {a : α} {s : σ} {Q : α → σ → Prop} (h : Q a s) :
    Returns S inv (pure a : Prog C R ε α) s Q := by
  rintro a' heq
  cases heq
  exact h

lemma returns_throw {e : ε} {s : σ} {Q : α → σ → Prop} :
    Returns S inv (throw e : Prog C R ε α) s Q := by
  rintro a ⟨⟩

lemma returns_perform {c : C} {s : σ} {Q : R c → σ → Prop} (hfork : ∀ r, S.fork c r = none)
    (h : ∀ a r s', inv s → S.effect c a s = some (r, s') → inv s' ∧ ∀ b, r = .ok b → Q b s') :
    Returns S inv (Prog.perform c) s Q := by
  refine ensures_perform.mpr fun s₁ hinv hrely a r s' he => ?_
  obtain rfl := hrely rfl
  obtain ⟨hinv', hQ⟩ := h a r s' hinv he
  refine ⟨hinv', rfl, ?_, hQ⟩
  unfold Sharing.Starts
  rw [hfork]
  rfl

lemma Returns.bind {p : Prog C R ε α} {f : α → Prog C R ε β} {s : σ} {Q : α → σ → Prop}
    {Q' : β → σ → Prop} (h : Returns S inv p s Q)
    (hf : ∀ a s', Q a s' → Returns S inv (f a) s' Q') : Returns S inv (p >>= f) s Q' := by
  refine ensures_bind.mpr (Ensures.mono h ?_)
  rintro (e | a) s' hQ
  · rintro b ⟨⟩
  · exact hf a s' (hQ a rfl)

lemma Returns.mono {p : Prog C R ε α} {s : σ} {Q Q' : α → σ → Prop} (h : Returns S inv p s Q)
    (hQ : ∀ a s', Q a s' → Q' a s') : Returns S inv p s Q' :=
  Ensures.mono h fun _ s' hr a ha => hQ a s' (hr a ha)

lemma Returns.tryCatch {p : Prog C R ε α} {f : ε → Prog C R ε α} {s : σ} {Q : α → σ → Prop}
    (h : Returns S inv p s Q) (hf : ∀ e s', Returns S inv (f e) s' Q) :
    Returns S inv (tryCatch p f) s Q := by
  refine ensures_tryCatch.mpr (Ensures.mono h ?_)
  rintro (e | a) s' hQ
  · exact hf e s'
  · rintro b ⟨⟩
    exact hQ a rfl

lemma Returns.exec {p : Prog C R ε α} {s s' : σ} {Q : α → σ → Prop} {as as' : List A}
    {r : Except ε α} (h : Returns S inv p s Q) (hs : inv s)
    (hexec : p.exec S.effect as s = some (r, as', s')) : inv s' ∧ ∀ a, r = .ok a → Q a s' :=
  Ensures.exec h hs hexec

/-- The invariant rule for a single thread. -/
theorem Reachable.alone {ok : Pool C R ε σ → Act A → Prop} {s₀ : σ} {t : Thread C R ε}
    (hinv : inv s₀)
    (hbody : Returns S inv t.body s₀ fun _ _ => True)
    (hloop : ∀ l, t.loop = some l → ∀ s, inv s → Returns S inv l s fun _ _ => True)
    {p : Pool C R ε σ} (h : Reachable S ok (· = ⟨s₀, [t]⟩) p) : inv p.store := by
  refine (h.kept (H := Sharing.alone S inv) ?_ fun _ _ _ _ h => h.elim).inv
  rintro p rfl
  refine ⟨hinv, rfl, fun i t' ht' => ?_⟩
  cases i with
  | zero =>
    obtain rfl := Option.some.inj ht'
    exact ⟨Ensures.mono hbody fun _ _ _ => trivial,
      fun l hl _ s hs _ => Ensures.mono (hloop l hl s hs) fun _ _ _ => trivial⟩
  | succ i => cases ht'

variable (S) in
/-- The same thread, where a round that comes to its end leaves a store of `post`. -/
def Sharing.rounds (inv post : σ → Prop) : Sharing S :=
  { Sharing.alone S inv with
    done := fun i r s => i = 0 → ∀ u, r = .ok u → post s
    done_stable := fun _ _ _ _ hrely hdone hi => hrely hi ▸ hdone hi }

lemma Returns.rounds {post : σ → Prop} {p : Prog C R ε α} {s : σ} {Q : α → σ → Prop}
    (h : Returns S inv p s Q) :
    Ensures (Sharing.rounds S inv post) 0 p (fun r s' => ∀ a, r = .ok a → Q a s') s := by
  unfold Returns at h
  induction p generalizing s with
  | pure a => exact h
  | raise e => exact h
  | call c k ih =>
    intro s₁ hinv hrely a r s' he
    obtain ⟨hinv', hguar, hstarts, hk⟩ := h s₁ hinv hrely a r s' he
    exact ⟨hinv', hguar, hstarts, ih r hk⟩

/-- The invariant rule for a single thread whose rounds lead from `post` to `post`. -/
theorem Reachable.rounds {ok : Pool C R ε σ → Act A → Prop} {s₀ : σ} {t : Thread C R ε}
    {post : σ → Prop} (hinv : inv s₀) (hbody : Returns S inv t.body s₀ fun _ => post)
    (hloop : ∀ l, t.loop = some l → ∀ s, inv s → post s → Returns S inv l s fun _ => post)
    {p : Pool C R ε σ} (h : Reachable S ok (· = ⟨s₀, [t]⟩) p) : inv p.store := by
  refine (h.kept (H := Sharing.rounds S inv post) ?_ fun _ _ _ _ h => h.elim).inv
  rintro p rfl
  refine ⟨hinv, rfl, fun i t' ht' => ?_⟩
  cases i with
  | zero =>
    obtain rfl := Option.some.inj ht'
    exact ⟨Ensures.mono hbody.rounds fun r s hr _ => hr,
      fun l hl u s hs hdone => Ensures.mono (hloop l hl s hs (hdone rfl u rfl)).rounds
        fun r s hr _ => hr⟩
  | succ i => cases ht'

end alone

end Interleaving

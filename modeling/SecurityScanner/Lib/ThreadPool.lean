import SecurityScanner.Lib.Program
import Mathlib.Data.List.Perm.Basic

/-!
# Pools of threads over one store

The threads of a pool run programs over a shared store, one call at a time and in any
order. A call can start a new thread, and a thread that has finished can start over.
`Reachable.ghost` is the invariant rule: every thread carries a ghost state of a protocol
it follows, and the invariant relates the ghost states to the store.
-/

namespace Interleaving

variable {C : Type} {R : C → Type} {ε σ A G α : Type}

/-- What a call does to the store for an answer of the environment (`none` when the call
is blocked or the answer does not fit) and the thread it starts. -/
structure System (C : Type) (R : C → Type) (ε σ A : Type) where
  effect : (c : C) → A → σ → Option (Except ε (R c) × σ)
  fork : (c : C) → Except ε (R c) → Option (Prog C R ε Unit)

/-- The rest of a thread's current round and, for a thread that loops, its whole round. -/
structure Thread (C : Type) (R : C → Type) (ε : Type) where
  body : Prog C R ε Unit
  loop : Option (Prog C R ε Unit)

structure Pool (C : Type) (R : C → Type) (ε σ : Type) where
  store : σ
  threads : List (Thread C R ε)

/-- A step of the scheduler: thread `i` makes its next call, or begins its next round. -/
inductive Act (A : Type) where
  | run (i : Nat) (a : A)
  | again (i : Nat)

namespace Pool

def step (S : System C R ε σ A) (act : Act A) (p : Pool C R ε σ) : Option (Pool C R ε σ) :=
  match act with
  | .run i a =>
    match p.threads[i]? with
    | some ⟨.call c k, l⟩ =>
      match S.effect c a p.store with
      | some (r, s') =>
        some ⟨s', p.threads.set i ⟨k r, l⟩ ++ (S.fork c r).toList.map (⟨·, none⟩)⟩
      | none => none
    | _ => none
  | .again i =>
    match p.threads[i]? with
    | some ⟨.pure _, some l⟩ => some ⟨p.store, p.threads.set i ⟨l, some l⟩⟩
    | _ => none

/-- A schedule whose actions meet `ok` when they are taken. -/
def runActs (S : System C R ε σ A) (ok : Pool C R ε σ → Act A → Prop)
    [∀ p act, Decidable (ok p act)] : List (Act A) → Pool C R ε σ → Option (Pool C R ε σ)
  | [], p => some p
  | act :: acts, p =>
    if ok p act then
      match p.step S act with
      | some p' => p'.runActs S ok acts
      | none => none
    else none

/-- The call an action makes. -/
def call? (p : Pool C R ε σ) : Act A → Option C
  | .run i _ =>
    match p.threads[i]? with
    | some t => t.body.head?
    | none => none
  | .again _ => none

lemma call?_run {p : Pool C R ε σ} {i : Nat} {a : A} {c : C} {k l}
    (h : p.threads[i]? = some ⟨.call c k, l⟩) : p.call? (.run i a) = some c := by
  simp [call?, h, Prog.head?]

/-- What a step of a thread consists of. -/
lemma step_run {S : System C R ε σ A} {i : Nat} {a : A} {p p' : Pool C R ε σ}
    (h : p.step S (.run i a) = some p') :
    ∃ c k l r s', p.threads[i]? = some ⟨.call c k, l⟩ ∧ S.effect c a p.store = some (r, s') ∧
      p' = ⟨s', p.threads.set i ⟨k r, l⟩ ++ (S.fork c r).toList.map (⟨·, none⟩)⟩ := by
  simp only [step] at h
  split at h
  · rename_i c k l ht
    split at h
    · rename_i r s' he
      exact ⟨c, k, l, r, s', ht, he, (Option.some.inj h).symm⟩
    · cases h
  · cases h

lemma step_of_effect {S : System C R ε σ A} {i : Nat} {a : A} {p : Pool C R ε σ} {c : C} {k l}
    {r : Except ε (R c)} {s' : σ} (ht : p.threads[i]? = some ⟨.call c k, l⟩)
    (he : S.effect c a p.store = some (r, s')) :
    p.step S (.run i a) =
      some ⟨s', p.threads.set i ⟨k r, l⟩ ++ (S.fork c r).toList.map (⟨·, none⟩)⟩ := by
  simp only [step, ht, he]

lemma step_of_loop {S : System C R ε σ A} {i : Nat} {p : Pool C R ε σ} {u : Unit}
    {l : Prog C R ε Unit} (ht : p.threads[i]? = some ⟨.pure u, some l⟩) :
    p.step S (.again i) = some ⟨p.store, p.threads.set i ⟨l, some l⟩⟩ := by
  simp only [step, ht]

lemma step_again {S : System C R ε σ A} {i : Nat} {p p' : Pool C R ε σ}
    (h : p.step S (.again i) = some p') :
    ∃ u l, p.threads[i]? = some ⟨.pure u, some l⟩ ∧
      p' = ⟨p.store, p.threads.set i ⟨l, some l⟩⟩ := by
  simp only [step] at h
  split at h
  · rename_i u l ht
    exact ⟨u, l, ht, (Option.some.inj h).symm⟩
  · cases h

end Pool

/-- The pools that runs from `init` reach when every step meets `ok` in the pool it is
taken in. -/
inductive Reachable (S : System C R ε σ A) (ok : Pool C R ε σ → Act A → Prop)
    (init : Pool C R ε σ → Prop) : Pool C R ε σ → Prop
  | start {p} : init p → Reachable S ok init p
  | step {p p'} (act : Act A) : Reachable S ok init p → ok p act → p.step S act = some p' →
      Reachable S ok init p'

lemma Reachable.mono {S : System C R ε σ A} {ok ok' : Pool C R ε σ → Act A → Prop}
    {init : Pool C R ε σ → Prop} (hok : ∀ p act, ok p act → ok' p act) {p : Pool C R ε σ}
    (h : Reachable S ok init p) : Reachable S ok' init p := by
  induction h with
  | start hi => exact .start hi
  | step act _ ha hs ih => exact .step act ih (hok _ _ ha) hs

/-- A run goes on from its last pool as a run of its own, if that meets the conditions. -/
lemma Reachable.then {S : System C R ε σ A} {ok ok' : Pool C R ε σ → Act A → Prop}
    {init : Pool C R ε σ → Prop} {p₀ p : Pool C R ε σ} (h₀ : Reachable S ok init p₀)
    (h : Reachable S ok' (· = p₀) p)
    (hok : ∀ p act, Reachable S ok' (· = p₀) p → ok' p act → ok p act) : Reachable S ok init p := by
  induction h with
  | start hp => exact hp ▸ h₀
  | step act hreach ha hs ih => exact .step act ih (hok _ _ hreach ha) hs

/-- A schedule that runs to its end is a run. -/
lemma Reachable.of_runActs {S : System C R ε σ A} {ok : Pool C R ε σ → Act A → Prop}
    [∀ p act, Decidable (ok p act)] {init : Pool C R ε σ → Prop} {p p' : Pool C R ε σ}
    (hp : Reachable S ok init p) (acts : List (Act A))
    (h : p.runActs S ok acts = some p') : Reachable S ok init p' := by
  induction acts generalizing p with
  | nil => exact Option.some.inj h ▸ hp
  | cons act acts ih =>
    unfold Pool.runActs at h
    split at h
    · rename_i hok
      split at h
      · rename_i q hq
        exact ih (.step act hp hok hq) h
      · cases h
    · cases h

/-- What a schedule from a start shows of its last state is true of a reachable one. -/
lemma Reachable.of_shown {S : System C R ε σ A} {ok : Pool C R ε σ → Act A → Prop}
    [∀ p act, Decidable (ok p act)] {init : Pool C R ε σ → Prop} {p : Pool C R ε σ} (hp : init p)
    {acts : List (Act A)} {β : Type} {f : Pool C R ε σ → β} {v : β}
    (h : (p.runActs S ok acts).map f = some v) : ∃ p', Reachable S ok init p' ∧ f p' = v := by
  obtain ⟨p', hp', hv⟩ := Option.map_eq_some_iff.mp h
  exact ⟨p', .of_runActs (.start hp) acts hp', hv⟩

section straight

variable {S : System C R ε σ A} {ok : Pool C R ε σ → Act A → Prop} {init : Pool C R ε σ → Prop}
  {p : Pool C R ε σ}

/-- Threads that do not loop make calls of `T` only, if they start so. -/
lemma Reachable.callsOnly {T : C → Prop}
    (hinit : ∀ p, init p → ∀ t ∈ p.threads, t.loop = none → t.body.CallsOnly T)
    (hfork : ∀ c r q, S.fork c r = some q → q.CallsOnly T) (h : Reachable S ok init p) :
    ∀ t ∈ p.threads, t.loop = none → t.body.CallsOnly T := by
  induction h with
  | start hi => exact hinit _ hi
  | step act _ _ hs ih =>
    cases act with
    | run i a =>
      obtain ⟨c, k, l, r, s', ht, -, rfl⟩ := Pool.step_run hs
      intro t htm hloop
      rcases List.mem_append.mp htm with htm | htm
      · rcases List.mem_or_eq_of_mem_set htm with htm | rfl
        · exact ih t htm hloop
        · exact (ih _ (List.mem_of_getElem? ht) hloop).2 r
      · obtain ⟨q, hq, rfl⟩ := List.mem_map.mp htm
        exact hfork c r q (Option.mem_toList.mp hq)
    | again i =>
      obtain ⟨u, l, ht, rfl⟩ := Pool.step_again hs
      intro t htm hloop
      rcases List.mem_or_eq_of_mem_set htm with htm | rfl
      · exact ih t htm hloop
      · cases hloop

/-- The rounds of the threads that loop are those of the start. -/
lemma Reachable.all_loops {L : Prog C R ε Unit → Prop}
    (hinit : ∀ p, init p → ∀ t ∈ p.threads, ∀ l, t.loop = some l → L l)
    (h : Reachable S ok init p) : ∀ t ∈ p.threads, ∀ l, t.loop = some l → L l := by
  induction h with
  | start hi => exact hinit _ hi
  | step act _ _ hs ih =>
    cases act with
    | run i a =>
      obtain ⟨c, k, l, r, s', ht, -, rfl⟩ := Pool.step_run hs
      intro t htm
      rcases List.mem_append.mp htm with htm | htm
      · rcases List.mem_or_eq_of_mem_set htm with htm | rfl
        · exact ih t htm
        · exact fun l hl => ih ⟨.call c k, _⟩ (List.mem_of_getElem? ht) l hl
      · obtain ⟨q, -, rfl⟩ := List.mem_map.mp htm
        exact nofun
    | again i =>
      obtain ⟨u, l, ht, rfl⟩ := Pool.step_again hs
      intro t htm
      rcases List.mem_or_eq_of_mem_set htm with htm | rfl
      · exact ih t htm
      · exact fun l hl => ih ⟨.pure u, some _⟩ (List.mem_of_getElem? ht) l hl

/-- In a run that starts no other threads, all threads make calls of `T` only. -/
lemma Reachable.all_callsOnly {T : C → Prop}
    (hinit : ∀ p, init p → ∀ t ∈ p.threads,
      t.body.CallsOnly T ∧ ∀ l, t.loop = some l → l.CallsOnly T)
    (hfork : ∀ (p : Pool C R ε σ) i a c r q, ok p (.run i a) → p.call? (.run i a) = some c →
      S.fork c r = some q → q.CallsOnly T) (h : Reachable S ok init p) :
    ∀ t ∈ p.threads, t.body.CallsOnly T := by
  induction h with
  | start hi => exact fun t ht => (hinit _ hi t ht).1
  | step act hreach hok hs ih =>
    cases act with
    | run i a =>
      obtain ⟨c, k, l, r, s', ht, -, rfl⟩ := Pool.step_run hs
      intro t htm
      rcases List.mem_append.mp htm with htm | htm
      · rcases List.mem_or_eq_of_mem_set htm with htm | rfl
        · exact ih t htm
        · exact (ih _ (List.mem_of_getElem? ht)).2 r
      · obtain ⟨q, hq, rfl⟩ := List.mem_map.mp htm
        exact hfork _ i a c r q hok (Pool.call?_run ht) (Option.mem_toList.mp hq)
    | again i =>
      obtain ⟨u, l, ht, rfl⟩ := Pool.step_again hs
      intro t htm
      rcases List.mem_or_eq_of_mem_set htm with htm | rfl
      · exact ih t htm
      · have hloops := hreach.all_loops (L := fun l => l.CallsOnly T)
          fun p hp t ht => (hinit p hp t ht).2
        exact hloops _ (List.mem_of_getElem? ht) l rfl

/-- No run starts a thread that loops. -/
lemma Reachable.loop_count {n : ℕ}
    (hinit : ∀ p, init p → (p.threads.filter (·.loop.isSome)).length = n)
    (h : Reachable S ok init p) : (p.threads.filter (·.loop.isSome)).length = n := by
  have hset : ∀ (ts : List (Thread C R ε)) (i : ℕ) (t t' : Thread C R ε), ts[i]? = some t →
      t'.loop.isSome = t.loop.isSome →
      ((ts.set i t').filter (·.loop.isSome)).length = (ts.filter (·.loop.isSome)).length := by
    intro ts i t t' ht hloop
    rw [← List.countP_eq_length_filter, ← List.countP_eq_length_filter]
    obtain ⟨hi, rfl⟩ := List.getElem?_eq_some_iff.mp ht
    rw [(List.set_perm_cons_eraseIdx hi t').countP_eq,
      ← (List.getElem_cons_eraseIdx_perm hi).countP_eq, List.countP_cons, List.countP_cons, hloop]
  induction h with
  | start hi => exact hinit _ hi
  | step act _ _ hs ih =>
    cases act with
    | run i a =>
      obtain ⟨c, k, l, r, s', ht, -, rfl⟩ := Pool.step_run hs
      have hforked : ((S.fork c r).toList.map (⟨·, none⟩)).filter
          (fun t : Thread C R ε => t.loop.isSome) = [] := by
        cases S.fork c r <;> rfl
      rw [List.filter_append, hforked, List.append_nil]
      exact (hset _ i ⟨.call c k, l⟩ ⟨k r, l⟩ ht rfl).trans ih
    | again i =>
      obtain ⟨u, l, ht, rfl⟩ := Pool.step_again hs
      exact (hset _ i ⟨.pure u, some l⟩ ⟨l, some l⟩ ht rfl).trans ih

end straight

section ghost

variable (P : Protocol C R ε G) (idle : G)

/-- A thread in the ghost state `g` follows the protocol and ends its round idle. -/
def Thread.Typed (g : G) (t : Thread C R ε) : Prop :=
  Follows P g t.body (fun _ g' => g' = idle) ∧
    ∀ l, t.loop = some l → P.looping g ∧ Follows P idle l (fun _ g' => g' = idle)

/-- `gs` lists a ghost state for each thread. -/
def Typed (gs : List G) (ts : List (Thread C R ε)) : Prop :=
  gs.length = ts.length ∧ ∀ (i : Nat) (g : G) (t : Thread C R ε), gs[i]? = some g →
    ts[i]? = some t → t.Typed P idle g

variable {P idle}

lemma Typed.get {gs : List G} {ts : List (Thread C R ε)} (h : Typed P idle gs ts) {i : Nat}
    {t : Thread C R ε} (ht : ts[i]? = some t) : ∃ g, gs[i]? = some g ∧ t.Typed P idle g := by
  obtain ⟨hi, -⟩ := List.getElem?_eq_some_iff.mp ht
  have hg : gs[i]? = some (gs.get ⟨i, h.1 ▸ hi⟩) := List.getElem?_eq_getElem _
  exact ⟨_, hg, h.2 i _ t hg ht⟩

lemma Typed.thread {gs : List G} {ts : List (Thread C R ε)} (h : Typed P idle gs ts) {g : G}
    (hg : g ∈ gs) : ∃ t ∈ ts, t.Typed P idle g := by
  obtain ⟨j, hj, hjg⟩ := List.getElem_of_mem hg
  have hj' : j < ts.length := h.1 ▸ hj
  refine ⟨_, List.getElem_mem hj', h.2 j g _ ?_ (List.getElem?_eq_getElem hj')⟩
  rw [List.getElem?_eq_getElem hj, hjg]

/-- What the threads show of themselves is what their ghost states say. -/
lemma Typed.map_eq {gs : List G} {ts : List (Thread C R ε)} (h : Typed P idle gs ts)
    {f : Thread C R ε → α} {f' : G → α} (hf : ∀ g, ∀ t ∈ ts, t.Typed P idle g → f t = f' g) :
    ts.map f = gs.map f' := by
  apply List.ext_getElem?
  intro i
  rw [List.getElem?_map, List.getElem?_map]
  cases ht : ts[i]? with
  | none =>
    have hg : gs[i]? = none := by
      rw [List.getElem?_eq_none_iff, h.1]
      exact List.getElem?_eq_none_iff.mp ht
    rw [hg]
    rfl
  | some t =>
    obtain ⟨g, hg, htyped⟩ := h.get ht
    rw [hg, Option.map_some, Option.map_some, hf g t (List.mem_of_getElem? ht) htyped]

lemma Typed.set {gs : List G} {ts : List (Thread C R ε)} (h : Typed P idle gs ts) {i : Nat}
    {g : G} {t : Thread C R ε} (ht : t.Typed P idle g) :
    Typed P idle (gs.set i g) (ts.set i t) := by
  refine ⟨by simp [h.1], fun j g' t' hg' ht' => ?_⟩
  rw [List.getElem?_set] at hg' ht'
  by_cases hij : i = j
  · subst hij
    by_cases hi : i < gs.length
    · have hi' : i < ts.length := h.1 ▸ hi
      simp only [hi, hi', ↓reduceIte, Option.some.injEq] at hg' ht'
      exact hg' ▸ ht' ▸ ht
    · simp [hi] at hg'
  · simp only [hij, ↓reduceIte] at hg' ht'
    exact h.2 j g' t' hg' ht'

lemma Typed.append {gs gs' : List G} {ts ts' : List (Thread C R ε)} (h : Typed P idle gs ts)
    (h' : Typed P idle gs' ts') : Typed P idle (gs ++ gs') (ts ++ ts') := by
  refine ⟨by simp [h.1, h'.1], fun j g t hg ht => ?_⟩
  rw [List.getElem?_append] at hg ht
  by_cases hj : j < gs.length
  · have hj' : j < ts.length := h.1 ▸ hj
    simp only [hj, hj', ↓reduceIte] at hg ht
    exact h.2 j g t hg ht
  · have hj' : ¬j < ts.length := h.1 ▸ hj
    simp only [hj, hj', ↓reduceIte] at hg ht
    exact h'.2 _ g t hg (h.1 ▸ ht)

lemma Typed.single {g : G} {t : Thread C R ε} (h : t.Typed P idle g) :
    Typed P idle [g] [t] := by
  refine ⟨rfl, fun j g' t' hg' ht' => ?_⟩
  cases j with
  | zero => exact Option.some.inj hg' ▸ Option.some.inj ht' ▸ h
  | succ j => cases hg'

/-- The invariant rule. A step of one thread is checked for the ghost state of that thread
and the call it makes; the pool before the step and the run's condition on the step are at
hand there. -/
theorem Reachable.ghost {S : System C R ε σ A} {ok : Pool C R ε σ → Act A → Prop}
    {init : Pool C R ε σ → Prop} {J : σ → List G → Prop}
    (hinit : ∀ p, init p → ∃ gs, Typed P idle gs p.threads ∧ J p.store gs)
    (hfork : ∀ g c r q, P.allowed g c → P.reply g c r → S.fork c r = some q →
      Follows P (P.child g c) q (fun _ g' => g' = idle))
    (hstep : ∀ (p : Pool C R ε σ) gs i g c k l a r s', Typed P idle gs p.threads →
      J p.store gs → gs[i]? = some g → p.threads[i]? = some ⟨.call c k, l⟩ →
      P.allowed g c → ok p (.run i a) → S.effect c a p.store = some (r, s') →
      P.reply g c r ∧ ∀ g', P.next g c r g' →
        J s' (gs.set i g' ++ (S.fork c r).toList.map (fun _ => P.child g c)))
    {p : Pool C R ε σ} (h : Reachable S ok init p) :
    ∃ gs, Typed P idle gs p.threads ∧ J p.store gs := by
  induction h with
  | start hi => exact hinit _ hi
  | @step p p' act _ hok hs ih =>
    obtain ⟨gs, hty, hJ⟩ := ih
    cases act with
    | run i a =>
      obtain ⟨c, k, l, r, s', ht, he, rfl⟩ := Pool.step_run hs
      obtain ⟨g, hg, hb, hl⟩ := hty.get ht
      obtain ⟨hr, hnext⟩ := hstep p gs i g c k l a r s' hty hJ hg ht hb.1 hok he
      obtain ⟨g', hn, hk⟩ := hb.2 r hr
      have hset : Typed P idle (gs.set i g') (p.threads.set i ⟨k r, l⟩) :=
        hty.set ⟨hk, fun l' hl' =>
          ⟨P.looping_next g c r g' (hl l' hl').1 hb.1 hn, (hl l' hl').2⟩⟩
      refine ⟨_, hset.append ?_, hnext g' hn⟩
      cases hf : S.fork c r with
      | none => exact ⟨rfl, by simp⟩
      | some q => exact Typed.single ⟨hfork g c r q hb.1 hr hf, by simp⟩
    | again i =>
      obtain ⟨u, l, ht, rfl⟩ := Pool.step_again hs
      obtain ⟨g, hg, hb, hl⟩ := hty.get ht
      have hgi : g = idle := hb
      have hset : gs.set i idle = gs := by
        obtain ⟨hi, hgs⟩ := List.getElem?_eq_some_iff.mp hg
        rw [← hgi, ← hgs, List.set_getElem_self hi]
      refine ⟨gs, ?_, hJ⟩
      have := hty.set (i := i) (g := idle) (t := ⟨l, some l⟩)
        ⟨(hl l rfl).2, fun l' hl' => Option.some.inj hl' ▸ hgi ▸ hl l rfl⟩
      rwa [hset] at this

/-- The invariant rule for an invariant that does not depend on the order of the threads: a
step is checked for the thread that takes it and the rest. -/
theorem Reachable.ghost_perm {S : System C R ε σ A} {ok : Pool C R ε σ → Act A → Prop}
    {init : Pool C R ε σ → Prop} {J : σ → List G → Prop}
    (hperm : ∀ s gs gs', gs.Perm gs' → J s gs → J s gs')
    (hinit : ∀ p, init p → ∃ gs, Typed P idle gs p.threads ∧ J p.store gs)
    (hfork : ∀ g c r q, P.allowed g c → P.reply g c r → S.fork c r = some q →
      Follows P (P.child g c) q (fun _ g' => g' = idle))
    (hstep : ∀ (p : Pool C R ε σ) g rest i c k l a r s',
      (∀ h ∈ g :: rest, ∃ t ∈ p.threads, t.Typed P idle h) → J p.store (g :: rest) →
      p.threads[i]? = some ⟨.call c k, l⟩ → P.allowed g c → ok p (.run i a) →
      S.effect c a p.store = some (r, s') →
      P.reply g c r ∧ ∀ g', P.next g c r g' →
        J s' (g' :: ((S.fork c r).toList.map (fun _ => P.child g c) ++ rest)))
    {p : Pool C R ε σ} (h : Reachable S ok init p) :
    ∃ gs, Typed P idle gs p.threads ∧ J p.store gs := by
  refine h.ghost hinit hfork ?_
  intro p gs i g c k l a r s' hty hJ hg ht hc hok he
  obtain ⟨hi, hgi⟩ := List.getElem?_eq_some_iff.mp hg
  have hgs : gs.Perm (g :: gs.eraseIdx i) := hgi ▸ (List.getElem_cons_eraseIdx_perm hi).symm
  have hthreads : ∀ h ∈ g :: gs.eraseIdx i, ∃ t ∈ p.threads, t.Typed P idle h :=
    fun h hh => hty.thread (hgs.mem_iff.mpr hh)
  obtain ⟨hr, hnext⟩ :=
    hstep p g (gs.eraseIdx i) i c k l a r s' hthreads (hperm _ _ _ hgs hJ) ht hc hok he
  refine ⟨hr, fun g' hn => hperm _ _ _ ?_ (hnext g' hn)⟩
  have hset : (gs.set i g').Perm (g' :: gs.eraseIdx i) := List.set_perm_cons_eraseIdx hi g'
  exact ((List.perm_append_comm.cons g').trans (hset.symm.append_right _))

end ghost

end Interleaving

import SecurityScanner.Lib.Discipline
import Mathlib.Algebra.BigOperators.Group.List.Basic
import Mathlib.Algebra.GroupWithZero.Nat

/-!
# Credits

Threads carry credits. A call is paid for when it is made, its reply may bring credits, and a
thread that it starts gets some of them. When the store never gives out more than it gains,
what it holds stays below its supply, in every run. `System.logging` keeps a log of the calls
for such accounts.
-/

namespace Interleaving

variable {C : Type} {R : C → Type} {ε σ A α β : Type}

section logging

/-- A call with its reply. -/
abbrev Served (R : C → Type) (ε : Type) := (c : C) × Except ε (R c)

/-- The system that writes down the calls it serves. -/
def System.logging (S : System C R ε σ A) : System C R ε (σ × List (Served R ε)) A where
  effect c a s := (S.effect c a s.1).map fun rs => (rs.1, rs.2, s.2 ++ [⟨c, rs.1⟩])
  fork := S.fork

lemma System.logging_effect {S : System C R ε σ A} {c : C} {a : A} {s s' : σ × List (Served R ε)}
    {r : Except ε (R c)} (h : S.logging.effect c a s = some (r, s')) :
    S.effect c a s.1 = some (r, s'.1) ∧ s'.2 = s.2 ++ [⟨c, r⟩] := by
  obtain ⟨⟨r', s₁⟩, he, hrs⟩ := Option.map_eq_some_iff.mp h
  cases hrs
  exact ⟨he, rfl⟩

/-- A call with its effect is written down; a call without one leaves no trace. -/
lemma System.raising_logging_effect {S : System C R ε σ A} {may : C → Bool} {c : C}
    {fate : Fate A ε} {s s' : σ × List (Served R ε)} {r : Except ε (R c)}
    (h : (S.logging.raising may).effect c fate s = some (r, s')) :
    (∃ a, S.effect c a s.1 = some (r, s'.1) ∧ s'.2 = s.2 ++ [⟨c, r⟩]) ∨
      (may c = true ∧ (∃ e, r = .error e) ∧ (s' = s ∨
        ∃ a r', S.effect c a s.1 = some (r', s'.1) ∧ s'.2 = s.2 ++ [⟨c, r'⟩])) := by
  rcases System.raising_effect h with ⟨a, he⟩ | ⟨hmay, he, hs | ⟨a, r', he'⟩⟩
  · exact Or.inl ⟨a, System.logging_effect he⟩
  · exact Or.inr ⟨hmay, he, Or.inl hs⟩
  · exact Or.inr ⟨hmay, he, Or.inr ⟨a, r', System.logging_effect he'⟩⟩

end logging

section tariff

/-- What a call costs, what its reply brings in, and what a thread that it starts gets. The
replies without an exception are those of `answers`. -/
structure Tariff (C : Type) (R : C → Type) (ε : Type) where
  cost : C → ℕ
  income : (c : C) → Except ε (R c) → ℕ
  share : C → ℕ
  answers : (c : C) → R c → Prop

/-- The ghost state of a thread is what it has left; a thread may lose credits. -/
def Tariff.protocol (T : Tariff C R ε) : Protocol C R ε ℕ where
  allowed g c := T.cost c ≤ g
  reply _ c r := ∀ a, r = .ok a → T.answers c a
  next g c r g' := g' + T.cost c ≤ g + T.income c r
  child _ c := T.share c
  looping _ := True
  looping_next _ _ _ _ _ _ _ := trivial

variable {T : Tariff C R ε}

/-- The program spends up to `n` credits, however it ends. -/
def Tariff.Spends (T : Tariff C R ε) (n : ℕ) (p : Prog C R ε α) : Prop :=
  ∀ g, n ≤ g → Follows T.protocol g p fun _ g' => g ≤ g' + n

lemma Prog.CallsOnly.free {p : Prog C R ε α} (h : p.CallsOnly fun c => T.cost c = 0) :
    T.Spends 0 p := by
  intro g _
  refine Follows.mono (h.follows fun c hc => ⟨?_, fun r => ?_⟩) fun _ g' hg' => by omega
  · change T.cost c ≤ g
    omega
  · change g + T.cost c ≤ g + T.income c r
    omega

lemma Tariff.spends_perform (c : C) : T.Spends (T.cost c) (Prog.perform c) := by
  refine fun g hg => follows_perform.mpr ⟨hg, fun r _ => ⟨g - T.cost c, ?_, ?_⟩⟩
  · change g - T.cost c + T.cost c ≤ g + T.income c r
    omega
  · omega

/-- The last call of a program can leave the thread with nothing. -/
lemma Tariff.follows_spent {g : ℕ} {p : Prog C R ε α} {Q : Except ε α → ℕ → Prop}
    (h : Follows T.protocol g p Q) (hp : p.head? ≠ none) :
    Follows T.protocol g p fun _ g' => g' = 0 := by
  induction p generalizing g with
  | pure a => exact absurd rfl hp
  | raise e => exact absurd rfl hp
  | call c k ih =>
    refine ⟨h.1, fun r hr => ?_⟩
    obtain ⟨g', hn, hk⟩ := h.2 r hr
    by_cases hend : (k r).head? = none
    · have hleft : g' + T.cost c ≤ g + T.income c r := hn
      have hnone : 0 + T.cost c ≤ g + T.income c r := by omega
      refine ⟨0, hnone, ?_⟩
      cases hkr : k r with
      | pure a => rfl
      | raise e => rfl
      | call c' k' => exact absurd hend (by simp [hkr, Prog.head?])
    · exact ⟨g', hn, ih r hk hend⟩

/-- What a reply brings in pays for what comes after it. -/
lemma Tariff.Spends.call {m : ℕ} {c : C} {f : R c → Prog C R ε β}
    (hf : ∀ a, T.answers c a → T.Spends (m + T.income c (.ok a)) (f a)) :
    T.Spends (T.cost c + m) (Prog.perform c >>= f) := by
  intro g hg
  have hcost : T.cost c ≤ g := by omega
  refine follows_bind.mpr (follows_perform.mpr ⟨hcost, fun r hr => ?_⟩)
  refine ⟨g - T.cost c + T.income c r, ?_, ?_⟩
  · change g - T.cost c + T.income c r + T.cost c ≤ g + T.income c r
    omega
  · cases r with
    | error e =>
      change g ≤ g - T.cost c + T.income c (.error e) + (T.cost c + m)
      omega
    | ok a =>
      exact (hf a (hr a rfl) _ (by omega)).mono fun _ g'' hg'' => by omega

lemma Tariff.Spends.bind {n m : ℕ} {p : Prog C R ε α} {f : α → Prog C R ε β} (h : T.Spends n p)
    (hf : ∀ a, T.Spends m (f a)) : T.Spends (n + m) (p >>= f) := by
  intro g hg
  refine follows_bind.mpr ((h g (by omega)).mono ?_)
  rintro (e | a) g' hg'
  · change g ≤ g' + (n + m)
    omega
  · exact (hf a g' (by omega)).mono fun _ g'' hg'' => by omega

lemma Tariff.Spends.tryCatch {n m : ℕ} {p : Prog C R ε α} {f : ε → Prog C R ε α}
    (h : T.Spends n p) (hf : ∀ e, T.Spends m (f e)) :
    T.Spends (n + m) (MonadExcept.tryCatch p f) := by
  intro g hg
  refine follows_tryCatch.mpr ((h g (by omega)).mono ?_)
  rintro (e | a) g' hg'
  · exact (hf e g' (by omega)).mono fun _ g'' hg'' => by omega
  · change g ≤ g' + (n + m)
    omega

/-- A handler that always recovers. -/
lemma Tariff.Spends.recovers {n g : ℕ} {p : Prog C R ε α} {f : ε → α} (h : T.Spends n p)
    (hg : n ≤ g) : Follows T.protocol g (MonadExcept.tryCatch p fun e => Pure.pure (f e)) fun r g' =>
      (∃ a, r = .ok a) ∧ g ≤ g' + n :=
  follows_tryCatch_pure (h g hg)

/-- A program is free if its parts are. -/
lemma Tariff.compositional : Prog.Compositional fun α (p : Prog C R ε α) => T.Spends 0 p where
  pure _ := fun _ _ => Nat.le_refl _
  throw _ := fun _ _ => Nat.le_refl _
  bind hp hf := hp.bind (m := 0) hf
  tryCatch hp hf := hp.tryCatch (m := 0) hf

lemma Tariff.Spends.mono {n m : ℕ} {p : Prog C R ε α} (h : T.Spends n p) (hnm : n ≤ m) :
    T.Spends m p :=
  fun g hg => (h g (by omega)).mono fun _ g' hg' => by omega

/-- After a part that spends up to `n`, what is left is at hand; it is what an exception
leaves as well. -/
lemma Tariff.Spends.then {n g : ℕ} {p : Prog C R ε α} {f : α → Prog C R ε β}
    {Q : Except ε β → ℕ → Prop} (h : T.Spends n p) (hg : n ≤ g)
    (hf : ∀ a g', g ≤ g' + n → Follows T.protocol g' (f a) Q)
    (he : ∀ e g', g ≤ g' + n → Q (.error e) g') : Follows T.protocol g (p >>= f) Q := by
  refine follows_bind.mpr ((h g hg).mono ?_)
  rintro (e | a) g' hg'
  · exact he e g' hg'
  · exact hf a g' hg'

variable {S : System C R ε σ A} {ok : Pool C R ε σ → Act A → Prop} {init : Pool C R ε σ → Prop}

/-- The rule of the accounts: threads live on what they were given, and no step of the run
raises the holdings beyond what is paid in or newly supplied. -/
theorem Reachable.funded (holdings supply : σ → ℕ)
    (hinit : ∀ p, init p → ∃ gs, Typed T.protocol 0 gs p.threads ∧
      holdings p.store + gs.sum ≤ supply p.store)
    (hfork : ∀ c r q, S.fork c r = some q → Follows T.protocol (T.share c) q fun _ g => g = 0)
    (hstep : ∀ (p : Pool C R ε σ) i c a r s', p.call? (.run i a) = some c → ok p (.run i a) →
      S.effect c a p.store = some (r, s') → (∀ x, r = .ok x → T.answers c x) ∧
        holdings s' + T.income c r + (if (S.fork c r).isSome then T.share c else 0) +
          supply p.store ≤ holdings p.store + T.cost c + supply s')
    {p : Pool C R ε σ} (h : Reachable S ok init p) : holdings p.store ≤ supply p.store := by
  have hrun : ∃ gs, Typed T.protocol 0 gs p.threads ∧
      holdings p.store + gs.sum ≤ supply p.store := by
    refine h.ghost_perm (J := fun s gs => holdings s + gs.sum ≤ supply s)
      (fun s gs gs' hp hle => hp.sum_eq ▸ hle) hinit (fun g c r q _ _ hq => hfork c r q hq) ?_
    intro p g rest i c k l a r s' _ hle ht hc hok he
    obtain ⟨hans, hpay⟩ := hstep p i c a r s' (Pool.call?_run ht) hok he
    refine ⟨hans, fun g' hn => ?_⟩
    have hcost : T.cost c ≤ g := hc
    have hleft : g' + T.cost c ≤ g + T.income c r := hn
    have hchild : ((S.fork c r).toList.map fun _ => T.protocol.child g c).sum =
        if (S.fork c r).isSome then T.share c else 0 := by
      cases S.fork c r with
      | none => rfl
      | some q => exact List.sum_singleton
    rw [List.sum_cons, List.sum_append, hchild]
    rw [List.sum_cons] at hle
    omega
  obtain ⟨gs, -, hle⟩ := hrun
  omega

/-- A thread that starts each of its rounds with nothing. -/
def Tariff.Solvent (T : Tariff C R ε) (t : Thread C R ε) : Prop :=
  Follows T.protocol 0 t.body (fun _ g => g = 0) ∧
    ∀ l, t.loop = some l → Follows T.protocol 0 l fun _ g => g = 0

lemma Tariff.Solvent.typed {ts : List (Thread C R ε)} (h : ∀ t ∈ ts, T.Solvent t) :
    Typed T.protocol 0 (List.replicate ts.length 0) ts := by
  refine ⟨by simp, fun i g t hg ht => ?_⟩
  obtain rfl := List.eq_of_mem_replicate (List.mem_of_getElem? hg)
  obtain ⟨hbody, hloop⟩ := h t (List.mem_of_getElem? ht)
  exact ⟨hbody, fun l hl => ⟨trivial, hloop l hl⟩⟩

/-- The correspondence rule: when every thread earns before it pays, the calls of a run cost no
more than the replies before them brought in, whatever raises. -/
theorem Reachable.paid {S : System C R ε σ A} {may : C → Bool}
    {ok : Pool C R ε (σ × List (Served R ε)) → Act (Fate A ε) → Prop}
    {init : Pool C R ε (σ × List (Served R ε)) → Prop} (price : C → ℕ)
    (hcost : ∀ c, price c + T.share c ≤ T.cost c) (hincome : ∀ c e, T.income c (.error e) = 0)
    (hmay : ∀ c r, may c = true → S.fork c r = none)
    (hanswers : ∀ c a s r s', S.effect c a s = some (r, s') → ∀ x, r = .ok x → T.answers c x)
    (hfork : ∀ c r q, S.fork c r = some q → Follows T.protocol (T.share c) q fun _ g => g = 0)
    (hinit : ∀ p, init p → p.store.2 = [] ∧ ∀ t ∈ p.threads, T.Solvent t)
    {p : Pool C R ε (σ × List (Served R ε))}
    (h : Reachable (S.logging.raising may) ok init p) :
    (p.store.2.map fun x => price x.1).sum ≤ (p.store.2.map fun x => T.income x.1 x.2).sum := by
  refine h.funded (S := S.logging.raising may) (fun s => (s.2.map fun x => price x.1).sum)
    (fun s => (s.2.map fun x => T.income x.1 x.2).sum) ?_ hfork ?_
  · intro p hp
    obtain ⟨hlog, hthreads⟩ := hinit p hp
    exact ⟨_, Tariff.Solvent.typed hthreads, by simp [hlog]⟩
  · intro p i c fate r s' _ _ he
    have hc := hcost c
    rcases System.raising_logging_effect he with ⟨a, he, hlog⟩ | ⟨hraise, ⟨e, rfl⟩, hs⟩
    · refine ⟨hanswers c a _ r _ he, ?_⟩
      simp only [hlog, List.map_append, List.sum_append, List.map_singleton, List.sum_singleton]
      split <;> omega
    · have hfree : (S.logging.raising may).fork c (.error e) = none := hmay c _ hraise
      refine ⟨nofun, ?_⟩
      rw [hfree, hincome]
      rcases hs with rfl | ⟨a, r', -, hlog⟩
      · change _ + 0 + 0 + _ ≤ _
        omega
      · simp only [hlog, List.map_append, List.sum_append, List.map_singleton, List.sum_singleton]
        change _ + 0 + 0 + _ ≤ _
        omega

end tariff

section correspondence

variable {X : Type}

/-- Calls that use something up, replies that bring it, and calls that give it to the thread
they start. -/
structure Correspondence (C : Type) (R : C → Type) (X : Type) where
  uses : C → Option X
  brings : (c : C) → R c → Option X
  gives : C → Option X := fun _ => none
  answers : (c : C) → R c → Prop := fun _ _ => True

namespace Correspondence

variable (K : Correspondence C R X)

/-- What the calls of a log used up. -/
def used (log : List (Served R ε)) : List X := log.filterMap fun e => K.uses e.1

/-- What the replies of a log brought. -/
def brought (log : List (Served R ε)) : List X :=
  log.filterMap fun e => match e.2 with
    | .ok a => K.brings e.1 a
    | .error _ => none

variable [DecidableEq X]

/-- One credit for each `x`. -/
def tariff (x : X) : Tariff C R ε where
  cost c := (if K.uses c = some x then 1 else 0) + if K.gives c = some x then 1 else 0
  income c r := match r with
    | .ok a => if K.brings c a = some x then 1 else 0
    | .error _ => 0
  share c := if K.gives c = some x then 1 else 0
  answers := K.answers

end Correspondence

lemma count_filterMap_eq_sum [DecidableEq β] (f : α → Option β) (b : β) (as : List α) :
    (as.filterMap f).count b = (as.map fun a => if f a = some b then 1 else 0).sum := by
  induction as with
  | nil => rfl
  | cons a as ih =>
    rw [List.map_cons, List.sum_cons, ← ih]
    cases hf : f a with
    | none => rw [List.filterMap_cons_none hf, if_neg nofun, Nat.zero_add]
    | some b' =>
      rw [List.filterMap_cons_some hf, List.count_cons, Nat.add_comm]
      simp only [beq_iff_eq, Option.some.injEq]

/-- What a run uses up was brought before, each time anew. -/
theorem Reachable.corresponds [DecidableEq X] {S : System C R ε σ A} {may : C → Bool}
    {ok : Pool C R ε (σ × List (Served R ε)) → Act (Fate A ε) → Prop}
    {init : Pool C R ε (σ × List (Served R ε)) → Prop} {K : Correspondence C R X}
    (hmay : ∀ c r, may c = true → S.fork c r = none)
    (hanswers : ∀ c a s x s', S.effect c a s = some (.ok x, s') → K.answers c x)
    (hfork : ∀ x c r q, S.fork c r = some q →
      Follows (K.tariff x).protocol ((K.tariff x : Tariff C R ε).share c) q fun _ g => g = 0)
    (hinit : ∀ p, init p → p.store.2 = [] ∧ ∀ x, ∀ t ∈ p.threads, (K.tariff x).Solvent t)
    {p : Pool C R ε (σ × List (Served R ε))}
    (h : Reachable (S.logging.raising may) ok init p) :
    (K.used p.store.2).Subperm (K.brought p.store.2) := by
  refine List.subperm_ext_iff.mpr fun x _ => ?_
  have hpaid := h.paid (T := K.tariff x) (fun c => if K.uses c = some x then 1 else 0)
    (fun _ => Nat.le_refl _) (fun _ _ => rfl) hmay ?_ (hfork x)
    fun p hp => ⟨(hinit p hp).1, (hinit p hp).2 x⟩
  · rw [Correspondence.used, Correspondence.brought, count_filterMap_eq_sum, count_filterMap_eq_sum]
    refine Nat.le_trans hpaid (Nat.le_of_eq (congrArg List.sum (List.map_congr_left ?_)))
    rintro ⟨c, e | a⟩ _ <;> rfl
  · rintro c a s r s' he y rfl
    exact hanswers c a s y s' he

end correspondence

end Interleaving

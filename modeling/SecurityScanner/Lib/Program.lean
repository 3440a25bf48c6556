import Mathlib.Tactic.Common

/-!
# Programs of atomic calls

A program is a tree of calls to an environment. A call names a command of `C`, its reply
has the type `R c` or is an exception of type `ε`, and the program continues from the
reply. Whatever happens between two calls of one program is left to the scheduler, so a
call is the unit of atomicity. `Follows` is the proof rule of the library: a program is
checked once, call by call, against a protocol over ghost states.
-/

namespace Interleaving

/-- A program that makes calls, raises exceptions of `ε` and returns a value of `α`. -/
inductive Prog (C : Type) (R : C → Type) (ε α : Type) : Type where
  | pure (a : α)
  | raise (e : ε)
  | call (c : C) (k : Except ε (R c) → Prog C R ε α)

namespace Prog

variable {C : Type} {R : C → Type} {ε α β σ A : Type}

def bind : Prog C R ε α → (α → Prog C R ε β) → Prog C R ε β
  | .pure a, f => f a
  | .raise e, _ => .raise e
  | .call c k, f => .call c (fun r => (k r).bind f)

/-- `try p except e: h e`. -/
def tryCatch : Prog C R ε α → (ε → Prog C R ε α) → Prog C R ε α
  | .pure a, _ => .pure a
  | .raise e, h => h e
  | .call c k, h => .call c (fun r => (k r).tryCatch h)

instance : Monad (Prog C R ε) where
  pure := .pure
  bind := .bind

instance : MonadExceptOf ε (Prog C R ε) where
  throw := .raise
  tryCatch := .tryCatch

/-- The program that makes one call and returns its reply, or raises its exception. -/
def perform (c : C) : Prog C R ε (R c) :=
  .call c (fun r => match r with | .ok a => .pure a | .error e => .raise e)

/-- Runs a program alone, each call taking the next answer of the environment; the answers
that are left come back. -/
def exec (effect : (c : C) → A → σ → Option (Except ε (R c) × σ)) :
    Prog C R ε α → List A → σ → Option (Except ε α × List A × σ)
  | .pure a, as, s => some (.ok a, as, s)
  | .raise e, as, s => some (.error e, as, s)
  | .call _ _, [], _ => none
  | .call c k, a :: as, s =>
    match effect c a s with
    | some (r, s') => (k r).exec effect as s'
    | none => none

/-- Runs a program alone where every call is answered. -/
def run (handle : (c : C) → σ → Except ε (R c) × σ) : Prog C R ε α → σ → Except ε α × σ
  | .pure a, s => (.ok a, s)
  | .raise e, s => (.error e, s)
  | .call c k, s => (k (handle c s).1).run handle (handle c s).2

/-- The calls of such a run, in order. -/
def calls (handle : (c : C) → σ → Except ε (R c) × σ) : Prog C R ε α → σ → List C
  | .call c k, s => c :: (k (handle c s).1).calls handle (handle c s).2
  | _, _ => []

/-- Whatever the replies, the program makes calls of `T` only. -/
def CallsOnly (T : C → Prop) : Prog C R ε α → Prop
  | .call c k => T c ∧ ∀ r, (k r).CallsOnly T
  | _ => True

/-- The program in an environment that has calls of other kinds as well. -/
def embed {C' : Type} {R' : C' → Type} (ι : C → C') :
    Prog C (fun c => R' (ι c)) ε α → Prog C' R' ε α
  | .pure a => .pure a
  | .raise e => .raise e
  | .call c k => .call (ι c) fun r => (k r).embed ι

/-- The call a program is about to make. -/
def head? : Prog C R ε α → Option C
  | .call c _ => some c
  | _ => none

/-- Some course of replies leads the program to a call of `T`. -/
def MayCall (T : C → Prop) : Prog C R ε α → Prop
  | .call c k => T c ∨ ∃ r, (k r).MayCall T
  | _ => False

section exec

variable {effect : (c : C) → A → σ → Option (Except ε (R c) × σ)} {as : List A} {s : σ}

@[simp] lemma exec_pure (a : α) :
    (Pure.pure a : Prog C R ε α).exec effect as s = some (.ok a, as, s) := rfl

@[simp] lemma exec_throw (e : ε) :
    (throw e : Prog C R ε α).exec effect as s = some (.error e, as, s) := rfl

@[simp] lemma exec_perform (c : C) (a : A) :
    (perform c).exec effect (a :: as) s =
      (effect c a s).map fun rs => (rs.1, as, rs.2) := by
  unfold perform exec
  cases effect c a s with
  | none => rfl
  | some rs => rcases rs with ⟨r, s'⟩; cases r <;> rfl

@[simp] lemma exec_bind (p : Prog C R ε α) (f : α → Prog C R ε β) :
    (p >>= f).exec effect as s =
      match p.exec effect as s with
      | some (.ok a, as', s') => (f a).exec effect as' s'
      | some (.error e, as', s') => some (.error e, as', s')
      | none => none := by
  change (p.bind f).exec effect as s = _
  induction p generalizing as s with
  | pure a => rfl
  | raise e => rfl
  | call c k ih =>
    cases as with
    | nil => rfl
    | cons a as =>
      simp only [Prog.bind, exec]
      cases effect c a s with
      | none => rfl
      | some rs => exact ih rs.1

@[simp] lemma exec_tryCatch (p : Prog C R ε α) (h : ε → Prog C R ε α) :
    (MonadExcept.tryCatch p h).exec effect as s =
      match p.exec effect as s with
      | some (.ok a, as', s') => some (.ok a, as', s')
      | some (.error e, as', s') => (h e).exec effect as' s'
      | none => none := by
  change (p.tryCatch h).exec effect as s = _
  induction p generalizing as s with
  | pure a => rfl
  | raise e => rfl
  | call c k ih =>
    cases as with
    | nil => rfl
    | cons a as =>
      simp only [Prog.tryCatch, exec]
      cases effect c a s with
      | none => rfl
      | some rs => exact ih rs.1

end exec

section run

variable {handle : (c : C) → σ → Except ε (R c) × σ} {s : σ}

@[simp] lemma run_pure (a : α) : (Pure.pure a : Prog C R ε α).run handle s = (.ok a, s) := rfl

@[simp] lemma run_throw (e : ε) : (throw e : Prog C R ε α).run handle s = (.error e, s) := rfl

@[simp] lemma run_perform (c : C) : (perform c).run handle s = handle c s := by
  unfold perform run
  rcases handle c s with ⟨r, s'⟩
  cases r <;> rfl

@[simp] lemma run_bind (p : Prog C R ε α) (f : α → Prog C R ε β) :
    (p >>= f).run handle s =
      match p.run handle s with
      | (.ok a, s') => (f a).run handle s'
      | (.error e, s') => (.error e, s') := by
  change (p.bind f).run handle s = _
  induction p generalizing s with
  | pure a => rfl
  | raise e => rfl
  | call c k ih => exact ih (handle c s).1

lemma run_map (p : Prog C R ε α) (f : α → β) :
    (f <$> p).run handle s = ((p.run handle s).1.map f, (p.run handle s).2) := by
  change (p >>= fun a => Pure.pure (f a)).run handle s = _
  rw [run_bind]
  rcases p.run handle s with ⟨e | a, s'⟩
  · rfl
  · rfl

@[simp] lemma run_tryCatch (p : Prog C R ε α) (h : ε → Prog C R ε α) :
    (MonadExcept.tryCatch p h).run handle s =
      match p.run handle s with
      | (.ok a, s') => (.ok a, s')
      | (.error e, s') => (h e).run handle s' := by
  change (p.tryCatch h).run handle s = _
  induction p generalizing s with
  | pure a => rfl
  | raise e => rfl
  | call c k ih => exact ih (handle c s).1

lemma run_embed {C' : Type} {R' : C' → Type} {ι : C → C'}
    {handle : (c : C') → σ → Except ε (R' c) × σ} (p : Prog C (fun c => R' (ι c)) ε α) (s : σ) :
    (p.embed ι).run handle s = p.run (fun c s => handle (ι c) s) s := by
  induction p generalizing s with
  | pure a => rfl
  | raise e => rfl
  | call c k ih => exact ih _ _

@[simp] lemma calls_pure (a : α) : (Pure.pure a : Prog C R ε α).calls handle s = [] := rfl

@[simp] lemma calls_throw (e : ε) : (throw e : Prog C R ε α).calls handle s = [] := rfl

@[simp] lemma calls_perform (c : C) : (perform c).calls handle s = [c] := by
  unfold perform calls
  rcases handle c s with ⟨r, s'⟩
  cases r <;> rfl

@[simp] lemma calls_bind (p : Prog C R ε α) (f : α → Prog C R ε β) :
    (p >>= f).calls handle s = p.calls handle s ++
      match p.run handle s with
      | (.ok a, s') => (f a).calls handle s'
      | (.error _, _) => [] := by
  change (p.bind f).calls handle s = _
  induction p generalizing s with
  | pure a => rfl
  | raise e => rfl
  | call c k ih => exact congrArg (c :: ·) (ih (handle c s).1)

@[simp] lemma calls_tryCatch (p : Prog C R ε α) (h : ε → Prog C R ε α) :
    (MonadExcept.tryCatch p h).calls handle s = p.calls handle s ++
      match p.run handle s with
      | (.ok _, _) => []
      | (.error e, s') => (h e).calls handle s' := by
  change (p.tryCatch h).calls handle s = _
  induction p generalizing s with
  | pure a => rfl
  | raise e => rfl
  | call c k ih => exact congrArg (c :: ·) (ih (handle c s).1)

/-- A handler that always recovers. -/
lemma run_tryCatch_pure (p : Prog C R ε α) (f : ε → α) :
    ∃ a s', (MonadExcept.tryCatch p fun e => Pure.pure (f e)).run handle s = (.ok a, s') := by
  rw [run_tryCatch]
  rcases p.run handle s with ⟨e | a, s'⟩
  · exact ⟨_, _, rfl⟩
  · exact ⟨_, _, rfl⟩

end run

section callsOnly

variable {T : C → Prop} {handle : (c : C) → σ → Except ε (R c) × σ}

@[simp] lemma callsOnly_pure (a : α) : (Pure.pure a : Prog C R ε α).CallsOnly T := trivial

@[simp] lemma callsOnly_throw (e : ε) : (throw e : Prog C R ε α).CallsOnly T := trivial

lemma callsOnly_perform {c : C} (h : T c) : (perform c : Prog C R ε (R c)).CallsOnly T :=
  ⟨h, fun r => by cases r <;> trivial⟩

lemma CallsOnly.mono {T' : C → Prop} {p : Prog C R ε α} (hp : p.CallsOnly T)
    (h : ∀ c, T c → T' c) : p.CallsOnly T' := by
  induction p with
  | pure a => trivial
  | raise e => trivial
  | call c k ih => exact ⟨h c hp.1, fun r => ih r (hp.2 r)⟩

lemma CallsOnly.bind {p : Prog C R ε α} {f : α → Prog C R ε β} (hp : p.CallsOnly T)
    (hf : ∀ a, (f a).CallsOnly T) : (p >>= f).CallsOnly T := by
  change (p.bind f).CallsOnly T
  induction p with
  | pure a => exact hf a
  | raise e => trivial
  | call c k ih => exact ⟨hp.1, fun r => ih r (hp.2 r)⟩

lemma CallsOnly.tryCatch {p : Prog C R ε α} {h : ε → Prog C R ε α} (hp : p.CallsOnly T)
    (hh : ∀ e, (h e).CallsOnly T) : (MonadExcept.tryCatch p h).CallsOnly T := by
  change (p.tryCatch h).CallsOnly T
  induction p with
  | pure a => trivial
  | raise e => exact hh e
  | call c k ih => exact ⟨hp.1, fun r => ih r (hp.2 r)⟩

lemma CallsOnly.of_tryCatch {p : Prog C R ε α} {h : ε → Prog C R ε α}
    (hp : (MonadExcept.tryCatch p h).CallsOnly T) : p.CallsOnly T := by
  change (p.tryCatch h).CallsOnly T at hp
  induction p with
  | pure a => trivial
  | raise e => trivial
  | call c k ih => exact ⟨hp.1, fun r => ih r (hp.2 r)⟩

lemma CallsOnly.embed {C' : Type} {R' : C' → Type} {ι : C → C'} {T' : C' → Prop}
    {p : Prog C (fun c => R' (ι c)) ε α} (hp : p.CallsOnly fun c => T' (ι c)) :
    (p.embed ι).CallsOnly T' := by
  induction p with
  | pure a => trivial
  | raise e => trivial
  | call c k ih => exact ⟨hp.1, fun r => ih r (hp.2 r)⟩

lemma CallsOnly.of_mem_calls {p : Prog C R ε α} (hp : p.CallsOnly T) {s : σ} {c : C}
    (h : c ∈ p.calls handle s) : T c := by
  induction p generalizing s with
  | pure a => cases h
  | raise e => cases h
  | call c' k ih =>
    rcases List.mem_cons.mp h with rfl | h
    · exact hp.1
    · exact ih _ (hp.2 _) h

/-- A run keeps what its calls keep. -/
lemma CallsOnly.run_keeps {p : Prog C R ε α} (hp : p.CallsOnly T) {I : σ → Prop}
    (h : ∀ c s, T c → I s → I (handle c s).2) {s : σ} (hs : I s) : I (p.run handle s).2 := by
  induction p generalizing s with
  | pure a => exact hs
  | raise e => exact hs
  | call c k ih => exact ih _ (hp.2 _) (h c s hp.1 hs)

/-- A call that the program may make is among those it makes. -/
lemma CallsOnly.exists_of_mayCall {T' : C → Prop} {p : Prog C R ε α} (hp : p.CallsOnly T)
    (h : p.MayCall T') : ∃ c, T c ∧ T' c := by
  induction p with
  | pure a => exact h.elim
  | raise e => exact h.elim
  | call c k ih =>
    rcases h with h | ⟨r, h⟩
    · exact ⟨c, hp.1, h⟩
    · exact ih r (hp.2 r) h

end callsOnly

/-- A property that a program has if its parts have it. -/
structure Compositional (Φ : (α : Type) → Prog C R ε α → Prop) : Prop where
  pure : ∀ {α : Type} (a : α), Φ α (Pure.pure a)
  throw : ∀ {α : Type} (e : ε), Φ α (throw e)
  bind : ∀ {α β : Type} {p : Prog C R ε α} {f : α → Prog C R ε β}, Φ α p → (∀ a, Φ β (f a)) →
    Φ β (p >>= f)
  tryCatch : ∀ {α : Type} {p : Prog C R ε α} {h : ε → Prog C R ε α}, Φ α p → (∀ e, Φ α (h e)) →
    Φ α (MonadExcept.tryCatch p h)

lemma compositional_callsOnly (T : C → Prop) :
    Compositional fun α (p : Prog C R ε α) => p.CallsOnly T where
  pure _ := trivial
  throw _ := trivial
  bind := CallsOnly.bind
  tryCatch := CallsOnly.tryCatch

end Prog

/-- A protocol over ghost states `G`: which calls a ghost state allows, which replies the
environment can give there, and where a reply may lead. A thread that a call starts gets
the ghost state `child`. The states of threads that loop are closed under `next`. -/
structure Protocol (C : Type) (R : C → Type) (ε G : Type) where
  allowed : G → C → Prop
  reply : G → (c : C) → Except ε (R c) → Prop
  next : G → (c : C) → Except ε (R c) → G → Prop
  child : G → C → G
  looping : G → Prop
  looping_next : ∀ g c r g', looping g → allowed g c → next g c r g' → looping g'

/-- What a protocol says of the calls that `ι` embeds. -/
def Protocol.comap {C C' : Type} {R' : C' → Type} {ε G : Type} (P : Protocol C' R' ε G)
    (ι : C → C') : Protocol C (fun c => R' (ι c)) ε G where
  allowed g c := P.allowed g (ι c)
  reply g c r := P.reply g (ι c) r
  next g c r g' := P.next g (ι c) r g'
  child g c := P.child g (ι c)
  looping := P.looping
  looping_next g c r g' := P.looping_next g (ι c) r g'

section follows

variable {C : Type} {R : C → Type} {ε α β G : Type} (P : Protocol C R ε G)

/-- From the ghost state `g` the program makes allowed calls only, and for all replies of
the protocol it ends in a result and a ghost state of `Q`. The ghost successor is chosen
by the proof, so it may depend on what the program is going to do. -/
def Follows : G → Prog C R ε α → (Except ε α → G → Prop) → Prop
  | g, .pure a, Q => Q (.ok a) g
  | g, .raise e, Q => Q (.error e) g
  | g, .call c k, Q =>
    P.allowed g c ∧ ∀ r, P.reply g c r → ∃ g', P.next g c r g' ∧ Follows g' (k r) Q

variable {P}

@[simp] lemma follows_pure {g : G} {a : α} {Q : Except ε α → G → Prop} :
    Follows P g (pure a : Prog C R ε α) Q ↔ Q (.ok a) g := Iff.rfl

@[simp] lemma follows_throw {g : G} {e : ε} {Q : Except ε α → G → Prop} :
    Follows P g (throw e : Prog C R ε α) Q ↔ Q (.error e) g := Iff.rfl

lemma follows_perform {g : G} {c : C} {Q : Except ε (R c) → G → Prop} :
    Follows P g (Prog.perform c) Q ↔
      P.allowed g c ∧ ∀ r, P.reply g c r → ∃ g', P.next g c r g' ∧ Q r g' := by
  unfold Prog.perform Follows
  refine and_congr_right fun _ => forall_congr' fun r => ?_
  cases r <;> exact Iff.rfl

/-- The rule of sequencing: an exception skips the rest. -/
lemma follows_bind {g : G} {p : Prog C R ε α} {f : α → Prog C R ε β}
    {Q : Except ε β → G → Prop} :
    Follows P g (p >>= f) Q ↔ Follows P g p (fun r g' =>
      match r with
      | .ok a => Follows P g' (f a) Q
      | .error e => Q (.error e) g') := by
  change Follows P g (p.bind f) Q ↔ _
  induction p generalizing g with
  | pure a => exact Iff.rfl
  | raise e => exact Iff.rfl
  | call c k ih =>
    simp only [Prog.bind, Follows]
    exact and_congr_right fun _ => forall_congr' fun r => imp_congr_right fun _ =>
      exists_congr fun g' => and_congr_right fun _ => ih r

/-- The rule of `try`: an exception continues in the handler. -/
lemma follows_tryCatch {g : G} {p : Prog C R ε α} {h : ε → Prog C R ε α}
    {Q : Except ε α → G → Prop} :
    Follows P g (tryCatch p h) Q ↔ Follows P g p (fun r g' =>
      match r with
      | .ok a => Q (.ok a) g'
      | .error e => Follows P g' (h e) Q) := by
  change Follows P g (p.tryCatch h) Q ↔ _
  induction p generalizing g with
  | pure a => exact Iff.rfl
  | raise e => exact Iff.rfl
  | call c k ih =>
    simp only [Prog.tryCatch, Follows]
    exact and_congr_right fun _ => forall_congr' fun r => imp_congr_right fun _ =>
      exists_congr fun g' => and_congr_right fun _ => ih r

lemma Follows.mono {g : G} {p : Prog C R ε α} {Q Q' : Except ε α → G → Prop}
    (h : Follows P g p Q) (hQ : ∀ r g', Q r g' → Q' r g') : Follows P g p Q' := by
  induction p generalizing g with
  | pure a => exact hQ _ _ h
  | raise e => exact hQ _ _ h
  | call c k ih =>
    refine ⟨h.1, fun r hr => ?_⟩
    obtain ⟨g', hn, hf⟩ := h.2 r hr
    exact ⟨g', hn, ih r hf⟩

/-- The call does not fail and leaves the ghost state alone. -/
structure Protocol.Keeps (P : Protocol C R ε G) (g : G) (c : C) : Prop where
  allowed : P.allowed g c
  reply : ∀ r, P.reply g c r → ∃ a, r = .ok a
  next : ∀ r, P.next g c r g

lemma Protocol.Keeps.perform {g : G} {c : C} (h : P.Keeps g c) :
    Follows P g (Prog.perform c) (fun r g' => (∃ a, r = .ok a) ∧ g' = g) :=
  follows_perform.mpr ⟨h.allowed, fun r hr => ⟨g, h.next r, h.reply r hr, rfl⟩⟩

lemma Protocol.Keeps.bind {g : G} {c : C} (h : P.Keeps g c) {f : R c → Prog C R ε β}
    {Q : Except ε β → G → Prop} (hf : ∀ a, Follows P g (f a) Q) :
    Follows P g (Prog.perform c >>= f) Q := by
  refine follows_bind.mpr (Follows.mono h.perform ?_)
  rintro r g' ⟨⟨a, rfl⟩, rfl⟩
  exact hf a

/-- A program that has ended is in a state that it may end in. -/
lemma Follows.ended {g : G} {p : Prog C R ε α} {Q : Except ε α → G → Prop} (h : Follows P g p Q)
    (hp : p.head? = none) : ∃ r, Q r g := by
  cases p with
  | pure a => exact ⟨_, h⟩
  | raise e => exact ⟨_, h⟩
  | call c k => cases hp

lemma follows_embed {C' : Type} {R' : C' → Type} {P : Protocol C' R' ε G} {ι : C → C'} {g : G}
    {p : Prog C (fun c => R' (ι c)) ε α} {Q : Except ε α → G → Prop} :
    Follows P g (p.embed ι) Q ↔ Follows (P.comap ι) g p Q := by
  induction p generalizing g with
  | pure a => exact Iff.rfl
  | raise e => exact Iff.rfl
  | call c k ih =>
    exact and_congr_right fun _ => forall_congr' fun r => imp_congr_right fun _ =>
      exists_congr fun g' => and_congr_right fun _ => ih r

/-- A program stays in a ghost state that none of its calls leave. -/
lemma Prog.CallsOnly.follows {T : C → Prop} {g : G}
    (hstay : ∀ c, T c → P.allowed g c ∧ ∀ r, P.next g c r g) {p : Prog C R ε α}
    (hp : p.CallsOnly T) : Follows P g p (fun _ g' => g' = g) := by
  induction p with
  | pure a => rfl
  | raise e => rfl
  | call c k ih => exact ⟨(hstay c hp.1).1, fun r _ => ⟨g, (hstay c hp.1).2 r, ih r (hp.2 r)⟩⟩

/-- A handler that always recovers. -/
lemma follows_tryCatch_pure {g : G} {p : Prog C R ε α} {f : ε → α} {J : G → Prop}
    (hp : Follows P g p fun _ g' => J g') :
    Follows P g (tryCatch p fun e => pure (f e)) fun r g' => (∃ a, r = .ok a) ∧ J g' := by
  refine follows_tryCatch.mpr (hp.mono ?_)
  rintro (e | a) g' hg'
  · exact ⟨⟨f e, rfl⟩, hg'⟩
  · exact ⟨⟨a, rfl⟩, hg'⟩

/-- A program inside a region of ghost states that only the calls of `T` leave, and that
has to be left before the program ends, still may make a call of `T`. -/
lemma Follows.mayCall {S : G → Prop} {T : C → Prop}
    (hleave : ∀ g c r g', S g → P.allowed g c → P.next g c r g' → ¬S g' → T c)
    (hlive : ∀ g c, S g → P.allowed g c → ∃ r, P.reply g c r)
    {g : G} {p : Prog C R ε α} {Q : Except ε α → G → Prop} (h : Follows P g p Q)
    (hQ : ∀ r g', Q r g' → ¬S g') (hg : S g) : p.MayCall T := by
  induction p generalizing g with
  | pure a => exact absurd hg (hQ _ _ h)
  | raise e => exact absurd hg (hQ _ _ h)
  | call c k ih =>
    by_cases hT : T c
    · exact Or.inl hT
    · obtain ⟨r, hr⟩ := hlive g c hg h.1
      obtain ⟨g', hn, hf⟩ := h.2 r hr
      have hS : S g' := by
        by_contra hS
        exact hT (hleave g c r g' hg h.1 hn hS)
      exact Or.inr ⟨r, ih r hf hS⟩

end follows

end Interleaving

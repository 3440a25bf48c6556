import SecurityScanner.Executor.DelayedQueue
import SecurityScanner.Executor.Lifecycle
import SecurityScanner.Executor.Semaphore
import SecurityScanner.Lib.Discipline
import Mathlib.Algebra.BigOperators.Group.List.Basic

/-!
# The capacity of a worker engine

A permit of the engine's semaphore is free, or the loop holds it, or a payload that is
being processed does. It changes hands in the calls of the loop and of the tasks, and every
way out of them gives it back, so no failure takes a permit away.
-/

namespace SecurityScanner

open Interleaving

variable {δ : Type}

/-- A call that can raise. The event loop and the engine's own fields do not. -/
def EngineCmd.mayRaise : EngineCmd δ → Bool
  | .call c => !c.slotted
  | .heartbeatStart | .heartbeatStop | .closeClient => true
  | _ => false

/-- What other processes have made of the database and of Redis when a call is answered. -/
structure World (δ : Type) where
  db : Database := {}
  redis : Redis δ := {}

def EngineState.meets (s : EngineState δ) (world : World δ) : EngineState δ :=
  { s with store := { s.store with db := world.db, redis := world.redis } }

/-- The round is about to release a permit. -/
def releasesNext : EngineCoroutine δ Unit → Bool
  | .call (.call (.semaphoreRelease _)) _ => true
  | _ => false

/-- The loop is between the acquisition of a permit and its release or the hand-over. The
two looks at `_running` differ in what follows when it is unset. -/
def holdsPermit (t : Thread (EngineCmd δ) EngineReply String) : Bool :=
  t.loop.isSome &&
    match t.body with
    | .call .running k => releasesNext (k (.ok false))
    | .call (.call (.semaphoreAcquire _)) _ => false
    | .call (.call _) _ | .call .createTask _ => true
    | _ => false

/-- A `_process_payload` that was created and has calls left to make. -/
def unfinished (t : Thread (EngineCmd δ) EngineReply String) : Bool :=
  match t.body with
  | .call (.spawn ..) _ => true
  | .call (.call _) _ => t.loop.isNone
  | _ => false

def loopPermits (p : EnginePool δ) : ℕ := p.threads.countP holdsPermit

def unfinishedTasks (p : EnginePool δ) : ℕ := p.threads.countP unfinished

/-- Whether a coroutine has a permit, and whether its next call is the release. -/
inductive Permit where
  | free | held | releasing

def Permit.count : Permit → ℕ
  | .free => 0
  | .held | .releasing => 1

section protocol

def permitAllowed : Permit → EngineCmd δ → Prop
  | .free, .call (.semaphoreAcquire w) => w = 0
  | .free, .call _ | .free, .createTask | .free, .spawn .. => False
  | .free, _ => True
  | .held, .call (.semaphoreRelease w) => w = 0
  | .held, .call c => c.slotted = false
  | .held, .running | .held, .createTask | .held, .spawn .. => True
  | .held, _ => False
  | .releasing, .call (.semaphoreRelease w) => w = 0
  | .releasing, _ => False

def permitAfter (g : Permit) (c : EngineCmd δ) (r : Except String (EngineReply c)) : Permit :=
  match g, c, r with
  | _, .call (.semaphoreAcquire _), _ => .held
  | _, .call (.semaphoreRelease _), _ | _, .spawn .., _ => .free
  | .held, .running, .ok false => .releasing
  | g, _, _ => g

def permitProtocol : Protocol (EngineCmd δ) EngineReply String Permit where
  allowed := permitAllowed
  reply _ c r := c.mayRaise = false → ∃ a, r = .ok a
  next g c r g' := g' = permitAfter g c r
  child _ _ := .held
  looping _ := True
  looping_next _ _ _ _ _ _ _ := trivial

lemma eq_acquire_of_allowed {c : Cmd δ} (h : permitAllowed .free (.call c)) :
    c = .semaphoreAcquire 0 := by
  cases c with
  | semaphoreAcquire w =>
    obtain rfl : w = 0 := h
    rfl
  | _ => exact h.elim

lemma eq_release_of_allowed {c : EngineCmd δ} (h : permitAllowed .releasing c) :
    c = .call (.semaphoreRelease 0) := by
  cases c with
  | call c =>
    cases c with
    | semaphoreRelease w =>
      obtain rfl : w = 0 := h
      rfl
    | _ => exact h.elim
  | _ => exact h.elim

/-- A call of `start` before its loop, of `stop`, or at the end of a task. -/
def EngineCmd.besides : EngineCmd δ → Bool
  | .setRunning | .heartbeatStart | .taskDone _ | .beginStop | .heartbeatStop | .closeClient
  | .activeTasks | .gather _ => true
  | _ => false

/-- A call of the tasks or of `stop`. -/
def EngineCmd.offLoop : EngineCmd δ → Bool
  | .running | .createTask | .spawn .. => false
  | .call c => !c.enters
  | _ => true

lemma stays_free {c : EngineCmd δ} (hc : c.besides = true) :
    permitProtocol.allowed .free c ∧ ∀ r, permitProtocol.next .free c r .free := by
  cases c <;> first | exact ⟨trivial, fun r => rfl⟩ | cases hc

lemma stays_held {c : Cmd δ} (hc : c.slotted = false) :
    (permitProtocol.comap EngineCmd.call).allowed .held c ∧
      ∀ r, (permitProtocol.comap EngineCmd.call).next .held c r .held := by
  cases c <;> first | exact ⟨rfl, fun r => rfl⟩ | cases hc

lemma offLoop_of_besides {c : EngineCmd δ} (hc : c.besides = true) : c.offLoop = true := by
  cases c <;> first | rfl | cases hc

end protocol

section coroutines

/-- The program leaves the semaphore and the tasks alone. -/
abbrev Besides {α : Type} (q : EngineCoroutine δ α) : Prop := q.CallsOnly fun c => c.besides = true

lemma besides_ask {c : EngineCmd δ} (hc : c.besides = true) :
    Besides (ask c : EngineCoroutine δ (EngineReply c)) := Prog.callsOnly_perform hc

lemma besides_engineStart : Besides (engineStart : EngineCoroutine δ Unit) :=
  (besides_ask rfl).bind fun _ => besides_ask rfl

lemma besides_engineStop : Besides (engineStop : EngineCoroutine δ Unit) := by
  refine (besides_ask rfl).bind fun stops => ?_
  split
  · refine (besides_ask rfl).bind fun _ => (besides_ask rfl).bind fun _ =>
      (besides_ask rfl).bind fun tasks => ?_
    split
    · exact besides_ask rfl
    · trivial
  · trivial

variable (codec : Codec δ) (settings : Settings)

lemma offLoop_engineTask [DecidableEq δ] (id : ℕ) (p : QueuePayload) :
    (engineTask codec settings id p).CallsOnly fun c => c.offLoop = true := by
  have hprocess := (callsOnly_processPayload (w := 0) codec settings p).mono
    fun c (hc : c.enters = false) => show (EngineCmd.call c).offLoop = true by
      simp only [EngineCmd.offLoop, hc, Bool.not_false]
  have htry : (tryCatch (onEngine (processPayload codec settings 0 p)) fun _ => pure ()).CallsOnly
      fun c => c.offLoop = true := Prog.CallsOnly.tryCatch hprocess.embed fun _ => trivial
  exact htry.bind fun _ => (besides_ask rfl).mono fun _ => offLoop_of_besides

/-- The release ends the possession of a permit. -/
lemma follows_permitRelease {g : Permit} (hg : permitAllowed (δ := δ) g (.call (.semaphoreRelease 0))) :
    Follows permitProtocol g (ask (.call (.semaphoreRelease 0)) : EngineCoroutine δ Unit)
      (fun _ g' => g' = .free) :=
  follows_perform.mpr ⟨hg, fun _ _ => ⟨.free, rfl, rfl⟩⟩

/-- A round of the loop gives back the permit it acquired, or hands it over. -/
lemma follows_engineLoop_permits : Follows permitProtocol .free (engineLoop codec)
    (fun _ g => g = .free) := by
  refine follows_bind.mpr (follows_perform.mpr ⟨trivial, fun r hr => ?_⟩)
  obtain ⟨running, rfl⟩ := hr rfl
  refine ⟨.free, rfl, ?_⟩
  cases running with
  | false => rfl
  | true =>
    refine follows_bind.mpr (follows_perform.mpr ⟨rfl, fun r hr => ⟨.held, rfl, ?_⟩⟩)
    obtain ⟨u, rfl⟩ := hr rfl
    refine follows_bind.mpr (follows_perform.mpr ⟨trivial, fun r hr => ?_⟩)
    obtain ⟨running, rfl⟩ := hr rfl
    cases running with
    | false => exact ⟨.releasing, rfl, follows_permitRelease rfl⟩
    | true =>
      refine ⟨.held, rfl, follows_bind.mpr (follows_embed.mpr
        ((follows_consume_unslotted codec fun _ => stays_held).mono ?_))⟩
      rintro r g ⟨⟨_ | p, rfl⟩, rfl⟩
      · exact follows_permitRelease rfl
      · refine follows_bind.mpr (follows_perform.mpr ⟨trivial, fun r hr => ⟨.held, ?_, ?_⟩⟩)
        · rfl
        · obtain ⟨id, rfl⟩ := hr rfl
          exact follows_perform.mpr ⟨trivial, fun r _ => ⟨.free, rfl, rfl⟩⟩

/-- A task gives back the permit it was handed, however its payload fares. -/
lemma follows_engineTask_permits (id : ℕ) (p : QueuePayload) :
    Follows permitProtocol .held (engineTask codec settings id p) (fun _ g => g = .free) := by
  have hprocess : Follows permitProtocol .held (onEngine (processPayload codec settings 0 p))
      (fun _ g => g = .free) := by
    refine follows_embed.mpr (follows_bind.mpr
      ((follows_attempt_unslotted codec settings (fun _ => stays_held) p).mono ?_))
    rintro r g ⟨⟨u, rfl⟩, rfl⟩
    exact follows_perform.mpr ⟨rfl, fun r _ => ⟨.free, rfl, rfl⟩⟩
  refine follows_bind.mpr ((follows_tryCatch_pure hprocess).mono ?_)
  rintro r g ⟨⟨u, rfl⟩, rfl⟩
  exact (besides_ask rfl).follows fun _ => stays_free

end coroutines

section threads

variable {g : Permit} {t : Thread (EngineCmd δ) EngineReply String}

/-- After the acquisition the round releases the permit if the engine was stopped meanwhile,
and before it there is nothing to release. -/
lemma releasesNext_of_running {k : Except String Bool → EngineCoroutine δ Unit}
    (h : Follows permitProtocol g (.call .running k) fun _ g' => g' = .free) :
    (releasesNext (k (.ok false))).toNat = g.count := by
  obtain ⟨hallowed, hnext⟩ := h
  obtain ⟨g', hg', hk⟩ := hnext (.ok false) fun _ => ⟨false, rfl⟩
  cases g with
  | free =>
    obtain rfl : g' = .free := hg'
    unfold releasesNext
    split
    · rename_i heq
      rw [heq] at hk
      exact hk.1.elim
    · rfl
  | held =>
    obtain rfl : g' = .releasing := hg'
    cases hbody : k (.ok false) with
    | pure u =>
      rw [hbody] at hk
      cases hk
    | raise e =>
      rw [hbody] at hk
      cases hk
    | call c k' =>
      rw [hbody] at hk
      obtain rfl := eq_release_of_allowed hk.1
      rfl
  | releasing => cases hallowed

/-- What a coroutine has of the permits can be read off its next calls. -/
lemma count_of_typed (h : t.Typed permitProtocol .free g)
    (hcalls : t.loop = none → t.body.CallsOnly fun c => c.offLoop = true) :
    (unfinished t).toNat + (holdsPermit t).toNat = g.count := by
  obtain ⟨body, loop⟩ := t
  obtain ⟨hbody, -⟩ := h
  cases body with
  | pure u =>
    obtain rfl : g = .free := hbody
    cases loop <;> rfl
  | raise e =>
    obtain rfl : g = .free := hbody
    cases loop <;> rfl
  | call c k =>
    have hallowed : permitAllowed g c := hbody.1
    cases g with
    | free =>
      cases c with
      | call c =>
        obtain rfl := eq_acquire_of_allowed hallowed
        cases loop with
        | none => cases (hcalls rfl).1
        | some l => rfl
      | running =>
        cases loop with
        | none => cases (hcalls rfl).1
        | some l => exact (Nat.zero_add _).trans (releasesNext_of_running hbody)
      | createTask | spawn => exact hallowed.elim
      | _ => cases loop <;> rfl
    | held =>
      cases c with
      | call c =>
        cases loop with
        | none => rfl
        | some l => cases c <;> first | rfl | cases hallowed
      | running =>
        cases loop with
        | none => cases (hcalls rfl).1
        | some l => exact (Nat.zero_add _).trans (releasesNext_of_running hbody)
      | createTask =>
        cases loop with
        | none => cases (hcalls rfl).1
        | some l => rfl
      | spawn => cases loop <;> rfl
      | _ => exact hallowed.elim
    | releasing =>
      obtain rfl := eq_release_of_allowed hallowed
      cases loop <;> rfl

/-- A coroutine has at most one permit, as a task or as the loop. -/
lemma countP_permits (ts : List (Thread (EngineCmd δ) EngineReply String)) :
    ts.countP unfinished + ts.countP holdsPermit =
      (ts.map fun t => (unfinished t).toNat + (holdsPermit t).toNat).sum := by
  induction ts with
  | nil => rfl
  | cons t ts ih =>
    rw [List.map_cons, List.sum_cons, ← ih, List.countP_cons, List.countP_cons]
    cases unfinished t <;> cases holdsPermit t <;> simp <;> omega

end threads

section balance

variable [DecidableEq δ] {codec : Codec δ} (settings : Settings) {s s' : EngineState δ}

/-- A call of the executor has the effect it has on the stores, or a closed client refuses it. -/
lemma EngineState.call_cases {c : Cmd δ} {a : Answer} {r : Except String (Reply c)}
    (h : s.call codec c a = some (r, s')) :
    (c.slotted = false ∧ s'.store = s.store) ∨ s.store.effect codec c a = some (r, s'.store) := by
  have hserve : ∀ {c : Cmd δ} {r : Except String (Reply c)},
      s.serve codec c a = some (r, s') → s.store.effect codec c a = some (r, s'.store) := by
    intro c r h
    unfold EngineState.serve at h
    split at h
    · rename_i r' store he
      cases h
      exact he
    · cases h
  unfold EngineState.call at h
  split at h
  · split at h
    · exact Or.inr (hserve h)
    · cases h
      exact Or.inl ⟨rfl, rfl⟩
  · exact Or.inr (hserve h)

/-- Only the calls of the semaphore change its permits. -/
lemma slots_of_engine_effect {c : EngineCmd δ} {a : EngineAnswer}
    {r : Except String (EngineReply c)} (hc : ∀ c', c = .call c' → c'.slotted = false)
    (h : s.effect codec c a = some (r, s')) : s'.store.slots = s.store.slots := by
  unfold EngineState.effect at h
  split at h
  case h_1 =>
    rcases EngineState.call_cases h with ⟨-, hstore⟩ | hstore
    · rw [hstore]
    · exact slots_of_unslotted (hc _ rfl) hstore
  case h_2 | h_9 | h_14 => split at h <;> cases h <;> rfl
  case h_13 =>
    cases h
    split <;> rfl
  all_goals cases h <;> rfl

/-- The permits that coroutines have, as their ghost states tell. -/
def permitsOf (gs : List Permit) : ℕ := (gs.map Permit.count).sum

lemma permitsOf_append (gs gs' : List Permit) :
    permitsOf (gs ++ gs') = permitsOf gs + permitsOf gs' := by
  simp [permitsOf]

/-- A call of the semaphore moves a permit between its caller and the free ones. -/
lemma permits_of_semaphore {c : Cmd δ} {a : EngineAnswer} {r : Except String (Reply c)}
    {g : Permit} (hslotted : c.slotted = true) (hg : permitAllowed g (.call c))
    (h : s.effect codec (.call c) a = some (r, s')) :
    (∃ b, r = .ok b) ∧ s'.store.slots 0 + (permitAfter g (.call c) r).count =
      s.store.slots 0 + g.count := by
  have hstore : ∃ a, s.store.effect codec c a = some (r, s'.store) := by
    cases a with
    | answer a =>
      refine ⟨a, (EngineState.call_cases h).resolve_left fun hkept => ?_⟩
      rw [hslotted] at hkept
      cases hkept.1
    | fault e =>
      have hremote : c.remote = false := by cases c <;> first | rfl | cases hslotted
      simp [EngineState.effect, hremote] at h
    | done => cases h
  obtain ⟨a, he⟩ := hstore
  cases c with
  | semaphoreAcquire w =>
    obtain ⟨rfl, rfl⟩ : g = .free ∧ w = 0 := by cases g <;> first | exact ⟨rfl, hg⟩ | cases hg
    obtain ⟨rfl, htaken⟩ := acquire_takes_place he
    exact ⟨⟨(), rfl⟩, htaken⟩
  | semaphoreRelease w =>
    obtain ⟨hone, rfl⟩ : g.count = 1 ∧ w = 0 := by cases g <;> first | exact ⟨rfl, hg⟩ | cases hg
    obtain ⟨rfl, hgiven⟩ := release_gives_place he
    refine ⟨⟨(), rfl⟩, ?_⟩
    rw [hone]
    cases g <;> exact hgiven
  | createTask w p => cases g <;> cases hg
  | _ => cases hslotted

lemma ok_of_engine_effect {c : EngineCmd δ} {a : EngineAnswer} {r : Except String (EngineReply c)}
    (hc : c.mayRaise = false) (hcall : ∀ c', c ≠ .call c')
    (h : s.effect codec c a = some (r, s')) : ∃ b, r = .ok b := by
  unfold EngineState.effect at h
  split at h
  case h_1 | h_2 => exact absurd rfl (hcall _)
  case h_4 | h_10 | h_11 | h_12 => cases hc
  case h_9 | h_14 => split at h <;> cases h <;> exact ⟨_, rfl⟩
  all_goals
    cases h
    try exact ⟨_, rfl⟩

/-- A call that raises nothing keeps the number of permits, with the one of the task that it
starts. -/
lemma permits_of_effect {c : EngineCmd δ} {a : EngineAnswer} {r : Except String (EngineReply c)}
    {g : Permit} (hc : c.mayRaise = false) (hg : permitAllowed g c)
    (h : s.effect codec c a = some (r, s')) :
    (∃ b, r = .ok b) ∧ s'.store.slots 0 + permitsOf (permitAfter g c r ::
        ((engineSystem codec settings).fork c r).toList.map fun _ => .held) =
      s.store.slots 0 + g.count := by
  cases c with
  | call c =>
    obtain ⟨hok, hcount⟩ := permits_of_semaphore (by simpa [EngineCmd.mayRaise] using hc) hg h
    exact ⟨hok, hcount⟩
  | _ =>
    have hslots : s'.store.slots = s.store.slots :=
      slots_of_engine_effect (fun c' hc' => by cases hc') h
    obtain ⟨b, rfl⟩ := ok_of_engine_effect hc (fun c' hc' => by cases hc') h
    refine ⟨⟨b, rfl⟩, ?_⟩
    rw [hslots, Nat.add_left_cancel_iff]
    cases g <;> first | rfl | exact hg.elim | (cases b <;> rfl)

variable (codec) in
lemma mayRaise_keeps {c : EngineCmd δ} {r : Except String (EngineReply c)} {g : Permit}
    (hc : c.mayRaise = true) (hg : permitAllowed g c) :
    permitAfter g c r = g ∧ (engineSystem codec settings).fork c r = none := by
  cases c with
  | call c =>
    refine ⟨?_, rfl⟩
    cases c <;> first | rfl | cases hc
  | heartbeatStart | heartbeatStop | closeClient => exact ⟨rfl, rfl⟩
  | _ => cases hc

/-- So does one that raises, before its effect or after it. -/
lemma permits_step {c : EngineCmd δ} {fate : Fate EngineAnswer String}
    {r : Except String (EngineReply c)} {g : Permit} (hg : permitAllowed g c)
    (h : ((engineSystem codec settings).raising EngineCmd.mayRaise).effect c fate s =
      some (r, s')) :
    permitProtocol.reply g c r ∧ s'.store.slots 0 + permitsOf (permitAfter g c r ::
        ((engineSystem codec settings).fork c r).toList.map fun _ => .held) =
      s.store.slots 0 + g.count := by
  by_cases hraise : c.mayRaise = true
  · have hslots : s'.store.slots = s.store.slots := by
      have hcall : ∀ c', c = .call c' → c'.slotted = false := by
        rintro c' rfl
        simpa [EngineCmd.mayRaise] using hraise
      rcases System.raising_effect h with ⟨a, he⟩ | ⟨-, -, rfl | ⟨a, r', he⟩⟩
      · exact slots_of_engine_effect hcall he
      · rfl
      · exact slots_of_engine_effect hcall he
    obtain ⟨hafter, hfork⟩ := mayRaise_keeps codec settings (r := r) hraise hg
    rw [hslots, hafter, hfork]
    exact ⟨fun hnever => absurd hraise (by simp [hnever]), rfl⟩
  · obtain ⟨a, he⟩ := (System.raising_effect h).resolve_right fun h => hraise h.1
    obtain ⟨hok, hcount⟩ := permits_of_effect settings (by simpa using hraise) hg he
    exact ⟨fun _ => hok, hcount⟩

end balance

section runs

variable [DecidableEq δ] (codec : Codec δ) (settings : Settings)

/-- The engine among other processes: a call finds the database and Redis as they have left
them, and it can raise instead of having its effect or after it. -/
def capacitySystem :
    System (EngineCmd δ) EngineReply String (EngineState δ) (World δ × Fate EngineAnswer String) where
  effect c a s :=
    ((engineSystem codec settings).raising EngineCmd.mayRaise).effect c a.2 (s.meets a.1)
  fork := (engineSystem codec settings).fork

/-- A new engine with `start` called once and `stop` any number of times. -/
def calledEngine (concurrency stops : ℕ) : EnginePool δ :=
  ⟨{ store := { slots := fun _ => concurrency } },
    ⟨engineStart, some (engineLoop codec)⟩ :: List.replicate stops ⟨engineStop, none⟩⟩

variable {codec settings} {concurrency stops : ℕ} {p : EnginePool δ}

/-- The free permits and those of the coroutines make up the concurrency. -/
lemma permits_balanced (h : Reachable (capacitySystem codec settings) (fun _ _ => True)
    (· = calledEngine codec concurrency stops) p) :
    ∃ gs, Typed permitProtocol .free gs p.threads ∧
      p.store.store.slots 0 + permitsOf gs = concurrency := by
  refine h.ghost_perm (J := fun s gs => s.store.slots 0 + permitsOf gs = concurrency) ?_ ?_ ?_ ?_
  · intro s gs gs' hp hJ
    exact (congrArg _ (hp.map Permit.count).sum_eq).symm.trans hJ
  · rintro p rfl
    refine ⟨List.replicate (stops + 1) .free, ⟨by simp [calledEngine], fun i g t hg ht => ?_⟩, ?_⟩
    · obtain rfl := List.eq_of_mem_replicate (List.mem_of_getElem? hg)
      rcases List.mem_cons.mp (List.mem_of_getElem? ht) with rfl | ht
      · refine ⟨besides_engineStart.follows fun _ => stays_free, fun l hl => ⟨trivial, ?_⟩⟩
        exact Option.some.inj hl ▸ follows_engineLoop_permits codec
      · obtain rfl := List.eq_of_mem_replicate ht
        exact ⟨besides_engineStop.follows fun _ => stays_free, nofun⟩
    · simp [permitsOf, calledEngine, Permit.count]
  · intro g c r q _ _ hq
    cases c <;> cases hq
    exact follows_engineTask_permits codec settings _ _
  · intro p g rest i c k l a r s' _ hJ _ hc _ he
    obtain ⟨hr, hcount⟩ := permits_step settings hc he
    refine ⟨hr, ?_⟩
    rintro g' rfl
    have hkept : permitsOf (g :: rest) = g.count + permitsOf rest := permitsOf_append [g] rest
    calc s'.store.slots 0 + permitsOf (permitAfter g c r ::
          (((engineSystem codec settings).fork c r).toList.map (fun _ => .held) ++ rest))
        = s'.store.slots 0 + (permitsOf (permitAfter g c r ::
          ((engineSystem codec settings).fork c r).toList.map fun _ => .held) +
            permitsOf rest) := by rw [← permitsOf_append, List.cons_append]
      _ = (p.store.meets a.1).store.slots 0 + permitsOf (g :: rest) := by
        rw [← Nat.add_assoc, hcount, hkept, Nat.add_assoc]
      _ = concurrency := hJ

/-- The permits are conserved: those that are free, those of the unfinished tasks and the
one that the loop may hold are always as many as the engine was given. So no more payloads
are in flight, and when none is, all permits are free, whatever failed before. -/
theorem permits_conserved (h : Reachable (capacitySystem codec settings) (fun _ _ => True)
    (· = calledEngine codec concurrency stops) p) :
    p.store.store.slots 0 + unfinishedTasks p + loopPermits p = concurrency ∧
      loopPermits p ≤ 1 ∧ unfinishedTasks p + loopPermits p ≤ concurrency ∧
      (unfinishedTasks p = 0 → loopPermits p = 0 → p.store.store.slots 0 = concurrency) := by
  obtain ⟨gs, htyped, hbalance⟩ := permits_balanced h
  have hcalls : ∀ t ∈ p.threads, t.loop = none → t.body.CallsOnly fun c => c.offLoop = true := by
    refine h.callsOnly ?_ ?_
    · rintro p rfl t ht hloop
      rcases List.mem_cons.mp ht with rfl | ht
      · cases hloop
      · obtain rfl := List.eq_of_mem_replicate ht
        exact besides_engineStop.mono fun _ => offLoop_of_besides
    · intro c r q hq
      cases c <;> cases hq
      exact offLoop_engineTask codec settings _ _
  have hcount : unfinishedTasks p + loopPermits p = permitsOf gs := by
    refine (countP_permits p.threads).trans ?_
    rw [htyped.map_eq fun g t ht hg => count_of_typed hg (hcalls t ht), permitsOf]
  have hloop : loopPermits p ≤ 1 := by
    have hone : (p.threads.filter (·.loop.isSome)).length = 1 := by
      refine h.loop_count ?_
      rintro p rfl
      simp [calledEngine]
    rw [← hone, ← List.countP_eq_length_filter]
    refine List.countP_mono_left fun t _ ht => ?_
    exact (Bool.and_eq_true_iff.mp ht).1
  have hsum : p.store.store.slots 0 + unfinishedTasks p + loopPermits p = concurrency := by
    rw [Nat.add_assoc, hcount]
    exact hbalance
  exact ⟨hsum, hloop, by omega, fun hnone hfree => by omega⟩

/-- The loop hands its only permit to the task of a payload, whose first two calls raise. -/
def failingTask : List (Act (World QueuePayload × Fate EngineAnswer String)) :=
  let waiting : Redis QueuePayload :=
    { lists := fun q => if q = .medium then [retryPayload 1] else [] }
  [.run 0 ({}, .answered .done), .run 0 ({}, .answered .done), .again 0,
    .run 0 ({}, .answered .done), .run 0 ({}, .answered (.answer .done)),
    .run 0 ({}, .answered .done), .run 0 ({}, .answered (.answer (.clock 0))),
    .run 0 ({}, .answered (.answer .done)), .run 0 ({}, .answered (.answer (.random 0))),
    .run 0 ({ redis := waiting }, .answered (.answer .done)), .run 0 ({}, .answered .done),
    .run 0 ({}, .answered .done), .run 2 ({}, .raised "connection lost"),
    .run 2 ({}, .raisedLate (.answer (.granted true)) "timed out")]

theorem permits_conserved_failing : ∃ p, Reachable (capacitySystem Codec.payloads {})
      (fun _ _ => True) (· = calledEngine Codec.payloads 1 1) p ∧
    p.store.store.slots 0 = 0 ∧ unfinishedTasks p = 1 ∧
    p.store.store.slots 0 + unfinishedTasks p + loopPermits p = 1 := by
  have hrun : ((calledEngine Codec.payloads 1 1).runActs (capacitySystem Codec.payloads {})
      (fun _ _ => True) failingTask).map
        (fun p => (p.store.store.slots 0, unfinishedTasks p)) = some (0, 1) := by
    decide +kernel
  obtain ⟨p, hp, hshown⟩ : ∃ p, Reachable (capacitySystem Codec.payloads {}) (fun _ _ => True)
      (· = calledEngine Codec.payloads 1 1) p ∧
        (p.store.store.slots 0, unfinishedTasks p) = (0, 1) :=
    Reachable.of_shown (by rfl) hrun
  obtain ⟨hslots, htasks⟩ := Prod.mk.inj hshown
  exact ⟨p, hp, hslots, htasks, (permits_conserved hp).1⟩

end runs

end SecurityScanner

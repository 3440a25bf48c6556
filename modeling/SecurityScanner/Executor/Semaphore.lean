import SecurityScanner.Executor.Recording

/-!
# The places of the semaphore

Every coroutine of a worker gives back the place of the semaphore it holds, or hands it over
to the task it starts.
-/

namespace SecurityScanner

open Interleaving

/-- Whether a coroutine holds a place. -/
inductive Slot where
  | free | held
  deriving DecidableEq

variable {δ : Type}

/-- A call that takes a place, gives it back or hands it over. -/
def Cmd.slotted : Cmd δ → Bool
  | .semaphoreAcquire _ | .semaphoreRelease _ | .createTask .. => true
  | _ => false

/-- A call that only the loop makes. -/
def Cmd.enters : Cmd δ → Bool
  | .semaphoreAcquire _ | .createTask .. => true
  | _ => false

lemma enters_of_unslotted {c : Cmd δ} (h : c.slotted = false) : c.enters = false := by
  cases c <;> first | rfl | cases h

section protocol

variable (w : WorkerId)

def slotAllowed (g : Slot) : Cmd δ → Prop
  | .semaphoreAcquire v => v = w ∧ g = .free
  | .semaphoreRelease v | .createTask v _ => v = w ∧ g = .held
  | _ => True

/-- The event loop raises nothing. -/
def slotReply (c : Cmd δ) (r : Except String (Reply c)) : Prop := c.slotted = true → ∃ a, r = .ok a

def slotAfter (g : Slot) : Cmd δ → Slot
  | .semaphoreAcquire _ => .held
  | .semaphoreRelease _ | .createTask .. => .free
  | _ => g

def slotProtocol : Protocol (Cmd δ) Reply String Slot where
  allowed := slotAllowed w
  reply _ c r := slotReply c r
  next g c _ g' := g' = slotAfter g c
  child _ _ := .held
  looping _ := True
  looping_next _ _ _ _ _ _ _ := trivial

end protocol

section follows

variable {w : WorkerId} {g : Slot}

/-- A call that leaves the semaphore alone keeps the place. -/
lemma stays_slot {c : Cmd δ} (hc : c.slotted = false) :
    (slotProtocol w).allowed g c ∧ ∀ r, (slotProtocol w).next g c r g := by
  cases c <;> first | exact ⟨trivial, fun r => rfl⟩ | cases hc

lemma slotted_of_settles {c : Cmd δ} (h : c.settles = true) : c.slotted = false := by
  cases c <;> first | rfl | cases h

lemma unslotted_await {c : Cmd δ} (h : c.slotted = false) :
    (await c : Coroutine δ (Reply c)).CallsOnly fun c => c.slotted = false :=
  Prog.callsOnly_perform h

/-- Only the calls of the semaphore change its places. -/
lemma slots_of_unslotted [DecidableEq δ] {codec : Codec δ} {c : Cmd δ} {a : Answer}
    {s s' : Store δ} {r : Except String (Reply c)} (hc : c.slotted = false)
    (h : s.effect codec c a = some (r, s')) : s'.slots = s.slots := by
  unfold Store.effect at h
  split at h
  case h_2 | h_16 => split at h <;> cases h <;> rfl
  case h_3 | h_4 | h_5 => cases hc
  all_goals cases h <;> rfl

lemma acquire_takes_place [DecidableEq δ] {codec : Codec δ} {a : Answer} {s s' : Store δ}
    {r : Except String Unit} (h : s.effect codec (.semaphoreAcquire w) a = some (r, s')) :
    r = .ok () ∧ s'.slots w + 1 = s.slots w := by
  cases a with
  | done =>
    simp only [Store.effect, Option.ite_none_left_eq_some, Option.some.injEq, Prod.mk.injEq] at h
    obtain ⟨hfree, rfl, rfl⟩ := h
    refine ⟨rfl, ?_⟩
    change Function.update s.slots w (s.slots w - 1) w + 1 = s.slots w
    rw [Function.update_self]
    omega
  | _ => cases h

lemma release_gives_place [DecidableEq δ] {codec : Codec δ} {a : Answer} {s s' : Store δ}
    {r : Except String Unit} (h : s.effect codec (.semaphoreRelease w) a = some (r, s')) :
    r = .ok () ∧ s'.slots w = s.slots w + 1 := by
  cases a with
  | done =>
    cases h
    exact ⟨rfl, Function.update_self ..⟩
  | _ => cases h

variable (codec : Codec δ) (settings : Settings)

lemma unslotted_attemptPayload (p : QueuePayload) :
    (attemptPayload codec settings p).CallsOnly fun c => c.slotted = false := by
  have hsettles : ∀ {α : Type} {q : Coroutine δ α}, Settles q →
      q.CallsOnly fun c => c.slotted = false := fun h => h.mono fun _ => slotted_of_settles
  have hreporting : HoldsOfReporting fun _ (q : Coroutine δ _) =>
      q.CallsOnly fun c => c.slotted = false :=
    reporting_callsOnly (fun _ => rfl) (fun _ _ => rfl) fun _ => rfl
  exact attemptPayload_of (Prog.compositional_callsOnly _) (hsettles (settles_updateTaskStatus _ _))
    (unslotted_await rfl) (hreporting.executeRequest p (unslotted_await rfl))
    (fun _ => hsettles (settles_saveResponse _ _))
    fun _ => hsettles (settles_handleRetry codec settings _ _)

lemma unslotted_consume : (consume codec).CallsOnly fun c => c.slotted = false := by
  have hpolling : HoldsOfPolling fun _ (q : Coroutine δ _) =>
      q.CallsOnly fun c => c.slotted = false :=
    polling_callsOnly (moving_callsOnly rfl (fun _ _ _ _ => rfl) fun _ _ => rfl) rfl fun _ => rfl
  exact hpolling.consume codec

lemma callsOnly_processPayload (p : QueuePayload) :
    (processPayload codec settings w p).CallsOnly fun c => c.enters = false := by
  refine Prog.CallsOnly.bind (Prog.CallsOnly.tryCatch ?_ fun e => ?_) fun _ =>
    Prog.callsOnly_perform rfl
  · exact (unslotted_attemptPayload codec settings p).mono fun _ => enters_of_unslotted
  · exact (settles_criticalError p e).mono fun _ hc => enters_of_unslotted (slotted_of_settles hc)

/-- In a state of any protocol that the other calls leave alone, `consume` stays there and
returns. -/
lemma follows_consume_unslotted {G : Type} {P : Protocol (Cmd δ) Reply String G} {g : G}
    (hstay : ∀ c : Cmd δ, c.slotted = false → P.allowed g c ∧ ∀ r, P.next g c r g) :
    Follows P g (consume codec) (fun r g' => (∃ a, r = .ok a) ∧ g' = g) :=
  follows_tryCatch_pure ((unslotted_consume codec).of_tryCatch.follows hstay)

/-- So does what a task does before it gives its place back. -/
lemma follows_attempt_unslotted {G : Type} {P : Protocol (Cmd δ) Reply String G} {g : G}
    (hstay : ∀ c : Cmd δ, c.slotted = false → P.allowed g c ∧ ∀ r, P.next g c r g)
    (p : QueuePayload) :
    Follows P g (tryCatch (attemptPayload codec settings p) (criticalError p))
      (fun r g' => (∃ u, r = .ok u) ∧ g' = g) := by
  have hcritical : ∀ e, Follows P g (criticalError p e : Coroutine δ Unit)
      (fun r g' => (∃ u, r = .ok u) ∧ g' = g) := by
    intro e
    have hsave : Follows P g (tryCatch (saveResponse p.taskId
        ⟨.failed, none, none, none, none, some ("Worker error: " ++ e)⟩) fun _ => pure ())
        (fun r g' => (∃ u, r = .ok u) ∧ g' = g) :=
      follows_tryCatch_pure (Prog.CallsOnly.follows hstay
        ((settles_saveResponse (δ := δ) _ _).mono fun _ => slotted_of_settles))
    refine follows_bind.mpr (hsave.mono ?_)
    rintro r g' ⟨⟨u, rfl⟩, rfl⟩
    have hdlq : Follows P g' (sendToDlq p e : Coroutine δ Bool)
        (fun r g => (∃ b, r = .ok b) ∧ g = g') :=
      follows_tryCatch_pure (Prog.CallsOnly.follows hstay
        ((settles_sendToDlq p e).of_tryCatch.mono fun _ => slotted_of_settles))
    refine follows_bind.mpr (hdlq.mono ?_)
    rintro r g ⟨⟨b, rfl⟩, rfl⟩
    exact ⟨⟨_, rfl⟩, rfl⟩
  refine follows_tryCatch.mpr
    (((unslotted_attemptPayload codec settings p).follows hstay).mono ?_)
  rintro (e | u) g' rfl
  · exact hcritical e
  · exact ⟨⟨u, rfl⟩, rfl⟩

/-- The loop gives back the place it took, or hands it over. -/
lemma follows_engineRound_slots :
    Follows (slotProtocol w) .free (engineRound codec w) (fun _ g => g = .free) := by
  refine follows_bind.mpr (follows_perform.mpr ⟨⟨rfl, rfl⟩, fun r hr => ⟨.held, rfl, ?_⟩⟩)
  obtain ⟨u, rfl⟩ := hr rfl
  refine follows_bind.mpr ((follows_consume_unslotted codec fun _ hc => stays_slot hc).mono ?_)
  rintro r g ⟨⟨_ | p, rfl⟩, rfl⟩
  · exact follows_perform.mpr ⟨⟨rfl, rfl⟩, fun r _ => ⟨.free, rfl, rfl⟩⟩
  · exact follows_perform.mpr ⟨⟨rfl, rfl⟩, fun r _ => ⟨.free, rfl, rfl⟩⟩

/-- A task gives back the place it was handed. -/
lemma follows_processPayload_slots (p : QueuePayload) :
    Follows (slotProtocol w) .held (processPayload codec settings w p) (fun _ g => g = .free) := by
  have htry := follows_attempt_unslotted codec settings
    (fun _ hc => stays_slot (w := w) (g := .held) hc) p
  refine follows_bind.mpr (htry.mono ?_)
  rintro r g ⟨⟨u, rfl⟩, rfl⟩
  exact follows_perform.mpr ⟨⟨rfl, rfl⟩, fun r _ => ⟨.free, rfl, rfl⟩⟩

end follows

end SecurityScanner

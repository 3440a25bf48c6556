import SecurityScanner.Executor.DelayedQueue
import SecurityScanner.Executor.Lifecycle
import SecurityScanner.Executor.Recording

/-!
# The protocol of an engine

The places of the coroutines of one engine and the calls they make there: the loop polls
and registers what it pops, a task sends its request and ends, and `stop` clears the flag,
closes the client and waits for the tasks it finds.
-/

namespace SecurityScanner

open Interleaving

/-- The place of a coroutine of the engine. `gate` is the loop between two rounds, and what
has ended; a task is `unsent` until its request is behind it. -/
inductive Stage where
  | unstarted
  | gate
  | polling
  | holding
  | created (id : ℕ)
  | working (id : ℕ) (unsent : Bool)
  | stopCalled
  | flagged
  | closed
  | waiting (ids : List ℕ)
  deriving DecidableEq

namespace Stage

/-- The entry of a stage in `_tasks`. -/
def task? : Stage → Option ℕ
  | .created id | .working id _ => some id
  | _ => none

/-- The coroutine has a payload. -/
def carries : Stage → Bool
  | .holding | .created _ | .working _ _ => true
  | _ => false

/-- The coroutine is on the way to a request. -/
def Pending : Stage → Prop
  | .polling | .holding | .created _ | .working _ true => True
  | _ => False

/-- A stage of the loop of `start`. -/
def OfLoop : Stage → Prop
  | .unstarted | .gate | .polling | .holding | .created _ => True
  | _ => False

/-- A stage of `stop` after it has cleared the flag. -/
def Stopping : Stage → Prop
  | .flagged | .closed | .waiting _ => True
  | _ => False

/-- `stop` has no payload, before and after it has returned. -/
lemma idle_of_stopping {g : Stage} (h : g = .gate ∨ g.Stopping) :
    g.task? = none ∧ g.carries = false ∧ ¬g.Pending ∧ g ≠ .unstarted ∧ g ≠ .stopCalled := by
  rcases h with rfl | h
  · exact ⟨rfl, rfl, id, nofun, nofun⟩
  · cases g <;> first | exact h.elim | exact ⟨rfl, rfl, id, nofun, nofun⟩

/-- A stage of the loop after its start, or of a task. -/
def Inner : Stage → Prop
  | .gate | .polling | .holding | .created _ | .working _ _ => True
  | _ => False

end Stage

/-- A call of `consume`. -/
def Cmd.polls {δ : Type} : Cmd δ → Bool
  | .time | .random | .zrangebyscore .. | .multi _ | .blpop _ => true
  | _ => false

/-- A call that takes a payload or a free place. -/
def Cmd.takes {δ : Type} : Cmd δ → Bool
  | .blpop _ | .semaphoreAcquire _ => true
  | _ => false

/-- A call of `_process_payload` before its request is behind it. -/
def Cmd.sends {δ : Type} : Cmd δ → Bool
  | .acquire .. | .request _ => true
  | _ => false

/-- Whether a task still has to send its request. -/
def unsentAfter {δ : Type} (unsent : Bool) : (c : Cmd δ) → Except String (Reply c) → Bool
  | .acquire .., .ok granted => granted
  | .acquire .., .error _ => false
  | .request _, _ => false
  | _, _ => unsent

variable {δ : Type} (codec : Codec δ)

section protocol

def engineAllowed : Stage → EngineCmd δ → Prop
  | .unstarted, .setRunning | .gate, .heartbeatStart | .gate, .running
  | .gate, .call (.semaphoreAcquire _) | .gate, .call (.semaphoreRelease _)
  | .holding, .createTask | .stopCalled, .beginStop | .flagged, .heartbeatStop
  | .flagged, .closeClient | .closed, .activeTasks => True
  | .polling, .call c => c.polls = true
  | .created id, .spawn id' _ => id' = id
  | .working _ unsent, .call c => c.takes = false ∧ (c.sends = true → unsent = true)
  | .working id false, .taskDone id' => id' = id
  | .waiting ids, .gather ids' => ids' = ids
  | _, _ => False

/-- Which calls raise. -/
def engineReply : Stage → (c : EngineCmd δ) → Except String (EngineReply c) → Prop
  | _, .call (.request _), _ | _, .heartbeatStop, _ => True
  | _, .call c, r => c.remote = true ∨ ∃ a, r = .ok a
  | _, _, r => ∃ a, r = .ok a

def engineNext : Stage → (c : EngineCmd δ) → Except String (EngineReply c) → Stage → Prop
  | .gate, .running, .ok true, g => g = .gate ∨ g = .polling
  | .polling, .call (.blpop qs), r, g =>
    g = if arrivals codec (.blpop qs) r = 0 then .gate else .holding
  | .polling, _, _, g => g = .polling
  | .holding, .createTask, .ok id, g => g = .created id
  | .working id unsent, .call c, r, g => g = .working id (unsentAfter unsent c r)
  | .stopCalled, .beginStop, .ok true, g => g = .flagged
  | .flagged, .heartbeatStop, .ok _, g => g = .flagged
  | .flagged, .closeClient, _, g => g = .closed
  | .closed, .activeTasks, .ok ids, g => g = if ids = [] then .gate else .waiting ids
  | _, _, _, g => g = .gate

lemma ofLoop_engineNext (g : Stage) (c : EngineCmd δ) (r : Except String (EngineReply c))
    (g' : Stage) (hg : g.OfLoop) (hc : engineAllowed g c) (hn : engineNext codec g c r g') :
    g'.OfLoop := by
  cases g with
  | unstarted =>
    cases c <;> first | exact hc.elim | exact (hn : g' = .gate) ▸ trivial
  | gate =>
    cases c <;> first | exact hc.elim | exact (hn : g' = .gate) ▸ trivial | skip
    rcases r with e | _ | _
    · exact (hn : g' = .gate) ▸ trivial
    · exact (hn : g' = .gate) ▸ trivial
    · rcases hn with rfl | rfl <;> trivial
  | polling =>
    cases c <;> first | exact hc.elim | skip
    rename_i c
    cases c <;> first | exact (hn : g' = .polling) ▸ trivial | skip
    dsimp only [engineNext] at hn
    split at hn <;> exact hn ▸ trivial
  | holding =>
    cases c <;> first | exact hc.elim | skip
    cases r with
    | error e => exact (hn : g' = .gate) ▸ trivial
    | ok id => exact (hn : g' = .created id) ▸ trivial
  | created id =>
    cases c <;> first | exact hc.elim | exact (hn : g' = .gate) ▸ trivial
  | _ => exact hg.elim

def engineProtocol : Protocol (EngineCmd δ) EngineReply String Stage where
  allowed := engineAllowed
  reply := engineReply
  next := engineNext codec
  child
    | .created id, _ => .working id true
    | g, _ => g
  looping := Stage.OfLoop
  looping_next := ofLoop_engineNext codec

end protocol

section loop

lemma follows_processDelayedTasks_engine :
    Follows ((engineProtocol codec).comap EngineCmd.call) .polling (processDelayedTasks codec)
      (fun r g => (∃ u, r = .ok u) ∧ g = .polling) := by
  refine follows_tryCatch_pure (Prog.CallsOnly.follows
    (T := fun c => c.polls = true ∧ c.takes = false) ?_ ?_)
  · rintro c ⟨hpoll, htakes⟩
    refine ⟨hpoll, fun r => ?_⟩
    cases c <;> first | rfl | cases htakes
  · have hmoving : HoldsOfMoving fun _ (q : Coroutine δ _) =>
        q.CallsOnly fun c => c.polls = true ∧ c.takes = false :=
      moving_callsOnly ⟨rfl, rfl⟩ (fun _ _ _ _ => ⟨rfl, rfl⟩) fun _ _ => ⟨rfl, rfl⟩
    exact (hmoving.processDelayedTasks codec).of_tryCatch

/-- `consume` brings a payload or nothing. -/
lemma follows_consume_engine :
    Follows ((engineProtocol codec).comap EngineCmd.call) .polling (consume codec) (fun r g =>
      (r = .ok none ∧ g = .gate) ∨ ∃ p, r = .ok (some p) ∧ g = .holding) := by
  rw [consume, follows_tryCatch, follows_bind]
  refine (follows_processDelayedTasks_engine codec).mono ?_
  rintro r g ⟨⟨u, rfl⟩, rfl⟩
  simp only [getPollQueues, follows_bind, await, follows_perform]
  refine ⟨rfl, ?_⟩
  rintro - (hremote | ⟨x, rfl⟩)
  · cases hremote
  refine ⟨.polling, rfl, rfl, ?_⟩
  rintro (e | none | ⟨q, d⟩) -
  · exact ⟨.gate, rfl, Or.inl ⟨rfl, rfl⟩⟩
  · exact ⟨.gate, rfl, Or.inl ⟨rfl, rfl⟩⟩
  · refine ⟨_, rfl, ?_⟩
    cases hd : codec.validate d with
    | none => simp [arrivals, hd]
    | some p => simp [arrivals, hd]

lemma follows_engineStart :
    Follows (engineProtocol codec) .unstarted engineStart (fun _ g => g = .gate) := by
  simp only [engineStart, follows_bind, ask, follows_perform]
  refine ⟨trivial, ?_⟩
  rintro - ⟨-, rfl⟩
  exact ⟨.gate, rfl, trivial, fun r _ => ⟨.gate, rfl, rfl⟩⟩

/-- A place is given back in the end. -/
lemma follows_release :
    Follows (engineProtocol codec) .gate (ask (.call (.semaphoreRelease 0)))
      (fun _ g => g = .gate) :=
  follows_perform.mpr ⟨trivial, fun _ _ => ⟨.gate, rfl, rfl⟩⟩

lemma follows_engineLoop :
    Follows (engineProtocol codec) .gate (engineLoop codec) (fun _ g => g = .gate) := by
  simp only [engineLoop, follows_bind, ask, follows_perform]
  refine ⟨trivial, ?_⟩
  rintro - ⟨running, rfl⟩
  cases running with
  | false => exact ⟨.gate, rfl, rfl⟩
  | true =>
    refine ⟨.gate, Or.inl rfl, ?_⟩
    simp only [↓reduceIte, follows_bind, follows_perform]
    refine ⟨trivial, ?_⟩
    rintro - (hremote | ⟨-, rfl⟩)
    · cases hremote
    refine ⟨.gate, rfl, trivial, ?_⟩
    rintro - ⟨running, rfl⟩
    cases running with
    | false => exact ⟨.gate, rfl, follows_release codec⟩
    | true =>
      refine ⟨.polling, Or.inr rfl, ?_⟩
      simp only [↓reduceIte, follows_bind, onEngine]
      refine follows_embed.mpr ((follows_consume_engine codec).mono ?_)
      rintro r g (⟨rfl, rfl⟩ | ⟨p, rfl, rfl⟩)
      · exact follows_release codec
      · simp only [follows_bind, follows_perform]
        refine ⟨trivial, ?_⟩
        rintro - ⟨id, rfl⟩
        exact ⟨.created id, rfl, rfl, fun r _ => ⟨.gate, rfl, rfl⟩⟩

lemma follows_engineStop :
    Follows (engineProtocol codec) .stopCalled engineStop (fun _ g => g = .gate) := by
  simp only [engineStop, follows_bind, ask, follows_perform]
  refine ⟨trivial, ?_⟩
  rintro - ⟨begun, rfl⟩
  cases begun with
  | false => exact ⟨.gate, rfl, rfl⟩
  | true =>
    refine ⟨.flagged, rfl, ?_⟩
    simp only [↓reduceIte, follows_bind, follows_perform]
    refine ⟨trivial, ?_⟩
    rintro (e | u) -
    · exact ⟨.gate, rfl, rfl⟩
    · refine ⟨.flagged, rfl, trivial, ?_⟩
      rintro - ⟨-, rfl⟩
      refine ⟨.closed, rfl, trivial, ?_⟩
      rintro - ⟨ids, rfl⟩
      refine ⟨_, rfl, ?_⟩
      by_cases hids : ids = []
      · simp [hids]
      · simp only [hids, ne_eq, not_false_eq_true, ↓reduceIte, follows_perform]
        exact ⟨rfl, fun r _ => ⟨.gate, rfl, rfl⟩⟩

end loop

section task

variable {codec} {id : ℕ} {unsent : Bool}

/-- A call of a task that neither takes nor sends. -/
def Cmd.quiet (c : Cmd δ) : Bool := !c.takes && !c.sends

lemma quiet_of_settles {c : Cmd δ} (h : c.settles = true) : c.quiet = true := by
  cases c <;> first | rfl | cases h

lemma quiet_await {c : Cmd δ} (h : c.quiet = true) :
    (await c : Coroutine δ (Reply c)).CallsOnly fun c => c.quiet = true :=
  Prog.callsOnly_perform h

/-- A task stays where it is while it does not send. -/
lemma working_of_quiet {α : Type} {q : Coroutine δ α} (hq : q.CallsOnly fun c => c.quiet = true) :
    Follows ((engineProtocol codec).comap EngineCmd.call) (.working id unsent) q
      (fun _ g => g = .working id unsent) := by
  refine hq.follows fun c hc => ?_
  have hquiet : c.takes = false ∧ c.sends = false := by simpa [Cmd.quiet] using hc
  refine ⟨⟨hquiet.1, by simp [hquiet.2]⟩, fun r => ?_⟩
  cases c <;> first | rfl | cases hquiet.2

lemma working_of_settles {α : Type} {q : Coroutine δ α} (hq : Settles q) :
    Follows ((engineProtocol codec).comap EngineCmd.call) (.working id unsent) q
      (fun _ g => g = .working id unsent) :=
  working_of_quiet (hq.mono fun _ => quiet_of_settles)

/-- The request of a task is behind it when `execute` is. -/
lemma follows_executeRequest_engine (p : QueuePayload) :
    Follows ((engineProtocol codec).comap EngineCmd.call) (.working id true) (executeRequest p)
      (fun _ g => g = .working id false) := by
  rw [executeRequest, follows_tryCatch, follows_bind]
  refine follows_perform.mpr ⟨⟨rfl, fun _ => rfl⟩, fun r _ => ⟨.working id false, rfl, ?_⟩⟩
  cases r with
  | error e => exact working_of_settles (settles_reporting.requestFailed e)
  | ok r =>
    refine (working_of_settles (settles_reporting.afterRequest p r)).mono ?_
    rintro (e | o) g rfl
    · exact working_of_settles (settles_reporting.requestFailed e)
    · rfl

lemma follows_attemptPayload_engine (settings : Settings) (p : QueuePayload) :
    Follows ((engineProtocol codec).comap EngineCmd.call) (.working id true)
      (attemptPayload codec settings p) (fun _ g => g = .working id false) := by
  have hmark : Follows ((engineProtocol codec).comap EngineCmd.call) (.working id true)
      (markTaskProcessing p.taskId) (fun r g => (∃ u, r = .ok u) ∧ g = .working id true) :=
    follows_tryCatch_pure (working_of_settles (settles_updateTaskStatus _ _).of_tryCatch)
  rw [attemptPayload, follows_bind]
  refine hmark.mono ?_
  rintro r g ⟨⟨u, rfl⟩, rfl⟩
  refine follows_bind.mpr (follows_perform.mpr ⟨⟨rfl, fun _ => rfl⟩, ?_⟩)
  rintro (e | granted) -
  · exact ⟨.working id false, rfl, rfl⟩
  refine ⟨.working id granted, rfl, ?_⟩
  cases granted with
  | false => rfl
  | true =>
    refine follows_bind.mpr ((follows_executeRequest_engine p).mono ?_)
    rintro (e | o) g rfl
    · rfl
    · refine working_of_settles ((settles_saveResponse _ _).bind fun _ => ?_)
      split
      · exact settles_handleRetry codec settings _ _
      · trivial

lemma follows_engineTask (settings : Settings) (p : QueuePayload) :
    Follows (engineProtocol codec) (.working id true) (engineTask codec settings id p)
      (fun _ g => g = .gate) := by
  have hprocess : Follows ((engineProtocol codec).comap EngineCmd.call) (.working id true)
      (processPayload codec settings 0 p) (fun _ g => g = .working id false) := by
    rw [processPayload, follows_bind, follows_tryCatch]
    have hrelease : Follows ((engineProtocol codec).comap EngineCmd.call) (.working id false)
        (await (.semaphoreRelease 0)) (fun _ g => g = .working id false) :=
      working_of_quiet (quiet_await rfl)
    refine (follows_attemptPayload_engine settings p).mono ?_
    rintro (e | u) g rfl
    · refine (working_of_settles (settles_criticalError p e)).mono ?_
      rintro (e | u) g rfl
      · rfl
      · exact hrelease
    · exact hrelease
  rw [engineTask, follows_bind]
  refine (follows_tryCatch_pure (follows_embed.mpr hprocess)).mono ?_
  rintro r g ⟨⟨u, rfl⟩, rfl⟩
  exact follows_perform.mpr ⟨rfl, fun r _ => ⟨.gate, rfl, rfl⟩⟩

end task

section pending

variable {codec}

/-- Every call has an answer. -/
lemma exists_engineReply (g : Stage) (c : EngineCmd δ) : ∃ r, engineReply g c r := by
  cases c with
  | call c =>
    cases c with
    | time => exact ⟨.ok 0, Or.inr ⟨0, rfl⟩⟩
    | random => exact ⟨.ok 0, Or.inr ⟨0, rfl⟩⟩
    | request r => exact ⟨.error "", trivial⟩
    | semaphoreAcquire w | semaphoreRelease w | createTask w p | incRequests l
    | observeLatency m t | incRetries => exact ⟨.ok (), Or.inr ⟨(), rfl⟩⟩
    | _ => exact ⟨.error "", Or.inl rfl⟩
  | running => exact ⟨.ok true, true, rfl⟩
  | createTask => exact ⟨.ok 0, 0, rfl⟩
  | beginStop => exact ⟨.ok true, true, rfl⟩
  | activeTasks => exact ⟨.ok [], [], rfl⟩
  | heartbeatStop => exact ⟨.ok (), trivial⟩
  | _ => exact ⟨.ok (), (), rfl⟩

/-- Only the calls on the way to a request lead off it. -/
lemma pending_of_leaves {g : Stage} {c : EngineCmd δ} {r : Except String (EngineReply c)}
    {g' : Stage} (hg : g.Pending) (hc : engineAllowed g c) (hn : engineNext codec g c r g')
    (hg' : ¬g'.Pending) : c.pending = true := by
  cases g with
  | polling =>
    cases c <;> first | exact hc.elim | skip
    rename_i c
    cases c <;> first | rfl | exact absurd ((hn : g' = .polling) ▸ trivial) hg'
  | holding => cases c <;> first | exact hc.elim | rfl
  | created id => cases c <;> first | exact hc.elim | rfl
  | working id unsent =>
    cases unsent with
    | false => exact hg.elim
    | true =>
      cases c <;> first | exact hc.elim | skip
      rename_i c
      cases c <;> first | rfl | exact absurd ((hn : g' = .working id true) ▸ trivial) hg'
  | _ => exact hg.elim

/-- A coroutine on the way to a request makes such a call some time. -/
lemma mayCall_of_pending {g : Stage} {q : EngineCoroutine δ Unit}
    (h : Follows (engineProtocol codec) g q (fun _ g' => g' = .gate)) (hg : g.Pending) :
    q.MayCall fun c => c.pending = true := by
  refine h.mayCall (S := Stage.Pending) ?_ ?_ ?_ hg
  · exact fun g c r g' hg hc hn hg' => pending_of_leaves hg hc hn hg'
  · exact fun g c _ _ => exists_engineReply g c
  · rintro r g rfl
    exact id

lemma gate_of_atGate {g : Stage} {c : EngineCmd δ} (h : engineAllowed g c)
    (hc : c.atGate = true) : g = .gate := by
  cases c with
  | heartbeatStart | running => cases g <;> first | rfl | exact h.elim
  | call c =>
    cases c with
    | semaphoreAcquire w =>
      cases g with
      | gate => rfl
      | polling => cases h
      | working id unsent => cases h.1
      | _ => exact h.elim
    | _ => cases hc
  | _ => cases hc

lemma allowed_of_head? {g : Stage} {t : Thread (EngineCmd δ) EngineReply String}
    (ht : t.Typed (engineProtocol codec) .gate g) {c : EngineCmd δ}
    (hc : t.body.head? = some c) : engineAllowed g c := by
  obtain ⟨q, l⟩ := t
  cases q with
  | pure u => cases hc
  | raise e => cases hc
  | call c' k =>
    obtain rfl := Option.some.inj hc
    exact ht.1.1

end pending

end SecurityScanner

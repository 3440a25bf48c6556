import SecurityScanner.Executor.TaskQueue
import SecurityScanner.Lib.Discipline
import SecurityScanner.Lib.RelyGuarantee

/-!
# The pool of worker engines

`WorkerPoolManager` of `executor/worker_manager/manager.py` until it is stopped: `start`,
and the monitor loop, which ends idle engines and adds engines by the depth of the queues.
An engine is named by the number of engines that were created before it.
-/

namespace SecurityScanner

open Interleaving

structure PoolLimits where
  minWorkers : ℤ := 5
  maxWorkers : ℤ := 100

inductive PoolCmd where
  | setRunning
  | running
  | llen (q : PriorityQueue)
  | setQueueDepth (q : PriorityQueue) (depth : ℕ)
  | setActiveWorkers (n : ℕ)
  /-- `len(self.active_engines)`. -/
  | countEngines
  /-- `[e for e in self.active_engines if e.is_idle(self.idle_timeout)]`. -/
  | idleEngines
  /-- A new `WorkerEngine` is appended, and its `start` runs in the background. -/
  | addEngine
  | stopEngine (engine : ℕ)
  | removeEngine (engine : ℕ)
  /-- `_monitor_task` is created, and `start` returns. -/
  | createMonitor
  | sleep

abbrev PoolReply : PoolCmd → Type
  | .running => Bool
  | .llen _ => ℕ
  | .countEngines => ℕ
  | .idleEngines => List ℕ
  | _ => Unit

/-- The length of a list in Redis, and which engines have been idle for long. -/
inductive PoolAnswer where
  | done
  | length (n : ℕ)
  | idle (isIdle : ℕ → Bool)

structure PoolState where
  running : Bool := false
  activeEngines : List ℕ := []
  created : ℕ := 0
  /-- `_monitor_task` is set. -/
  monitored : Bool := false
  /-- `EXECUTOR_QUEUE_DEPTH` and `EXECUTOR_ACTIVE_WORKERS`. -/
  queueDepth : PriorityQueue → ℕ := fun _ => 0
  activeWorkers : ℕ := 0

def PoolState.effect (c : PoolCmd) (a : PoolAnswer) (s : PoolState) :
    Option (Except String (PoolReply c) × PoolState) :=
  match c, a with
  | .setRunning, .done => some (.ok (), { s with running := true })
  | .running, .done => some (.ok s.running, s)
  | .llen _, .length n => some (.ok n, s)
  | .setQueueDepth q depth, .done =>
    some (.ok (), { s with queueDepth := Function.update s.queueDepth q depth })
  | .setActiveWorkers n, .done => some (.ok (), { s with activeWorkers := n })
  | .countEngines, .done => some (.ok s.activeEngines.length, s)
  | .idleEngines, .idle isIdle => some (.ok (s.activeEngines.filter isIdle), s)
  | .addEngine, .done =>
    some (.ok (), { s with
      activeEngines := s.activeEngines ++ [s.created], created := s.created + 1 })
  | .stopEngine _, .done => some (.ok (), s)
  | .removeEngine engine, .done =>
    if engine ∈ s.activeEngines then
      some (.ok (), { s with activeEngines := s.activeEngines.erase engine })
    else some (.error "list.remove(x): x not in list", s)
  | .createMonitor, .done => some (.ok (), { s with monitored := true })
  | .sleep, .done => some (.ok (), s)
  | _, _ => none

/-- A call to Redis, or to an engine. -/
def PoolCmd.mayRaise : PoolCmd → Bool
  | .llen _ | .addEngine | .stopEngine _ => true
  | _ => false

def poolSystem : System PoolCmd PoolReply String PoolState (Fate PoolAnswer String) :=
  System.raising ⟨PoolState.effect, fun _ _ => none⟩ PoolCmd.mayRaise

abbrev PoolCoroutine (α : Type) := Prog PoolCmd PoolReply String α

/-- Makes one call. -/
abbrev manage (c : PoolCmd) : PoolCoroutine (PoolReply c) := Prog.perform c

/-- The loop of `_get_total_queue_depth`. -/
def addDepths : List PriorityQueue → ℕ → PoolCoroutine ℕ
  | [], total => pure total
  | q :: qs, total => do
    let depth ← manage (.llen q)
    manage (.setQueueDepth q depth)
    addDepths qs (total + depth)

def getTotalQueueDepth : PoolCoroutine ℕ := addDepths [.critical, .high, .medium, .low] 0

section manager

variable (L : PoolLimits)

def calculateDesiredWorkers (queueDepth : ℕ) : ℤ :=
  if 10000 ≤ queueDepth then 100
  else if 1000 ≤ queueDepth then 50
  else if 100 ≤ queueDepth then 10
  else if 10 ≤ queueDepth then 5
  else L.minWorkers

/-- The loop of `_scale_up`. -/
def addEngines : ℕ → PoolCoroutine Unit
  | 0 => pure ()
  | n + 1 => do
    let engines ← manage .countEngines
    if L.maxWorkers ≤ engines then pure ()
    else
      manage .addEngine
      addEngines n

/-- `range` of a negative count is empty. -/
def scaleUp (count : ℤ) : PoolCoroutine Unit := addEngines L count.toNat

/-- The loop of `_cleanup_idle_workers`. -/
def terminate : List ℕ → PoolCoroutine Unit
  | [] => pure ()
  | engine :: rest => do
    let engines ← manage .countEngines
    if engines ≤ L.minWorkers then pure ()
    else
      manage (.stopEngine engine)
      manage (.removeEngine engine)
      terminate rest

def cleanupIdleWorkers : PoolCoroutine Unit := do
  let idleEngines ← manage .idleEngines
  terminate L idleEngines

/-- A round of `_monitor_loop` once it knows the depth of the queues. -/
def adjustWorkers (queueDepth : ℕ) : PoolCoroutine Unit := do
  let _ ← manage .countEngines
  cleanupIdleWorkers L
  let currentWorkers ← manage .countEngines
  let desiredWorkers := calculateDesiredWorkers L queueDepth
  if currentWorkers < desiredWorkers then
    let toAdd := min (desiredWorkers - currentWorkers) (L.maxWorkers - currentWorkers)
    if 0 < toAdd then scaleUp L toAdd
  let activeWorkers ← manage .countEngines
  manage (.setActiveWorkers activeWorkers)

/-- The body of the `try` of `_monitor_loop`. -/
def monitorIteration : PoolCoroutine Unit := do
  let queueDepth ← getTotalQueueDepth
  adjustWorkers L queueDepth

def monitorLoop : PoolCoroutine Unit := do
  if ← manage .running then
    try monitorIteration L
    catch _ => pure ()
    manage .sleep

def startPool : PoolCoroutine Unit := do
  manage .setRunning
  scaleUp L L.minWorkers
  manage .createMonitor

abbrev ManagerPool := Pool PoolCmd PoolReply String PoolState

/-- A new manager, with `start` called. -/
def newManager : ManagerPool := ⟨{}, [⟨startPool L, some (monitorLoop L)⟩]⟩

end manager

/-- The engines are distinct, and no more than allowed; once `start` has returned they are
enough. -/
structure PoolInv (L : PoolLimits) (s : PoolState) : Prop where
  nodup : s.activeEngines.Nodup
  fresh : ∀ e ∈ s.activeEngines, e < s.created
  upper : (s.activeEngines.length : ℤ) ≤ L.maxWorkers
  lower : s.monitored = true → L.minWorkers ≤ s.activeEngines.length

section invariant

variable {L : PoolLimits} {s : PoolState}

/-- The engines of the pool are the same. -/
structure PoolState.SameEngines (s s' : PoolState) : Prop where
  active : s'.activeEngines = s.activeEngines
  created : s'.created = s.created
  monitored : s'.monitored = s.monitored

lemma PoolInv.same {s' : PoolState} (h : PoolInv L s) (hs : s.SameEngines s') : PoolInv L s' where
  nodup := hs.active ▸ h.nodup
  fresh := by
    rw [hs.active, hs.created]
    exact h.fresh
  upper := hs.active ▸ h.upper
  lower := by
    rw [hs.active, hs.monitored]
    exact h.lower

lemma PoolInv.add (h : PoolInv L s) (hroom : (s.activeEngines.length : ℤ) < L.maxWorkers) :
    PoolInv L { s with
      activeEngines := s.activeEngines ++ [s.created], created := s.created + 1 } where
  nodup := by
    refine List.nodup_append.mpr ⟨h.nodup, List.nodup_singleton _, fun e he e' he' => ?_⟩
    obtain rfl := List.mem_singleton.mp he'
    exact (h.fresh e he).ne
  fresh e he := by
    rcases List.mem_append.mp he with he | he
    · exact (h.fresh e he).trans (Nat.lt_succ_self _)
    · obtain rfl := List.mem_singleton.mp he
      exact Nat.lt_succ_self _
  upper := by
    rw [List.length_append, List.length_singleton]
    omega
  lower hm := by
    have := h.lower hm
    rw [List.length_append, List.length_singleton]
    omega

lemma PoolInv.remove (h : PoolInv L s) {engine : ℕ} (hmem : engine ∈ s.activeEngines)
    (hfloor : L.minWorkers < s.activeEngines.length) :
    PoolInv L { s with activeEngines := s.activeEngines.erase engine } where
  nodup := h.nodup.erase _
  fresh e he := h.fresh e (List.mem_of_mem_erase he)
  upper := by
    have := h.upper
    rw [List.length_erase_of_mem hmem]
    omega
  lower _ := by
    rw [List.length_erase_of_mem hmem]
    omega

/-- What a program of the manager returns and leaves. -/
abbrev Manages (L : PoolLimits) {α : Type} (q : PoolCoroutine α) (s : PoolState)
    (Q : α → PoolState → Prop) : Prop := Returns poolSystem (PoolInv L) q s Q

/-- What there is to show of a call: a call that raises does so with or without its effect. -/
lemma manages_call {c : PoolCmd} {Q : PoolReply c → PoolState → Prop}
    (h : ∀ a r s', PoolInv L s → s.effect c a = some (r, s') →
      PoolInv L s' ∧ ∀ b, r = .ok b → Q b s') : Manages L (manage c) s Q := by
  refine returns_perform (fun _ => rfl) fun a r s' hinv he => ?_
  rcases System.raising_effect he with ⟨a, he⟩ | ⟨-, ⟨e, rfl⟩, rfl | ⟨a, r', he⟩⟩
  · exact h a r s' hinv he
  · exact ⟨hinv, nofun⟩
  · exact ⟨(h a r' s' hinv he).1, nofun⟩

/-- A call that leaves the list of engines alone. -/
def PoolCmd.looks : PoolCmd → Bool
  | .addEngine | .removeEngine _ | .createMonitor => false
  | _ => true

lemma sameEngines_of_looks {c : PoolCmd} {a : PoolAnswer} {r : Except String (PoolReply c)}
    {s' : PoolState} (hc : c.looks = true) (h : s.effect c a = some (r, s')) :
    s.SameEngines s' := by
  unfold PoolState.effect at h
  split at h <;> first | (cases h <;> exact ⟨rfl, rfl, rfl⟩) | cases hc

lemma manages_looks {c : PoolCmd} (hc : c.looks = true) :
    Manages L (manage c) s fun _ s' => s.SameEngines s' :=
  manages_call fun _ _ _ hinv he =>
    ⟨hinv.same (sameEngines_of_looks hc he), fun _ _ => sameEngines_of_looks hc he⟩

lemma manages_countEngines : Manages L (manage .countEngines) s fun engines s' =>
    engines = s'.activeEngines.length ∧ s.SameEngines s' := by
  refine manages_call fun a r s' hinv he => ?_
  cases a <;> cases he
  refine ⟨hinv, ?_⟩
  rintro _ ⟨⟩
  exact ⟨rfl, rfl, rfl, rfl⟩

lemma manages_addEngine (hroom : (s.activeEngines.length : ℤ) < L.maxWorkers) :
    Manages L (manage .addEngine) s fun _ s' =>
      s'.activeEngines.length = s.activeEngines.length + 1 := by
  refine manages_call fun a r s' hinv he => ?_
  cases a <;> cases he
  exact ⟨hinv.add hroom, fun _ _ => List.length_append⟩

lemma manages_removeEngine {engine : ℕ} (hfloor : L.minWorkers < s.activeEngines.length) :
    Manages L (manage (.removeEngine engine)) s fun _ _ => True := by
  refine manages_call fun a r s' hinv he => ⟨?_, fun _ _ => trivial⟩
  cases a with
  | done =>
    simp only [PoolState.effect] at he
    split at he <;> cases he
    · exact hinv.remove ‹_› hfloor
    · exact hinv
  | _ => cases he

/-- There is room for engines until there are as many as allowed. -/
lemma manages_addEngines (n : ℕ) : Manages L (addEngines L n) s fun _ s' =>
    min (s.activeEngines.length + n : ℤ) L.maxWorkers ≤ s'.activeEngines.length := by
  induction n generalizing s with
  | zero => exact returns_pure (by omega)
  | succ n ih =>
    refine manages_countEngines.bind fun engines s' h => ?_
    obtain ⟨rfl, hsame⟩ := h
    rw [← hsame.active]
    split
    · exact returns_pure (by omega)
    · refine (manages_addEngine (by omega)).bind fun _ s'' hlen => ih.mono fun _ s₁ h => ?_
      omega

/-- No engine is removed when the floor is reached. -/
lemma manages_terminate (engines : List ℕ) :
    Manages L (terminate L engines) s fun _ _ => True := by
  induction engines generalizing s with
  | nil => exact returns_pure trivial
  | cons engine rest ih =>
    refine manages_countEngines.bind fun n s' h => ?_
    obtain ⟨rfl, -⟩ := h
    split
    · exact returns_pure trivial
    · refine (manages_looks rfl).bind fun _ s'' hsame => ?_
      refine (manages_removeEngine ?_).bind fun _ _ _ => ih
      rw [hsame.active]
      omega

lemma manages_addDepths (qs : List PriorityQueue) (total : ℕ) :
    Manages L (addDepths qs total) s fun _ _ => True := by
  induction qs generalizing s total with
  | nil => exact returns_pure trivial
  | cons q qs ih =>
    exact (manages_looks rfl).bind fun depth _ _ => (manages_looks rfl).bind fun _ _ _ => ih _

/-- After a round there are as many engines as the depth asks for, or as allowed. -/
lemma manages_adjustWorkers (queueDepth : ℕ) : Manages L (adjustWorkers L queueDepth) s
    fun _ s' => min L.maxWorkers (calculateDesiredWorkers L queueDepth) ≤
      s'.activeEngines.length := by
  refine manages_countEngines.bind fun _ _ _ => ?_
  refine ((manages_looks rfl).bind fun idle _ _ => manages_terminate idle).bind fun _ s₁ _ => ?_
  refine manages_countEngines.bind fun currentWorkers s₂ h => ?_
  obtain ⟨rfl, -⟩ := h
  have hset : ∀ {s : PoolState},
      min L.maxWorkers (calculateDesiredWorkers L queueDepth) ≤ s.activeEngines.length →
      Manages L (do manage (.setActiveWorkers (← manage .countEngines))) s fun _ s' =>
        min L.maxWorkers (calculateDesiredWorkers L queueDepth) ≤ s'.activeEngines.length := by
    intro s h
    refine manages_countEngines.bind fun _ s' hs => (manages_looks rfl).mono fun _ s'' hs' => ?_
    rw [hs'.active, hs.2.active]
    exact h
  dsimp only
  split
  · split
    · refine (manages_addEngines _).bind fun _ s' h => hset ?_
      omega
    · refine hset ?_
      omega
  · refine hset ?_
    omega

lemma manages_createMonitor (h : L.minWorkers ≤ s.activeEngines.length) :
    Manages L (manage .createMonitor) s fun _ _ => True := by
  refine manages_call fun a r s' hinv he => ?_
  cases a <;> cases he
  exact ⟨⟨hinv.nodup, hinv.fresh, hinv.upper, fun _ => h⟩, fun _ _ => trivial⟩

lemma manages_startPool (hle : L.minWorkers ≤ L.maxWorkers) (hs : s.activeEngines = []) :
    Manages L (startPool L) s fun _ _ => True := by
  refine (manages_looks rfl).bind fun _ s' hsame => (manages_addEngines _).bind fun _ s'' h => ?_
  refine manages_createMonitor ?_
  rw [hsame.active, hs, List.length_nil] at h
  omega

lemma manages_monitorLoop : Manages L (monitorLoop L) s fun _ _ => True := by
  refine (manages_looks rfl).bind fun running s' _ => ?_
  split
  · refine Returns.bind (Returns.tryCatch (Q := fun _ _ => True) ?_ fun _ _ =>
      returns_pure trivial) fun _ _ _ => (manages_looks rfl).mono fun _ _ _ => trivial
    exact (manages_addDepths _ _).bind fun queueDepth _ _ =>
      (manages_adjustWorkers queueDepth).mono fun _ _ _ => trivial
  · exact returns_pure trivial

end invariant

section runs

variable {L : PoolLimits} {p : ManagerPool}

lemma inv_of_reachable (hle : L.minWorkers ≤ L.maxWorkers) (hmax : 0 ≤ L.maxWorkers)
    (h : Reachable poolSystem (fun _ _ => True) (· = newManager L) p) : PoolInv L p.store := by
  refine h.alone ⟨List.nodup_nil, by simp, hmax, nofun⟩ (manages_startPool hle rfl) ?_
  rintro l hl s -
  obtain rfl := Option.some.inj hl
  exact manages_monitorLoop

/-- The pool stays within its bounds whatever the depths of the queues, the idle engines and
the exceptions are, and an iteration of the monitor that raises nothing leaves as many
engines as the depth it read asks for, or as allowed. -/
theorem pool_within_bounds (hle : L.minWorkers ≤ L.maxWorkers) (hmax : 0 ≤ L.maxWorkers)
    (h : Reachable poolSystem (fun _ _ => True) (· = newManager L) p) :
    p.store.activeEngines.Nodup ∧ p.store.activeEngines.length ≤ L.maxWorkers ∧
      (p.store.monitored = true → L.minWorkers ≤ p.store.activeEngines.length) ∧
      ∀ queueDepth as as₁ as' s₁ s',
        getTotalQueueDepth.exec poolSystem.effect as p.store = some (.ok queueDepth, as₁, s₁) →
        (monitorIteration L).exec poolSystem.effect as p.store = some (.ok (), as', s') →
        min L.maxWorkers (calculateDesiredWorkers L queueDepth) ≤ s'.activeEngines.length := by
  have hinv := inv_of_reachable hle hmax h
  refine ⟨hinv.nodup, hinv.upper, hinv.lower, ?_⟩
  intro queueDepth as as₁ as' s₁ s' hdepth hiteration
  obtain ⟨hinv₁, -⟩ := (manages_addDepths (L := L) _ _).exec hinv hdepth
  rw [monitorIteration, Prog.exec_bind, hdepth] at hiteration
  exact ((manages_adjustWorkers queueDepth).exec hinv₁ hiteration).2 () rfl

/-- The pool of one to two engines after its start. -/
def startedPool : ManagerPool :=
  ⟨{ running := true, activeEngines := [0], created := 1, monitored := true },
    [⟨.pure (), some (monitorLoop ⟨1, 2⟩)⟩]⟩

lemma startedPool_reachable :
    Reachable poolSystem (fun _ _ => True) (· = newManager ⟨1, 2⟩) startedPool :=
  Reachable.of_runActs (.start rfl) (List.replicate 4 (.run 0 (.answered .done))) rfl

/-- With twelve tasks in the first queue five engines are desired and two allowed. -/
theorem pool_within_bounds_busy : startedPool.store.activeEngines.length = 1 ∧
    ∃ as s', (monitorIteration ⟨1, 2⟩).exec poolSystem.effect as startedPool.store =
        some (.ok (), [], s') ∧ (2 : ℤ) ≤ s'.activeEngines.length := by
  let depths : List (Fate PoolAnswer String) := [.answered (.length 12), .answered .done,
    .answered (.length 0), .answered .done, .answered (.length 0), .answered .done,
    .answered (.length 0), .answered .done]
  let rest : List (Fate PoolAnswer String) := [.answered .done,
    .answered (.idle fun _ => false), .answered .done, .answered .done, .answered .done,
    .answered .done, .answered .done]
  refine ⟨rfl, depths ++ rest, _, rfl, ?_⟩
  exact (pool_within_bounds (by decide) (by decide) startedPool_reachable).2.2.2
    12 (depths ++ rest) rest [] _ _ rfl rfl

/-- A negative limit cannot be kept: a pool has no fewer than no engines. -/
theorem pool_exceeds_negative_limit : ∃ p, Reachable poolSystem (fun _ _ => True)
      (· = newManager ⟨-1, -1⟩) p ∧ p.store.monitored = true ∧
    ¬(p.store.activeEngines.length : ℤ) ≤ -1 := by
  refine ⟨⟨{ running := true, monitored := true }, [⟨.pure (), some (monitorLoop ⟨-1, -1⟩)⟩]⟩,
    Reachable.of_runActs (.start rfl) (List.replicate 2 (.run 0 (.answered .done))) rfl, rfl, ?_⟩
  decide

end runs

end SecurityScanner

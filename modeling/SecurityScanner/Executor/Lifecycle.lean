import SecurityScanner.Executor.Engine

/-!
# One worker engine from start to stop

`WorkerEngine.start` with its loop, the background tasks it creates and one call of
`WorkerEngine.stop`, over the flag, the HTTP client and the task set they share. Two
coroutines of the engine interleave at their calls.
-/

namespace SecurityScanner

open Interleaving

/-- What the coroutines of an engine ask for: the calls of the executor, and those that
read or change the engine itself. -/
inductive EngineCmd (δ : Type) where
  | call (c : Cmd δ)
  | setRunning
  | heartbeatStart
  | running
  /-- `asyncio.create_task` and `_tasks.add`. -/
  | createTask
  /-- The event loop takes up the new task. -/
  | spawn (id : ℕ) (p : QueuePayload)
  /-- The task ends and its callback discards it. -/
  | taskDone (id : ℕ)
  /-- `if not self._running: return`, else `self._running = False`. -/
  | beginStop
  | heartbeatStop
  | closeClient
  | activeTasks
  | gather (ids : List ℕ)

abbrev EngineReply {δ : Type} : EngineCmd δ → Type
  | .call c => Reply c
  | .running => Bool
  | .createTask => ℕ
  | .beginStop => Bool
  | .activeTasks => List ℕ
  | _ => Unit

/-- The answer of the world, or an exception on the way to it. -/
inductive EngineAnswer where
  | answer (a : Answer)
  | fault (e : String)
  | done

structure EngineState (δ : Type) where
  store : Store δ
  running : Bool := false
  clientOpen : Bool := true
  /-- The ids of the tasks in `_tasks`. -/
  tasks : List ℕ := []
  created : ℕ := 0
  /-- How many payloads the engine popped, and of how many the processing has finished. -/
  popped : ℕ := 0
  finished : ℕ := 0
  /-- How many requests the closed client refused. -/
  lateRequests : ℕ := 0
  /-- `popped` and `finished` when `stop` returned. -/
  atReturn : Option (ℕ × ℕ) := none

variable {δ : Type}

def EngineState.stopReturns (s : EngineState δ) : EngineState δ :=
  { s with atReturn := some (s.popped, s.finished) }

/-- A call to the database, to Redis or to the limiter; it may raise. -/
def Cmd.remote : Cmd δ → Bool
  | .time | .random | .semaphoreAcquire _ | .semaphoreRelease _ | .createTask .. | .request _
  | .incRequests _ | .observeLatency .. | .incRetries => false
  | _ => true

/-- The payloads a call brings to the engine. -/
def arrivals (codec : Codec δ) : (c : Cmd δ) → Except String (Reply c) → ℕ
  | .blpop _, .ok (some (_, d)) => if (codec.validate d).isSome then 1 else 0
  | _, _ => 0

variable [DecidableEq δ] (codec : Codec δ) (settings : Settings)

/-- A call that the stores answer. -/
def EngineState.serve (s : EngineState δ) (c : Cmd δ) (a : Answer) :
    Option (Except String (Reply c) × EngineState δ) :=
  match s.store.effect codec c a with
  | some (r, store) => some (r, { s with store, popped := s.popped + arrivals codec c r })
  | none => none

/-- A call of the executor; a closed client raises. -/
def EngineState.call (s : EngineState δ) (c : Cmd δ) (a : Answer) :
    Option (Except String (Reply c) × EngineState δ) :=
  match c with
  | .request r =>
    if s.clientOpen then s.serve codec (.request r) a
    else
      some (.error "Cannot send a request, as the client has been closed.",
        { s with lateRequests := s.lateRequests + 1 })
  | c => s.serve codec c a

def EngineState.effect (c : EngineCmd δ) (a : EngineAnswer) (s : EngineState δ) :
    Option (Except String (EngineReply c) × EngineState δ) :=
  match c, a with
  | .call c, .answer a => s.call codec c a
  | .call c, .fault e => if c.remote then some (.error e, s) else none
  | .setRunning, .done => some (.ok (), { s with running := true })
  | .heartbeatStart, .done => some (.ok (), s)
  | .running, .done => some (.ok s.running, s)
  | .createTask, .done =>
    some (.ok s.created, { s with tasks := s.created :: s.tasks, created := s.created + 1 })
  | .spawn .., .done => some (.ok (), s)
  | .taskDone id, .done =>
    some (.ok (), { s with tasks := s.tasks.erase id, finished := s.finished + 1 })
  | .beginStop, .done =>
    if s.running then some (.ok true, { s with running := false })
    else some (.ok false, s.stopReturns)
  | .heartbeatStop, .done => some (.ok (), s)
  | .heartbeatStop, .fault e => some (.error e, s)
  | .closeClient, .done => some (.ok (), { s with clientOpen := false })
  | .activeTasks, .done => some (.ok s.tasks, if s.tasks = [] then s.stopReturns else s)
  | .gather ids, .done =>
    if ∀ id ∈ ids, id ∉ s.tasks then some (.ok (), s.stopReturns) else none
  | _, _ => none

abbrev EngineCoroutine (δ : Type) (α : Type) := Prog (EngineCmd δ) EngineReply String α

/-- Makes one call. -/
abbrev ask (c : EngineCmd δ) : EngineCoroutine δ (EngineReply c) := Prog.perform c

/-- A coroutine of the executor that runs on the engine. -/
def onEngine {α : Type} (q : Coroutine δ α) : EngineCoroutine δ α := q.embed EngineCmd.call

/-- `start` up to its loop. -/
def engineStart : EngineCoroutine δ Unit := do
  ask .setRunning
  ask .heartbeatStart

/-- A round of the loop of `start`. A loop that has ended finds `_running` unset again. -/
def engineLoop : EngineCoroutine δ Unit := do
  if ← ask .running then
    ask (.call (.semaphoreAcquire 0))
    if ← ask .running then
      match ← onEngine (consume codec) with
      | none => ask (.call (.semaphoreRelease 0))
      | some p =>
        let id ← ask .createTask
        ask (.spawn id p)
    else ask (.call (.semaphoreRelease 0))

/-- The task of a payload; the callback runs however the coroutine ended. -/
def engineTask (id : ℕ) (p : QueuePayload) : EngineCoroutine δ Unit := do
  try onEngine (processPayload codec settings 0 p)
  catch _ => pure ()
  ask (.taskDone id)

def engineStop : EngineCoroutine δ Unit := do
  if ← ask .beginStop then
    ask .heartbeatStop
    ask .closeClient
    let tasks ← ask .activeTasks
    if tasks ≠ [] then ask (.gather tasks)

def engineSystem : System (EngineCmd δ) EngineReply String (EngineState δ) EngineAnswer where
  effect := EngineState.effect codec
  fork
    | .spawn id p, _ => some (engineTask codec settings id p)
    | _, _ => none

abbrev EnginePool (δ : Type) := Pool (EngineCmd δ) EngineReply String (EngineState δ)

/-- A new engine, with `start` and `stop` called. -/
def newEngine (store : Store δ) : EnginePool δ :=
  ⟨{ store }, [⟨engineStart, some (engineLoop codec)⟩, ⟨engineStop, none⟩]⟩

/-- Every request of a popped payload finds the client open, and when `stop` returned the
processing of every popped payload had finished. -/
structure ShutsDownGracefully (s : EngineState δ) : Prop where
  sent : s.lateRequests = 0
  finished : ∀ r ∈ s.atReturn, r.2 = r.1

/-- A call on the way of a payload from the queue to its request. -/
def EngineCmd.pending : EngineCmd δ → Bool
  | .call (.blpop _) | .call (.acquire ..) | .call (.request _) | .createTask | .spawn .. => true
  | _ => false

/-- The loop of the engine is about to look at `_running`, or waits for a free place. -/
def EngineCmd.atGate : EngineCmd δ → Bool
  | .heartbeatStart | .running | .call (.semaphoreAcquire _) => true
  | _ => false

/-- `stop` closes the client only while the loop is between two rounds and every task has
its request behind it. -/
def ClosesBetweenRequests (p : EnginePool δ) (act : Act EngineAnswer) : Prop :=
  p.call? act = some .closeClient → ∀ t ∈ p.threads, t.body.head? = some .closeClient ∨
    (∃ c, t.body.head? = some c ∧ c.atGate = true) ∨ ¬t.body.MayCall fun c => c.pending = true

end SecurityScanner

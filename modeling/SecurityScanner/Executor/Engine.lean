import SecurityScanner.Executor.Runtime

/-!
# The worker engine

The coroutines of `executor/task_queue/publisher.py`, `executor/task_queue/consumer.py`,
`executor/workers/http_executor.py` and `executor/workers/engine.py`. Times and delays are
exact rationals.
-/

namespace SecurityScanner

open Interleaving

structure Settings where
  defaultRetryBackoff : ℚ := 2

variable {δ : Type} [DecidableEq δ] (codec : Codec δ) (settings : Settings)

section publisher

/-- `grouped[q].append(data)` on a `defaultdict(list)`. -/
def appendTo (q : PriorityQueue) (data : δ) :
    List (PriorityQueue × List δ) → List (PriorityQueue × List δ)
  | [] => [(q, [data])]
  | (q', ds) :: rest =>
    if q' = q then (q', ds ++ [data]) :: rest else (q', ds) :: appendTo q data rest

/-- The grouping loop of `publish_batch`, and its pipeline. -/
def batchCommands (payloads : List QueuePayload) : List (RedisWrite δ) :=
  let grouped := payloads.foldl
    (fun grouped p => appendTo (getPriorityQueue p.priorityLevel) (codec.dump p) grouped) []
  grouped.map fun g => .rpush g.1 g.2

def publishBatch (payloads : List QueuePayload) : Coroutine δ Nat := do
  if payloads.isEmpty then pure 0
  else
    try
      await (.multi (batchCommands codec payloads))
      pure payloads.length
    catch _ => pure 0

/-- `schedule_delayed`: the score is the current time plus the delay. -/
def scheduleDelayed (p : QueuePayload) (delaySeconds : ℚ) : Coroutine δ Bool := do
  try
    let now ← await .time
    await (.zadd (codec.dump p) (now + delaySeconds))
    pure true
  catch _ => pure false

end publisher

section consumer

def getPollQueues : Coroutine δ (List PriorityQueue) := do
  let r ← await .random
  pure <|
    if r < 60 / 100 then [.critical, .high, .medium, .low]
    else if r < 85 / 100 then [.high, .critical, .medium, .low]
    else if r < 95 / 100 then [.medium, .critical, .high, .low]
    else [.low, .critical, .high, .medium]

/-- The routing loop of `_process_delayed_tasks`; a task that does not validate stops it. -/
def groupDueTasks : List δ → List (PriorityQueue × List δ) →
    Except String (List (PriorityQueue × List δ))
  | [], grouped => .ok grouped
  | d :: ds, grouped =>
    match codec.validate d with
    | some p => groupDueTasks ds (appendTo (getPriorityQueue p.priorityLevel) d grouped)
    | none => .error "ValidationError"

/-- The transaction of `_process_delayed_tasks`. -/
def moveCommands (grouped : List (PriorityQueue × List δ)) (now : ℚ) : List (RedisWrite δ) :=
  grouped.map (fun g => .rpush g.1 g.2) ++ [.zremrangebyscore 0 now]

def processDelayedTasks : Coroutine δ Unit := do
  try
    let now ← await .time
    let dueTasks ← await (.zrangebyscore 0 now 0 50)
    if dueTasks.isEmpty then pure ()
    else
      match groupDueTasks codec dueTasks [] with
      | .ok grouped => await (.multi (moveCommands grouped now))
      | .error e => throw e
  catch _ => pure ()

def consume : Coroutine δ (Option QueuePayload) := do
  try
    processDelayedTasks codec
    let queuesToPoll ← getPollQueues
    match ← await (.blpop queuesToPoll) with
    | none => pure none
    | some (_, data) =>
      match codec.validate data with
      | some p => pure (some p)
      | none => throw "ValidationError"
  catch _ => pure none

def sendToDlq (p : QueuePayload) (reason : String) : Coroutine δ Bool := do
  try
    await (.rpushDlq p reason)
    pure true
  catch _ => pure false

end consumer

/-- The body that `HttpExecutor.execute` gives a request. -/
def HttpExecutor.requestBody (payload : Json) : RequestBody :=
  if payload.truthy then
    match payload with
    | .obj _ => .json payload
    | _ => .data payload
  else .none

/-- `HttpExecutor.execute`; a request error is raised again as it is. -/
def HttpExecutor.execute (method url : String) (headers : Option (List (String × String)))
    (payload : Json) : Coroutine δ HttpResponse :=
  await (.request { method := upper method, url, headers, body := HttpExecutor.requestBody payload })

/-- `needle in text`. -/
def textContains (needle text : String) : Bool :=
  text.toList.tails.any (needle.toList.isPrefixOf ·)

/-- The local variables of `_process_payload` after the request. -/
structure Outcome where
  taskStatus : TaskStatus
  statusCode : Option Int
  latencyMs : Option ℚ
  headers : Option (List (String × String))
  body : Option String
  errorMessage : Option String

section engine

/-- The event stream is best effort. -/
def publishEvent (e : Event) : Coroutine δ Unit := do
  try await (.publish e)
  catch _ => pure ()

/-- `_mark_task_processing` and `_update_task_status` for a status. -/
def updateTaskStatus (taskId : TaskId) (status : TaskStatus) : Coroutine δ Unit := do
  try
    match ← await (.getTask taskId) with
    | none => pure ()
    | some task =>
      await (.commit [.updateTask task { task with status }])
      publishEvent (.taskStatusUpdated taskId task.scanId status)
  catch _ => pure ()

def markTaskProcessing (taskId : TaskId) : Coroutine δ Unit := updateTaskStatus taskId .processing

/-- The statuses that keep a scan running. -/
def TaskStatus.open (s : TaskStatus) : Bool :=
  s = .queued || s = .processing || s = .retrying

/-- The status `_evaluate_scan_completion` gives a scan with no open task. -/
def verdict (statuses : List TaskStatus) : ScanStatus :=
  if statuses.all (· = .success) then .completed else .failed

def evaluateScanCompletion (scanId : ScanId) : Coroutine δ Unit := do
  try
    match ← await (.getScan scanId) with
    | none => pure ()
    | some scan =>
      let statuses ← await (.selectStatuses scanId)
      if statuses.isEmpty then pure ()
      else if statuses.any TaskStatus.open then pure ()
      else
        await (.commit [.updateScan scan { scan with status := verdict statuses }])
        publishEvent (.scanCompleted scanId (verdict statuses))
  catch _ => pure ()

/-- The response row as `_save_response` leaves it. -/
def Outcome.response (taskId : TaskId) (o : Outcome) : ScanResponse where
  taskId
  statusCode := o.statusCode
  latencyMs := o.latencyMs
  responseHeaders := o.headers
  responseBody := o.body
  errorMessage := o.errorMessage

/-- The response row is updated or created. -/
def responseWrite (taskId : TaskId) (o : Outcome) : Option ScanResponse → Write
  | some r => .updateResponse r (o.response taskId)
  | none => .insertResponse (o.response taskId)

def saveResponse (taskId : TaskId) (o : Outcome) : Coroutine δ Unit := do
  try
    let dbTask ← await (.getTask taskId)
    let taskWrites := match dbTask with
      | some t => [Write.updateTask t { t with status := o.taskStatus, attempts := t.attempts + 1 }]
      | none => []
    let response ← await (.selectResponse taskId)
    await (.commit (taskWrites ++ [responseWrite taskId o response]))
    match dbTask with
    | none => pure ()
    | some t =>
      publishEvent (.taskCompleted taskId t.scanId o.taskStatus o.statusCode o.latencyMs)
      evaluateScanCompletion t.scanId
  catch _ => pure ()

/-- `DEFAULT_RETRY_BACKOFF * 2 ** (attempt - 1)` for the attempt that is scheduled. -/
def retryDelay (attempt : Int) : ℚ := settings.defaultRetryBackoff * 2 ^ (attempt - 1)

def handleRetry (p : QueuePayload) (errorMessage : String) : Coroutine δ Unit := do
  if p.attempt < p.maxRetries then
    await .incRetries
    let p := { p with attempt := p.attempt + 1 }
    updateTaskStatus p.taskId .retrying
    let _ ← scheduleDelayed codec p (retryDelay settings p.attempt)
  else
    updateTaskStatus p.taskId .failed
    let _ ← sendToDlq p ("Max retries exceeded. Last error: " ++ errorMessage)

/-- The inner handler of `_process_payload`. -/
def requestFailed (e : String) : Coroutine δ Outcome := do
  let statusCode : Option Int := if textContains "429" e then some 429 else none
  if statusCode ≠ some 429 then await (.incRequests .failure)
  pure ⟨.failed, statusCode, none, none, none, some e⟩

omit [DecidableEq δ] in
lemma requestFailed_eq (e : String) : (requestFailed e : Coroutine δ Outcome) =
    if textContains "429" e then pure ⟨.failed, some 429, none, none, none, some e⟩
    else await (.incRequests .failure) >>= fun _ =>
      pure ⟨.failed, none, none, none, none, some e⟩ := by
  unfold requestFailed
  by_cases h : textContains "429" e = true
  · simp only [h, ↓reduceIte, ne_eq, not_true_eq_false]
  · simp only [h, Bool.false_eq_true, ↓reduceIte, ne_eq, reduceCtorEq, not_false_eq_true]

/-- The inner `try` of `_process_payload`. -/
def executeRequest (p : QueuePayload) : Coroutine δ Outcome := do
  try
    let r ← HttpExecutor.execute p.method p.url p.headers p.payload
    if r.statusCode = 429 then
      await (.incRequests .tooMany)
      await (.report429 p.url)
      throw "HTTP 429 Too Many Requests"
    else
      await (.incRequests .success)
      await (.observeLatency p.method (r.latencyMs / 1000))
      pure ⟨.success, some r.statusCode, some r.latencyMs, some r.headers, some r.body, none⟩
  catch e => requestFailed e

/-- The body of the outer `try` of `_process_payload`. -/
def attemptPayload (p : QueuePayload) : Coroutine δ Unit := do
  markTaskProcessing p.taskId
  if ← await (.acquire p.url p.scanId) then
    let o ← executeRequest p
    saveResponse p.taskId o
    if o.taskStatus = .failed then
      handleRetry codec settings p (o.errorMessage.getD "")
  else throw "Rate limit timeout exceeded"

/-- The outer handler of `_process_payload`. -/
def criticalError (p : QueuePayload) (e : String) : Coroutine δ Unit := do
  try saveResponse p.taskId ⟨.failed, none, none, none, none, some ("Worker error: " ++ e)⟩
  catch _ => pure ()
  let _ ← sendToDlq p e

/-- The semaphore is released in a `finally`; the outer handler lets no exception pass. -/
def processPayload (w : WorkerId) (p : QueuePayload) : Coroutine δ Unit := do
  try attemptPayload codec settings p
  catch e => criticalError p e
  await (.semaphoreRelease w)

/-- One round of the loop of `WorkerEngine.start` while the engine is running. -/
def engineRound (w : WorkerId) : Coroutine δ Unit := do
  await (.semaphoreAcquire w)
  match ← consume codec with
  | none => await (.semaphoreRelease w)
  | some p => await (.createTask w p)

end engine

/-- Any number of engines on one queue. `asyncio.create_task` starts `_process_payload`. -/
def workerSystem : System (Cmd δ) Reply String (Store δ) Answer where
  effect := Store.effect codec
  fork
    | .createTask w p, _ => some (processPayload codec settings w p)
    | _, _ => none

/-- The loop of the engine `w` at the start of a round. -/
def engineThread (w : WorkerId) : Thread (Cmd δ) Reply String :=
  ⟨engineRound codec w, some (engineRound codec w)⟩

end SecurityScanner

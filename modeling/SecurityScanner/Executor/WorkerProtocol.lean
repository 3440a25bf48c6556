import SecurityScanner.Executor.DelayedQueue

/-!
# The protocol of a worker

The places a thread of the worker engine can be in, and the calls it makes there. Every
thread of the pool follows the protocol: the loop of an engine polls, and a background task
takes its payload from `taken` to `idle`.
-/

namespace SecurityScanner

open Storage Interleaving

/-- How far a thread is with `_evaluate_scan_completion`. -/
inductive Evaluation where
  | none
  | pending
  | loaded (scan : Scan)
  | verdict (scan : Scan) (statuses : List TaskStatus)

/-- The place of a thread. `saved` is the time after the commit of a response; `retry`
tells whether the thread is going to schedule a retry then. -/
inductive Worker (δ : Type) where
  | idle
  | timed (now : ℚ)
  | due (now : ℚ) (read : List δ)
  | popped (p : QueuePayload)
  | taken (p : QueuePayload)
  | running (p : QueuePayload)
  | fetched (p : QueuePayload) (scan : ScanId)
  | saving (p : QueuePayload) (scan : ScanId) (response : Option ScanResponse)
  | saved (p : QueuePayload) (scan : ScanId) (retry : Bool) (status : TaskStatus)
      (eval : Evaluation)
  | requeue (p : QueuePayload)

namespace Worker

variable {δ : Type}

/-- The task a thread has taken off the queue. -/
def task? : Worker δ → Option TaskId
  | .idle | .timed _ | .due _ _ => none
  | .popped p | .taken p | .running p | .fetched p _ | .saving p _ _ | .saved p _ _ _ _
  | .requeue p => some p.taskId

/-- What the database has as the status of the task of a thread. -/
def StatusOk : Worker δ → TaskStatus → Prop
  | .idle, _ | .timed _, _ | .due _ _, _ => True
  | .popped _, st | .taken _, st => st = .queued ∨ st = .retrying
  | .running _, st | .fetched _ _, st | .saving _ _ _, st => st = .processing
  | .saved _ _ retry status _, st =>
    st = status ∧ status.Terminal ∧ (retry = true → status = .failed)
  | .requeue _, st => st = .retrying

/-- The places of a thread that loops. -/
def Polling : Worker δ → Prop
  | .idle | .timed _ | .due _ _ | .popped _ => True
  | _ => False

/-- A thread that loaded its task knows the scan. -/
def ScanOk : Worker δ → ScanId → Prop
  | .fetched _ scan, id | .saving _ scan _, id | .saved _ scan _ _ _, id => id = scan
  | _, _ => True

end Worker

variable {δ : Type} (codec : Codec δ)

section protocol

/-- The calls of a thread. -/
def workerAllowed : Worker δ → Cmd δ → Prop
  | .idle, .semaphoreAcquire _ | .idle, .semaphoreRelease _ | .idle, .time
  | .idle, .random | .idle, .blpop _ => True
  | .timed now, .zrangebyscore lo hi start num => lo = 0 ∧ hi = now ∧ start = 0 ∧ num = 50
  | .due now read, .multi ws =>
    ∃ grouped, groupDueTasks codec read [] = .ok grouped ∧ ws = moveCommands grouped now
  | .popped p, .createTask _ p' => p' = p
  | .taken p, .getTask id => id = p.taskId
  | .taken p, .commit ws => ∃ row : Task, row.id = p.taskId ∧ row.status ≠ .processing ∧
      ws = [.updateTask row { row with status := .processing }]
  | .running _, .publish _ | .running _, .acquire _ _ | .running _, .request _
  | .running _, .incRequests _ | .running _, .observeLatency _ _
  | .running _, .report429 _ => True
  | .running p, .getTask id | .fetched p _, .selectResponse id => id = p.taskId
  | .saving p scan response, .commit ws => ∃ (row : Task) (o : Outcome), row.id = p.taskId ∧
      row.scanId = scan ∧ row.status = .processing ∧ o.taskStatus.Terminal ∧
      ws = [.updateTask row { row with status := o.taskStatus, attempts := row.attempts + 1 },
        responseWrite p.taskId o response]
  | .saved _ _ _ _ .pending, .publish _ | .saved _ _ _ _ .none, .publish _
  | .saved _ _ _ _ .none, .rpushDlq _ _ | .saved _ _ _ _ .none, .incRetries => True
  | .saved _ scan _ _ .pending, .getScan id => id = scan
  | .saved _ scan _ _ (.loaded _), .selectStatuses id => id = scan
  | .saved _ _ _ _ (.verdict sc statuses), .commit ws =>
    ws = [.updateScan sc { sc with status := verdict statuses }]
  | .saved p _ _ _ .none, .getTask id => id = p.taskId
  | .saved p scan retry status .none, .commit ws => ∃ row : Task, row.id = p.taskId ∧
      row.scanId = scan ∧ row.status = status ∧ status = .failed ∧
      ws = [.updateTask row { row with status := if retry then .retrying else .failed }]
  | .saved _ _ retry _ .none, .semaphoreRelease _ => retry = false
  | .requeue _, .publish _ | .requeue _, .time => True
  | .requeue p, .zadd data _ => data = codec.dump p
  | _, _ => False

/-- What the store answers at a place. -/
def workerReply : Worker δ → (c : Cmd δ) → Except String (Reply c) → Prop
  | _, .zrangebyscore .., r =>
    ∃ read, r = .ok read ∧ read.Nodup ∧ ∀ d ∈ read, (codec.validate d).isSome
  | _, .blpop _, r => r = .ok none ∨ ∃ q d p, r = .ok (some (q, d)) ∧ codec.validate d = some p
  | g, .getTask id, r =>
    ∃ row : Task, r = .ok (some row) ∧ row.id = id ∧ g.StatusOk row.status ∧ g.ScanOk row.scanId
  | _, .getScan id, r => ∃ sc : Scan, r = .ok (some sc) ∧ sc.id = id
  | _, .request _, _ => True
  | _, _, r => ∃ a, r = .ok a

/-- Where a reply leads. -/
def workerNext : Worker δ → (c : Cmd δ) → Except String (Reply c) → Worker δ → Prop
  | .idle, .time, .ok now, g => g = .timed now
  | .idle, .blpop _, .ok (some (_, d)), g => ∃ p, codec.validate d = some p ∧ g = .popped p
  | .idle, _, _, g => g = .idle
  | .timed now, .zrangebyscore .., .ok read, g =>
    g = if read.isEmpty then .idle else .due now read
  | .due _ _, _, _, g => g = .idle
  | .popped _, _, _, g => g = .idle
  | .taken p, .commit _, _, g => g = .running p
  | .taken p, _, _, g => g = .taken p
  | .running p, .getTask _, .ok (some row), g => g = .fetched p row.scanId
  | .running p, _, _, g => g = .running p
  | .fetched p scan, .selectResponse _, .ok response, g => g = .saving p scan response
  | .saving p scan _, .commit (.updateTask _ new :: _), _, g => ∃ retry,
      (retry = true → new.status = .failed) ∧ g = .saved p scan retry new.status .pending
  | .saved p scan retry status .pending, .getScan _, .ok (some sc), g =>
    g = .saved p scan retry status (.loaded sc)
  | .saved p scan retry status (.loaded sc), .selectStatuses _, .ok statuses, g =>
    g = .saved p scan retry status
      (if statuses.isEmpty || statuses.any TaskStatus.open then .none else .verdict sc statuses)
  | .saved p scan retry status (.verdict _ _), .commit _, _, g =>
    g = .saved p scan retry status .none
  | .saved p scan retry status .none, .commit _, _, g =>
    g = if retry then .requeue { p with attempt := p.attempt + 1 }
      else .saved p scan retry status .none
  | .saved _ _ _ _ _, .semaphoreRelease _, _, g => g = .idle
  | .saved p scan retry status eval, _, _, g => g = .saved p scan retry status eval
  | .requeue _, .zadd _ _, _, g => g = .idle
  | .requeue p, _, _, g => g = .requeue p
  | _, _, _, _ => False

lemma polling_workerNext (g : Worker δ) (c : Cmd δ) (r : Except String (Reply c)) (g' : Worker δ)
    (hg : g.Polling) (hc : workerAllowed codec g c) (hn : workerNext codec g c r g') :
    g'.Polling := by
  cases g <;> cases c <;> first | exact hc.elim | exact hg.elim | skip
  case idle.blpop =>
    rcases r with e | none | ⟨q, d⟩
    · exact hn ▸ trivial
    · exact hn ▸ trivial
    · obtain ⟨p, -, rfl⟩ := hn
      trivial
  case timed.zrangebyscore =>
    cases r with
    | error e => exact hn.elim
    | ok read =>
      dsimp only [workerNext] at hn
      split at hn <;> exact hn ▸ trivial
  all_goals cases r <;> exact hn ▸ trivial

def workerProtocol : Protocol (Cmd δ) Reply String (Worker δ) where
  allowed := workerAllowed codec
  reply := workerReply codec
  next := workerNext codec
  child
    | .popped p, _ => .taken p
    | g, _ => g
  looping := Worker.Polling
  looping_next := polling_workerNext codec

end protocol

section polling

lemma follows_processDelayedTasks_worker :
    Follows (workerProtocol codec) .idle (processDelayedTasks codec) (fun _ g => g = .idle) := by
  simp only [processDelayedTasks, follows_tryCatch, follows_bind, await, follows_perform]
  refine ⟨trivial, ?_⟩
  rintro - ⟨now, rfl⟩
  refine ⟨.timed now, rfl, ⟨rfl, rfl, rfl, rfl⟩, ?_⟩
  rintro - ⟨read, rfl, -, hdec⟩
  refine ⟨_, rfl, ?_⟩
  by_cases hread : read.isEmpty
  · simp [hread]
  · obtain ⟨grouped, hok, -, -⟩ := groupDueTasks_spec codec hdec [] List.nodup_nil
    simp only [hread, Bool.false_eq_true, ↓reduceIte, hok, follows_perform]
    refine ⟨⟨grouped, hok, rfl⟩, ?_⟩
    rintro - ⟨-, rfl⟩
    exact ⟨.idle, rfl, rfl⟩

/-- `consume` pops a payload or nothing. -/
lemma follows_consume :
    Follows (workerProtocol codec) .idle (consume codec) (fun r g =>
      (r = .ok none ∧ g = .idle) ∨ ∃ p, r = .ok (some p) ∧ g = .popped p) := by
  rw [consume, follows_tryCatch, follows_bind]
  refine (follows_processDelayedTasks_worker codec).mono ?_
  rintro r g rfl
  cases r with
  | error e => exact Or.inl ⟨rfl, rfl⟩
  | ok u =>
    simp only [getPollQueues, follows_bind, await, follows_perform]
    refine ⟨trivial, ?_⟩
    rintro - ⟨x, rfl⟩
    refine ⟨.idle, rfl, trivial, ?_⟩
    rintro - (rfl | ⟨q, d, p, rfl, hp⟩)
    · exact ⟨.idle, rfl, Or.inl ⟨rfl, rfl⟩⟩
    · refine ⟨.popped p, ⟨p, hp, rfl⟩, ?_⟩
      simp [hp]

lemma follows_engineRound (w : WorkerId) :
    Follows (workerProtocol codec) .idle (engineRound codec w) (fun _ g => g = .idle) := by
  simp only [engineRound, follows_bind, await, follows_perform]
  refine ⟨trivial, ?_⟩
  rintro - ⟨-, rfl⟩
  refine ⟨.idle, rfl, (follows_consume codec).mono ?_⟩
  rintro r g (⟨rfl, rfl⟩ | ⟨p, rfl, rfl⟩)
  · refine follows_perform.mpr ⟨trivial, ?_⟩
    rintro r' -
    exact ⟨.idle, by cases r' <;> rfl, rfl⟩
  · refine follows_perform.mpr ⟨rfl, ?_⟩
    rintro r' -
    exact ⟨.idle, rfl, rfl⟩

end polling

section processing

/-- A place where a thread can publish events. -/
def Worker.Publishes (g : Worker δ) : Prop :=
  ∀ e, workerAllowed codec g (.publish e) ∧ ∀ r, workerNext codec g (.publish e) r g

lemma follows_publishEvent {g : Worker δ} (hg : g.Publishes codec) (e : Event) :
    Follows (workerProtocol codec) g (publishEvent e) (fun r g' => r = .ok () ∧ g' = g) := by
  simp only [publishEvent, follows_tryCatch, await, follows_perform]
  refine ⟨(hg e).1, ?_⟩
  rintro - ⟨-, rfl⟩
  exact ⟨g, (hg e).2 _, trivial, rfl⟩

/-- A status update moves a thread from `g` to `g'` with its commit. -/
lemma follows_updateTaskStatus (g g' : Worker δ) (taskId : TaskId) (status : TaskStatus)
    (hget : workerAllowed codec g (.getTask taskId))
    (hsame : ∀ r, workerNext codec g (.getTask taskId) r g)
    (hcommit : ∀ row : Task, row.id = taskId → g.StatusOk row.status → g.ScanOk row.scanId →
      workerAllowed codec g (.commit [.updateTask row { row with status }]) ∧
        ∀ r, workerNext codec g (.commit [.updateTask row { row with status }]) r g')
    (hpub : g'.Publishes codec) :
    Follows (workerProtocol codec) g (updateTaskStatus taskId status)
      (fun r g'' => r = .ok () ∧ g'' = g') := by
  simp only [updateTaskStatus, follows_tryCatch, follows_bind, await, follows_perform]
  refine ⟨hget, ?_⟩
  rintro - ⟨row, rfl, hid, hst, hscan⟩
  obtain ⟨hallow, hnext⟩ := hcommit row hid hst hscan
  refine ⟨g, hsame _, ?_⟩
  simp only [follows_bind, follows_perform]
  refine ⟨hallow, ?_⟩
  rintro - ⟨-, rfl⟩
  refine ⟨g', hnext _, (follows_publishEvent codec hpub _).mono ?_⟩
  rintro r g'' ⟨rfl, rfl⟩
  exact ⟨trivial, rfl⟩

variable {codec}

lemma publishes_running (p : QueuePayload) : (Worker.running p).Publishes codec :=
  fun _ => ⟨trivial, fun r => by cases r <;> rfl⟩

lemma publishes_saved (p : QueuePayload) (scan : ScanId) (retry : Bool) (status : TaskStatus)
    {eval : Evaluation} (h : eval = .pending ∨ eval = .none) :
    (Worker.saved p scan retry status eval).Publishes codec := by
  rcases h with rfl | rfl
  · exact fun _ => ⟨trivial, fun _ => rfl⟩
  · exact fun _ => ⟨trivial, fun _ => rfl⟩

lemma publishes_requeue (p : QueuePayload) : (Worker.requeue p).Publishes codec :=
  fun _ => ⟨trivial, fun r => by cases r <;> rfl⟩

/-- `_evaluate_scan_completion` of a thread that saved a response. -/
lemma follows_evaluateScanCompletion (p : QueuePayload) (scan : ScanId) (retry : Bool)
    (status : TaskStatus) :
    Follows (workerProtocol codec) (.saved p scan retry status .pending)
      (evaluateScanCompletion scan)
      (fun r g => r = .ok () ∧ g = .saved p scan retry status .none) := by
  simp only [evaluateScanCompletion, follows_tryCatch, follows_bind, await, follows_perform]
  refine ⟨rfl, ?_⟩
  rintro - ⟨sc, rfl, -⟩
  refine ⟨.saved p scan retry status (.loaded sc), rfl, ?_⟩
  simp only [follows_bind, follows_perform]
  refine ⟨rfl, ?_⟩
  rintro - ⟨statuses, rfl⟩
  refine ⟨_, rfl, ?_⟩
  by_cases hnil : statuses.isEmpty
  · simp [hnil]
  by_cases hopen : statuses.any TaskStatus.open
  · simp [hnil, hopen]
  simp only [hnil, hopen, Bool.false_eq_true, ↓reduceIte, Bool.or_self, follows_bind,
    follows_perform]
  refine ⟨rfl, ?_⟩
  rintro - ⟨-, rfl⟩
  refine ⟨.saved p scan retry status .none, rfl, ?_⟩
  refine (follows_publishEvent codec (publishes_saved p scan retry status (Or.inr rfl)) _).mono ?_
  rintro r g ⟨rfl, rfl⟩
  exact ⟨trivial, rfl⟩

/-- `_save_response`; `retry` is what the thread is going to do afterwards. -/
lemma follows_saveResponse (p : QueuePayload) (o : Outcome) (retry : Bool)
    (hst : o.taskStatus.Terminal) (hretry : retry = true → o.taskStatus = .failed) :
    Follows (workerProtocol codec) (.running p) (saveResponse p.taskId o)
      (fun r g => r = .ok () ∧ ∃ scan, g = .saved p scan retry o.taskStatus .none) := by
  simp only [saveResponse, follows_tryCatch, follows_bind, await, follows_perform]
  refine ⟨rfl, ?_⟩
  rintro - ⟨row, rfl, hid, hrow, -⟩
  refine ⟨.fetched p row.scanId, rfl, rfl, ?_⟩
  rintro - ⟨response, rfl⟩
  refine ⟨.saving p row.scanId response, rfl, ⟨row, o, hid, rfl, hrow, hst, rfl⟩, ?_⟩
  rintro - ⟨-, rfl⟩
  refine ⟨.saved p row.scanId retry o.taskStatus .pending, ⟨retry, hretry, rfl⟩, ?_⟩
  refine follows_bind.mpr
    ((follows_publishEvent codec (publishes_saved _ _ _ _ (Or.inl rfl)) _).mono ?_)
  rintro r g ⟨rfl, rfl⟩
  refine (follows_evaluateScanCompletion p row.scanId retry o.taskStatus).mono ?_
  rintro r g ⟨rfl, rfl⟩
  exact ⟨trivial, row.scanId, rfl⟩

lemma follows_sendToDlq (p q : QueuePayload) (scan : ScanId) (retry : Bool)
    (status : TaskStatus) (reason : String) :
    Follows (workerProtocol codec) (.saved p scan retry status .none) (sendToDlq q reason)
      (fun r g => r = .ok true ∧ g = .saved p scan retry status .none) := by
  simp only [sendToDlq, follows_tryCatch, follows_bind, await, follows_perform]
  refine ⟨trivial, ?_⟩
  rintro - ⟨-, rfl⟩
  exact ⟨_, rfl, rfl, rfl⟩

/-- A worker after its last save: nothing is left of the payload, or a final status. -/
def Worker.Finished (g : Worker δ) : Prop :=
  g = .idle ∨ ∃ p scan status, g = .saved p scan false status .none

lemma follows_scheduleDelayed (p : QueuePayload) (delaySeconds : ℚ) :
    Follows (workerProtocol codec) (.requeue p) (scheduleDelayed codec p delaySeconds)
      (fun r g => r = .ok true ∧ g = .idle) := by
  simp only [scheduleDelayed, follows_tryCatch, follows_bind, await, follows_perform]
  refine ⟨trivial, ?_⟩
  rintro - ⟨now, rfl⟩
  refine ⟨.requeue p, rfl, ?_⟩
  refine ⟨rfl, ?_⟩
  rintro - ⟨-, rfl⟩
  exact ⟨.idle, rfl, rfl, rfl⟩

/-- `_handle_retry` puts the payload back, or the failure is final. -/
lemma follows_handleRetry (settings : Settings) (p : QueuePayload) (scan : ScanId)
    (errorMessage : String) :
    Follows (workerProtocol codec) (.saved p scan (p.attempt < p.maxRetries) .failed .none)
      (handleRetry codec settings p errorMessage)
      (fun r g => r = .ok () ∧ g.Finished) := by
  unfold handleRetry
  by_cases hlt : p.attempt < p.maxRetries
  · simp only [hlt, ↓reduceIte, decide_true, follows_bind, await, follows_perform]
    refine ⟨trivial, ?_⟩
    rintro - ⟨-, rfl⟩
    refine ⟨.saved p scan true .failed .none, rfl, ?_⟩
    have hupdate := follows_updateTaskStatus codec (.saved p scan true .failed .none)
      (.requeue { p with attempt := p.attempt + 1 }) p.taskId .retrying rfl (fun _ => rfl)
      (fun row hid hst hscan => ⟨⟨row, hid, hscan, hst.1, rfl, rfl⟩, fun _ => rfl⟩)
      (publishes_requeue _)
    refine hupdate.mono ?_
    rintro r g ⟨rfl, rfl⟩
    refine (follows_scheduleDelayed _ _).mono ?_
    rintro r g ⟨rfl, rfl⟩
    exact ⟨rfl, Or.inl rfl⟩
  · simp only [hlt, ↓reduceIte, decide_false, follows_bind]
    have hupdate := follows_updateTaskStatus codec (.saved p scan false .failed .none)
      (.saved p scan false .failed .none) p.taskId .failed rfl (fun _ => rfl)
      (fun row hid hst hscan => ⟨⟨row, hid, hscan, hst.1, rfl, rfl⟩, fun _ => rfl⟩)
      (publishes_saved _ _ _ _ (Or.inr rfl))
    refine hupdate.mono ?_
    rintro r g ⟨rfl, rfl⟩
    refine (follows_sendToDlq p p scan false .failed _).mono ?_
    rintro r g ⟨rfl, rfl⟩
    exact ⟨rfl, Or.inr ⟨p, scan, .failed, rfl⟩⟩

lemma follows_requestFailed (p : QueuePayload) (e : String) :
    Follows (workerProtocol codec) (.running p) (requestFailed e)
      (fun r g => g = .running p ∧ ∃ o : Outcome, r = .ok o ∧ o.taskStatus.Terminal) := by
  rw [requestFailed_eq]
  split
  · simp [TaskStatus.Terminal]
  · simp only [follows_bind, await, follows_perform]
    refine ⟨trivial, ?_⟩
    rintro - ⟨-, rfl⟩
    exact ⟨.running p, rfl, by simp [TaskStatus.Terminal]⟩

lemma follows_request (p : QueuePayload) (req : HttpRequest) :
    Follows (workerProtocol codec) (.running p) (await (.request req))
      (fun _ g => g = .running p) :=
  follows_perform.mpr ⟨trivial, fun _ _ => ⟨.running p, rfl, rfl⟩⟩

/-- The request ends with an outcome; its errors are caught. -/
lemma follows_executeRequest (p q : QueuePayload) :
    Follows (workerProtocol codec) (.running p) (executeRequest q)
      (fun r g => g = .running p ∧ ∃ o : Outcome, r = .ok o ∧ o.taskStatus.Terminal) := by
  rw [executeRequest, follows_tryCatch, follows_bind]
  refine (follows_request p _).mono ?_
  rintro r g rfl
  cases r with
  | error e => exact follows_requestFailed p e
  | ok r =>
    by_cases h429 : r.statusCode = 429
    · simp only [h429, ↓reduceIte, follows_bind, await, follows_perform]
      refine ⟨trivial, ?_⟩
      rintro - ⟨-, rfl⟩
      refine ⟨.running p, rfl, trivial, ?_⟩
      rintro - ⟨-, rfl⟩
      exact ⟨.running p, rfl, follows_requestFailed p _⟩
    · simp only [h429, ↓reduceIte, follows_bind, await, follows_perform]
      refine ⟨trivial, ?_⟩
      rintro - ⟨-, rfl⟩
      refine ⟨.running p, rfl, trivial, ?_⟩
      rintro - ⟨-, rfl⟩
      exact ⟨.running p, rfl, rfl, _, rfl, Or.inl rfl⟩

/-- The outer `try`: an exception is raised only before the response is saved. -/
lemma follows_attemptPayload (settings : Settings) (p : QueuePayload) :
    Follows (workerProtocol codec) (.taken p) (attemptPayload codec settings p)
      (fun r g => (r = .ok () ∧ g.Finished) ∨ ((∃ e, r = .error e) ∧ g = .running p)) := by
  rw [attemptPayload, follows_bind]
  have hmark := follows_updateTaskStatus codec (.taken p) (.running p) p.taskId .processing rfl
    (fun _ => rfl)
    (fun row hid hst _ => ⟨⟨row, hid, by rcases hst with h | h <;> simp [h], rfl⟩, fun _ => rfl⟩)
    (publishes_running p)
  refine hmark.mono ?_
  rintro r g ⟨rfl, rfl⟩
  simp only [follows_bind, await, follows_perform]
  refine ⟨trivial, ?_⟩
  rintro - ⟨granted, rfl⟩
  refine ⟨.running p, by cases granted <;> rfl, ?_⟩
  cases granted with
  | false => exact Or.inr ⟨⟨_, rfl⟩, rfl⟩
  | true =>
    simp only [↓reduceIte, follows_bind]
    refine (follows_executeRequest p p).mono ?_
    rintro r g ⟨rfl, o, rfl, ho⟩
    by_cases hfailed : o.taskStatus = .failed
    · refine (follows_saveResponse p o (p.attempt < p.maxRetries) ho (fun _ => hfailed)).mono ?_
      rintro r g ⟨rfl, scan, rfl⟩
      simp only [hfailed, ↓reduceIte]
      refine (follows_handleRetry settings p scan _).mono ?_
      rintro r g ⟨rfl, hg⟩
      exact Or.inl ⟨rfl, hg⟩
    · refine (follows_saveResponse p o false ho (fun h => by cases h)).mono ?_
      rintro r g ⟨rfl, scan, rfl⟩
      simp only [hfailed, ↓reduceIte, follows_pure]
      exact Or.inl ⟨trivial, Or.inr ⟨p, scan, o.taskStatus, rfl⟩⟩

lemma follows_criticalError (p : QueuePayload) (e : String) :
    Follows (workerProtocol codec) (.running p) (criticalError p e)
      (fun r g => r = .ok () ∧ g.Finished) := by
  simp only [criticalError, follows_bind, follows_tryCatch]
  refine (follows_saveResponse p ⟨.failed, none, none, none, none, some ("Worker error: " ++ e)⟩
    false (Or.inr rfl) (fun h => by cases h)).mono ?_
  rintro r g ⟨rfl, scan, rfl⟩
  refine (follows_sendToDlq p p scan false .failed e).mono ?_
  rintro r g ⟨rfl, rfl⟩
  exact ⟨rfl, Or.inr ⟨p, scan, .failed, rfl⟩⟩

/-- A background task takes its payload to its end. -/
lemma follows_processPayload (settings : Settings) (w : WorkerId) (p : QueuePayload) :
    Follows (workerProtocol codec) (.taken p) (processPayload codec settings w p)
      (fun _ g => g = .idle) := by
  have hrelease : ∀ g : Worker δ, g.Finished → Follows (workerProtocol codec) g
      (await (.semaphoreRelease w)) (fun _ g => g = .idle) := by
    rintro g (rfl | ⟨p, scan, status, rfl⟩)
    · refine follows_perform.mpr ⟨trivial, ?_⟩
      rintro r -
      exact ⟨.idle, by cases r <;> rfl, rfl⟩
    · refine follows_perform.mpr ⟨rfl, ?_⟩
      rintro r -
      exact ⟨.idle, by cases r <;> rfl, rfl⟩
  simp only [processPayload, follows_bind, follows_tryCatch]
  refine (follows_attemptPayload settings p).mono ?_
  rintro r g (⟨rfl, hg⟩ | ⟨⟨e, rfl⟩, rfl⟩)
  · exact hrelease g hg
  · refine (follows_criticalError p e).mono ?_
    rintro r g ⟨rfl, hg⟩
    exact hrelease g hg

end processing

end SecurityScanner

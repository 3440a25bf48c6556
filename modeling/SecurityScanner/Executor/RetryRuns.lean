import SecurityScanner.Executor.StoredTasks
import SecurityScanner.Lib.Progress

/-!
# The retries of one payload

A worker with one payload in its queue: the loop that polls and moves due retries, and a
background task for each attempt. The limiter grants, neither the database nor Redis fails,
every call takes place at a time of a clock that does not go back, and the HTTP client
answers the requests in their order.
-/

namespace SecurityScanner

open Storage Interleaving

/-- The payload of a worker, and what the HTTP client makes of each request. -/
structure RetryCase (δ : Type) where
  codec : Codec δ
  settings : Settings
  worker : WorkerId
  payload : QueuePayload
  outcomes : ℕ → Except String HttpResponse

/-- The outcome that `_process_payload` takes for a success. -/
def succeeds : Except String HttpResponse → Bool
  | .ok r => r.statusCode ≠ 429
  | .error _ => false

/-- The times of the requests, the times and scores of the scheduled retries, the payloads
with the times at which they were popped, and the number of background tasks. -/
structure RetryLog where
  sent : List ℚ := []
  scheduled : List (ℚ × ℚ) := []
  popped : List (ℚ × QueuePayload) := []
  created : ℕ := 0

structure RetryState (δ : Type) where
  store : Store δ
  clock : ℚ
  log : RetryLog := {}

/-- The time of a call, and what `random.random()` draws in it. -/
structure Tick where
  now : ℚ
  draw : ℚ

variable {δ : Type}

/-- A call that returned `r` at the time `now`. -/
def RetryLog.record (codec : Codec δ) (now : ℚ) (h : RetryLog) :
    (c : Cmd δ) → Except String (Reply c) → RetryLog
  | .request _, _ => { h with sent := h.sent ++ [now] }
  | .zadd _ score, _ => { h with scheduled := h.scheduled ++ [(now, score)] }
  | .blpop _, .ok (some (_, d)) =>
    match codec.validate d with
    | some p => { h with popped := h.popped ++ [(now, p)] }
    | none => h
  | .createTask .., _ => { h with created := h.created + 1 }
  | _, _ => h

namespace RetryCase

variable (X : RetryCase δ)

/-- The requests that the retries allow. -/
def limit : ℕ := (max X.payload.maxRetries 0).toNat + 1

/-- The position of the first success among them, or their number. -/
def attempts : ℕ :=
  (((List.range X.limit).find? fun i => succeeds (X.outcomes i)).map (· + 1)).getD X.limit

def answer (t : Tick) (s : RetryState δ) : Cmd δ → Answer
  | .time => .clock t.now
  | .random => .random t.draw
  | .acquire .. => .granted true
  | .request _ => .http (X.outcomes s.log.sent.length)
  | _ => .done

variable [DecidableEq δ]

/-- A call takes place no earlier than the calls before it. -/
def effect (c : Cmd δ) (t : Tick) (s : RetryState δ) :
    Option (Except String (Reply c) × RetryState δ) :=
  if t.now < s.clock then none
  else
    match s.store.effect X.codec c (X.answer t s c) with
    | some (r, store) => some (r, ⟨store, t.now, s.log.record X.codec t.now c r⟩)
    | none => none

def system : System (Cmd δ) Reply String (RetryState δ) Tick where
  effect := X.effect
  fork
    | .createTask w p, _ => some (processPayload X.codec X.settings w p)
    | _, _ => none

abbrev Runs (δ : Type) := Pool (Cmd δ) Reply String (RetryState δ)

/-- The worker at the start of its loop. -/
def pool (s : RetryState δ) : Runs δ := ⟨s, [engineThread X.codec X.worker]⟩

/-- The runs of the case from `s₀`. -/
abbrev Run (s₀ : RetryState δ) : Runs δ → Prop :=
  Reachable X.system (fun _ _ => True) (· = X.pool s₀)

/-- The payload waits alone in a priority list, the row of its task counts no attempt, and
the worker has a free place. -/
structure Alone (s : RetryState δ) : Prop where
  waits : ∃ d, s.store.redis.stored = [d] ∧ X.codec.validate d = some X.payload
  undelayed : s.store.redis.delayed.entries = []
  row : ∃ row, s.store.db.tasks.find? X.payload.taskId = some row ∧ row.attempts = 0
  free : 0 < s.store.slots X.worker
  clock : 0 ≤ s.clock
  log : s.log = {}

/-- What holds at any time. The `j + 1`-th retry was scheduled at a time `now` between the
`j + 1`-th request and the write of the delayed entry. -/
structure SoFar (s : RetryState δ) : Prop where
  sent : s.log.sent.length ≤ X.attempts
  popped : ∀ (j : ℕ) e, s.log.popped[j]? = some e → e.2 = { X.payload with attempt := j }
  delayed : ∀ (j : ℕ) e, s.log.popped[j + 1]? = some e → ∃ sentAt now written,
    s.log.sent[j]? = some sentAt ∧ sentAt ≤ now ∧ now ≤ written ∧
    s.log.scheduled[j]? = some (written, now + X.settings.defaultRetryBackoff * 2 ^ j) ∧
    now + X.settings.defaultRetryBackoff * 2 ^ j ≤ e.1

/-- The queue is empty, and every coroutine is at the end of its round. -/
structure AtRest (p : Runs δ) : Prop where
  empty : p.store.store.redis.stored = []
  ended : ∀ t ∈ p.threads, t.Ended

/-- The end of the retries that began with the dead letters `dlq`. -/
structure Over (dlq : List (QueuePayload × String)) (s : RetryState δ) : Prop where
  sent : s.log.sent.length = X.attempts
  row : ∃ row, s.store.db.tasks.find? X.payload.taskId = some row ∧ row.attempts = X.attempts ∧
    if succeeds (X.outcomes (X.attempts - 1)) then
      row.status = .success ∧ s.store.redis.dlq = dlq
    else
      row.status = .failed ∧ ∃ reason, s.store.redis.dlq =
        dlq ++ [({ X.payload with attempt := (X.attempts - 1 : ℕ) }, reason)]

end RetryCase

end SecurityScanner

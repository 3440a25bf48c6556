import SecurityScanner.Executor.TaskQueue
import SecurityScanner.Lib.ThreadPool

/-!
# The calls a worker makes

What the coroutines of a worker ask of the world: the database, Redis, the clock, the HTTP
client, the rate limiter and the event loop. One call is one atomic step; a session's
queries and its commit are calls of their own (read committed).
-/

namespace SecurityScanner

open Interleaving

abbrev WorkerId := Nat

/-- The `json=` and `data=` arguments of an httpx request. -/
inductive RequestBody where
  | none
  | json (v : Json)
  | data (v : Json)
  deriving DecidableEq

structure HttpRequest where
  method : String
  url : String
  headers : Option (List (String × String))
  body : RequestBody
  deriving DecidableEq

structure HttpResponse where
  statusCode : Int
  latencyMs : ℚ
  headers : List (String × String)
  body : String
  deriving DecidableEq

/-- Messages of the channel `scan:{scan_id}:events`. -/
inductive Event where
  | taskStatusUpdated (task : TaskId) (scan : ScanId) (status : TaskStatus)
  | taskCompleted (task : TaskId) (scan : ScanId) (status : TaskStatus)
      (statusCode : Option Int) (latencyMs : Option ℚ)
  | scanCompleted (scan : ScanId) (status : ScanStatus)

/-- The `status` label of `EXECUTOR_REQUESTS_TOTAL`. -/
inductive RequestLabel where
  | success | failure | tooMany
  deriving DecidableEq, Repr

inductive Cmd (δ : Type) where
  | time
  | random
  | semaphoreAcquire (w : WorkerId)
  | semaphoreRelease (w : WorkerId)
  | createTask (w : WorkerId) (p : QueuePayload)
  | zrangebyscore (lo hi : ℚ) (start num : Nat)
  | multi (ws : List (RedisWrite δ))
  | blpop (qs : List PriorityQueue)
  | zadd (data : δ) (score : ℚ)
  | rpushDlq (p : QueuePayload) (reason : String)
  | publish (e : Event)
  | getTask (id : TaskId)
  | getScan (id : ScanId)
  | selectResponse (task : TaskId)
  | selectStatuses (scan : ScanId)
  | commit (ws : List Write)
  | acquire (url : String) (scan : ScanId)
  | report429 (url : String)
  | request (r : HttpRequest)
  | incRequests (label : RequestLabel)
  | observeLatency (method : String) (seconds : ℚ)
  | incRetries

abbrev Reply {δ : Type} : Cmd δ → Type
  | .time => ℚ
  | .random => ℚ
  | .zrangebyscore .. => List δ
  | .blpop _ => Option (PriorityQueue × δ)
  | .getTask _ => Option Task
  | .getScan _ => Option Scan
  | .selectResponse _ => Option ScanResponse
  | .selectStatuses _ => List TaskStatus
  | .acquire .. => Bool
  | .request _ => HttpResponse
  | _ => Unit

/-- The part of a reply the store does not determine. -/
inductive Answer where
  | done
  | clock (t : ℚ)
  | random (r : ℚ)
  | granted (b : Bool)
  | http (r : Except String HttpResponse)

structure Metrics where
  requests : RequestLabel → Nat := fun _ => 0
  retries : Nat := 0

structure Store (δ : Type) where
  db : Database := {}
  redis : Redis δ := {}
  /-- Free places of each worker's semaphore. -/
  slots : WorkerId → Nat := fun _ => 100
  metrics : Metrics := {}

variable {δ : Type} [DecidableEq δ]

/-- What a call does when neither the database nor Redis fails. -/
def Store.effect (codec : Codec δ) (c : Cmd δ) (a : Answer) (s : Store δ) :
    Option (Except String (Reply c) × Store δ) :=
  match c, a with
  | .time, .clock t => some (.ok t, s)
  | .random, .random r => if 0 ≤ r ∧ r < 1 then some (.ok r, s) else none
  | .semaphoreAcquire w, .done =>
    if s.slots w = 0 then none
    else some (.ok (), { s with slots := Function.update s.slots w (s.slots w - 1) })
  | .semaphoreRelease w, .done =>
    some (.ok (), { s with slots := Function.update s.slots w (s.slots w + 1) })
  | .createTask .., .done => some (.ok (), s)
  | .zrangebyscore lo hi start num, .done =>
    some (.ok (s.redis.delayed.zrangebyscore lo hi start num), s)
  | .multi ws, .done => some (.ok (), { s with redis := s.redis.multi ws })
  | .blpop qs, .done => some (.ok (s.redis.blpop qs).1, { s with redis := (s.redis.blpop qs).2 })
  | .zadd data score, .done =>
    some (.ok (), { s with redis :=
      { s.redis with delayed := s.redis.delayed.zadd codec.before data score } })
  | .rpushDlq p reason, .done =>
    some (.ok (), { s with redis := { s.redis with dlq := s.redis.dlq ++ [(p, reason)] } })
  | .publish _, .done => some (.ok (), s)
  | .getTask id, .done => some (.ok (s.db.tasks.find? id), s)
  | .getScan id, .done => some (.ok (s.db.scans.find? id), s)
  | .selectResponse id, .done => some (.ok (s.db.responses.find? id), s)
  | .selectStatuses id, .done => some (.ok (s.db.statuses id), s)
  | .commit ws, .done =>
    match s.db.commit ws with
    | .ok db => some (.ok (), { s with db })
    | .error e => some (.error e, s)
  | .acquire .., .granted b => some (.ok b, s)
  | .report429 _, .done => some (.ok (), s)
  | .request _, .http r => some (r, s)
  | .incRequests label, .done =>
    some (.ok (), { s with metrics := { s.metrics with
      requests := Function.update s.metrics.requests label (s.metrics.requests label + 1) } })
  | .observeLatency .., .done => some (.ok (), s)
  | .incRetries, .done =>
    some (.ok (), { s with metrics := { s.metrics with retries := s.metrics.retries + 1 } })
  | _, _ => none

/-- The coroutines of the executor. -/
abbrev Coroutine (δ : Type) (α : Type) := Prog (Cmd δ) Reply String α

/-- Makes one call. -/
abbrev await {δ : Type} (c : Cmd δ) : Coroutine δ (Reply c) := Prog.perform c

end SecurityScanner

import SecurityScanner.Executor.Persistence
import SecurityScanner.Lib.SortedSet
import Mathlib.Algebra.Order.Ring.Rat

/-!
# The task queue

Payloads of `executor/task_queue/models.py` and the Redis keys of one queue: four priority
lists, the delayed set and the dead letter list.
-/

namespace SecurityScanner

open Storage

structure QueuePayload where
  taskId : TaskId
  scanId : ScanId
  method : String
  url : String
  headers : Option (List (String × String)) := none
  payload : Json := .null
  mutationStrategy : Option String := none
  mutationReason : Option String := none
  attempt : Int := 0
  maxRetries : Int := 3
  enqueuedAt : String := ""
  priorityLevel : String := "P3"
  deriving DecidableEq

/-- `model_dump_json` and `model_validate_json` on stored values of type `δ`: what was
dumped validates to the payload again. `before` is the byte order of stored values. -/
structure Codec (δ : Type) where
  dump : QueuePayload → δ
  validate : δ → Option QueuePayload
  validate_dump : ∀ p, validate (dump p) = some p
  before : δ → δ → Bool

/-- The lists `{queue_name}:critical` to `{queue_name}:low`. -/
inductive PriorityQueue where
  | critical | high | medium | low
  deriving DecidableEq, Repr

/-- ASCII part of `str.upper`. -/
def upper (s : String) : String := String.ofList (s.toList.map Char.toUpper)

def getPriorityQueue (priorityLevel : String) : PriorityQueue :=
  if upper priorityLevel = "P1" then .critical
  else if upper priorityLevel = "P2" then .high
  else if upper priorityLevel = "P3" then .medium
  else if upper priorityLevel = "P4" then .low
  else .medium

structure Redis (δ : Type) where
  lists : PriorityQueue → List δ := fun _ => []
  delayed : SortedSet δ ℚ := .empty
  /-- Payloads of the dead letter list with their `_dlq_reason`. -/
  dlq : List (QueuePayload × String) := []

/-- The commands a `MULTI` of the queue holds. -/
inductive RedisWrite (δ : Type) where
  | rpush (q : PriorityQueue) (data : List δ)
  | zremrangebyscore (lo hi : ℚ)

namespace Redis

variable {δ : Type}

def rpush (R : Redis δ) (q : PriorityQueue) (data : List δ) : Redis δ :=
  { R with lists := Function.update R.lists q (R.lists q ++ data) }

def write (R : Redis δ) : RedisWrite δ → Redis δ
  | .rpush q data => R.rpush q data
  | .zremrangebyscore lo hi => { R with delayed := R.delayed.zremrangebyscore lo hi }

/-- `MULTI … EXEC`. -/
def multi (R : Redis δ) (ws : List (RedisWrite δ)) : Redis δ := ws.foldl write R

/-- `BLPOP`: the head of the first list that is not empty, nothing after the timeout. -/
def blpop (R : Redis δ) : List PriorityQueue → Option (PriorityQueue × δ) × Redis δ
  | [] => (none, R)
  | q :: qs =>
    match R.lists q with
    | [] => R.blpop qs
    | d :: ds => (some (q, d), { R with lists := Function.update R.lists q ds })

/-- `BLPOP` finds all the lists empty, or takes the head of one that is not. -/
lemma blpop_cases (R : Redis δ) (qs : List PriorityQueue) :
    (R.blpop qs = (none, R) ∧ ∀ q ∈ qs, R.lists q = []) ∨
      ∃ q d ds, R.lists q = d :: ds ∧
        R.blpop qs = (some (q, d), { R with lists := Function.update R.lists q ds }) := by
  induction qs with
  | nil => exact Or.inl ⟨rfl, nofun⟩
  | cons q qs ih =>
    unfold blpop
    split
    · rename_i hnil
      refine ih.imp_left fun ⟨hpop, hempty⟩ => ⟨hpop, fun q' hq' => ?_⟩
      rcases List.mem_cons.mp hq' with rfl | hq'
      · exact hnil
      · exact hempty q' hq'
    · rename_i d ds hq
      exact Or.inr ⟨q, d, ds, hq, rfl⟩

end Redis

end SecurityScanner

import Mathlib.Algebra.Order.Floor.Ring
import Mathlib.Data.Rat.Floor
import Mathlib.Tactic.Linarith
import SecurityScanner.Lib.Url

/-!
# The rate limiter of the executor

`executor/rate_limiter/limiter.py`: token buckets in Redis or in the process, and the loop of
`acquire` over the global, the domain and the scan bucket. A `Moment` holds what the
environment contributes to one bucket operation: the clock, what other coroutines and the
expiry of Redis did to the buckets since the last operation, and whether Redis answers.
-/

namespace SecurityScanner.RateLimiter

open Url

/-- `RateLimitConfig`. -/
structure RateLimitConfig where
  globalLimit : ℚ := 1000
  domains : List (String × ℚ) := []

/-- An entry of `_LocalTokenBucket._buckets`. -/
structure Bucket where
  tokens : ℚ
  lastRefill : ℚ
  multiplier : ℚ
  deriving DecidableEq, Repr

/-- The fields of a bucket's hash in Redis; `report_429` alone sets only the multiplier. -/
structure BucketHash where
  tokens : Option ℚ := none
  lastRefill : Option ℚ := none
  adaptiveMultiplier : Option ℚ := none
  deriving DecidableEq, Repr

/-- What coroutines share: the flag of the `RateLimiter`, the buckets of the process and
those in Redis. -/
structure Backend where
  scriptingSupported : Option Bool := none
  buckets : String → Option Bucket := fun _ => none
  redis : String → BucketHash := fun _ => {}

/-- The back end together with the tokens that this call has taken, per key. -/
structure Limiter extends Backend where
  charges : List (String × Int) := []

/-- How an `EVALSHA` can fail. -/
inductive Fault where
  | unreached | lostReply
  deriving DecidableEq, Repr

structure Moment where
  others : Backend → Backend := id
  now : ℚ
  fault : Option Fault := none
  /-- The same for the operation in the process that follows a failed `EVALSHA`. -/
  others' : Backend → Backend := id
  now' : ℚ := now

/-- The arguments of one bucket operation. -/
structure BucketArgs where
  key : String
  cap : ℚ
  rate : ℚ
  req : Int
  deriving DecidableEq, Repr

namespace Bucket

def full (cap now : ℚ) : Bucket := ⟨cap, now, 1⟩

def refill (b : Bucket) (cap rate now : ℚ) : Bucket :=
  let effectiveRate := rate * b.multiplier
  let timePassed := max 0 (now - b.lastRefill)
  { b with tokens := min cap (b.tokens + timePassed * effectiveRate), lastRefill := now }

def take (b : Bucket) (requested : Int) : Bucket := { b with tokens := b.tokens - requested }

end Bucket

namespace Limiter

def suspend (s : Limiter) (others : Backend → Backend) : Limiter :=
  { s with toBackend := others s.toBackend }

def putLocal (s : Limiter) (key : String) (b : Bucket) : Limiter :=
  { s with buckets := Function.update s.buckets key (some b) }

def putRedis (s : Limiter) (key : String) (h : BucketHash) : Limiter :=
  { s with redis := Function.update s.redis key h }

def charge (s : Limiter) (a : BucketArgs) : Limiter :=
  { s with charges := s.charges ++ [(a.key, a.req)] }

@[simp] lemma suspend_charges (s : Limiter) (f : Backend → Backend) :
    (s.suspend f).charges = s.charges := rfl

@[simp] lemma putLocal_charges (s : Limiter) (key : String) (b : Bucket) :
    (s.putLocal key b).charges = s.charges := rfl

@[simp] lemma putRedis_charges (s : Limiter) (key : String) (h : BucketHash) :
    (s.putRedis key h).charges = s.charges := rfl

@[simp] lemma charge_charges (s : Limiter) (a : BucketArgs) :
    (s.charge a).charges = s.charges ++ [(a.key, a.req)] := rfl

end Limiter

/-- The bucket `_LocalTokenBucket.acquire` decides on. -/
def localBucket (s : Limiter) (a : BucketArgs) (now : ℚ) : Bucket :=
  ((s.buckets a.key).getD (.full a.cap now)).refill a.cap a.rate now

/-- `_LocalTokenBucket.acquire`. -/
def localAcquire (s : Limiter) (a : BucketArgs) (now : ℚ) : Bool × Limiter :=
  let b := localBucket s a now
  if a.req ≤ b.tokens then (true, (s.putLocal a.key (b.take a.req)).charge a)
  else (false, s.putLocal a.key b)

/-- The bucket that `TOKEN_BUCKET_SCRIPT` decides on. A hash with tokens and no time of a
refill makes the script fail. -/
def scriptBucket (h : BucketHash) (a : BucketArgs) (now : ℚ) : Option Bucket :=
  let multiplier := h.adaptiveMultiplier.getD 1
  match h.tokens, h.lastRefill with
  | none, _ => some (Bucket.refill ⟨a.cap, now, multiplier⟩ a.cap a.rate now)
  | some tokens, some last => some (Bucket.refill ⟨tokens, last, multiplier⟩ a.cap a.rate now)
  | some _, none => none

def Bucket.hash (b : Bucket) : BucketHash :=
  ⟨some b.tokens, some b.lastRefill, some b.multiplier⟩

/-- `math.ceil(capacity / effective_rate) * 2`, which is no integer for a rate of 0. -/
def scriptTtl (a : BucketArgs) (b : Bucket) : Option Int :=
  let effectiveRate := a.rate * b.multiplier
  if effectiveRate = 0 then none else some (⌈a.cap / effectiveRate⌉ * 2)

/-- `TOKEN_BUCKET_SCRIPT`: the reply, or `none` for an error. `EXPIRE` comes after the
write, and with a time that is not positive it removes the key. -/
def tokenBucketScript (s : Limiter) (a : BucketArgs) (now : ℚ) : Option Bool × Limiter :=
  match scriptBucket (s.redis a.key) a now with
  | none => (none, s)
  | some b =>
    if a.req ≤ b.tokens then
      let s := (s.putRedis a.key (b.take a.req).hash).charge a
      match scriptTtl a b with
      | none => (none, s)
      | some ttl => (some true, if ttl ≤ 0 then s.putRedis a.key {} else s)
    else (some false, s.putRedis a.key b.hash)

/-- The `EVALSHA` of `_acquire_one`; `none` is an exception. -/
def evalsha (s : Limiter) (a : BucketArgs) (m : Moment) : Option Bool × Limiter :=
  match m.fault with
  | none => tokenBucketScript s a m.now
  | some .unreached => (none, s)
  | some .lostReply => (none, (tokenBucketScript s a m.now).2)

/-- `_acquire_one`. -/
def acquireOne (s : Limiter) (a : BucketArgs) (m : Moment) : Bool × Limiter :=
  let s := s.suspend m.others
  if s.scriptingSupported = some true then
    match evalsha s a m with
    | (some res, s) => (res, s)
    | (none, s) =>
      localAcquire ({ s with scriptingSupported := some false } |>.suspend m.others') a m.now'
  else localAcquire s a m.now

/-- The `for` loop of a round, up to the first bucket that refuses. -/
def acquireAll (s : Limiter) (moments : String → Moment) : List BucketArgs → Bool × Limiter
  | [] => (true, s)
  | a :: as =>
    match acquireOne s a (moments a.key) with
    | (true, s) => acquireAll s moments as
    | (false, s) => (false, s)

/-- What surrounds one call of `acquire`: whether `SCRIPT LOAD` succeeds, the reading of
`start_time`, and of each round the reading of its `while` and the moments of its bucket
operations. -/
structure Surroundings where
  scriptLoaded : Bool
  start : ℚ
  clock : ℕ → ℚ
  moments : ℕ → String → Moment

/-- The `while` loop from round `n` on, for at most `fuel` rounds; `none` when it has not
returned by then. -/
def acquireLoop (w : Surroundings) (keysAndArgs : List BucketArgs) (timeout : Int) :
    ℕ → ℕ → Limiter → Option Bool × Limiter
  | 0, _, s => (none, s)
  | fuel + 1, n, s =>
    if w.clock n - w.start < timeout then
      match acquireAll s (w.moments n) keysAndArgs with
      | (true, s) => (some true, s)
      | (false, s) => acquireLoop w keysAndArgs timeout fuel (n + 1) s
    else (some false, s)

/-- `_ensure_backend`. -/
def ensureBackend (w : Surroundings) (s : Limiter) : Limiter :=
  match s.scriptingSupported with
  | some _ => s
  | none => { s with scriptingSupported := some w.scriptLoaded }

def globalArgs (config : RateLimitConfig) (tokens : Int) : BucketArgs :=
  ⟨"rl:global", config.globalLimit, config.globalLimit, tokens⟩

/-- The domain bucket, if the configuration has a rate for the domain other than 0. -/
def domainArgs (config : RateLimitConfig) (domain : String) (tokens : Int) : List BucketArgs :=
  match config.domains.lookup domain with
  | some rate => if rate = 0 then [] else [⟨"rl:domain:" ++ domain, rate, rate, tokens⟩]
  | none => []

def scanArgs (scanId : String) (tokens : Int) : BucketArgs :=
  ⟨"rl:scan:" ++ scanId, 100, 100, tokens⟩

/-- The buckets of a call after the global one. -/
def laterArgs (config : RateLimitConfig) (domain scanId : String) (tokens : Int) :
    List BucketArgs :=
  domainArgs config domain tokens ++ [scanArgs scanId tokens]

/-- `keys_and_args`. -/
def keysAndArgs (config : RateLimitConfig) (domain scanId : String) (tokens : Int) :
    List BucketArgs :=
  globalArgs config tokens :: laterArgs config domain scanId tokens

/-- `RateLimiter.acquire`. -/
def acquire (checkNetloc : String → Except ValueError Unit) (w : Surroundings)
    (config : RateLimitConfig) (url scanId : String) (tokens timeout : Int) (fuel : ℕ) (s : Limiter) :
    Except ValueError (Option Bool) × Limiter :=
  let s := ensureBackend w s
  match urlparseNetloc checkNetloc url with
  | .error e => (.error e, s)
  | .ok domain =>
    let (res, s) := acquireLoop w (keysAndArgs config domain scanId tokens) timeout fuel 0 s
    (.ok res, s)

end SecurityScanner.RateLimiter

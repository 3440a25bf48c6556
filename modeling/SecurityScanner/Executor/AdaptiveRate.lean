import Mathlib.Data.List.Induction
import SecurityScanner.Executor.RateCharges
import SecurityScanner.Executor.TokenBucket

/-!
# What a 429 slows down

`report_429` halves the multiplier of the key of the URL's domain. A call of `acquire` asks
the bucket of that key only if the configuration lists the domain.
-/

namespace SecurityScanner.RateLimiter

open Url

section operations

/-- `RateLimiter.report_429`. Between the `HMGET` and the `HSET` other coroutines run. -/
def report429 (checkNetloc : String → Except ValueError Unit) (s : Limiter) (url : String)
    (m : Moment) : Except ValueError Unit × Limiter :=
  match urlparseNetloc checkNetloc url with
  | .error e => (.error e, s)
  | .ok domain =>
    let key := "rl:domain:" ++ domain
    let inProcess (s : Limiter) (now : ℚ) : Limiter :=
      s.putLocal key (LocalTokenBucket.report429 (s.buckets key) now)
    let s := s.suspend m.others
    if s.scriptingSupported = some true then
      let multiplier := halved ((s.redis key).adaptiveMultiplier.getD 1)
      let s := s.suspend m.others'
      let set := s.putRedis key { s.redis key with adaptiveMultiplier := some multiplier }
      match m.fault with
      | none => (.ok (), set)
      | some .unreached => (.ok (), inProcess { s with scriptingSupported := some false } m.now')
      | some .lostReply => (.ok (), inProcess { set with scriptingSupported := some false } m.now')
    else (.ok (), inProcess s m.now)

/-- Where `acquire` could read the URL, `report_429` raises nothing. -/
lemma report429_returns {checkNetloc : String → Except ValueError Unit} {w : Surroundings}
    {config : RateLimitConfig} {url scanId : String} {tokens timeout : Int} {fuel : ℕ}
    {s : Limiter} {granted : Option Bool}
    (h : (acquire checkNetloc w config url scanId tokens timeout fuel s).1 = .ok granted)
    (s' : Limiter) (m : Moment) : (report429 checkNetloc s' url m).1 = .ok () := by
  unfold acquire at h
  unfold report429
  cases hurl : urlparseNetloc checkNetloc url with
  | error e =>
    rw [hurl] at h
    cases h
  | ok domain =>
    dsimp only
    split
    · split <;> rfl
    · rfl

/-- An operation of the limiter in the process: a bucket that a call of `acquire` asks, or
a call of `report_429`. -/
inductive ProcessOp where
  | acquire (a : BucketArgs) (now : ℚ)
  | report429 (url : String) (now : ℚ)

variable (checkNetloc : String → Except ValueError Unit)

def processStep (s : Limiter) : ProcessOp → Limiter
  | .acquire a now => (localAcquire s a now).2
  | .report429 url now => (report429 checkNetloc s url { now }).2

/-- The reports about the domain. -/
def reports (domain : String) (ops : List ProcessOp) : ℕ :=
  ops.countP fun
    | .report429 url _ => decide (urlparseNetloc checkNetloc url = .ok domain)
    | .acquire _ _ => false

/-- The buckets that a call of `acquire` asks. -/
def consulted (config : RateLimitConfig) (url scanId : String) (tokens : Int) : List BucketArgs :=
  match urlparseNetloc checkNetloc url with
  | .ok domain => keysAndArgs config domain scanId tokens
  | .error _ => []

/-- The multiplier that an operation on the bucket finds. -/
def multiplierOf (s : Limiter) (key : String) : ℚ := ((s.buckets key).map Bucket.multiplier).getD 1

/-- The refill rate of a bucket that is asked with the arguments `a`. -/
def effectiveRate (s : Limiter) (a : BucketArgs) : ℚ := a.rate * multiplierOf s a.key

/-- A limiter that works in the process and has seen no 429. -/
structure Unslowed (s : Limiter) : Prop where
  inProcess : s.scriptingSupported ≠ some true
  multipliers : ∀ key, multiplierOf s key = 1

end operations

section multiplier

/-- The multiplier after `k` reports. -/
def slowed (k : ℕ) : ℚ := max (1 / 10) ((1 / 2) ^ k)

@[simp] lemma slowed_zero : slowed 0 = 1 := by norm_num [slowed]

lemma halved_max (x : ℚ) : halved (max (1 / 10) x) = max (1 / 10) (x * (1 / 2)) := by
  unfold halved
  rw [max_mul_of_nonneg _ _ (by norm_num : (0 : ℚ) ≤ 1 / 2), ← max_assoc]
  norm_num

lemma halved_slowed (k : ℕ) : halved (slowed k) = slowed (k + 1) := by
  unfold slowed
  rw [halved_max, pow_succ]

lemma slowed_lt_one {k : ℕ} (hk : 0 < k) : slowed k < 1 :=
  max_lt (by norm_num) (pow_lt_one₀ (by norm_num) (by norm_num) hk.ne')

/-- Slowing down shows at every rate but zero. -/
lemma eq_slowed_mul_iff {k : ℕ} (hk : 0 < k) (rate : ℚ) : rate = slowed k * rate ↔ rate = 0 := by
  constructor
  · intro h
    have hzero : (1 - slowed k) * rate = 0 := by linarith
    have hlt := slowed_lt_one hk
    rcases mul_eq_zero.mp hzero with h1 | h1
    · linarith
    · exact h1
  · rintro rfl
    exact (mul_zero _).symm

end multiplier

section history

variable {checkNetloc : String → Except ValueError Unit} {s : Limiter}

lemma localAcquire_buckets (a : BucketArgs) (now : ℚ) :
    (localAcquire s a now).2.buckets = Function.update s.buckets a.key
        (some (LocalTokenBucket.acquire (s.buckets a.key) a.cap a.rate a.req now).2) ∧
      (localAcquire s a now).2.scriptingSupported = s.scriptingSupported := by
  rw [localAcquire_eq]
  dsimp only
  split <;> exact ⟨rfl, rfl⟩

/-- A bucket operation leaves all multipliers alone. -/
lemma multiplierOf_localAcquire (a : BucketArgs) (now : ℚ) (key : String) :
    multiplierOf (localAcquire s a now).2 key = multiplierOf s key := by
  unfold multiplierOf
  rw [(localAcquire_buckets a now).1]
  by_cases hk : key = a.key
  · subst hk
    rw [Function.update_self, Option.map_some, Option.getD_some, LocalTokenBucket.acquire,
      (Bucket.spend_spec _ _).2.2.2.2]
    cases s.buckets a.key <;> rfl
  · rw [Function.update_of_ne hk]

lemma report429_inProcess {url domain : String} (now : ℚ) (hs : s.scriptingSupported ≠ some true)
    (hd : urlparseNetloc checkNetloc url = .ok domain) :
    (report429 checkNetloc s url { now }).2 =
      s.putLocal ("rl:domain:" ++ domain)
        (LocalTokenBucket.report429 (s.buckets ("rl:domain:" ++ domain)) now) := by
  have hs' : (s.suspend id).scriptingSupported ≠ some true := hs
  unfold report429
  rw [hd]
  dsimp only
  rw [if_neg hs']
  rfl

/-- A report halves the multiplier of the domain's key and no other. -/
lemma multiplierOf_report429 {url domain : String} (now : ℚ)
    (hs : s.scriptingSupported ≠ some true) (hd : urlparseNetloc checkNetloc url = .ok domain)
    (key : String) :
    multiplierOf (report429 checkNetloc s url { now }).2 key =
      if key = "rl:domain:" ++ domain then halved (multiplierOf s key) else multiplierOf s key := by
  rw [report429_inProcess now hs hd]
  unfold multiplierOf Limiter.putLocal
  dsimp only
  by_cases hk : key = "rl:domain:" ++ domain
  · subst hk
    rw [Function.update_self, if_pos rfl]
    cases s.buckets ("rl:domain:" ++ domain) <;> rfl
  · rw [Function.update_of_ne hk, if_neg hk]

variable (checkNetloc) in
/-- The reports that write the key. -/
def reportsOn (key : String) (ops : List ProcessOp) : ℕ :=
  ops.countP fun
    | .report429 url _ =>
      match urlparseNetloc checkNetloc url with
      | .ok domain => decide (key = "rl:domain:" ++ domain)
      | .error _ => false
    | .acquire _ _ => false

lemma reportsOn_domain (domain : String) (ops : List ProcessOp) :
    reportsOn checkNetloc ("rl:domain:" ++ domain) ops = reports checkNetloc domain ops := by
  refine List.countP_congr fun op _ => ?_
  cases op with
  | acquire a now => rfl
  | report429 url now =>
    dsimp only
    cases h : urlparseNetloc checkNetloc url with
    | error e => simp
    | ok d => simp [eq_comm]

lemma reportsOn_eq_zero {key : String} (hk : ∀ domain, key ≠ "rl:domain:" ++ domain)
    (ops : List ProcessOp) : reportsOn checkNetloc key ops = 0 := by
  refine List.countP_eq_zero.mpr fun op _ => ?_
  cases op with
  | acquire a now => simp
  | report429 url now =>
    dsimp only
    cases urlparseNetloc checkNetloc url with
    | error e => simp
    | ok d => simp [hk d]

/-- One operation and the multiplier of a key. -/
lemma multiplierOf_processStep (hs : s.scriptingSupported ≠ some true) (op : ProcessOp)
    (key : String) :
    (processStep checkNetloc s op).scriptingSupported = s.scriptingSupported ∧
      multiplierOf (processStep checkNetloc s op) key =
        if reportsOn checkNetloc key [op] = 0 then multiplierOf s key
        else halved (multiplierOf s key) := by
  cases op with
  | acquire a now =>
    exact ⟨(localAcquire_buckets a now).2, multiplierOf_localAcquire a now key⟩
  | report429 url now =>
    cases hd : urlparseNetloc checkNetloc url with
    | error e =>
      have hsame : (report429 checkNetloc s url { now }).2 = s := by
        unfold report429
        rw [hd]
      simp [processStep, hsame, reportsOn, hd]
    | ok domain =>
      refine ⟨by rw [processStep, report429_inProcess now hs hd]; rfl, ?_⟩
      rw [processStep, multiplierOf_report429 now hs hd]
      by_cases hk : key = "rl:domain:" ++ domain
      · simp [reportsOn, hd, hk]
      · simp [reportsOn, hd, hk]

/-- After a history each key has the multiplier of the reports that wrote it. -/
lemma multiplierOf_history (hs : Unslowed s) (ops : List ProcessOp) (key : String) :
    (ops.foldl (processStep checkNetloc) s).scriptingSupported ≠ some true ∧
      multiplierOf (ops.foldl (processStep checkNetloc) s) key =
        slowed (reportsOn checkNetloc key ops) := by
  induction ops using List.reverseRecOn with
  | nil => exact ⟨hs.inProcess, (hs.multipliers key).trans slowed_zero.symm⟩
  | append_singleton ops op ih =>
    obtain ⟨hsup, hmult⟩ := ih
    obtain ⟨hstep, hnext⟩ := @multiplierOf_processStep checkNetloc _ hsup op key
    rw [List.foldl_append, List.foldl_cons, List.foldl_nil]
    refine ⟨hstep ▸ hsup, ?_⟩
    have hsum : reportsOn checkNetloc key (ops ++ [op]) =
        reportsOn checkNetloc key ops + reportsOn checkNetloc key [op] := List.countP_append
    have hone : reportsOn checkNetloc key [op] ≤ 1 := List.countP_le_length
    rw [hnext, hmult, hsum]
    by_cases h0 : reportsOn checkNetloc key [op] = 0
    · rw [if_pos h0, h0, Nat.add_zero]
    · have h1 : reportsOn checkNetloc key [op] = 1 := by omega
      rw [if_neg h0, h1, halved_slowed]

/-- A history leaves the buckets alone that are not of a domain. -/
lemma effectiveRate_other (hs : Unslowed s) (ops : List ProcessOp) {a : BucketArgs}
    (ha : ∀ domain, a.key ≠ "rl:domain:" ++ domain) :
    effectiveRate (ops.foldl (processStep checkNetloc) s) a = a.rate := by
  rw [effectiveRate, (multiplierOf_history hs ops a.key).2, reportsOn_eq_zero ha, slowed_zero,
    mul_one]

lemma effectiveRate_domain (hs : Unslowed s) (ops : List ProcessOp) {a : BucketArgs}
    {domain : String} (ha : a.key = "rl:domain:" ++ domain) :
    effectiveRate (ops.foldl (processStep checkNetloc) s) a =
      slowed (reports checkNetloc domain ops) * a.rate := by
  rw [effectiveRate, (multiplierOf_history hs ops a.key).2, ha, reportsOn_domain, mul_comm]

end history

/-- After `k` reports about the domain of a URL, some bucket that a call of `acquire` for
the URL asks refills at the slowed rate exactly if the configuration has a rate for the
domain (or no global rate to slow down). -/
theorem report_slows_domain_iff {checkNetloc : String → Except ValueError Unit} {s : Limiter}
    (hs : Unslowed s) {url domain : String} (hd : urlparseNetloc checkNetloc url = .ok domain)
    (ops : List ProcessOp) (hk : 0 < reports checkNetloc domain ops) (config : RateLimitConfig)
    (scanId : String) (tokens : Int) :
    (∃ a ∈ consulted checkNetloc config url scanId tokens,
      effectiveRate (ops.foldl (processStep checkNetloc) s) a =
        max (1 / 10) ((1 / 2) ^ reports checkNetloc domain ops) * a.rate) ↔
    config.globalLimit = 0 ∨ ∃ rate, config.domains.lookup domain = some rate ∧ rate ≠ 0 := by
  rw [consulted, hd]
  change (∃ a ∈ keysAndArgs config domain scanId tokens,
    effectiveRate (ops.foldl (processStep checkNetloc) s) a =
      slowed (reports checkNetloc domain ops) * a.rate) ↔ _
  constructor
  · rintro ⟨a, ha, heff⟩
    simp only [keysAndArgs, laterArgs, List.mem_cons, List.mem_append, List.not_mem_nil,
      or_false] at ha
    rcases ha with rfl | ha | rfl
    · rw [effectiveRate_other hs ops (global_ne_domain ·)] at heff
      exact Or.inl ((eq_slowed_mul_iff hk _).mp heff)
    · right
      unfold domainArgs at ha
      split at ha
      · rename_i rate hrate
        refine ⟨rate, hrate, fun h0 => ?_⟩
        rw [if_pos h0] at ha
        cases ha
      · cases ha
    · rw [effectiveRate_other hs ops (scan_ne_domain · scanId)] at heff
      exact absurd ((eq_slowed_mul_iff hk _).mp heff) (by norm_num [scanArgs])
  · rintro (h0 | ⟨rate, hrate, hne⟩)
    · refine ⟨globalArgs config tokens, List.mem_cons_self, ?_⟩
      rw [effectiveRate_other hs ops (global_ne_domain ·)]
      exact (eq_slowed_mul_iff hk _).mpr h0
    · refine ⟨⟨"rl:domain:" ++ domain, rate, rate, tokens⟩, ?_, effectiveRate_domain hs ops rfl⟩
      simp [keysAndArgs, laterArgs, domainArgs, hrate, hne]

section examples

/-- A limiter at its start, and two reports about one domain. -/
def fresh : Limiter := { scriptingSupported := some false }

def twoReports : List ProcessOp :=
  [.report429 "https://target.example/users" 0, .report429 "https://target.example/admin" 1]

lemma unslowed_fresh : Unslowed fresh := ⟨by decide, fun _ => rfl⟩

theorem report_slows_domain_iff_listed :
    ∃ a ∈ consulted (fun _ => .ok ()) { domains := [("target.example", 10)] }
        "https://target.example/users" "1" 1,
      effectiveRate (twoReports.foldl (processStep fun _ => .ok ()) fresh) a =
        max (1 / 10) ((1 / 2) ^ reports (fun _ => .ok ()) "target.example" twoReports) * a.rate :=
  (report_slows_domain_iff unslowed_fresh (by decide +kernel) twoReports (by decide +kernel)
    { domains := [("target.example", 10)] } "1" 1).mpr (Or.inr ⟨10, rfl, by norm_num⟩)

/-- Without a rate for the domain no bucket is slowed down. -/
theorem report_slows_nothing :
    ¬∃ a ∈ consulted (fun _ => .ok ()) {} "https://target.example/users" "1" 1,
      effectiveRate ((processStep fun _ => .ok ()) fresh
        (.report429 "https://target.example/users" 0)) a = max (1 / 10) ((1 / 2) ^ 1) * a.rate := by
  decide +kernel

end examples

end SecurityScanner.RateLimiter

import SecurityScanner.Executor.TokenBucket

/-!
# The bucket in Redis and the bucket in the process

The two back ends side by side on the key of a domain, whose capacity is its rate. A key of
Redis expires, and then Redis forgets its multiplier; a 429 on a key that is missing sets
the multiplier and no tokens. Where neither happens the back ends answer alike.
-/

namespace SecurityScanner.RateLimiter

section operations

/-- A key of Redis. A key that is missing has no fields. -/
structure RedisKey where
  hash : BucketHash := {}
  expiresAt : Option ℚ := none

def RedisKey.Expired (k : RedisKey) (now : ℚ) : Prop := k.expiresAt.any (· ≤ now)

instance (k : RedisKey) (now : ℚ) : Decidable (k.Expired now) :=
  inferInstanceAs (Decidable (_ = true))

/-- What a command finds: an expired key reads as missing. -/
def RedisKey.atTime (k : RedisKey) (now : ℚ) : RedisKey := if k.Expired now then {} else k

/-- `TOKEN_BUCKET_SCRIPT` with its `EXPIRE`; the reply is `none` when the script fails. -/
def RedisKey.acquire (k : RedisKey) (capacity refillRate requested now : ℚ) :
    Option Bool × RedisKey :=
  let k := k.atTime now
  let args : BucketArgs := ⟨"", capacity, refillRate, 0⟩
  match scriptBucket k.hash args now with
  | none => (none, k)
  | some b =>
    match b.spend requested with
    | (true, b') =>
      match scriptTtl args b with
      | none => (none, { k with hash := b'.hash })
      | some ttl => (some true, ⟨b'.hash, some (now + ttl)⟩)
    | (false, b') => (some false, { k with hash := b'.hash })

/-- The `HMGET` and `HSET` of `report_429`, with the multiplier that is set. -/
def RedisKey.report429 (k : RedisKey) (now : ℚ) : ℚ × RedisKey :=
  let k := k.atTime now
  let multiplier := halved (k.hash.adaptiveMultiplier.getD 1)
  (multiplier, { k with hash := { k.hash with adaptiveMultiplier := some multiplier } })

/-- What an operation shows: its answer, or the multiplier it leaves. -/
inductive Shown where
  | answer (granted : Option Bool)
  | multiplier (m : ℚ)
  deriving DecidableEq

/-- An operation on the key of a domain with the rate `rate`. -/
def redisStep (rate : ℚ) (k : RedisKey) : BucketOp → Shown × RedisKey
  | .acquire requested now =>
    let r := k.acquire rate rate requested now
    (.answer r.1, r.2)
  | .report429 now =>
    let r := k.report429 now
    (.multiplier r.1, r.2)

def localStep (rate : ℚ) (b : Option Bucket) : BucketOp → Shown × Bucket
  | .acquire requested now =>
    let r := LocalTokenBucket.acquire b rate rate requested now
    (.answer (some r.1), r.2)
  | .report429 now =>
    let b := LocalTokenBucket.report429 b now
    (.multiplier b.multiplier, b)

/-- What a sequence of operations shows in Redis. -/
def redisRun (rate : ℚ) : RedisKey → List BucketOp → List Shown
  | _, [] => []
  | k, op :: ops => (redisStep rate k op).1 :: redisRun rate (redisStep rate k op).2 ops

/-- What it shows in the process. -/
def localRun (rate : ℚ) : Option Bucket → List BucketOp → List Shown
  | _, [] => []
  | b, op :: ops => (localStep rate b op).1 :: localRun rate (localStep rate b op).2 ops

end operations

section condition

/-- The key does not expire below the full rate, and a 429 finds its tokens. -/
def Remembers (k : RedisKey) (op : BucketOp) : Prop :=
  (k.Expired op.now → k.hash.adaptiveMultiplier = some 1) ∧
    (op.isReport → (k.atTime op.now).hash.tokens.isSome)

instance (k : RedisKey) (op : BucketOp) : Decidable (Remembers k op) :=
  inferInstanceAs (Decidable (_ ∧ _))

/-- Every step of the run in Redis remembers. -/
def RemembersAll (rate : ℚ) : RedisKey → List BucketOp → Prop
  | _, [] => True
  | k, op :: ops => Remembers k op ∧ RemembersAll rate (redisStep rate k op).2 ops

instance decidableRemembersAll (rate : ℚ) :
    (k : RedisKey) → (ops : List BucketOp) → Decidable (RemembersAll rate k ops)
  | _, [] => .isTrue trivial
  | k, op :: ops =>
    have := decidableRemembersAll rate (redisStep rate k op).2 ops
    inferInstanceAs (Decidable (_ ∧ _))

end condition

section simulation

variable {rate : ℚ}

/-- The bucket is sound, its last refill is no later than `t`, and a key that has kept the
full rate until it expires has a full bucket by then. -/
structure Live (rate t : ℚ) (k : RedisKey) (b : Bucket) : Prop where
  hash : k.hash = b.hash
  tokens : 0 ≤ b.tokens
  slowest : 1 / 10 ≤ b.multiplier
  fastest : b.multiplier ≤ 1
  refill : b.lastRefill ≤ t
  expiry : ∀ e, k.expiresAt = some e → b.multiplier = 1 →
    rate ≤ b.tokens + (e - b.lastRefill) * rate

/-- The key in Redis and the entry in the process after operations up to the time `t`. -/
def Alike (rate t : ℚ) (k : RedisKey) : Option Bucket → Prop
  | none => k = {}
  | some b => Live rate t k b

lemma RedisKey.expired_iff {k : RedisKey} {now : ℚ} :
    k.Expired now ↔ ∃ e, k.expiresAt = some e ∧ e ≤ now := by
  unfold RedisKey.Expired
  cases k.expiresAt <;> simp

/-- Two back ends that decide on the same refilled bucket stay alike. -/
lemma alike_spend (hrate : 0 < rate) {k : RedisKey} {b : Option Bucket} {r : Bucket}
    {requested now : ℚ} (hredis : scriptBucket (k.atTime now).hash ⟨"", rate, rate, 0⟩ now = some r)
    (hlocal : (b.getD (.full rate now)).refill rate rate now = r) (htokens : 0 ≤ r.tokens)
    (hslow : 1 / 10 ≤ r.multiplier) (hfast : r.multiplier ≤ 1) (hlast : r.lastRefill = now)
    (hexpiry : ∀ e, (k.atTime now).expiresAt = some e → r.multiplier = 1 →
      rate ≤ r.tokens + (e - now) * rate) :
    (redisStep rate k (.acquire requested now)).1 = (localStep rate b (.acquire requested now)).1 ∧
      Live rate now (redisStep rate k (.acquire requested now)).2
        (localStep rate b (.acquire requested now)).2 := by
  have hne : rate * r.multiplier ≠ 0 :=
    mul_ne_zero hrate.ne' (lt_of_lt_of_le (by norm_num) hslow).ne'
  simp only [redisStep, localStep, RedisKey.acquire, hredis, LocalTokenBucket.acquire, hlocal,
    Bucket.spend]
  by_cases h : requested ≤ r.tokens
  · simp only [h, ↓reduceIte, scriptTtl, hne]
    refine ⟨trivial, rfl, sub_nonneg.mpr h, hslow, hfast, hlast.le, ?_⟩
    intro e he hone
    have hone' : r.multiplier = 1 := hone
    obtain rfl := Option.some.inj he
    have hceil : ⌈rate / (rate * r.multiplier)⌉ = 1 := by
      rw [hone', mul_one, div_self hrate.ne', Int.ceil_one]
    simp only [hceil, hlast, add_sub_cancel_left]
    push_cast
    linarith
  · simp only [h, ↓reduceIte]
    refine ⟨trivial, rfl, htokens, hslow, hfast, hlast.le, fun e he hone => ?_⟩
    rw [hlast]
    exact hexpiry e he hone

/-- When a key expires that has kept the full rate, the bucket in the process is full too. -/
lemma Live.refill_of_expired (hrate : 0 < rate) {t now : ℚ} {k : RedisKey} {b : Bucket}
    (h : Live rate t k b) (ht : t ≤ now) (hexp : k.Expired now) (hone : b.multiplier = 1) :
    b.refill rate rate now = .full rate now := by
  obtain ⟨e, he, hle⟩ := RedisKey.expired_iff.mp hexp
  have hnow : 0 ≤ now - b.lastRefill := sub_nonneg.mpr (h.refill.trans ht)
  have hfull := h.expiry e he hone
  have hover : (e - b.lastRefill) * rate ≤ (now - b.lastRefill) * rate :=
    mul_le_mul_of_nonneg_right (sub_le_sub_right hle _) hrate.le
  have hmin : min rate (b.tokens + (now - b.lastRefill) * rate) = rate :=
    min_eq_left (by linarith)
  simp only [Bucket.refill, max_eq_right hnow, hone, mul_one, hmin]
  rfl

lemma Live.acquire (hrate : 0 < rate) {t requested now : ℚ} {k : RedisKey} {b : Bucket}
    (h : Live rate t k b) (ht : t ≤ now) (hok : Remembers k (.acquire requested now)) :
    (redisStep rate k (.acquire requested now)).1 =
        (localStep rate (some b) (.acquire requested now)).1 ∧
      Live rate now (redisStep rate k (.acquire requested now)).2
        (localStep rate (some b) (.acquire requested now)).2 := by
  have hnow : 0 ≤ now - b.lastRefill := sub_nonneg.mpr (h.refill.trans ht)
  have hm : 0 ≤ b.multiplier := le_trans (by norm_num) h.slowest
  have htokens : (b.refill rate rate now).tokens =
      min rate (b.tokens + (now - b.lastRefill) * (rate * b.multiplier)) := by
    simp only [Bucket.refill, max_eq_right hnow]
  by_cases hexp : k.Expired now
  · -- The key expired at the full rate, and by then the bucket in the process was full too.
    have hk : k.atTime now = {} := if_pos hexp
    have hone : b.multiplier = 1 := by
      have hmult := hok.1 hexp
      rw [h.hash] at hmult
      exact Option.some.inj hmult
    have hsame := h.refill_of_expired hrate ht hexp hone
    refine alike_spend hrate (r := .full rate now) ?_ hsame hrate.le (by norm_num [Bucket.full])
      le_rfl rfl ?_
    · rw [hk]
      simp [scriptBucket, Bucket.refill, Bucket.full]
    · intro e' he'
      rw [hk] at he'
      cases he'
  · have hk : k.atTime now = k := if_neg hexp
    refine alike_spend hrate (r := b.refill rate rate now) ?_ rfl ?_ h.slowest h.fastest rfl ?_
    · rw [hk, h.hash]
      rfl
    · rw [htokens]
      exact le_min hrate.le (add_nonneg h.tokens (mul_nonneg hnow (mul_nonneg hrate.le hm)))
    · intro e he hone
      rw [hk] at he
      have hone' : b.multiplier = 1 := hone
      have hfull := h.expiry e he hone'
      have hlive : now < e := not_le.mp fun hle => hexp (RedisKey.expired_iff.mpr ⟨e, he, hle⟩)
      have hleft : 0 ≤ (e - now) * rate := mul_nonneg (sub_nonneg.mpr hlive.le) hrate.le
      rw [htokens, hone', mul_one]
      rcases min_choice rate (b.tokens + (now - b.lastRefill) * rate) with hmin | hmin
      · rw [hmin]
        linarith
      · rw [hmin]
        linarith

/-- One operation on back ends that are alike. -/
lemma Alike.step (hrate : 0 < rate) {t : ℚ} {k : RedisKey} {b : Option Bucket} {op : BucketOp}
    (h : Alike rate t k b) (ht : t ≤ op.now) (hok : Remembers k op) :
    (redisStep rate k op).1 = (localStep rate b op).1 ∧
      Alike rate op.now (redisStep rate k op).2 (some (localStep rate b op).2) := by
  cases b with
  | none =>
    obtain rfl : k = {} := h
    cases op with
    | acquire requested now =>
      refine alike_spend hrate (r := .full rate now) ?_ ?_ hrate.le (by norm_num [Bucket.full])
        le_rfl rfl (fun e he => by cases he)
      · simp [RedisKey.atTime, scriptBucket, Bucket.refill, Bucket.full]
      · simp [Bucket.refill, Bucket.full]
    | report429 now => exact absurd (hok.2 rfl) (by simp [RedisKey.atTime])
  | some b =>
    have hlive : Live rate t k b := h
    cases op with
    | acquire requested now => exact hlive.acquire hrate ht hok
    | report429 now =>
      have hfound : (k.atTime now).hash.tokens.isSome := hok.2 rfl
      by_cases hexp : k.Expired now
      · have hk : k.atTime now = {} := if_pos hexp
        rw [hk] at hfound
        exact absurd hfound (by simp)
      · have hk : k.atTime now = k := if_neg hexp
        obtain ⟨hge, hle⟩ := halved_bounds hlive.fastest
        have hhalf : halved b.multiplier ≠ 1 := by
          have hlt : halved b.multiplier < 1 :=
            max_lt (by norm_num) (by linarith [hlive.fastest])
          exact hlt.ne
        simp only [redisStep, localStep, RedisKey.report429, LocalTokenBucket.report429, hk,
          hlive.hash, Bucket.hash, Option.getD_some]
        exact ⟨trivial, rfl, hlive.tokens, hge, hle, hlive.refill.trans ht,
          fun e he hone => absurd hone hhalf⟩

/-- A run on back ends that are alike. -/
lemma Alike.run (hrate : 0 < rate) {t : ℚ} {k : RedisKey} {b : Option Bucket} {ops : List BucketOp}
    (h : Alike rate t k b) (ht : ∀ op ∈ ops, t ≤ op.now)
    (hclock : ops.Pairwise (fun op op' => op.now ≤ op'.now)) (hok : RemembersAll rate k ops) :
    redisRun rate k ops = localRun rate b ops := by
  induction ops generalizing t k b with
  | nil => rfl
  | cons op ops ih =>
    obtain ⟨hshown, hnext⟩ := h.step hrate (ht op List.mem_cons_self) hok.1
    have hrest := List.pairwise_cons.mp hclock
    rw [redisRun, localRun, hshown, ih hnext hrest.1 hrest.2 hok.2]

end simulation

/-- The back ends of a domain's key answer alike, and hold the same multiplier after each
429, in every run in which the key does not expire below the full rate and a 429 finds a
bucket. -/
theorem fallback_refines {rate : ℚ} (hrate : 0 < rate) (ops : List BucketOp)
    (hclock : ops.Pairwise (fun op op' => op.now ≤ op'.now)) (hok : RemembersAll rate {} ops) :
    redisRun rate {} ops = localRun rate none ops := by
  cases ops with
  | nil => rfl
  | cons op ops =>
    have hstart : Alike rate op.now {} none := rfl
    refine hstart.run hrate (fun o ho => ?_) hclock hok
    rcases List.mem_cons.mp ho with rfl | ho
    · exact le_rfl
    · exact (List.pairwise_cons.mp hclock).1 o ho

/-- A 429 within the lifetime of the key. -/
theorem fallback_refines_slowed :
    redisRun 2 {} [.acquire 1 0, .report429 1, .acquire 2 (3 / 2)] =
      localRun 2 none [.acquire 1 0, .report429 1, .acquire 2 (3 / 2)] :=
  fallback_refines (by norm_num) _ (by decide +kernel) (by decide +kernel)

/-- After a 429 on a missing key only Redis grants a token at once, and only in Redis the
multiplier of an expired key starts over. -/
theorem fallback_differs :
    redisRun 1 {} [.report429 0, .acquire 1 0] ≠ localRun 1 none [.report429 0, .acquire 1 0] ∧
      redisRun 1 {} [.acquire 1 0, .report429 1, .report429 9] ≠
        localRun 1 none [.acquire 1 0, .report429 1, .report429 9] := by
  decide +kernel

end SecurityScanner.RateLimiter

import Mathlib.Tactic.Positivity
import SecurityScanner.Executor.RateCharges
import SecurityScanner.Executor.TokenBucket

/-!
# Limits below one request a second

`RateLimiter.acquire` hands each bucket its rate as capacity too. A bucket with a rate below
the tokens of a call never holds as many, and the call waits for its timeout.
-/

namespace SecurityScanner.RateLimiter

open Url

/-- The entries that calls leave behind for a key, with any clocks and requests, and with the
capacities and rates of any configuration. -/
inductive Left : Option Bucket → Prop where
  | missing : Left none
  | acquire {b : Option Bucket} {capacity refillRate : ℚ} (hb : Left b) (hcap : 0 ≤ capacity)
      (hrate : 0 ≤ refillRate) (requested now : ℚ) :
      Left (some (LocalTokenBucket.acquire b capacity refillRate requested now).2)
  | report429 {b : Option Bucket} (hb : Left b) (now : ℚ) :
      Left (some (LocalTokenBucket.report429 b now))

/-- The tokens are not negative, and the multiplier is between 0.1 and 1. -/
structure Bucket.InRange (b : Bucket) : Prop where
  tokens_nonneg : 0 ≤ b.tokens
  multiplier_ge : 1 / 10 ≤ b.multiplier
  multiplier_le : b.multiplier ≤ 1

section bucket

variable {b : Bucket} {capacity refillRate now : ℚ}

lemma Bucket.InRange.refill (hb : b.InRange) (hcap : 0 ≤ capacity) (hrate : 0 ≤ refillRate) :
    (b.refill capacity refillRate now).InRange := by
  refine ⟨?_, hb.multiplier_ge, hb.multiplier_le⟩
  have hm : 0 ≤ b.multiplier := le_trans (by norm_num) hb.multiplier_ge
  have hcredit : 0 ≤ max 0 (now - b.lastRefill) * (refillRate * b.multiplier) :=
    mul_nonneg (le_max_left _ _) (mul_nonneg hrate hm)
  exact le_min hcap (add_nonneg hb.tokens_nonneg hcredit)

lemma Bucket.InRange.spend (hb : b.InRange) (requested : ℚ) : (b.spend requested).2.InRange := by
  obtain ⟨-, hpos, -, -, hmult⟩ := b.spend_spec requested
  exact ⟨hpos hb.tokens_nonneg, hmult ▸ hb.multiplier_ge, hmult ▸ hb.multiplier_le⟩

/-- Whatever the calls, their entries are in range. -/
lemma Left.inRange {b : Option Bucket} (h : Left b) : ∀ e, b = some e → e.InRange := by
  induction h with
  | missing => exact fun e he => by cases he
  | @acquire b capacity refillRate hb hcap hrate requested now ih =>
    rintro e he
    have hfound : (b.getD (.full capacity now)).InRange := by
      cases b with
      | none => exact ⟨hcap, by norm_num [Bucket.full], le_refl 1⟩
      | some e => exact ih e rfl
    exact Option.some.inj he ▸ (hfound.refill hcap hrate).spend requested
  | @report429 b hb now ih =>
    rintro e he
    have hfound : (b.getD ⟨0, now, 1⟩).InRange := by
      cases b with
      | none => exact ⟨le_refl 0, by norm_num, le_refl 1⟩
      | some e => exact ih e rfl
    obtain ⟨hge, hle⟩ := halved_bounds hfound.multiplier_le
    exact Option.some.inj he ▸ ⟨hfound.tokens_nonneg, hge, hle⟩

/-- Time for one token brings the bucket to a token, or to its capacity. -/
lemma Bucket.one_le_refill_iff (hb : b.InRange) (hrate : 0 < refillRate)
    (hnow : b.lastRefill + 1 / (refillRate * b.multiplier) ≤ now) :
    1 ≤ (b.refill capacity refillRate now).tokens ↔ 1 ≤ capacity := by
  have hm : 0 < b.multiplier := lt_of_lt_of_le (by norm_num) hb.multiplier_ge
  have heffective : 0 < refillRate * b.multiplier := mul_pos hrate hm
  have htime : 1 / (refillRate * b.multiplier) ≤ max 0 (now - b.lastRefill) :=
    le_max_of_le_right (by linarith)
  have hcredit : 1 ≤ max 0 (now - b.lastRefill) * (refillRate * b.multiplier) :=
    (div_le_iff₀ heffective).mp htime
  have htokens : 1 ≤ b.tokens + max 0 (now - b.lastRefill) * (refillRate * b.multiplier) :=
    hcredit.trans (le_add_of_nonneg_left hb.tokens_nonneg)
  rw [Bucket.refill, le_min_iff]
  exact ⟨And.left, fun h => ⟨h, htokens⟩⟩

end bucket

section limits

variable {config : RateLimitConfig} {domain scanId : String} {tokens : Int} {a : BucketArgs}

/-- A call asks its buckets for its tokens, with the rate as capacity. -/
lemma mem_keysAndArgs (ha : a ∈ keysAndArgs config domain scanId tokens) :
    a.cap = a.rate ∧ a.req = tokens := by
  unfold keysAndArgs laterArgs domainArgs at ha
  split at ha
  · split at ha
    all_goals
      simp only [List.nil_append, List.cons_append, List.mem_cons, List.not_mem_nil, or_false] at ha
      rcases ha with rfl | rfl | rfl <;> exact ⟨rfl, rfl⟩
  · simp only [List.nil_append, List.mem_cons, List.not_mem_nil, or_false] at ha
    rcases ha with rfl | rfl <;> exact ⟨rfl, rfl⟩

/-- Given the time that one token takes, a bucket grants it exactly if its rate is at least one
token a second. -/
theorem positive_limit_grants_iff (ha : a ∈ keysAndArgs config domain scanId 1) (hrate : 0 < a.rate) :
    (∀ e, Left (some e) → e.InRange) ∧
    ∀ s e now, s.buckets a.key = some e → e.InRange →
      e.lastRefill + 1 / (a.rate * e.multiplier) ≤ now →
      ((localAcquire s a now).1 = true ↔ 1 ≤ a.rate) := by
  refine ⟨fun e he => he.inRange e rfl, fun s e now hs he hnow => ?_⟩
  obtain ⟨hcap, hreq⟩ := mem_keysAndArgs ha
  have hfound : localBucket s a now = e.refill a.cap a.rate now := by
    rw [localBucket, hs, Option.getD_some]
  rw [localAcquire_fst, hfound, hreq, ← Bucket.one_le_refill_iff he hrate hnow, hcap, Int.cast_one]
  exact decide_eq_true_iff

/-- A domain slowed down to one request a second. -/
theorem positive_limit_grants_iff_slowed :
    (localAcquire { buckets := fun _ => some ⟨0, 0, 1 / 2⟩ } ⟨"rl:domain:api", 2, 2, 1⟩ 1).1 = true :=
  ((@positive_limit_grants_iff { domains := [("api", 2)] } "api" "1" ⟨"rl:domain:api", 2, 2, 1⟩
    (by decide +kernel) (by norm_num)).2 _ ⟨0, 0, 1 / 2⟩ 1 rfl
    ⟨le_refl 0, by norm_num, by norm_num⟩ (by norm_num)).mpr (by norm_num)

/-- One request every two seconds: the bucket is full with half a token. -/
theorem positive_limit_refuses :
    ⟨"rl:domain:api", 1 / 2, 1 / 2, 1⟩ ∈ keysAndArgs { domains := [("api", 1 / 2)] } "api" "1" 1 ∧
    Left (some ⟨1 / 2, 0, 1⟩) ∧ (0 : ℚ) + 1 / (1 / 2 * 1) ≤ 2 ∧
    (localAcquire { buckets := fun _ => some ⟨1 / 2, 0, 1⟩ }
      ⟨"rl:domain:api", 1 / 2, 1 / 2, 1⟩ 2).1 = false := by
  refine ⟨by decide +kernel, ?_, by norm_num, by decide +kernel⟩
  have hfull : Left (some (LocalTokenBucket.acquire none (1 / 2) (1 / 2) 1 0).2) :=
    Left.missing.acquire (by norm_num) (by norm_num) 1 0
  have hleft : (LocalTokenBucket.acquire none (1 / 2) (1 / 2) 1 0).2 = ⟨1 / 2, 0, 1⟩ := by
    decide +kernel
  rwa [hleft] at hfull

/-- A bucket of either back end refuses more tokens than its capacity. -/
lemma acquireOne_refuses (s : Limiter) (m : Moment) (hcap : a.cap < a.req) :
    (acquireOne s a m).1 = false := by
  have hrefill : ∀ (b : Bucket) now, ¬(a.req : ℚ) ≤ (b.refill a.cap a.rate now).tokens :=
    fun b now h => (h.trans (min_le_left _ _)).not_gt hcap
  have hlocal : ∀ s now, ¬(a.req : ℚ) ≤ (localBucket s a now).tokens := fun s now => hrefill _ now
  have hscript : ∀ s, scriptHolds s a m.now = false := by
    intro s
    unfold scriptHolds scriptBucket
    split
    · exact decide_eq_false (hrefill _ m.now)
    · exact decide_eq_false (hrefill _ m.now)
    · rfl
  rw [acquireOne_fst, Limiter.holds]
  simp [hlocal, hscript]

lemma acquireAll_refuses (moments : String → Moment) {as : List BucketArgs} (ha : a ∈ as)
    (hcap : a.cap < a.req) (s : Limiter) : (acquireAll s moments as).1 = false := by
  induction as generalizing s with
  | nil => cases ha
  | cons b as ih =>
    unfold acquireAll
    split
    · next s' hb =>
      rcases List.mem_cons.mp ha with rfl | ha
      · have hrefused := acquireOne_refuses s (moments a.key) hcap
        rw [hb] at hrefused
        cases hrefused
      · exact ih ha s'
    · rfl

lemma acquireLoop_refuses (w : Surroundings) {as : List BucketArgs} (timeout : Int) (ha : a ∈ as)
    (hcap : a.cap < a.req) (fuel n : ℕ) (s : Limiter) :
    (acquireLoop w as timeout fuel n s).1 ≠ some true := by
  induction fuel generalizing n s with
  | zero => exact nofun
  | succ fuel ih =>
    unfold acquireLoop
    split
    · have hround := acquireAll_refuses (w.moments n) ha hcap s
      split
      · next hall =>
        rw [hall] at hround
        cases hround
      · exact ih (n + 1) _
    · exact nofun

/-- No call gets more tokens than one of its limits, from any buckets and however long it waits. -/
theorem acquire_refuses {checkNetloc : String → Except ValueError Unit} {w : Surroundings}
    {url : String} {timeout : Int} {fuel : ℕ} {s : Limiter}
    (hdomain : urlparseNetloc checkNetloc url = .ok domain)
    (ha : a ∈ keysAndArgs config domain scanId tokens) (hlimit : a.rate < tokens) :
    (acquire checkNetloc w config url scanId tokens timeout fuel s).1 ≠ .ok (some true) := by
  obtain ⟨hcap, hreq⟩ := mem_keysAndArgs ha
  have hloop := acquireLoop_refuses w timeout ha (by rwa [hcap, hreq]) fuel 0 (ensureBackend w s)
  rw [acquire, hdomain]
  exact fun h => hloop (Except.ok.inj h)

end limits

end SecurityScanner.RateLimiter

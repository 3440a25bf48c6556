import SecurityScanner.Executor.RateLimiter
import SecurityScanner.Lib.Metering

/-!
# The token buckets of the rate limiter

One key of the two back ends of `limiter.py`: the entry of `_LocalTokenBucket` and the hash
of `TOKEN_BUCKET_SCRIPT`, for any number of tokens requested. The entry enforces its rate
over every segment of a run. The hash does so as long as the clocks of its callers do not
climb further than from the smallest reading to the largest.
-/

namespace SecurityScanner.RateLimiter

open Metering

section operations

/-- The decision both back ends take on a refilled bucket. -/
def Bucket.spend (b : Bucket) (requested : ℚ) : Bool × Bucket :=
  if requested ≤ b.tokens then (true, { b with tokens := b.tokens - requested }) else (false, b)

/-- `_LocalTokenBucket.acquire` on the entry of a key. -/
def LocalTokenBucket.acquire (b : Option Bucket) (capacity refillRate requested now : ℚ) :
    Bool × Bucket :=
  ((b.getD (.full capacity now)).refill capacity refillRate now).spend requested

/-- `max(0.1, m * 0.5)`. -/
def halved (multiplier : ℚ) : ℚ := max (1 / 10) (multiplier * (1 / 2))

/-- `_LocalTokenBucket.report_429` on the entry of a key. -/
def LocalTokenBucket.report429 (b : Option Bucket) (now : ℚ) : Bucket :=
  let b := b.getD ⟨0, now, 1⟩
  { b with multiplier := halved b.multiplier }

/-- `TOKEN_BUCKET_SCRIPT` on the hash of a key, up to its `EXPIRE`. -/
def scriptAcquire (h : BucketHash) (capacity refillRate requested now : ℚ) :
    Option (Bool × Bucket) :=
  (scriptBucket h ⟨"", capacity, refillRate, 0⟩ now).map (·.spend requested)

/-- An operation of `_LocalTokenBucket` on one key, with its reading of the clock. -/
inductive BucketOp where
  | acquire (requested now : ℚ)
  | report429 (now : ℚ)

def BucketOp.now : BucketOp → ℚ
  | .acquire _ now | .report429 now => now

def BucketOp.isReport : BucketOp → Bool
  | .acquire _ _ => false
  | .report429 _ => true

/-- The amount that a request asks for. -/
def BucketOp.requested : BucketOp → ℚ
  | .acquire requested _ => requested
  | .report429 _ => 0

end operations

section model

variable (s : Limiter) (a : BucketArgs) (now : ℚ)

/-- The bucket operation of `_acquire_one` in the process. -/
lemma localAcquire_eq :
    localAcquire s a now =
      let r := LocalTokenBucket.acquire (s.buckets a.key) a.cap a.rate a.req now
      (r.1, if r.1 then (s.putLocal a.key r.2).charge a else s.putLocal a.key r.2) := by
  unfold localAcquire LocalTokenBucket.acquire Bucket.spend localBucket Bucket.take
  dsimp only
  split <;> rfl

/-- The bucket operation of `_acquire_one` in Redis, where `EXPIRE` sets a time to live. -/
theorem tokenBucketScript_eq {b : Bucket} (hb : scriptBucket (s.redis a.key) a now = some b)
    {ttl : ℤ} (httl : scriptTtl a b = some ttl) (hpos : 0 < ttl) :
    ∃ r, scriptAcquire (s.redis a.key) a.cap a.rate a.req now = some r ∧
      tokenBucketScript s a now = (some r.1,
        if r.1 then (s.putRedis a.key r.2.hash).charge a else s.putRedis a.key r.2.hash) := by
  refine ⟨b.spend a.req, ?_, ?_⟩
  · have hb' : scriptBucket (s.redis a.key) ⟨"", a.cap, a.rate, 0⟩ now = some b := hb
    rw [scriptAcquire, hb', Option.map_some]
  · unfold tokenBucketScript Bucket.spend Bucket.take
    rw [hb]
    by_cases h : (a.req : ℚ) ≤ b.tokens
    · simp [h, httl, hpos.not_ge]
    · simp [h]

end model

section inProcess

variable (cap rate : ℚ)

/-- The runs of `_LocalTokenBucket` on one key. -/
def localMachine : Machine (Option Bucket) BucketOp ℚ where
  step b
    | .acquire requested now => some (LocalTokenBucket.acquire b cap rate requested now).2
    | .report429 now => some (LocalTokenBucket.report429 b now)
  grant b
    | .acquire requested now =>
      if (LocalTokenBucket.acquire b cap rate requested now).1 then requested else 0
    | .report429 _ => 0

/-- The last reading of the clock, after one of `t`. -/
def lastNow (t : ℚ) (ops : List BucketOp) : ℚ := ops.foldl (fun _ op => op.now) t

/-- The time from the first reading of the clock to the last. -/
def elapsed : List BucketOp → ℚ
  | [] => 0
  | op :: ops => lastNow op.now ops - op.now

structure Bucket.Sound (cap : ℚ) (b : Bucket) : Prop where
  tokens_nonneg : 0 ≤ b.tokens
  tokens_le : b.tokens ≤ cap
  multiplier_ge : 1 / 10 ≤ b.multiplier
  multiplier_le : b.multiplier ≤ 1

/-- The entry is sound and the operations ahead are in order. -/
structure LocalRun (cap : ℚ) (b : Option Bucket) (ops : List BucketOp) : Prop where
  sound : ∀ e, b = some e → e.Sound cap ∧ ∀ op ∈ ops, e.lastRefill ≤ op.now
  requests : ∀ op ∈ ops, 0 ≤ op.requested
  clock : ops.Pairwise (fun op op' => op.now ≤ op'.now)

variable {cap rate}

lemma halved_bounds {m : ℚ} (h : m ≤ 1) : 1 / 10 ≤ halved m ∧ halved m ≤ 1 := by
  refine ⟨le_max_left _ _, max_le (by norm_num) ?_⟩
  linarith

/-- What is granted and what is left make up the tokens. -/
lemma Bucket.spend_spec (b : Bucket) (requested : ℚ) :
    (if (b.spend requested).1 then requested else 0) + (b.spend requested).2.tokens = b.tokens ∧
      (0 ≤ b.tokens → 0 ≤ (b.spend requested).2.tokens) ∧
      (0 ≤ requested → (b.spend requested).2.tokens ≤ b.tokens) ∧
      (b.spend requested).2.lastRefill = b.lastRefill ∧
      (b.spend requested).2.multiplier = b.multiplier := by
  unfold Bucket.spend
  by_cases h : requested ≤ b.tokens
  · simp [h]
  · simp [h]

/-- A refill adds what the elapsed time is worth, and no more than the capacity holds. -/
lemma Bucket.refill_spec {b : Bucket} (hb : b.Sound cap) (hcap : 0 ≤ cap) (hrate : 0 ≤ rate)
    {now : ℚ} (hnow : b.lastRefill ≤ now) :
    (b.refill cap rate now).Sound cap ∧
      (b.refill cap rate now).tokens ≤ b.tokens + rate * (now - b.lastRefill) := by
  have htime : max 0 (now - b.lastRefill) = now - b.lastRefill :=
    max_eq_right (sub_nonneg.mpr hnow)
  have hm : 0 ≤ b.multiplier := le_trans (by norm_num) hb.multiplier_ge
  have hcredit : 0 ≤ (now - b.lastRefill) * (rate * b.multiplier) :=
    mul_nonneg (sub_nonneg.mpr hnow) (mul_nonneg hrate hm)
  have hslow : (now - b.lastRefill) * (rate * b.multiplier) ≤ rate * (now - b.lastRefill) := by
    have h := mul_le_mul_of_nonneg_left hb.multiplier_le
      (mul_nonneg (sub_nonneg.mpr hnow) hrate)
    linarith
  have htokens : (b.refill cap rate now).tokens =
      min cap (b.tokens + (now - b.lastRefill) * (rate * b.multiplier)) := by
    simp only [Bucket.refill, htime]
  refine ⟨⟨?_, ?_, hb.multiplier_ge, hb.multiplier_le⟩, ?_⟩
  · rw [htokens]
    exact le_min hcap (add_nonneg hb.tokens_nonneg hcredit)
  · rw [htokens]
    exact min_le_left _ _
  · rw [htokens]
    exact (min_le_right _ _).trans (by linarith)

lemma Bucket.sound_full (hcap : 0 ≤ cap) (now : ℚ) : (Bucket.full cap now).Sound cap :=
  ⟨hcap, le_refl cap, by norm_num [Bucket.full], le_refl 1⟩

/-- The entry of an operation: the one that is there, or a new one. -/
lemma LocalRun.getD_sound {b : Option Bucket} {op : BucketOp} {ops : List BucketOp}
    (h : LocalRun cap b (op :: ops)) {new : Bucket} (hnew : new.Sound cap)
    (hlast : new.lastRefill ≤ op.now) :
    (b.getD new).Sound cap ∧ (b.getD new).lastRefill ≤ op.now := by
  cases b with
  | none => exact ⟨hnew, hlast⟩
  | some e => exact ⟨(h.sound e rfl).1, (h.sound e rfl).2 op List.mem_cons_self⟩

/-- The entry after an operation. -/
lemma LocalRun.step {b : Option Bucket} {op : BucketOp} {ops : List BucketOp} (hcap : 0 ≤ cap)
    (hrate : 0 ≤ rate) (h : LocalRun cap b (op :: ops)) :
    LocalRun cap ((localMachine cap rate).step b op) ops := by
  have hclock := List.pairwise_cons.mp h.clock
  refine ⟨?_, fun o ho => h.requests o (List.mem_cons_of_mem _ ho), hclock.2⟩
  rintro e he
  cases op with
  | acquire requested now =>
    have hsound := h.getD_sound (Bucket.sound_full hcap now) (le_refl now)
    obtain ⟨hrefill, -⟩ := Bucket.refill_spec hsound.1 hcap hrate hsound.2
    obtain ⟨-, hpos, hle, hlast, hmult⟩ :=
      Bucket.spend_spec ((b.getD (.full cap now)).refill cap rate now) requested
    obtain rfl := (Option.some.inj he).symm
    refine ⟨⟨hpos hrefill.tokens_nonneg, ?_, ?_, ?_⟩, ?_⟩
    · exact (hle (h.requests _ List.mem_cons_self)).trans hrefill.tokens_le
    · exact hmult ▸ hrefill.multiplier_ge
    · exact hmult ▸ hrefill.multiplier_le
    · intro o ho
      rw [LocalTokenBucket.acquire, hlast]
      exact hclock.1 o ho
  | report429 now =>
    have hempty : Bucket.Sound cap ⟨0, now, 1⟩ := ⟨le_refl 0, hcap, by norm_num, le_refl 1⟩
    have hsound := h.getD_sound hempty (le_refl now)
    obtain rfl := (Option.some.inj he).symm
    obtain ⟨hge, hle⟩ := halved_bounds hsound.1.multiplier_le
    exact ⟨⟨hsound.1.tokens_nonneg, hsound.1.tokens_le, hge, hle⟩,
      fun o ho => hsound.2.trans (hclock.1 o ho)⟩

/-- What an acquisition grants and leaves was there, or came in since the last refill. -/
lemma acquire_pays {e : Bucket} (he : e.Sound cap) (hcap : 0 ≤ cap) (hrate : 0 ≤ rate)
    (requested : ℚ) {now : ℚ} (hnow : e.lastRefill ≤ now) :
    (localMachine cap rate).grant (some e) (.acquire requested now) +
        (LocalTokenBucket.acquire (some e) cap rate requested now).2.tokens ≤
      e.tokens + rate * (now - e.lastRefill) := by
  obtain ⟨hsum, -⟩ := Bucket.spend_spec (e.refill cap rate now) requested
  obtain ⟨-, hle⟩ := Bucket.refill_spec he hcap hrate hnow
  exact hsum.trans_le hle

variable (cap rate) in
/-- Nor is it more than the capacity. -/
lemma acquire_le_capacity (b : Option Bucket) (requested now : ℚ) :
    (localMachine cap rate).grant b (.acquire requested now) +
        (LocalTokenBucket.acquire b cap rate requested now).2.tokens ≤ cap := by
  obtain ⟨hsum, -⟩ :=
    Bucket.spend_spec ((b.getD (.full cap now)).refill cap rate now) requested
  exact hsum.trans_le (min_le_left _ _)

variable (cap rate) in
lemma acquire_lastRefill (b : Option Bucket) (requested now : ℚ) :
    (LocalTokenBucket.acquire b cap rate requested now).2.lastRefill = now :=
  (Bucket.spend_spec ((b.getD (.full cap now)).refill cap rate now) requested).2.2.2.1

/-- The tokens of an entry and the time of its last refill. -/
def entryTokens (b : Option Bucket) : ℚ := (b.map Bucket.tokens).getD 0

def entryRefill (b : Option Bucket) : ℚ := (b.map Bucket.lastRefill).getD 0

lemma entryTokens_some (e : Bucket) : entryTokens (some e) = e.tokens := rfl

lemma entryRefill_some (e : Bucket) : entryRefill (some e) = e.lastRefill := rfl

/-- A run leaves a sound entry behind. -/
lemma LocalRun.after {b : Option Bucket} {ops rest : List BucketOp} (hcap : 0 ≤ cap)
    (hrate : 0 ≤ rate) (h : LocalRun cap b (ops ++ rest)) :
    LocalRun cap ((localMachine cap rate).run b ops) rest :=
  (localMachine cap rate).run_invariant (LocalRun cap) (fun _ _ _ hs => hs.step hcap hrate) ops
    rest h

lemma LocalRun.entryTokens_nonneg {b : Option Bucket} {ops : List BucketOp}
    (h : LocalRun cap b ops) : 0 ≤ entryTokens b := by
  cases b with
  | none => exact le_refl 0
  | some e => exact (h.sound e rfl).1.tokens_nonneg

/-- The entry pays its grants from its tokens and from the time that passes. -/
lemma local_total_le {b : Option Bucket} {ops : List BucketOp} (hcap : 0 ≤ cap) (hrate : 0 ≤ rate)
    (h : LocalRun cap b ops) (hb : b.isSome) :
    (localMachine cap rate).total b ops + entryTokens ((localMachine cap rate).run b ops) ≤
      entryTokens b + rate * (entryRefill ((localMachine cap rate).run b ops) - entryRefill b) := by
  have hmeter := (localMachine cap rate).total_add_stock_le
    (fun b ops => LocalRun cap b ops ∧ b.isSome) entryTokens
    (fun b op => rate * entryRefill ((localMachine cap rate).step b op) - rate * entryRefill b)
    ?_ ?_ ops ⟨h, hb⟩
  · rw [(localMachine cap rate).income_sub fun b => rate * entryRefill b] at hmeter
    linarith
  · rintro b op ops ⟨hrun, -⟩
    exact ⟨hrun.step hcap hrate, by cases op <;> rfl⟩
  · rintro b op ops ⟨hrun, hsome⟩
    obtain ⟨e, rfl⟩ := Option.isSome_iff_exists.mp hsome
    obtain ⟨hsound, hnow⟩ := hrun.sound e rfl
    cases op with
    | acquire requested now =>
      have hpay := acquire_pays hsound hcap hrate requested (hnow _ List.mem_cons_self)
      have hlast : entryRefill ((localMachine cap rate).step (some e) (.acquire requested now)) =
          now := acquire_lastRefill _ _ _ _ _
      rw [hlast, entryTokens_some, entryRefill_some]
      exact hpay.trans_eq (by rw [BucketOp.now]; ring)
    | report429 now =>
      simp [localMachine, entryTokens, entryRefill, LocalTokenBucket.report429]

variable (cap rate) in
/-- The last refill is no later than the last reading of the clock. -/
lemma entryRefill_run_le {e : Bucket} {t : ℚ} (he : e.lastRefill ≤ t) (ops : List BucketOp)
    (ht : ∀ op ∈ ops, t ≤ op.now) (hclock : ops.Pairwise (fun op op' => op.now ≤ op'.now)) :
    entryRefill ((localMachine cap rate).run (some e) ops) ≤ lastNow t ops := by
  induction ops generalizing e t with
  | nil => exact he
  | cons op ops ih =>
    have hop := ht op List.mem_cons_self
    have hrest := List.pairwise_cons.mp hclock
    cases op with
    | acquire requested now => exact ih (acquire_lastRefill _ _ _ _ _).le hrest.1 hrest.2
    | report429 now => exact ih (he.trans hop) hrest.1 hrest.2

/-- From any state that a run can be in, the grants of a segment keep to the rate. -/
lemma local_segment_le {b : Option Bucket} {seg : List BucketOp} (hcap : 0 ≤ cap)
    (hrate : 0 ≤ rate) (h : LocalRun cap b seg) :
    (localMachine cap rate).total b seg ≤ cap + rate * elapsed seg := by
  induction seg generalizing b with
  | nil => simpa [Machine.total, elapsed] using hcap
  | cons op seg ih =>
    have hrun := h.step hcap hrate
    have hclock := List.pairwise_cons.mp h.clock
    cases op with
    | acquire requested now =>
      -- Behind the first refill the tokens are within the capacity, however long ago the
      -- refill before it was.
      set e := (LocalTokenBucket.acquire b cap rate requested now).2 with he
      have hafter : LocalRun cap (some e) seg := hrun
      have hfirst := acquire_le_capacity cap rate b requested now
      have hrest := local_total_le hcap hrate hafter rfl
      have hlast : e.lastRefill = now := acquire_lastRefill cap rate b requested now
      have hend := entryRefill_run_le cap rate hlast.le seg hclock.1 hclock.2
      have hleft : 0 ≤ entryTokens ((localMachine cap rate).run (some e) seg) := by
        rw [← List.append_nil seg] at hafter
        exact (hafter.after hcap hrate).entryTokens_nonneg
      have htime := mul_le_mul_of_nonneg_left (sub_le_sub_right hend now) hrate
      rw [entryTokens_some, entryRefill_some, hlast] at hrest
      change (localMachine cap rate).grant b _ + (localMachine cap rate).total (some e) seg ≤
        cap + rate * (lastNow now seg - now)
      linarith
    | report429 now =>
      have hrest := ih hrun
      have htime : elapsed seg ≤ elapsed (.report429 now :: seg) := by
        cases seg with
        | nil => exact le_of_eq (by simp [elapsed, lastNow, BucketOp.now])
        | cons op seg =>
          have hop : now ≤ op.now := hclock.1 op List.mem_cons_self
          exact sub_le_sub_left hop (lastNow op.now seg)
      have hmul := mul_le_mul_of_nonneg_left htime hrate
      change 0 + (localMachine cap rate).total _ seg ≤ _
      linarith

/-- The bucket in the process enforces its rate. -/
theorem local_bucket_enforces_rate {cap rate : ℚ} (hcap : 0 ≤ cap) (hrate : 0 ≤ rate)
    (ops : List BucketOp) (hrequests : ∀ op ∈ ops, 0 ≤ op.requested)
    (hclock : ops.Pairwise (fun op op' => op.now ≤ op'.now)) :
    ∀ before seg after, ops = before ++ seg ++ after →
      (∀ b, (localMachine cap rate).run none before = some b →
        0 ≤ b.tokens ∧ b.tokens ≤ cap ∧ 1 / 10 ≤ b.multiplier ∧ b.multiplier ≤ 1) ∧
      (localMachine cap rate).total ((localMachine cap rate).run none before) seg ≤
        cap + rate * elapsed seg := by
  rintro before seg after rfl
  have hstart : LocalRun cap none (before ++ (seg ++ after)) := by
    rw [← List.append_assoc]
    exact ⟨fun _ h => (by cases h), hrequests, hclock⟩
  have hrun := hstart.after hcap hrate
  refine ⟨fun b hb => ?_, local_segment_le hcap hrate ⟨?_, ?_, ?_⟩⟩
  · have hsound := (hrun.sound b hb).1
    exact ⟨hsound.tokens_nonneg, hsound.tokens_le, hsound.multiplier_ge, hsound.multiplier_le⟩
  · intro e he
    exact ⟨(hrun.sound e he).1, fun op hop => (hrun.sound e he).2 op (List.mem_append_left _ hop)⟩
  · exact fun op hop => hrun.requests op (List.mem_append_left _ hop)
  · exact hrun.clock.sublist (List.sublist_append_left _ _)

/-- A burst of three, a 429 and a late request. -/
theorem local_bucket_enforces_rate_burst :
    (localMachine 2 1).total none
      [.acquire 1 0, .acquire 1 0, .acquire 1 0, .report429 1, .acquire 1 3] ≤ 2 + 1 * 3 := by
  have h := @local_bucket_enforces_rate 2 1 (by norm_num) (by norm_num)
    [.acquire 1 0, .acquire 1 0, .acquire 1 0, .report429 1, .acquire 1 3] (by decide) (by decide)
    [] [.acquire 1 0, .acquire 1 0, .acquire 1 0, .report429 1, .acquire 1 3] [] rfl
  exact h.2.trans_eq (by norm_num [elapsed, lastNow, BucketOp.now])

end inProcess

section distributed

/-- An execution of `TOKEN_BUCKET_SCRIPT` with the clock reading of its caller. -/
structure Execution where
  requested : ℚ
  now : ℚ

/-- The runs of the script on a key that does not expire. -/
def scriptMachine (cap rate : ℚ) : Machine BucketHash Execution ℚ where
  step h e := ((scriptAcquire h cap rate e.requested e.now).map fun r => r.2.hash).getD h
  grant h e := if (scriptAcquire h cap rate e.requested e.now).any (·.1) then e.requested else 0

/-- What the readings `ts` climb after a reading of `t`. -/
def climbFrom : ℚ → List ℚ → ℚ
  | _, [] => 0
  | t, t' :: ts => max 0 (t' - t) + climbFrom t' ts

/-- The rises from each reading of a list to the next. -/
def climb : List ℚ → ℚ
  | [] => 0
  | t :: ts => climbFrom t ts

/-- The distance of the largest reading from the smallest. -/
def spread : List ℚ → ℚ
  | [] => 0
  | t :: ts => ts.foldl max t - ts.foldl min t

variable {cap rate : ℚ}

lemma climbFrom_nonneg (t : ℚ) (ts : List ℚ) : 0 ≤ climbFrom t ts := by
  induction ts generalizing t with
  | nil => exact le_refl 0
  | cons t' ts ih => exact add_nonneg (le_max_left _ _) (ih t')

lemma scriptAcquire_hash (b : Bucket) (requested now : ℚ) :
    scriptAcquire b.hash cap rate requested now = some ((b.refill cap rate now).spend requested) :=
  rfl

/-- A missing key reads as a full bucket. -/
lemma scriptAcquire_missing (requested now : ℚ) :
    scriptAcquire {} cap rate requested now =
      some (((Bucket.full cap now).refill cap rate now).spend requested) := rfl

/-- The hash of a bucket that no 429 has slowed down. -/
def FullRate (h : BucketHash) : Prop := ∃ b : Bucket, h = b.hash ∧ b.multiplier = 1 ∧ 0 ≤ b.tokens

def hashTokens (h : BucketHash) : ℚ := h.tokens.getD 0

def hashRefill (h : BucketHash) : ℚ := h.lastRefill.getD 0

/-- An execution stores the clock of its caller, wherever the last one was. -/
lemma script_step (b : Bucket) (e : Execution) :
    (scriptMachine cap rate).step b.hash e =
      ((b.refill cap rate e.now).spend e.requested).2.hash := by
  simp only [scriptMachine, scriptAcquire_hash, Option.map_some, Option.getD_some]

lemma script_grant (b : Bucket) (e : Execution) :
    (scriptMachine cap rate).grant b.hash e =
      if ((b.refill cap rate e.now).spend e.requested).1 then e.requested else 0 := by
  simp only [scriptMachine, scriptAcquire_hash, Option.any_some]
  rfl

lemma refill_fullRate {b : Bucket} (hb : b.multiplier = 1) (hcap : 0 ≤ cap) (hrate : 0 ≤ rate)
    (hpos : 0 ≤ b.tokens) (now : ℚ) :
    0 ≤ (b.refill cap rate now).tokens ∧
      (b.refill cap rate now).tokens ≤ b.tokens + rate * max 0 (now - b.lastRefill) := by
  have htokens : (b.refill cap rate now).tokens =
      min cap (b.tokens + rate * max 0 (now - b.lastRefill)) := by
    simp only [Bucket.refill, hb, mul_one]
    rw [mul_comm rate]
  have hcredit : 0 ≤ rate * max 0 (now - b.lastRefill) := mul_nonneg hrate (le_max_left _ _)
  rw [htokens]
  exact ⟨le_min hcap (add_nonneg hpos hcredit), min_le_right _ _⟩

lemma FullRate.step {h : BucketHash} (hh : FullRate h) (hcap : 0 ≤ cap) (hrate : 0 ≤ rate)
    (e : Execution) : FullRate ((scriptMachine cap rate).step h e) := by
  obtain ⟨b, rfl, hb, hpos⟩ := hh
  obtain ⟨-, hrest, -, -, hmult⟩ := Bucket.spend_spec (b.refill cap rate e.now) e.requested
  exact ⟨_, script_step b e, hmult.trans hb, hrest (refill_fullRate hb hcap hrate hpos _).1⟩

/-- What the executions earn is what their clocks climb. -/
lemma income_eq_climbFrom (b : Bucket) (es : List Execution) :
    (scriptMachine cap rate).income (fun h e => rate * max 0 (e.now - hashRefill h)) b.hash es =
      rate * climbFrom b.lastRefill (es.map Execution.now) := by
  induction es generalizing b with
  | nil => simp [Machine.income, climbFrom]
  | cons e es ih =>
    have hlast : ((b.refill cap rate e.now).spend e.requested).2.lastRefill = e.now :=
      (Bucket.spend_spec _ _).2.2.2.1
    rw [Machine.income, script_step, ih, hlast, List.map_cons, climbFrom, mul_add]
    rfl

lemma script_total_le {b : Bucket} (hb : b.multiplier = 1) (hpos : 0 ≤ b.tokens) (hcap : 0 ≤ cap)
    (hrate : 0 ≤ rate) (es : List Execution) :
    (scriptMachine cap rate).total b.hash es ≤
      b.tokens + rate * climbFrom b.lastRefill (es.map Execution.now) := by
  have hmeter := (scriptMachine cap rate).total_add_stock_le (fun h _ => FullRate h) hashTokens
    (fun h e => rate * max 0 (e.now - hashRefill h)) ?_ ?_ es ⟨b, rfl, hb, hpos⟩
  · have hleft : FullRate ((scriptMachine cap rate).run b.hash es) :=
      (scriptMachine cap rate).run_invariant (fun h _ => FullRate h)
        (fun h e _ hh => hh.step hcap hrate e) es [] ⟨b, rfl, hb, hpos⟩
    obtain ⟨b', hb', -, hpos'⟩ := hleft
    have hstock : 0 ≤ hashTokens ((scriptMachine cap rate).run b.hash es) := hb' ▸ hpos'
    rw [income_eq_climbFrom] at hmeter
    exact (le_add_of_nonneg_right hstock).trans hmeter
  · exact fun h e _ hh => hh.step hcap hrate e
  · rintro h e _ ⟨b, rfl, hb, hpos⟩
    obtain ⟨hsum, -⟩ := Bucket.spend_spec (b.refill cap rate e.now) e.requested
    exact hsum.trans_le (refill_fullRate hb hcap hrate hpos e.now).2

/-- On a missing key the capacity comes on top of what the clocks climb. -/
lemma script_total_missing_le (hcap : 0 ≤ cap) (hrate : 0 ≤ rate) (es : List Execution) :
    (scriptMachine cap rate).total {} es ≤ cap + rate * climb (es.map Execution.now) := by
  cases es with
  | nil => simpa [Machine.total, climb] using hcap
  | cons e es =>
    set b := (((Bucket.full cap e.now).refill cap rate e.now).spend e.requested).2 with hb
    obtain ⟨hsum, hpos, -, hlast, hmult⟩ :=
      Bucket.spend_spec ((Bucket.full cap e.now).refill cap rate e.now) e.requested
    have hfull := refill_fullRate (b := .full cap e.now) rfl hcap hrate hcap e.now
    have hfirst : (scriptMachine cap rate).grant {} e + b.tokens ≤ cap :=
      hsum.trans_le (min_le_left _ _)
    have hrest := script_total_le (hmult.trans rfl) (hpos hfull.1) hcap hrate es
    rw [hlast] at hrest
    change (scriptMachine cap rate).grant {} e + (scriptMachine cap rate).total b.hash es ≤
      cap + rate * climbFrom e.now (es.map Execution.now)
    have hrest' : (scriptMachine cap rate).total b.hash es ≤
      b.tokens + rate * climbFrom e.now (es.map Execution.now) := hrest
    linarith

/-- Callers that ask for all that has come in. -/
def drain (rate : ℚ) : ℚ → List ℚ → List Execution
  | _, [] => []
  | t, t' :: ts => ⟨rate * max 0 (t' - t), t'⟩ :: drain rate t' ts

lemma map_now_drain (t : ℚ) (ts : List ℚ) : (drain rate t ts).map Execution.now = ts := by
  induction ts generalizing t with
  | nil => rfl
  | cons t' ts ih => simp [drain, ih]

/-- An empty bucket grants them all that its clocks climb, if its capacity allows it. -/
lemma script_total_drain (hrate : 0 ≤ rate) (t : ℚ) (ts : List ℚ)
    (hcap : rate * climbFrom t ts ≤ cap) :
    (scriptMachine cap rate).total (Bucket.hash ⟨0, t, 1⟩) (drain rate t ts) =
      rate * climbFrom t ts := by
  induction ts generalizing t with
  | nil => simp [drain, Machine.total, climbFrom]
  | cons t' ts ih =>
    have hcredit : 0 ≤ rate * max 0 (t' - t) := mul_nonneg hrate (le_max_left _ _)
    have hlater : 0 ≤ rate * climbFrom t' ts := mul_nonneg hrate (climbFrom_nonneg _ _)
    rw [climbFrom, mul_add] at hcap
    have hspend : (Bucket.refill ⟨0, t, 1⟩ cap rate t').spend (rate * max 0 (t' - t)) =
        (true, ⟨0, t', 1⟩) := by
      have hlevel : min cap (max 0 (t' - t) * rate) = rate * max 0 (t' - t) := by
        rw [mul_comm]
        exact min_eq_right (by linarith)
      simp [Bucket.refill, Bucket.spend, hlevel]
    rw [drain, Machine.total, script_grant, script_step, hspend, climbFrom, mul_add]
    rw [ih t' (by linarith)]
    simp

/-- The script keeps the limit for all callers exactly if their clocks, in the order of the
executions, climb no further than from the smallest reading to the largest. -/
theorem script_limit_iff {rate : ℚ} (hrate : 0 < rate) (nows : List ℚ) :
    (∀ cap, 0 ≤ cap → ∀ es : List Execution, es.map Execution.now = nows →
      (scriptMachine cap rate).total {} es ≤ cap + rate * spread nows) ↔
    climb nows ≤ spread nows := by
  constructor
  · intro h
    cases nows with
    | nil => exact le_refl 0
    | cons t ts =>
      have hcap : 0 ≤ rate * climbFrom t ts := mul_nonneg hrate.le (climbFrom_nonneg _ _)
      have hall := h (rate * climbFrom t ts) hcap
        (⟨rate * climbFrom t ts, t⟩ :: drain rate t ts) (by simp [map_now_drain])
      have hspend : ((Bucket.full (rate * climbFrom t ts) t).refill (rate * climbFrom t ts) rate
          t).spend (rate * climbFrom t ts) = (true, ⟨0, t, 1⟩) := by
        simp [Bucket.refill, Bucket.full, Bucket.spend]
      have hgrant : (scriptMachine (rate * climbFrom t ts) rate).grant {}
          ⟨rate * climbFrom t ts, t⟩ = rate * climbFrom t ts := by
        simp [scriptMachine, scriptAcquire_missing, hspend]
      have hstep : (scriptMachine (rate * climbFrom t ts) rate).step {}
          ⟨rate * climbFrom t ts, t⟩ = Bucket.hash ⟨0, t, 1⟩ := by
        simp [scriptMachine, scriptAcquire_missing, hspend]
      rw [Machine.total, hgrant, hstep, script_total_drain hrate.le t ts le_rfl] at hall
      have hmul : rate * climbFrom t ts ≤ rate * spread (t :: ts) := by linarith
      exact le_of_mul_le_mul_left hmul hrate
  · rintro h cap hcap es rfl
    have hmul := mul_le_mul_of_nonneg_left h hrate.le
    exact (script_total_missing_le hcap hrate.le es).trans (by linarith)

/-- Clocks that fall and rise once. -/
theorem script_limit_iff_valley :
    (scriptMachine 1 1).total {} [⟨1, 3⟩, ⟨1, 0⟩, ⟨1, 2⟩] ≤ 1 + 1 * spread [3, 0, 2] :=
  (@script_limit_iff 1 (by norm_num) [3, 0, 2]).mpr (by norm_num [climb, climbFrom, spread]) 1
    zero_le_one [⟨1, 3⟩, ⟨1, 0⟩, ⟨1, 2⟩] rfl

/-- Two clocks that are one second apart are credited that second again and again. -/
theorem script_exceeds_limit :
    1 + 1 * spread ([⟨1, 1⟩, ⟨1, 0⟩, ⟨1, 1⟩, ⟨1, 0⟩, ⟨1, 1⟩].map Execution.now) <
      (scriptMachine 1 1).total {} [⟨1, 1⟩, ⟨1, 0⟩, ⟨1, 1⟩, ⟨1, 0⟩, ⟨1, 1⟩] := by
  decide +kernel

end distributed

end SecurityScanner.RateLimiter

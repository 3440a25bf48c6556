import Mathlib.Data.List.Nodup
import SecurityScanner.Executor.RateLimiter

/-!
# What a call of `acquire` takes from the buckets

A round stops at the first bucket that refuses and keeps what the buckets before it gave.
So a call is all-or-nothing exactly when the first round in which the global bucket gives
its tokens is the round in which all buckets do.
-/

namespace SecurityScanner.RateLimiter

open Url

/-- The bucket in Redis holds the tokens. -/
def scriptHolds (s : Limiter) (a : BucketArgs) (now : ℚ) : Bool :=
  (scriptBucket (s.redis a.key) a now).any fun b => (a.req : ℚ) ≤ b.tokens

/-- The `EVALSHA` comes back with a reply. -/
def replies (s : Limiter) (a : BucketArgs) (m : Moment) : Bool :=
  match m.fault, scriptBucket (s.redis a.key) a m.now with
  | none, some b => !decide (a.req ≤ b.tokens) || (scriptTtl a b).isSome
  | _, _ => false

/-- The script takes the tokens, and no reply says so. -/
def loses (s : Limiter) (a : BucketArgs) (m : Moment) : Bool :=
  match m.fault, scriptBucket (s.redis a.key) a m.now with
  | none, some b => decide (a.req ≤ b.tokens) && (scriptTtl a b).isNone
  | some .lostReply, some b => decide (a.req ≤ b.tokens)
  | _, _ => false

/-- The state in which the process takes over from Redis. -/
def afterFailure (s : Limiter) (a : BucketArgs) (m : Moment) : Limiter :=
  { (evalsha s a m).2 with scriptingSupported := some false } |>.suspend m.others'

/-- The bucket that is asked, in Redis or in the process, holds the tokens. -/
def Limiter.holds (s : Limiter) (a : BucketArgs) (m : Moment) : Bool :=
  let s := s.suspend m.others
  if s.scriptingSupported = some true then
    if replies s a m then scriptHolds s a m.now
    else a.req ≤ (localBucket (afterFailure s a m) a m.now').tokens
  else a.req ≤ (localBucket s a m.now).tokens

/-- Redis takes the tokens and its reply does not arrive. -/
def Limiter.loses (s : Limiter) (a : BucketArgs) (m : Moment) : Bool :=
  let s := s.suspend m.others
  decide (s.scriptingSupported = some true) && RateLimiter.loses s a m

/-- The buckets hold the tokens, each when it is asked, and no reply is lost. -/
def AllHold (moments : String → Moment) : List BucketArgs → Limiter → Prop
  | [], _ => True
  | a :: as, s =>
    s.holds a (moments a.key) ∧ ¬s.loses a (moments a.key) ∧
      AllHold moments as (acquireOne s a (moments a.key)).2

/-- Up to the first round before the timeout in which the bucket `a` holds the tokens no
reply is lost, and in that round the buckets `as` hold them too. -/
def TogetherFrom (w : Surroundings) (a : BucketArgs) (as : List BucketArgs) (timeout : Int) :
    ℕ → ℕ → Limiter → Prop
  | 0, _, _ => True
  | fuel + 1, n, s =>
    w.clock n - w.start < timeout →
      let s' := (acquireOne s a (w.moments n a.key)).2
      ¬s.loses a (w.moments n a.key) ∧
        if s.holds a (w.moments n a.key) then AllHold (w.moments n) as s'
        else TogetherFrom w a as timeout fuel (n + 1) s'

instance decidableAllHold (moments : String → Moment) :
    (as : List BucketArgs) → (s : Limiter) → Decidable (AllHold moments as s)
  | [], _ => .isTrue trivial
  | a :: as, s =>
    have := decidableAllHold moments as (acquireOne s a (moments a.key)).2
    inferInstanceAs (Decidable (_ ∧ _ ∧ _))

instance decidableTogetherFrom (w : Surroundings) (a : BucketArgs) (as : List BucketArgs)
    (timeout : Int) : (fuel n : ℕ) → (s : Limiter) →
    Decidable (TogetherFrom w a as timeout fuel n s)
  | 0, _, _ => .isTrue trivial
  | fuel + 1, n, s =>
    have := decidableTogetherFrom w a as timeout fuel (n + 1)
      (acquireOne s a (w.moments n a.key)).2
    inferInstanceAs (Decidable (_ → _ ∧ _))

/-- The tokens this call has taken under a key. -/
def Limiter.charged (s : Limiter) (key : String) : Int :=
  ((s.charges.filter (·.1 = key)).map (·.2)).sum

/-- Between two states of a call, `c key` takes of `t` tokens under each key. -/
def Took (t : Int) (s s' : Limiter) (c : String → ℕ) : Prop :=
  ∀ key, s'.charged key = s.charged key + c key * t

lemma Took.refl (t : Int) (s : Limiter) : Took t s s fun _ => 0 := by
  intro key
  simp

lemma Took.trans {t : Int} {s s' s'' : Limiter} {c d : String → ℕ} (h : Took t s s' c)
    (h' : Took t s' s'' d) : Took t s s'' fun key => c key + d key := by
  intro key
  have h1 := h key
  have h2 := h' key
  push_cast
  linarith

lemma Took.of_charges {t : Int} {s s' : Limiter} {a : BucketArgs} (n : ℕ) (ha : a.req = t)
    (h : s'.charges = s.charges ++ List.replicate n (a.key, a.req)) :
    Took t s s' fun key => if key = a.key then n else 0 := by
  intro key
  subst ha
  by_cases hk : key = a.key
  · subst hk
    simp [Limiter.charged, h]
  · have hk' : ¬a.key = key := fun e => hk e.symm
    simp [Limiter.charged, h, hk, hk']

section operations

variable (s : Limiter) (a : BucketArgs) (m : Moment)

lemma localAcquire_fst (now : ℚ) :
    (localAcquire s a now).1 = decide (a.req ≤ (localBucket s a now).tokens) := by
  unfold localAcquire
  by_cases h : a.req ≤ (localBucket s a now).tokens <;> simp [h]

lemma localAcquire_charges (now : ℚ) :
    (localAcquire s a now).2.charges = s.charges ++
      List.replicate (decide (a.req ≤ (localBucket s a now).tokens)).toNat (a.key, a.req) := by
  unfold localAcquire
  by_cases h : a.req ≤ (localBucket s a now).tokens <;> simp [h]

/-- The reply of an `EVALSHA`. -/
lemma evalsha_fst :
    (evalsha s a m).1 = if replies s a m then
      some (scriptHolds s a m.now) else none := by
  unfold evalsha replies scriptHolds tokenBucketScript
  cases m.fault with
  | some f => cases f <;> simp
  | none =>
    cases scriptBucket (s.redis a.key) a m.now with
    | none => simp
    | some b =>
      by_cases h : a.req ≤ b.tokens
      · cases ht : scriptTtl a b <;> simp [h, ht]
      · simp [h]

/-- A reply tells what was taken; without one, `loses` does. -/
lemma evalsha_charges :
    (evalsha s a m).2.charges = s.charges ++ List.replicate
      (if replies s a m then
        (scriptHolds s a m.now).toNat
      else (loses s a m).toNat) (a.key, a.req) := by
  unfold evalsha replies loses scriptHolds tokenBucketScript
  cases m.fault with
  | some f =>
    cases f with
    | unreached => simp
    | lostReply =>
      cases scriptBucket (s.redis a.key) a m.now with
      | none => simp
      | some b =>
        by_cases h : a.req ≤ b.tokens
        · cases ht : scriptTtl a b with
          | none => simp [h, ht]
          | some ttl => by_cases h0 : ttl ≤ 0 <;> simp [h, ht, h0]
        · simp [h]
  | none =>
    cases scriptBucket (s.redis a.key) a m.now with
    | none => simp
    | some b =>
      by_cases h : a.req ≤ b.tokens
      · cases ht : scriptTtl a b with
        | none => simp [h, ht]
        | some ttl => by_cases h0 : ttl ≤ 0 <;> simp [h, ht, h0]
      · simp [h]

lemma loses_of_replies (h : replies s a m = true) : loses s a m = false := by
  unfold replies at h
  unfold loses
  cases hf : m.fault with
  | some f => simp [hf] at h
  | none =>
    cases hb : scriptBucket (s.redis a.key) a m.now with
    | none => simp
    | some b =>
      by_cases hr : a.req ≤ b.tokens
      · simpa [hf, hb, hr] using h
      · simp [hr]

lemma acquireOne_of_local (h : (s.suspend m.others).scriptingSupported ≠ some true) :
    acquireOne s a m = localAcquire (s.suspend m.others) a m.now := by
  unfold acquireOne
  rw [if_neg h]

lemma acquireOne_of_replies (h : (s.suspend m.others).scriptingSupported = some true)
    (hr : replies (s.suspend m.others) a m = true) :
    acquireOne s a m =
      (scriptHolds (s.suspend m.others) a m.now,
        (evalsha (s.suspend m.others) a m).2) := by
  have hfst := evalsha_fst (s.suspend m.others) a m
  rw [if_pos hr] at hfst
  unfold acquireOne
  rw [if_pos h]
  generalize evalsha (s.suspend m.others) a m = e at hfst
  obtain ⟨r, s'⟩ := e
  subst hfst
  rfl

lemma acquireOne_of_not_replies (h : (s.suspend m.others).scriptingSupported = some true)
    (hr : ¬replies (s.suspend m.others) a m = true) :
    acquireOne s a m = localAcquire (afterFailure (s.suspend m.others) a m) a m.now' := by
  have hfst := evalsha_fst (s.suspend m.others) a m
  rw [if_neg hr] at hfst
  unfold acquireOne afterFailure
  rw [if_pos h]
  generalize evalsha (s.suspend m.others) a m = e at hfst ⊢
  obtain ⟨r, s'⟩ := e
  subst hfst
  rfl

/-- An operation returns whether the bucket it asks holds the tokens. -/
lemma acquireOne_fst : (acquireOne s a m).1 = s.holds a m := by
  unfold Limiter.holds
  by_cases h : (s.suspend m.others).scriptingSupported = some true
  · by_cases hr : replies (s.suspend m.others) a m = true
    · simp [acquireOne_of_replies s a m h hr, h, hr]
    · rw [acquireOne_of_not_replies s a m h hr, localAcquire_fst]
      simp [h, hr]
  · rw [acquireOne_of_local s a m h, localAcquire_fst]
    simp [h]

/-- It takes the tokens if that bucket holds them, and once more if a reply is lost. -/
lemma acquireOne_charges :
    (acquireOne s a m).2.charges = s.charges ++
      List.replicate ((s.loses a m).toNat + (s.holds a m).toNat) (a.key, a.req) := by
  unfold Limiter.holds Limiter.loses
  by_cases h : (s.suspend m.others).scriptingSupported = some true
  · by_cases hr : replies (s.suspend m.others) a m = true
    · rw [acquireOne_of_replies s a m h hr, evalsha_charges, if_pos hr]
      simp [h, hr, loses_of_replies _ _ _ hr]
    · rw [acquireOne_of_not_replies s a m h hr, localAcquire_charges]
      have hfail : (afterFailure (s.suspend m.others) a m).charges =
          s.charges ++ List.replicate (loses (s.suspend m.others) a m).toNat (a.key, a.req) := by
        change (evalsha (s.suspend m.others) a m).2.charges = _
        rw [evalsha_charges, if_neg hr]
        rfl
      rw [hfail, List.append_assoc, List.replicate_append_replicate]
      simp [h, hr]
  · rw [acquireOne_of_local s a m h, localAcquire_charges]
    simp [h]

lemma acquireOne_took {t : Int} (ha : a.req = t) :
    Took t s (acquireOne s a m).2 fun key =>
      if key = a.key then (s.loses a m).toNat + (s.holds a m).toNat else 0 :=
  Took.of_charges _ ha (acquireOne_charges s a m)

end operations

/-- The takes `c` of a part of a call that asks the buckets `as`, at least one under each
key when it is `granted`. -/
structure Takes (t : Int) (as : List BucketArgs) (granted : Bool) (s s' : Limiter)
    (c : String → ℕ) : Prop where
  took : Took t s s' c
  outside : ∀ key, key ∉ as.map BucketArgs.key → c key = 0
  atLeast : granted = true → ∀ a ∈ as, 1 ≤ c a.key

/-- Nothing is taken under other keys than those of `as`. -/
abbrev ZeroOutside (as : List BucketArgs) (c : String → ℕ) : Prop :=
  ∀ key, key ∉ as.map BucketArgs.key → c key = 0

lemma zeroOutside_head (a : BucketArgs) (as : List BucketArgs) (n : ℕ) :
    ZeroOutside (a :: as) fun key => if key = a.key then n else 0 := by
  intro key hkey
  apply if_neg
  rintro rfl
  exact hkey List.mem_cons_self

lemma ZeroOutside.cons {as : List BucketArgs} {c : String → ℕ} (h : ZeroOutside as c)
    (a : BucketArgs) : ZeroOutside (a :: as) c :=
  fun key hkey => h key fun hmem => hkey (List.mem_cons_of_mem _ hmem)

lemma ZeroOutside.add {as : List BucketArgs} {c d : String → ℕ} (hc : ZeroOutside as c)
    (hd : ZeroOutside as d) : ZeroOutside as fun key => c key + d key := by
  intro key hkey
  dsimp only
  rw [hc key hkey, hd key hkey]

/-- A take that is kept is never made good: the rest of the call returns `true` with one
more take, or `false` with that one. -/
lemma Takes.not_made_good {t : Int} {as : List BucketArgs} {b : Bool} {s s' : Limiter}
    {d : String → ℕ} (hd : Takes t as b s s' d) {a : BucketArgs} (ha : a ∈ as) {n : ℕ}
    (hn : 1 ≤ n) : n + d a.key ≠ b.toNat := by
  cases b with
  | false =>
    rw [Bool.toNat_false]
    omega
  | true =>
    have := hd.atLeast rfl a ha
    rw [Bool.toNat_true]
    omega

/-- Buckets under different keys, each asked for `t` tokens. -/
structure Asks (t : Int) (as : List BucketArgs) : Prop where
  req : ∀ a ∈ as, a.req = t
  nodup : (as.map BucketArgs.key).Nodup

lemma Asks.tail {t : Int} {a : BucketArgs} {as : List BucketArgs} (h : Asks t (a :: as)) :
    Asks t as where
  req b hb := h.req b (List.mem_cons_of_mem a hb)
  nodup := h.nodup.of_cons

lemma Asks.not_mem {t : Int} {a : BucketArgs} {as : List BucketArgs} (h : Asks t (a :: as)) :
    a.key ∉ as.map BucketArgs.key :=
  (List.nodup_cons.mp h.nodup).1

lemma Asks.ne {t : Int} {a b : BucketArgs} {as : List BucketArgs} (h : Asks t (a :: as))
    (hb : b ∈ as) : b.key ≠ a.key := by
  intro e
  apply h.not_mem
  rw [← e]
  exact List.mem_map_of_mem hb

/-- One take under each key: `n` of them under the first, where the rest take nothing. -/
lemma Asks.once_iff {t : Int} {a : BucketArgs} {as : List BucketArgs} (h : Asks t (a :: as))
    {c : String → ℕ} (hc : c a.key = 0) (n : ℕ) :
    (∀ b ∈ a :: as, (if b.key = a.key then n else 0) + c b.key = 1) ↔
      n = 1 ∧ ∀ b ∈ as, c b.key = 1 := by
  have hothers : (∀ b ∈ as, (if b.key = a.key then n else 0) + c b.key = 1) ↔
      ∀ b ∈ as, c b.key = 1 := by
    apply forall₂_congr
    intro b hb
    rw [if_neg (h.ne hb), Nat.zero_add]
  rw [List.forall_mem_cons, hothers, if_pos rfl, hc, Nat.add_zero]

section rounds

variable {t : Int}

/-- The takes of a round, and which rounds take once from every bucket. -/
lemma acquireAll_takes (moments : String → Moment) {as : List BucketArgs} (has : Asks t as)
    (s : Limiter) :
    ∃ c, Takes t as (acquireAll s moments as).1 s (acquireAll s moments as).2 c ∧
      (AllHold moments as s ↔
        (acquireAll s moments as).1 = true ∧ ∀ a ∈ as, c a.key = 1) := by
  induction as generalizing s with
  | nil =>
    refine ⟨fun _ => 0, ⟨Took.refl t s, fun _ _ => rfl, fun _ a ha => ?_⟩, ?_⟩
    · cases ha
    · simp [AllHold, acquireAll]
  | cons a as ih =>
    have htook := acquireOne_took s a (moments a.key) (has.req a List.mem_cons_self)
    have hfst := acquireOne_fst s a (moments a.key)
    unfold acquireAll AllHold
    generalize acquireOne s a (moments a.key) = e at htook hfst
    obtain ⟨ok, s'⟩ := e
    simp only at htook hfst
    cases ok with
    | false =>
      refine ⟨_, ⟨htook, zeroOutside_head a as _, fun h => by cases h⟩, ?_⟩
      simp [← hfst]
    | true =>
      obtain ⟨c, hc, hall⟩ := ih has.tail s'
      have hca : c a.key = 0 := hc.outside _ has.not_mem
      have hout : ZeroOutside (a :: as) c := ZeroOutside.cons hc.outside a
      refine ⟨_, ⟨htook.trans hc.took, (zeroOutside_head a as _).add hout, fun h b hb => ?_⟩, ?_⟩
      · rw [← hfst]
        rcases List.mem_cons.mp hb with rfl | hb
        · simp only [if_true, Bool.toNat_true]
          omega
        · have := hc.atLeast h b hb
          omega
      · rw [hall, ← hfst, has.once_iff hca]
        cases s.loses a (moments a.key) <;> simp

variable {w : Surroundings} {timeout : Int}

lemma acquireLoop_takes {as : List BucketArgs} (has : Asks t as) {fuel n : ℕ}
    {s s' : Limiter} {b : Bool} (h : acquireLoop w as timeout fuel n s = (some b, s')) :
    ∃ c, Takes t as b s s' c := by
  induction fuel generalizing n s with
  | zero => cases h
  | succ fuel ih =>
    unfold acquireLoop at h
    split at h
    · obtain ⟨c, hc, -⟩ := acquireAll_takes (w.moments n) has s
      generalize acquireAll s (w.moments n) as = e at h hc
      obtain ⟨ok, s1⟩ := e
      cases ok with
      | true =>
        cases h
        exact ⟨c, hc⟩
      | false =>
        obtain ⟨d, hd⟩ := ih h
        refine ⟨_, hc.took.trans hd.took, ZeroOutside.add hc.outside hd.outside, fun hb a ha => ?_⟩
        have := hd.atLeast hb a ha
        omega
    · cases h
      exact ⟨fun _ => 0, Took.refl t _, fun _ _ => rfl, fun hb => by cases hb⟩

/-- A call that returns has taken once, or not at all, from each bucket exactly when the
buckets give together. -/
lemma acquireLoop_together {a : BucketArgs} {as : List BucketArgs} (has : Asks t (a :: as))
    {fuel n : ℕ} {s s' : Limiter} {b : Bool}
    (h : acquireLoop w (a :: as) timeout fuel n s = (some b, s')) :
    ∃ c, Took t s s' c ∧ ZeroOutside (a :: as) c ∧
      ((∀ k ∈ a :: as, c k.key = b.toNat) ↔ TogetherFrom w a as timeout fuel n s) := by
  induction fuel generalizing n s with
  | zero => cases h
  | succ fuel ih =>
    unfold acquireLoop at h
    unfold TogetherFrom
    split at h
    case isFalse htime =>
      cases h
      exact ⟨fun _ => 0, Took.refl t _, fun _ _ => rfl, by simp [htime]⟩
    case isTrue htime =>
      have htook := acquireOne_took s a (w.moments n a.key) (has.req a List.mem_cons_self)
      have hfst := acquireOne_fst s a (w.moments n a.key)
      have hmem : a ∈ a :: as := List.mem_cons_self
      simp only [htime, true_implies]
      unfold acquireAll at h
      generalize acquireOne s a (w.moments n a.key) = e at htook hfst h
      obtain ⟨ok, s1⟩ := e
      simp only at htook hfst h ⊢
      have hone := zeroOutside_head a as
      cases ok with
      | false =>
        simp only [← hfst, Bool.toNat_false, Bool.false_eq_true, if_false] at htook ⊢
        cases hl : s.loses a (w.moments n a.key) with
        | true =>
          obtain ⟨d, hd⟩ := acquireLoop_takes has h
          refine ⟨_, htook.trans hd.took, (hone _).add hd.outside, ?_⟩
          simp only [not_true_eq_false, false_and, iff_false]
          intro hall
          apply hd.not_made_good hmem (le_refl 1)
          simpa [hl] using hall a hmem
        | false =>
          obtain ⟨d, hd, hout, hiff⟩ := ih h
          refine ⟨_, htook.trans hd, (hone _).add hout, ?_⟩
          simpa [hl] using hiff
      | true =>
        simp only [← hfst, Bool.toNat_true, if_true] at h htook ⊢
        obtain ⟨c, hc, hall⟩ := acquireAll_takes (w.moments n) has.tail s1
        generalize acquireAll s1 (w.moments n) as = e at h hc hall
        obtain ⟨granted, s2⟩ := e
        simp only at hc hall
        have hca : c a.key = 0 := hc.outside _ has.not_mem
        have hout : ZeroOutside (a :: as) c := ZeroOutside.cons hc.outside a
        cases granted with
        | true =>
          cases h
          refine ⟨_, htook.trans hc.took, (hone _).add hout, ?_⟩
          rw [hall, Bool.toNat_true, has.once_iff hca]
          cases s.loses a (w.moments n a.key) <;> simp
        | false =>
          obtain ⟨d, hd⟩ := acquireLoop_takes has h
          refine ⟨_, (htook.trans hc.took).trans hd.took, ((hone _).add hout).add hd.outside, ?_⟩
          simp only [hall, Bool.false_eq_true, false_and, and_false, iff_false]
          intro heq
          apply hd.not_made_good hmem (Nat.le_add_left 1 (s.loses a (w.moments n a.key)).toNat)
          simpa [hca] using heq a hmem

/-- The call returns once the clock of a round has passed the timeout. -/
theorem acquireLoop_returns (as : List BucketArgs) {fuel n k : ℕ} (hk : k < fuel)
    (htime : timeout ≤ w.clock (n + k) - w.start) (s : Limiter) :
    (acquireLoop w as timeout fuel n s).1 ≠ none := by
  induction fuel generalizing n k s with
  | zero => omega
  | succ fuel ih =>
    unfold acquireLoop
    split
    · rename_i hlt
      split
      · simp
      · cases k with
        | zero =>
          rw [Nat.add_zero] at htime
          linarith
        | succ k =>
          have hk' : k < fuel := by omega
          apply ih hk'
          rwa [Nat.add_assoc, Nat.add_comm 1 k]
    · simp

end rounds

section call

variable (config : RateLimitConfig) (domain scanId : String) (tokens : Int)

lemma mem_domainArgs {a : BucketArgs} (h : a ∈ domainArgs config domain tokens) :
    a.key = "rl:domain:" ++ domain ∧ a.req = tokens := by
  unfold domainArgs at h
  split at h
  · split at h
    · cases h
    · rw [List.mem_singleton.mp h]
      exact ⟨rfl, rfl⟩
  · cases h

lemma nodup_domainArgs : ((domainArgs config domain tokens).map BucketArgs.key).Nodup := by
  unfold domainArgs
  split
  · split <;> simp
  · simp

/-- The kind of a key is told by its fourth character. -/
lemma ne_of_fourth {key key' : String} (h : key.toList[3]? ≠ key'.toList[3]?) : key ≠ key' := by
  rintro rfl
  exact h rfl

lemma scan_ne_domain : "rl:scan:" ++ scanId ≠ "rl:domain:" ++ domain :=
  ne_of_fourth (by simp)

lemma global_ne_domain : "rl:global" ≠ "rl:domain:" ++ domain :=
  ne_of_fourth (by simp)

lemma global_ne_scan : "rl:global" ≠ "rl:scan:" ++ scanId :=
  ne_of_fourth (by simp)

/-- The buckets of a call have different keys. -/
lemma asks_keysAndArgs : Asks tokens (keysAndArgs config domain scanId tokens) where
  req a ha := by
    simp only [keysAndArgs, laterArgs, List.mem_cons, List.mem_append, List.not_mem_nil,
      or_false] at ha
    rcases ha with rfl | ha | rfl
    · rfl
    · exact (mem_domainArgs config domain tokens ha).2
    · rfl
  nodup := by
    have hdomain : ∀ key ∈ (domainArgs config domain tokens).map BucketArgs.key,
        key = "rl:domain:" ++ domain := by
      intro key hkey
      obtain ⟨a, ha, rfl⟩ := List.mem_map.mp hkey
      exact (mem_domainArgs config domain tokens ha).1
    simp only [keysAndArgs, laterArgs, List.map_cons, List.map_append, List.map_nil]
    apply List.nodup_cons.mpr
    constructor
    · intro hmem
      rcases List.mem_append.mp hmem with hmem | hmem
      · exact global_ne_domain domain (hdomain _ hmem)
      · exact global_ne_scan scanId (List.mem_singleton.mp hmem)
    · apply List.Nodup.append (nodup_domainArgs config domain tokens) (List.nodup_singleton _)
      intro key hkey hscan
      rw [List.mem_singleton.mp hscan] at hkey
      exact scan_ne_domain domain scanId (hdomain _ hkey)

/-- Each of the buckets `as` was charged `tokens` in total when the call returned `true`,
and no bucket otherwise. -/
def AllOrNothing (as : List BucketArgs) (tokens : Int) (res : Bool) (s s' : Limiter) : Prop :=
  ∀ key, s'.charged key - s.charged key =
    if res = true ∧ key ∈ as.map BucketArgs.key then tokens else 0

lemma allOrNothing_iff {as : List BucketArgs} {res : Bool} {s s' : Limiter} {c : String → ℕ}
    (hc : Took tokens s s' c) (hout : ZeroOutside as c) :
    AllOrNothing as tokens res s s' ↔ tokens = 0 ∨ ∀ a ∈ as, c a.key = res.toNat := by
  have hkey : ∀ key, (s'.charged key - s.charged key =
      if res = true ∧ key ∈ as.map BucketArgs.key then tokens else 0) ↔
      tokens = 0 ∨ (key ∈ as.map BucketArgs.key → c key = res.toNat) := by
    intro key
    rw [hc key, add_sub_cancel_left]
    by_cases hmem : key ∈ as.map BucketArgs.key
    · cases res with
      | false => simp [hmem, or_comm]
      | true =>
        by_cases htokens : tokens = 0
        · simp [htokens]
        · simp [hmem, htokens]
    · simp [hmem, hout key hmem]
  unfold AllOrNothing
  rw [forall_congr' hkey, forall_or_left]
  simp only [List.forall_mem_map]

lemma ensureBackend_charges (w : Surroundings) (s : Limiter) :
    (ensureBackend w s).charges = s.charges := by
  unfold ensureBackend
  split <;> rfl

variable {config domain scanId tokens}

theorem acquire_all_or_nothing_iff {checkNetloc : String → Except ValueError Unit}
    {w : Surroundings} {url : String} {timeout : Int} {fuel : ℕ} {s s' : Limiter} {res : Bool}
    (hdomain : urlparseNetloc checkNetloc url = .ok domain)
    (h : acquire checkNetloc w config url scanId tokens timeout fuel s = (.ok (some res), s')) :
    AllOrNothing (keysAndArgs config domain scanId tokens) tokens res s s' ↔
      tokens = 0 ∨ TogetherFrom w (globalArgs config tokens)
        (laterArgs config domain scanId tokens) timeout fuel 0 (ensureBackend w s) := by
  unfold acquire at h
  simp only [hdomain, Prod.mk.injEq, Except.ok.injEq] at h
  obtain ⟨c, hc, hout, hiff⟩ :=
    acquireLoop_together (asks_keysAndArgs config domain scanId tokens) (Prod.ext h.1 h.2)
  have htook : Took tokens s s' c := by
    intro key
    have := hc key
    unfold Limiter.charged at this ⊢
    rwa [ensureBackend_charges] at this
  rw [← hiff]
  exact allOrNothing_iff tokens htook hout

end call

section examples

/-- A call without Redis, with half a second between two rounds. -/
def localSurroundings : Surroundings where
  scriptLoaded := false
  start := 0
  clock n := n / 2
  moments n _ := { now := n / 2 }

/-- One request a second in all, and five for the host. -/
def limitedHost : RateLimitConfig where
  globalLimit := 1
  domains := [("target.example", 5)]

def emptyGlobal : Limiter where
  buckets key := if key = "rl:global" then some ⟨0, 0, 1⟩ else none

/-- A call for `url` that waits two seconds at most, in its first `fuel` rounds. -/
def acquireHost (fuel : ℕ) : Except ValueError (Option Bool) × Limiter :=
  acquire (fun _ => .ok ()) localSurroundings limitedHost "https://target.example/users" "1" 1 2 fuel
    emptyGlobal

/-- The global bucket refuses in two rounds; in the third one all buckets give. -/
theorem acquire_all_or_nothing_iff_waiting :
    (acquireHost 2).1 = .ok none ∧ (acquireHost 3).1 = .ok (some true) ∧
      (keysAndArgs limitedHost "target.example" "1" 1).map BucketArgs.key =
        ["rl:global", "rl:domain:target.example", "rl:scan:1"] ∧
      AllOrNothing (keysAndArgs limitedHost "target.example" "1" 1) 1 true emptyGlobal
        (acquireHost 3).2 := by
  have hdomain : urlparseNetloc (fun _ => .ok ()) "https://target.example/users" =
      .ok "target.example" := by
    decide +kernel
  have hres : (acquireHost 3).1 = .ok (some true) := by decide +kernel
  refine ⟨by decide +kernel, hres, by decide +kernel, ?_⟩
  apply (acquire_all_or_nothing_iff hdomain (Prod.ext hres rfl)).mpr
  decide +kernel

/-- The bucket of scan 1 is empty, the others are full. -/
def emptyScan : Limiter where
  buckets key := if key = "rl:scan:1" then some ⟨0, 0, 1⟩ else none

/-- A call for `url` that waits one second at most. -/
def acquireScan (s : Limiter) : Except ValueError (Option Bool) × Limiter :=
  acquire (fun _ => .ok ()) localSurroundings {} "https://target.example/users" "1" 1 1 3 s

/-- The scan bucket refuses in the first round and gives in the second: the global bucket
is charged in both. -/
theorem acquire_charges_global_twice :
    (acquireScan emptyScan).1 = .ok (some true) ∧
      (acquireScan emptyScan).2.charged "rl:global" - emptyScan.charged "rl:global" = 2 ∧
      ¬AllOrNothing (keysAndArgs {} "target.example" "1" 1) 1 true emptyScan
        (acquireScan emptyScan).2 := by
  have htwo : (acquireScan emptyScan).2.charged "rl:global" - emptyScan.charged "rl:global" = 2 := by
    decide +kernel
  refine ⟨by decide +kernel, htwo, fun h => ?_⟩
  have hglobal := h "rl:global"
  rw [htwo, if_pos (by decide +kernel)] at hglobal
  cases hglobal

end examples

end SecurityScanner.RateLimiter

import Mathlib.Algebra.Order.Floor.Ring
import Mathlib.Data.Rat.Floor
import Mathlib.Tactic.Linarith
import SecurityScanner.Json
import SecurityScanner.Lib.Python
import SecurityScanner.Lib.Rounding
import SecurityScanner.Lib.SlidingWindow

/-!
# The request limit of the API

`rate_limit_middleware` of `executor/api/main.py`, which keeps for each client the times of the
requests it let through. It awaits nothing before it has decided, so that requests come one
after the other. A reading of `time.monotonic()` is the value of a float, and differences of
readings are rounded.
-/

namespace SecurityScanner.RequestLimit

open Python SlidingWindow

structure Settings where
  rateLimitEnabled : Bool := true
  rateLimitPerMinute : ℤ := 1000

/-- What the middleware reads of a request: the header `x-forwarded-for` and the host of
`request.client` may be missing. -/
structure Request where
  method : String
  path : String
  forwardedFor : Option String := none
  client : Option String := none

structure JSONResponse where
  statusCode : ℕ
  content : Json
  headers : List (String × String)
  deriving DecidableEq

/-- `callNext` stands for `await call_next(request)`; `indexError` is what `bucket[0]` raises on
an empty deque. -/
inductive Outcome where
  | callNext
  | respond (r : JSONResponse)
  | indexError
  deriving DecidableEq

def infraPaths : List String := ["/health", "/metrics", "/docs", "/redoc", "/openapi.json"]

/-- `_is_infra_path`. -/
def isInfraPath (path : String) : Bool :=
  infraPaths.any (fun p => p.toList.isPrefixOf path.toList) || path == "/"

/-- `fwd.split(",")[0].strip()`. -/
def firstHop (fwd : String) : String :=
  String.ofList (strip (String.ofList (fwd.toList.takeWhile (· != ','))))

/-- `_client_ip`. -/
def clientIp (request : Request) : String :=
  if truthy request.forwardedFor then firstHop (request.forwardedFor.getD "")
  else request.client.getD "unknown"

/-- The loop that drops what is out of the window: `now - bucket[0] > window`. -/
def dropOld (window now : ℚ) (bucket : List ℚ) : List ℚ :=
  bucket.dropWhile fun t => decide (window < Binary64.sub now t)

/-- `_rate_buckets`, where a client without an entry reads as one with an empty deque. -/
abbrev RateBuckets := String → List ℚ

/-- `int(x)`. -/
def int (x : ℚ) : ℤ := if x < 0 then ⌈x⌉ else ⌊x⌋

def tooManyRequests (retryAfter : ℤ) : JSONResponse where
  statusCode := 429
  content := .obj [("success", .bool false),
    ("message", .str "Too many requests. Please slow down and retry."),
    ("error", .obj [("type", .str "rate_limited"), ("retry_after_seconds", .int retryAfter)])]
  headers := [("Retry-After", toString retryAfter)]

/-- The requests that the middleware passes on unseen. -/
def exempt (settings : Settings) (request : Request) : Bool :=
  !settings.rateLimitEnabled || request.method == "OPTIONS" || isInfraPath request.path

/-- `rate_limit_middleware`. -/
def rateLimitMiddleware (settings : Settings) (buckets : RateBuckets) (request : Request) (now : ℚ) :
    Outcome × RateBuckets :=
  if exempt settings request then (.callNext, buckets)
  else
    let ip := clientIp request
    let window := 60
    let bucket := dropOld window now (buckets ip)
    if settings.rateLimitPerMinute ≤ bucket.length then
      match bucket with
      | [] => (.indexError, Function.update buckets ip [])
      | oldest :: rest =>
        (.respond (tooManyRequests (int (Binary64.sub window (Binary64.sub now oldest)) + 1)),
          Function.update buckets ip (oldest :: rest))
    else (.callNext, Function.update buckets ip (bucket ++ [now]))

structure Arrival where
  request : Request
  now : ℚ

structure Served extends Arrival where
  outcome : Outcome

/-- The buckets of the process and what it has answered so far. -/
structure Server where
  buckets : RateBuckets := fun _ => []
  served : List Served := []

def Server.handle (settings : Settings) (s : Server) (a : Arrival) : Server :=
  let (outcome, buckets) := rateLimitMiddleware settings s.buckets a.request a.now
  ⟨buckets, s.served ++ [⟨a, outcome⟩]⟩

/-- The server after some requests. -/
def serve (settings : Settings) (arrivals : List Arrival) : Server :=
  arrivals.foldl (Server.handle settings) {}

/-- What the middleware does with a request that comes after others. -/
def outcomeAfter (settings : Settings) (before : List Arrival) (a : Arrival) : Outcome :=
  (rateLimitMiddleware settings (serve settings before).buckets a.request a.now).1

/-- A request of the client `ip` that counts towards its limit. -/
def ofClient (settings : Settings) (ip : String) (a : Arrival) : Bool :=
  !exempt settings a.request && clientIp a.request == ip

/-- The times at which requests of a client were let through. -/
def Server.admitted (settings : Settings) (s : Server) (ip : String) : List ℚ :=
  (s.served.filter fun e => ofClient settings ip e.toArrival && e.outcome == .callNext).map (·.now)

/-- The limit, and what a client is promised about refusals, up to `slack` seconds. -/
structure Promised (settings : Settings) (arrivals : List Arrival) (slack : ℚ) : Prop where
  /-- No window of a minute has more of a client's requests than the limit. -/
  sparse : ∀ ip start, ((inWindow 60 start ((serve settings arrivals).admitted settings ip)).length :
    ℤ) ≤ settings.rateLimitPerMinute
  /-- A refused client has used its limit up. -/
  refused : ∀ before a after, arrivals = before ++ a :: after →
    outcomeAfter settings before a ≠ .callNext →
    settings.rateLimitPerMinute ≤ ((inWindow (60 + slack) (a.now - (60 + slack))
      ((serve settings before).admitted settings (clientIp a.request))).length : ℤ)
  /-- It gets through once it has waited as told. -/
  retried : ∀ before a between a' after retryAfter,
    arrivals = before ++ a :: between ++ a' :: after →
    outcomeAfter settings before a = .respond (tooManyRequests retryAfter) →
    clientIp a'.request = clientIp a.request →
    (∀ b ∈ between, ofClient settings (clientIp a.request) b = false) →
    a.now + retryAfter + slack ≤ a'.now →
    outcomeAfter settings (before ++ a :: between) a' = .callNext

section window

/-- Half of the distance of the floats between 32 and 64. -/
def halfUlp : ℚ := 1 / 2 ^ 48

/-- A difference that is rounded to 60 is not seen to be longer. -/
lemma lt_sub_iff (now t : ℚ) : 60 < Binary64.sub now t ↔ 60 + halfUlp < now - t := by
  unfold Binary64.sub halfUlp
  set x := now - t
  have hsixty : ∀ {x : ℚ}, x ≤ 60 → 0 ≤ x → Binary64.nearest x ≤ (60 : ℤ) := fun hle hpos =>
    Binary64.nearest_le (by rw [abs_of_nonneg hpos]; linarith) (by exact_mod_cast hle)
  rcases le_or_gt x 0 with hneg | hpos
  · have hnearest := Binary64.nearest_nonpos hneg
    constructor <;> intro h <;> linarith
  rcases le_or_gt x 60 with hle | hgt
  · have hnearest := hsixty hle hpos.le
    push_cast at hnearest
    constructor <;> intro h <;> linarith
  rcases lt_or_ge x 64 with hlt | hge
  · have hiff := Binary64.lt_nearest_iff (k := 5) (n := 60 * 2 ^ 47) (by decide)
      (show (2 : ℚ) ^ (5 : ℤ) ≤ x by norm_num; linarith) (by norm_num; linarith) (by decide)
    norm_num at hiff ⊢
    exact hiff
  · have hnearest := Binary64.zpow_le_nearest (k := 6) (by decide)
      (show (2 : ℚ) ^ (6 : ℤ) ≤ x by norm_num; linarith)
    norm_num at hnearest
    constructor <;> intro h <;> linarith

/-- So the window is a little longer than a minute. -/
lemma dropOld_eq (now : ℚ) (bucket : List ℚ) :
    dropOld 60 now bucket = expire (60 + halfUlp) now bucket := by
  unfold dropOld expire
  congr 1
  funext t
  exact decide_eq_decide.mpr (lt_sub_iff now t)

end window

section step

variable {settings : Settings} {s : Server} {a : Arrival}

/-- A request either passes unseen, or is let through and noted, or is refused while the bucket
of its client, rid of what is out of the window, is full. -/
lemma middleware_cases (hlimit : 1 ≤ settings.rateLimitPerMinute) (buckets : RateBuckets)
    (request : Request) (now : ℚ) :
    let bucket := expire (60 + halfUlp) now (buckets (clientIp request))
    (exempt settings request = true ∧
      rateLimitMiddleware settings buckets request now = (.callNext, buckets)) ∨
    (exempt settings request = false ∧ (bucket.length : ℤ) < settings.rateLimitPerMinute ∧
      rateLimitMiddleware settings buckets request now =
        (.callNext, Function.update buckets (clientIp request) (bucket ++ [now]))) ∨
    (exempt settings request = false ∧ settings.rateLimitPerMinute ≤ bucket.length ∧
      ∃ oldest rest, bucket = oldest :: rest ∧
        rateLimitMiddleware settings buckets request now =
          (.respond (tooManyRequests
              (int (Binary64.sub 60 (Binary64.sub now oldest)) + 1)),
            Function.update buckets (clientIp request) bucket)) := by
  intro bucket
  have hdrop : dropOld 60 now (buckets (clientIp request)) = bucket := dropOld_eq now _
  unfold rateLimitMiddleware
  by_cases hexempt : exempt settings request
  · left
    simp [hexempt]
  · right
    have hexempt' : exempt settings request = false := by simpa using hexempt
    rw [if_neg hexempt]
    dsimp only
    rw [hdrop]
    by_cases hfull : settings.rateLimitPerMinute ≤ bucket.length
    · right
      refine ⟨hexempt', hfull, ?_⟩
      cases hb : bucket with
      | nil =>
        rw [hb, List.length_nil] at hfull
        omega
      | cons oldest rest =>
        rw [hb] at hfull
        exact ⟨oldest, rest, rfl, if_pos hfull⟩
    · left
      exact ⟨hexempt', not_le.mp hfull, if_neg hfull⟩

lemma handle_buckets : (s.handle settings a).buckets =
    (rateLimitMiddleware settings s.buckets a.request a.now).2 := rfl

/-- The log of a client grows by the time of a request of it that is let through. -/
lemma handle_admitted (ip : String) : (s.handle settings a).admitted settings ip =
    s.admitted settings ip ++ if ofClient settings ip a &&
      (rateLimitMiddleware settings s.buckets a.request a.now).1 == .callNext then [a.now]
      else [] := by
  unfold Server.handle Server.admitted
  dsimp only
  rw [List.filter_append, List.map_append]
  congr 1
  cases h : ofClient settings ip a &&
    (rateLimitMiddleware settings s.buckets a.request a.now).1 == .callNext with
  | true => simp [h]
  | false => simp [h]

/-- Requests that do not count for a client leave its bucket alone. -/
lemma handle_buckets_other {ip : String} (hother : ofClient settings ip a = false) :
    (s.handle settings a).buckets ip = s.buckets ip := by
  unfold ofClient at hother
  rw [handle_buckets, rateLimitMiddleware]
  by_cases hexempt : exempt settings a.request
  · rw [if_pos hexempt]
  · have hip : ip ≠ clientIp a.request := by
      rintro rfl
      simp [hexempt] at hother
    rw [if_neg hexempt]
    dsimp only
    split
    · split <;> exact Function.update_of_ne hip _ _
    · exact Function.update_of_ne hip _ _

end step

section run

variable {settings : Settings}

/-- Every bucket tracks the log of its client. -/
def Server.Sound (settings : Settings) (s : Server) (clock : ℚ) : Prop :=
  ∀ ip, Tracks (60 + halfUlp) settings.rateLimitPerMinute.toNat (s.admitted settings ip)
    (s.buckets ip) clock

/-- One request keeps the buckets and the logs together. -/
lemma Server.Sound.handle {s : Server} {a : Arrival} (hlimit : 1 ≤ settings.rateLimitPerMinute)
    (h : s.Sound settings a.now) : (s.handle settings a).Sound settings a.now := by
  intro ip
  rw [handle_admitted, handle_buckets]
  rcases middleware_cases hlimit s.buckets a.request a.now with
    ⟨hexempt, hmiddle⟩ | ⟨hexempt, hroom, hmiddle⟩ | ⟨hexempt, -, oldest, rest, -, hmiddle⟩
  · have hother : ofClient settings ip a = false := by simp [ofClient, hexempt]
    simpa [hmiddle, hother] using h ip
  · by_cases hip : ip = clientIp a.request
    · subst hip
      have hown : ofClient settings (clientIp a.request) a = true := by simp [ofClient, hexempt]
      have hroom' : (expire (60 + halfUlp) a.now (s.buckets (clientIp a.request))).length <
          settings.rateLimitPerMinute.toNat := by omega
      simpa [hmiddle, hown] using ((h (clientIp a.request)).expire le_rfl).push hroom'
    · have hother : ofClient settings ip a = false := by simp [ofClient, Ne.symm hip]
      simpa [hmiddle, hother, hip] using h ip
  · by_cases hip : ip = clientIp a.request
    · subst hip
      simpa [hmiddle] using (h (clientIp a.request)).expire le_rfl
    · simpa [hmiddle, hip] using h ip

lemma serve_append_singleton (before : List Arrival) (a : Arrival) :
    serve settings (before ++ [a]) = (serve settings before).handle settings a :=
  List.foldl_append

/-- And so do requests whose times do not fall. -/
lemma serve_sound (hlimit : 1 ≤ settings.rateLimitPerMinute) (arrivals : List Arrival)
    (hclock : arrivals.Pairwise (fun a a' => a.now ≤ a'.now)) {clock : ℚ}
    (hpast : ∀ a ∈ arrivals, a.now ≤ clock) : (serve settings arrivals).Sound settings clock := by
  induction arrivals using List.reverseRecOn generalizing clock with
  | nil => exact fun ip => Tracks.empty _ _ _
  | append_singleton before a ih =>
    obtain ⟨hbefore, -, hlast⟩ := List.pairwise_append.mp hclock
    have hsound : (serve settings before).Sound settings a.now :=
      ih hbefore fun b hb => hlast b hb a List.mem_cons_self
    rw [serve_append_singleton]
    exact fun ip => ((hsound.handle hlimit) ip).later (hpast a (by simp))

/-- A bucket waits for the next request of its client. -/
lemma serve_buckets_other {ip : String} (before between : List Arrival)
    (hother : ∀ b ∈ between, ofClient settings ip b = false) :
    (serve settings (before ++ between)).buckets ip = (serve settings before).buckets ip := by
  induction between using List.reverseRecOn with
  | nil => rw [List.append_nil]
  | append_singleton between b ih =>
    rw [← List.append_assoc, serve_append_singleton, handle_buckets_other (hother b (by simp))]
    exact ih fun c hc => hother c (List.mem_append_left _ hc)

lemma lt_int_add_one (x : ℚ) : x < (int x + 1 : ℤ) := by
  unfold int
  by_cases hx : x < 0
  · rw [if_pos hx]
    push_cast
    exact (Int.le_ceil x).trans_lt (lt_add_one _)
  · rw [if_neg hx]
    push_cast
    exact Int.lt_floor_add_one x

/-- The seconds that a refused client is told are longer than the oldest time of its bucket
stays in the minute. -/
lemma lt_retryAfter {waited : ℚ} (hpos : 0 ≤ waited) (hle : Binary64.nearest waited ≤ 60) :
    60 < waited + (int (Binary64.sub 60 (Binary64.nearest waited)) + 1 : ℤ) := by
  set retryAfter := int (Binary64.sub 60 (Binary64.nearest waited)) + 1 with hretry
  have hnonneg := Binary64.nearest_nonneg hpos
  have hlt : 60 - Binary64.nearest waited < retryAfter := by
    by_contra hge
    have hnearest : (retryAfter : ℚ) ≤ Binary64.sub 60 (Binary64.nearest waited) :=
      Binary64.le_nearest (by rw [abs_of_nonneg (by linarith)]; linarith) (not_lt.mp hge)
    exact absurd (lt_int_add_one (Binary64.sub 60 (Binary64.nearest waited))) (not_lt.mpr hnearest)
  by_contra hge
  have hwaited : waited ≤ (60 - retryAfter : ℤ) := by
    push_cast
    linarith
  have hnearest : Binary64.nearest waited ≤ (60 - retryAfter : ℤ) :=
    Binary64.nearest_le (by rw [abs_of_nonneg hpos]; linarith) hwaited
  push_cast at hnearest
  linarith

lemma tooManyRequests_inj {n m : ℤ} (h : tooManyRequests n = tooManyRequests m) : n = m := by
  simpa [tooManyRequests] using congrArg JSONResponse.content h

/-- What a refusal tells of the bucket of the client. -/
lemma refused {buckets : RateBuckets} {request : Request} {now : ℚ}
    (hlimit : 1 ≤ settings.rateLimitPerMinute)
    (h : (rateLimitMiddleware settings buckets request now).1 ≠ .callNext) :
    settings.rateLimitPerMinute ≤
        (expire (60 + halfUlp) now (buckets (clientIp request))).length ∧
      ∃ oldest rest, expire (60 + halfUlp) now (buckets (clientIp request)) = oldest :: rest ∧
        rateLimitMiddleware settings buckets request now =
          (.respond (tooManyRequests (int (Binary64.sub 60 (Binary64.sub now oldest)) + 1)),
            Function.update buckets (clientIp request)
              (expire (60 + halfUlp) now (buckets (clientIp request)))) := by
  rcases middleware_cases hlimit buckets request now with
    ⟨-, hmiddle⟩ | ⟨-, -, hmiddle⟩ | ⟨-, hfull, hmiddle⟩
  · exact absurd (congrArg Prod.fst hmiddle) h
  · exact absurd (congrArg Prod.fst hmiddle) h
  · exact ⟨hfull, hmiddle⟩

lemma inWindow_length_le {width width' start : ℚ} (h : width ≤ width') (log : List ℚ) :
    (inWindow width start log).length ≤ (inWindow width' start log).length := by
  unfold inWindow
  rw [← List.countP_eq_length_filter, ← List.countP_eq_length_filter]
  refine List.countP_mono_left fun t _ ht => ?_
  simp only [decide_eq_true_eq] at ht ⊢
  exact ⟨ht.1, ht.2.trans (by linarith)⟩

/-- What is promised holds up to the half of a unit in the last place. -/
theorem rate_limit_middleware_limits (hlimit : 1 ≤ settings.rateLimitPerMinute)
    (arrivals : List Arrival) (hclock : arrivals.Pairwise (fun a a' => a.now ≤ a'.now)) :
    Promised settings arrivals halfUlp := by
  have hslack : (0 : ℚ) ≤ halfUlp := by decide +kernel
  have hsound : ∀ before a after, arrivals = before ++ a :: after →
      (serve settings before).Sound settings a.now := by
    rintro before a after rfl
    obtain ⟨hbefore, -, hlater⟩ := List.pairwise_append.mp hclock
    exact serve_sound hlimit before hbefore fun b hb => hlater b hb a List.mem_cons_self
  refine ⟨fun ip start => ?_, ?_, ?_⟩
  · obtain ⟨clock, hpast⟩ : ∃ clock, ∀ a ∈ arrivals, a.now ≤ clock := by
      rcases List.eq_nil_or_concat arrivals with rfl | ⟨before, last, rfl⟩
      · exact ⟨0, by simp⟩
      · refine ⟨last.now, fun a ha => ?_⟩
        rw [List.concat_eq_append] at hclock ha
        rcases List.mem_append.mp ha with ha | ha
        · exact (List.pairwise_append.mp hclock).2.2 a ha last List.mem_cons_self
        · exact (congrArg Arrival.now (List.mem_singleton.mp ha)).le
    have hsparse := (serve_sound hlimit arrivals hclock hpast ip).sparse start
    have hwidth : (60 : ℚ) ≤ 60 + halfUlp := by linarith
    have hminute := @inWindow_length_le _ _ start hwidth
      ((serve settings arrivals).admitted settings ip)
    omega
  · intro before a after harrivals hrefused
    obtain ⟨hfull, -⟩ := refused hlimit hrefused
    have htracks := hsound before a after harrivals (clientIp a.request)
    rw [← htracks.expire_eq le_rfl]
    exact hfull
  · intro before a between a' after retryAfter harrivals hrefused hip hbetween hwaited
    obtain ⟨hfull, oldest, rest, hbucket, hmiddle⟩ :=
      refused hlimit (fun h => by rw [outcomeAfter, h] at hrefused; cases hrefused)
    have hretry : retryAfter = int (Binary64.sub 60 (Binary64.sub a.now oldest)) + 1 := by
      rw [outcomeAfter, hmiddle] at hrefused
      exact tooManyRequests_inj (Outcome.respond.inj hrefused).symm
    -- The refusal leaves the bucket as it found it, and so do the requests of other clients.
    have hkept : (serve settings (before ++ a :: between)).buckets (clientIp a'.request) =
        oldest :: rest := by
      rw [List.append_cons, hip, serve_buckets_other _ _ hbetween, serve_append_singleton,
        handle_buckets, hmiddle, hbucket]
      exact Function.update_self _ _ _
    have htracks := (hsound before a (between ++ a' :: after) (by simpa using harrivals)
      (clientIp a.request)).expire le_rfl
    by_contra hagain
    obtain ⟨hfull', -⟩ := refused hlimit hagain
    have hgone : 60 + halfUlp < a'.now - oldest := by
      obtain ⟨old, hlog, -⟩ := htracks.split
      have hpast : oldest ≤ a.now := by
        refine htracks.past oldest ?_
        rw [hlog, hbucket]
        exact List.mem_append_right old List.mem_cons_self
      have hseen : Binary64.sub a.now oldest ≤ 60 := not_lt.mp fun h =>
        not_lt.mpr (sub_le_of_expire_cons hbucket) ((lt_sub_iff a.now oldest).mp h)
      have htold := lt_retryAfter (sub_nonneg.mpr hpast) hseen
      change 60 < _ + ((int (Binary64.sub 60 (Binary64.sub a.now oldest)) + 1 : ℤ) : ℚ) at htold
      rw [← hretry] at htold
      linarith
    have hroom := length_expire_lt rest hgone
    have hbounded := htracks.bounded
    rw [hbucket] at hbounded
    rw [hkept] at hfull'
    omega

/-- A second request half a second after the first waits for the minute to end. -/
theorem rate_limit_middleware_limits_retry :
    let request : Request := { method := "GET", path := "/scans", forwardedFor := some " ::1 , ::2" }
    outcomeAfter ⟨true, 1⟩ [⟨request, 0⟩] ⟨request, 1 / 2⟩ = .respond (tooManyRequests 60) ∧
      outcomeAfter ⟨true, 1⟩ [⟨request, 0⟩, ⟨request, 1 / 2⟩] ⟨request, 61⟩ = .callNext := by
  intro request
  have hrefused : outcomeAfter ⟨true, 1⟩ [⟨request, 0⟩] ⟨request, 1 / 2⟩ =
      .respond (tooManyRequests 60) := by decide +kernel
  exact ⟨hrefused, (@rate_limit_middleware_limits ⟨true, 1⟩ (by decide)
    [⟨request, 0⟩, ⟨request, 1 / 2⟩, ⟨request, 61⟩] (by norm_num)).retried
    [⟨request, 0⟩] ⟨request, 1 / 2⟩ [] ⟨request, 61⟩ [] 60 rfl hrefused rfl (by simp)
    (by decide +kernel)⟩

/-- The last reading is more than a minute after the first by what is rounded away. -/
def roundedArrivals (request : Request) : List Arrival :=
  [⟨request, 1 / 2 ^ 48⟩, ⟨request, 30 + 1 / 2 ^ 47⟩, ⟨request, 60 + 1 / 2 ^ 47⟩]

/-- The promise fails without the slack: the second request is told to wait 30 seconds, and is
refused again when it has. -/
theorem rate_limit_middleware_rounds :
    let arrivals := roundedArrivals { method := "GET", path := "/scans" }
    (∀ a ∈ arrivals, Binary64.nearest a.now = a.now) ∧
      arrivals.Pairwise (fun a a' => a.now ≤ a'.now) ∧ ¬Promised ⟨true, 1⟩ arrivals 0 := by
  intro arrivals
  refine ⟨by decide +kernel, by decide +kernel, fun h => ?_⟩
  have hagain := h.retried [⟨_, 1 / 2 ^ 48⟩] ⟨_, 30 + 1 / 2 ^ 47⟩ [] ⟨_, 60 + 1 / 2 ^ 47⟩ [] 30 rfl
    (by decide +kernel) rfl (by simp) (by decide +kernel)
  revert hagain
  decide +kernel

end run

end SecurityScanner.RequestLimit

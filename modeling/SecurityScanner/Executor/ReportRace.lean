import SecurityScanner.Executor.AdaptiveRate
import SecurityScanner.Lib.ThreadPool

/-!
# Concurrent reports of 429s

`report_429` reads the multiplier with `HMGET` and writes it with `HSET`, and between the two
other workers send their commands. `TOKEN_BUCKET_SCRIPT` writes the multiplier back that it has
read, in one command. A report is lost when another one reads before it has written.
-/

namespace SecurityScanner.RateLimiter

open Url Interleaving

section commands

/-- What a call of the limiter can fail with. -/
inductive LimiterError where
  | valueError (e : ValueError)
  | redis
  deriving DecidableEq

/-- The commands to Redis and the accesses to what the process holds. -/
inductive Cmd where
  | scriptingSupported
  | scriptingFailed
  | hmget (key : String)
  | hset (key : String) (multiplier : ℚ)
  | evalsha (a : BucketArgs)
  | localReport429 (key : String)
  deriving DecidableEq

abbrev Reply : Cmd → Type
  | .scriptingSupported => Option Bool
  | .hmget _ => Option ℚ
  | .evalsha _ => Bool
  | _ => Unit

/-- What the environment adds to a command: the clock, and how the command fails. -/
structure Turn where
  now : ℚ := 0
  fault : Option Fault := none
  deriving DecidableEq

/-- A write of Redis under a fault. -/
def written (s s' : Limiter) : Option Fault → Except LimiterError Unit × Limiter
  | none => (.ok (), s')
  | some .unreached => (.error .redis, s)
  | some .lostReply => (.error .redis, s')

def Limiter.effect (c : Cmd) (t : Turn) (s : Limiter) : Except LimiterError (Reply c) × Limiter :=
  match c with
  | .scriptingSupported => (.ok s.scriptingSupported, s)
  | .scriptingFailed => (.ok (), { s with scriptingSupported := some false })
  | .hmget key =>
    match t.fault with
    | none => (.ok (s.redis key).adaptiveMultiplier, s)
    | some _ => (.error .redis, s)
  | .hset key multiplier =>
    written s (s.putRedis key { s.redis key with adaptiveMultiplier := some multiplier }) t.fault
  | .evalsha a =>
    match evalsha s a { now := t.now, fault := t.fault } with
    | (some res, s) => (.ok res, s)
    | (none, s) => (.error .redis, s)
  | .localReport429 key =>
    (.ok (), s.putLocal key (LocalTokenBucket.report429 (s.buckets key) t.now))

abbrev await (c : Cmd) : Prog Cmd Reply LimiterError (Reply c) := Prog.perform c

variable (checkNetloc : String → Except ValueError Unit)

/-- `RateLimiter.report_429`, command by command. -/
def report429Calls (url : String) : Prog Cmd Reply LimiterError Unit :=
  match urlparseNetloc checkNetloc url with
  | .error e => throw (.valueError e)
  | .ok domain => do
    let key := "rl:domain:" ++ domain
    if (← await .scriptingSupported) = some true then
      try
        let multiplier := (← await (.hmget key)).getD 1
        await (.hset key (halved multiplier))
      catch _ =>
        await .scriptingFailed
        await (.localReport429 key)
    else await (.localReport429 key)

/-- A worker that executes `TOKEN_BUCKET_SCRIPT` once. -/
def scriptCall (a : BucketArgs) : Prog Cmd Reply LimiterError Unit := do
  try
    let _ ← await (.evalsha a)
  catch _ => pure ()

/-- Any number of workers over one Redis. -/
def workerSystem : System Cmd Reply LimiterError Limiter Turn where
  effect c t s := some (s.effect c t)
  fork _ _ := none

/-- Nobody comes between the commands of a report that runs alone. -/
theorem report429Calls_run (url : String) (now : ℚ) (s : Limiter) :
    (((report429Calls checkNetloc url).run (fun c s => s.effect c { now }) s).2 =
        (report429 checkNetloc s url { now }).2) := by
  unfold report429Calls report429
  cases urlparseNetloc checkNetloc url with
  | error e => rfl
  | ok domain =>
    by_cases hs : s.scriptingSupported = some true
    · simp [Limiter.effect, Limiter.suspend, hs, written]
    · simp [Limiter.effect, Limiter.suspend, hs]

end commands

section script

variable {s : Limiter} {a : BucketArgs} {now : ℚ} {key : String}

/-- The multiplier of a key in Redis. -/
def redisMultiplier (s : Limiter) (key : String) : ℚ := (s.redis key).adaptiveMultiplier.getD 1

/-- The `EXPIRE` of a script does not remove the key. -/
def Remains (key : String) (s : Limiter) (t : Turn) : Cmd → Bool
  | .evalsha a => a.key ≠ key ∨ (tokenBucketScript s a t.now).1 ≠ some true ∨
      (tokenBucketScript s a t.now).2.redis key ≠ {}
  | _ => true

lemma scriptBucket_multiplier {h : BucketHash} {b : Bucket} (hb : scriptBucket h a now = some b) :
    b.multiplier = h.adaptiveMultiplier.getD 1 := by
  unfold scriptBucket at hb
  split at hb
  · obtain rfl := Option.some.inj hb
    rfl
  · obtain rfl := Option.some.inj hb
    rfl
  · cases hb

/-- The script writes back the multiplier that it has read. -/
lemma redisMultiplier_script (hkey : a.key ≠ key ∨ (tokenBucketScript s a now).1 ≠ some true ∨
      (tokenBucketScript s a now).2.redis key ≠ {}) :
    redisMultiplier (tokenBucketScript s a now).2 key = redisMultiplier s key ∧
      (tokenBucketScript s a now).2.scriptingSupported = s.scriptingSupported := by
  unfold tokenBucketScript at hkey ⊢
  cases hb : scriptBucket (s.redis a.key) a now with
  | none => exact ⟨rfl, rfl⟩
  | some b =>
    have hmult := scriptBucket_multiplier hb
    have hwritten : ∀ b' : Bucket, b'.multiplier = b.multiplier →
        redisMultiplier (s.putRedis a.key b'.hash) key = redisMultiplier s key := by
      intro b' hb'
      by_cases h : key = a.key
      · subst h
        simp [redisMultiplier, Limiter.putRedis, Bucket.hash, hb', hmult]
      · simp [redisMultiplier, Limiter.putRedis, h]
    rw [hb] at hkey
    dsimp only at hkey ⊢
    by_cases hreq : (a.req : ℚ) ≤ b.tokens
    · rw [if_pos hreq] at hkey ⊢
      cases httl : scriptTtl a b with
      | none => exact ⟨hwritten (b.take a.req) rfl, rfl⟩
      | some ttl =>
        rw [httl] at hkey
        dsimp only at hkey ⊢
        by_cases hpos : ttl ≤ 0
        · rw [if_pos hpos] at hkey ⊢
          have hne : key ≠ a.key := by
            rintro rfl
            simp [Limiter.putRedis] at hkey
          refine ⟨?_, rfl⟩
          simp [redisMultiplier, Limiter.putRedis, Limiter.charge, hne]
        · rw [if_neg hpos]
          exact ⟨hwritten (b.take a.req) rfl, rfl⟩
    · rw [if_neg hreq]
      exact ⟨hwritten b rfl, rfl⟩

end script

section protocol

/-- A report before its read, between its read of `x` and its write, and anything else. -/
inductive Reporter where
  | before
  | holding (x : ℚ)
  | idle
  deriving DecidableEq

def Reporter.isHolding : Reporter → Bool
  | .holding _ => true
  | _ => false

/-- The calls of a report about `key` and of a script. -/
def reportProtocol (key : String) : Protocol Cmd Reply LimiterError Reporter where
  allowed
    | .before, .scriptingSupported => True
    | .before, .hmget k => k = key
    | .holding x, .hset k multiplier => k = key ∧ multiplier = halved x
    | .idle, .evalsha _ => True
    | _, _ => False
  reply
    | _, .scriptingSupported, r => r = .ok (some true)
    | _, .evalsha _, _ => True
    | _, _, r => ∃ a, r = .ok a
  next
    | _, .hmget _, .ok x, g => g = .holding (x.getD 1)
    | _, .hset _ _, _, g => g = .idle
    | g, _, _, g' => g' = g
  child g _ := g
  looping _ := True
  looping_next _ _ _ _ _ _ _ := trivial

variable {checkNetloc : String → Except ValueError Unit}

/-- A report reads once, and writes half of what it has read. -/
lemma follows_report429Calls {url domain : String} (hurl : urlparseNetloc checkNetloc url = .ok domain) :
    Follows (reportProtocol ("rl:domain:" ++ domain)) .before (report429Calls checkNetloc url)
      (fun _ g => g = .idle) := by
  simp only [report429Calls, hurl, follows_bind, await, follows_perform]
  refine ⟨trivial, ?_⟩
  rintro - rfl
  refine ⟨.before, rfl, ?_⟩
  simp only [↓reduceIte, follows_tryCatch, follows_bind, follows_perform]
  refine ⟨rfl, ?_⟩
  rintro - ⟨x, rfl⟩
  refine ⟨.holding (x.getD 1), rfl, ⟨rfl, rfl⟩, ?_⟩
  rintro - ⟨u, rfl⟩
  exact ⟨.idle, rfl, rfl⟩

lemma follows_scriptCall (key : String) (a : BucketArgs) :
    Follows (reportProtocol key) .idle (scriptCall a) (fun _ g => g = .idle) := by
  simp only [scriptCall, follows_tryCatch, follows_bind, await, follows_perform]
  refine ⟨trivial, fun r _ => ⟨.idle, ?_, ?_⟩⟩
  · cases r <;> rfl
  · cases r <;> rfl

end protocol

section runs

/-- Redis answers, and the key does not expire. -/
def Served (key : String) (p : Pool Cmd Reply LimiterError Limiter) : Act Turn → Prop
  | .run i t => t.fault = none ∧ ∀ c ∈ p.call? (.run i t), Remains key p.store t c
  | .again _ => True

instance (key : String) (p : Pool Cmd Reply LimiterError Limiter) (act : Act Turn) :
    Decidable (Served key p act) := by
  cases act <;> unfold Served <;> infer_instance

/-- The next command of a thread writes the multiplier of the key. -/
def writesNext (key : String) (t : Thread Cmd Reply LimiterError) : Bool :=
  match t.body.head? with
  | some (.hset k _) => k = key
  | _ => false

/-- A report reads the multiplier while no other one is about to write it, or the multiplier
is so low that a single report brings it down to 0.1. -/
def ReadsAlone (key : String) (p : Pool Cmd Reply LimiterError Limiter) (act : Act Turn) : Prop :=
  p.call? act = some (.hmget key) →
    (∀ t ∈ p.threads, writesNext key t = false) ∨ redisMultiplier p.store key ≤ 1 / 5

instance (key : String) (p : Pool Cmd Reply LimiterError Limiter) (act : Act Turn) :
    Decidable (ReadsAlone key p act) := by
  unfold ReadsAlone
  infer_instance

/-- The reports of 429s for one domain, and workers that execute the script. -/
structure Reporting (checkNetloc : String → Except ValueError Unit) (domain : String)
    (urls : List String) (scripts : List BucketArgs) (m : ℚ)
    (p : Pool Cmd Reply LimiterError Limiter) : Prop where
  threads : p.threads = urls.map (⟨report429Calls checkNetloc ·, none⟩) ++
    scripts.map (⟨scriptCall ·, none⟩)
  urls_domain : ∀ url ∈ urls, urlparseNetloc checkNetloc url = .ok domain
  scripting : p.store.scriptingSupported = some true
  multiplier : redisMultiplier p.store ("rl:domain:" ++ domain) = m

/-- The reports that have written have halved the multiplier one after the other, and whoever
is about to write has read a value that does as well as the current one. -/
structure NoneLost (key : String) (n : ℕ) (m : ℚ) (s : Limiter) (gs : List Reporter) : Prop where
  scripting : s.scriptingSupported = some true
  halvings : ∃ k, k + gs.countP (· ≠ .idle) = n ∧ redisMultiplier s key = halved^[k] m
  fresh : ∀ x, .holding x ∈ gs → halved x = halved (redisMultiplier s key)
  alone : 1 / 5 < redisMultiplier s key → gs.countP Reporter.isHolding ≤ 1

lemma halved_of_le {x : ℚ} (hx : x ≤ 1 / 5) : halved x = 1 / 10 :=
  max_eq_left (by linarith)

lemma redisMultiplier_hset (s : Limiter) (key : String) (multiplier : ℚ) :
    redisMultiplier (s.putRedis key { s.redis key with adaptiveMultiplier := some multiplier }) key =
      multiplier := by
  simp [redisMultiplier, Limiter.putRedis]

lemma countP_isHolding {gs : List Reporter} (h : ∀ x, .holding x ∉ gs) :
    gs.countP Reporter.isHolding = 0 := by
  refine List.countP_eq_zero.mpr fun g hg => ?_
  cases g with
  | holding x => exact absurd hg (h x)
  | before => simp [Reporter.isHolding]
  | idle => simp [Reporter.isHolding]

/-- A thread whose report is about to write shows it. -/
lemma writesNext_of_holding {key : String} {x : ℚ} {t : Thread Cmd Reply LimiterError}
    (ht : t.Typed (reportProtocol key) .idle (.holding x)) : writesNext key t = true := by
  obtain ⟨body, l⟩ := t
  cases body with
  | pure a => cases ht.1
  | raise e => cases ht.1
  | call c k =>
    have hc : (reportProtocol key).allowed (.holding x) c := ht.1.1
    cases c <;> first | exact hc.elim | exact decide_eq_true hc.1

variable {key : String} {n : ℕ} {m : ℚ} {s s' : Limiter}

/-- A command that leaves the flag and the multiplier alone. -/
lemma NoneLost.frame {gs : List Reporter} (h : NoneLost key n m s gs)
    (hflag : s'.scriptingSupported = s.scriptingSupported)
    (hmult : redisMultiplier s' key = redisMultiplier s key) : NoneLost key n m s' gs where
  scripting := hflag ▸ h.scripting
  halvings := hmult ▸ h.halvings
  fresh := hmult ▸ h.fresh
  alone := hmult ▸ h.alone

lemma NoneLost.hmget {rest : List Reporter} (h : NoneLost key n m s (.before :: rest))
    (halone : (∀ x, .holding x ∉ rest) ∨ redisMultiplier s key ≤ 1 / 5) :
    NoneLost key n m s (.holding (redisMultiplier s key) :: rest) where
  scripting := h.scripting
  halvings := by simpa using h.halvings
  fresh x hx := by
    rcases List.mem_cons.mp hx with hx | hx
    · rw [Reporter.holding.inj hx]
    · exact h.fresh x (List.mem_cons_of_mem _ hx)
  alone hlow := by
    rcases halone with hnone | hle
    · rw [List.countP_cons_of_pos rfl, countP_isHolding hnone]
    · exact absurd hle (not_le.mpr hlow)

lemma NoneLost.hset {rest : List Reporter} {x : ℚ} (h : NoneLost key n m s (.holding x :: rest))
    (hflag : s'.scriptingSupported = s.scriptingSupported)
    (hmult : redisMultiplier s' key = halved x) : NoneLost key n m s' (.idle :: rest) := by
  have hx : halved x = halved (redisMultiplier s key) := h.fresh x List.mem_cons_self
  have hcount : 1 / 5 < redisMultiplier s key → ∀ y, .holding y ∉ rest := by
    intro hlow y hy
    have hpos : 0 < rest.countP Reporter.isHolding := List.countP_pos_iff.mpr ⟨_, hy, rfl⟩
    have hle := h.alone hlow
    simp only [List.countP_cons, Reporter.isHolding, ↓reduceIte] at hle
    omega
  refine ⟨hflag ▸ h.scripting, ?_, ?_, ?_⟩
  · obtain ⟨k, hk, heq⟩ := h.halvings
    refine ⟨k + 1, ?_, ?_⟩
    · have hone : (Reporter.holding x :: rest).countP (· ≠ .idle) = rest.countP (· ≠ .idle) + 1 :=
        List.countP_cons_of_pos (by simp)
      rw [List.countP_cons_of_neg (by simp)]
      omega
    · rw [hmult, hx, heq, Function.iterate_succ_apply']
  · intro y hy
    rcases List.mem_cons.mp hy with hy | hy
    · cases hy
    by_cases hlow : 1 / 5 < redisMultiplier s key
    · exact absurd hy (hcount hlow y)
    · have hhalf := halved_of_le (not_lt.mp hlow)
      rw [h.fresh y (List.mem_cons_of_mem _ hy), hmult, hx, hhalf, halved_of_le (by norm_num)]
  · intro hlow
    have hnone : ∀ y, .holding y ∉ rest := by
      refine hcount (lt_of_not_ge fun hle => ?_)
      rw [hmult, hx, halved_of_le hle] at hlow
      norm_num at hlow
    simp [Reporter.isHolding, countP_isHolding hnone]

lemma NoneLost.effect {g : Reporter} {rest : List Reporter}
    (h : NoneLost key n m s (g :: rest)) {c : Cmd} (hc : (reportProtocol key).allowed g c) {t : Turn}
    (hfault : t.fault = none) (hremains : Remains key s t c)
    (halone : c = .hmget key → (∀ x, .holding x ∉ rest) ∨ redisMultiplier s key ≤ 1 / 5)
    {r : Except LimiterError (Reply c)} (he : s.effect c t = (r, s')) :
    (reportProtocol key).reply g c r ∧
      ∀ g', (reportProtocol key).next g c r g' → NoneLost key n m s' (g' :: rest) := by
  cases c with
  | scriptingSupported =>
    obtain ⟨rfl, rfl⟩ := Prod.mk.inj he
    refine ⟨congrArg _ h.scripting, ?_⟩
    rintro g' rfl
    exact h
  | scriptingFailed => cases g <;> exact hc.elim
  | hmget k =>
    cases g <;> try exact hc.elim
    obtain rfl : k = key := hc
    simp only [Limiter.effect, hfault, Prod.mk.injEq] at he
    obtain ⟨rfl, rfl⟩ := he
    refine ⟨⟨_, rfl⟩, ?_⟩
    rintro g' rfl
    exact h.hmget (halone rfl)
  | hset k multiplier =>
    cases g <;> try exact hc.elim
    obtain ⟨rfl, rfl⟩ := hc
    simp only [Limiter.effect, hfault, written, Prod.mk.injEq] at he
    obtain ⟨rfl, rfl⟩ := he
    refine ⟨⟨_, rfl⟩, ?_⟩
    rintro g' rfl
    exact h.hset rfl (redisMultiplier_hset _ _ _)
  | evalsha a =>
    cases g <;> try exact hc.elim
    have hs' : s' = (tokenBucketScript s a t.now).2 := by
      simp only [Limiter.effect, evalsha, hfault] at he
      split at he
      · rename_i hscript
        rw [hscript]
        exact (Prod.mk.inj he).2.symm
      · rename_i hscript
        rw [hscript]
        exact (Prod.mk.inj he).2.symm
    have hscript := redisMultiplier_script (of_decide_eq_true hremains)
    refine ⟨trivial, ?_⟩
    rintro g' rfl
    exact h.frame (hs' ▸ hscript.2) (hs' ▸ hscript.1)
  | localReport429 k => cases g <;> exact hc.elim

lemma halved_iterate (m : ℚ) (n : ℕ) :
    halved^[n + 1] m = max (1 / 10) (m * (1 / 2) ^ (n + 1)) := by
  induction n with
  | zero => simp [halved]
  | succ n ih => rw [Function.iterate_succ_apply', ih, halved_max, mul_assoc, ← pow_succ]

variable {checkNetloc : String → Except ValueError Unit} {domain : String} {urls : List String}
  {scripts : List BucketArgs} {p : Pool Cmd Reply LimiterError Limiter}

lemma NoneLost.of_reachable
    (h : Reachable workerSystem (fun p act => Served ("rl:domain:" ++ domain) p act ∧
      ReadsAlone ("rl:domain:" ++ domain) p act) (Reporting checkNetloc domain urls scripts m) p) :
    ∃ gs, Typed (reportProtocol ("rl:domain:" ++ domain)) .idle gs p.threads ∧
      NoneLost ("rl:domain:" ++ domain) urls.length m p.store gs := by
  refine h.ghost_perm ?_ ?_ ?_ ?_
  · intro s gs gs' hp hJ
    refine ⟨hJ.scripting, ?_, fun x hx => hJ.fresh x (hp.mem_iff.mpr hx), ?_⟩
    · rw [← hp.countP_eq]
      exact hJ.halvings
    · rw [← hp.countP_eq]
      exact hJ.alone
  · intro p hp
    refine ⟨urls.map (fun _ => .before) ++ scripts.map (fun _ => .idle), ?_, ?_⟩
    · rw [hp.threads]
      refine Typed.append ?_ ?_
      · refine ⟨by simp, fun i g t hg ht => ?_⟩
        obtain ⟨url, hurl, rfl⟩ := List.mem_map.mp (List.mem_of_getElem? ht)
        obtain ⟨-, -, rfl⟩ := List.mem_map.mp (List.mem_of_getElem? hg)
        exact ⟨follows_report429Calls (hp.urls_domain url hurl), fun l hl => by cases hl⟩
      · refine ⟨by simp, fun i g t hg ht => ?_⟩
        obtain ⟨a, -, rfl⟩ := List.mem_map.mp (List.mem_of_getElem? ht)
        obtain ⟨-, -, rfl⟩ := List.mem_map.mp (List.mem_of_getElem? hg)
        exact ⟨follows_scriptCall _ a, fun l hl => by cases hl⟩
    · refine ⟨hp.scripting, ⟨0, ?_, hp.multiplier⟩, by simp, fun _ => ?_⟩
      · simp [List.countP_replicate]
      · rw [countP_isHolding (by simp)]
        exact Nat.zero_le 1
  · intro g c r q _ _ hq
    cases hq
  · intro p g rest i c k l t r s' hthreads hJ ht hc hok he
    have hcall : p.call? (.run i t) = some c := Pool.call?_run ht
    obtain ⟨⟨hfault, hremains⟩, hreads⟩ := hok
    refine hJ.effect hc hfault (hremains c hcall) (fun hget => ?_) (Option.some.inj he)
    rcases hreads (hget ▸ hcall) with hnone | hle
    · refine Or.inl fun x hx => ?_
      obtain ⟨t', ht', hty⟩ := hthreads _ (List.mem_cons_of_mem _ hx)
      exact absurd (hnone t' ht') (by simp [writesNext_of_holding hty])
    · exact Or.inr hle

/-- If no report reads while another one is about to write, as long as that matters, then
every report counts. -/
theorem no_report_lost
    (h : Reachable workerSystem (fun p act => Served ("rl:domain:" ++ domain) p act ∧
      ReadsAlone ("rl:domain:" ++ domain) p act) (Reporting checkNetloc domain urls scripts m) p)
    (hdone : ∀ t ∈ p.threads, t.body.head? = none) (hm : urls ≠ [] ∨ 1 / 10 ≤ m) :
    redisMultiplier p.store ("rl:domain:" ++ domain) = max (1 / 10) (m * (1 / 2) ^ urls.length) := by
  obtain ⟨gs, hty, hJ⟩ := NoneLost.of_reachable h
  have hidle : gs.countP (· ≠ .idle) = 0 := by
    refine List.countP_eq_zero.mpr fun g hg => ?_
    obtain ⟨t, ht, htyped⟩ := hty.thread hg
    obtain ⟨r, rfl⟩ := htyped.1.ended (hdone t ht)
    simp
  obtain ⟨k, hk, heq⟩ := hJ.halvings
  obtain rfl : k = urls.length := by omega
  rw [heq]
  cases urls with
  | nil =>
    have hm : 1 / 10 ≤ m := hm.resolve_left (· rfl)
    simpa using hm
  | cons url urls => exact halved_iterate m urls.length

end runs

section schedules

/-- Two reports about one host and a worker that asks its bucket, with a multiplier of 1. -/
def reportsAndScript : Pool Cmd Reply LimiterError Limiter where
  store := { scriptingSupported := some true }
  threads := List.map (⟨report429Calls (fun _ => .ok ()) ·, none⟩)
      ["http://shop.example/a", "http://shop.example/b"] ++
    List.map (⟨scriptCall ·, none⟩) [⟨"rl:domain:shop.example", 5, 5, 1⟩]

lemma reportsAndScript_reporting :
    Reporting (fun _ => .ok ()) "shop.example" ["http://shop.example/a", "http://shop.example/b"]
      [⟨"rl:domain:shop.example", 5, 5, 1⟩] 1 reportsAndScript where
  threads := rfl
  urls_domain := by decide +kernel
  scripting := rfl
  multiplier := rfl

/-- One report reads after the other has written, and the script runs in between. -/
theorem no_report_lost_serial :
    ∃ p, Reachable workerSystem (fun p act => Served ("rl:domain:" ++ "shop.example") p act ∧
        ReadsAlone ("rl:domain:" ++ "shop.example") p act)
        (Reporting (fun _ => .ok ()) "shop.example"
          ["http://shop.example/a", "http://shop.example/b"]
          [⟨"rl:domain:shop.example", 5, 5, 1⟩] 1) p ∧
      (∀ t ∈ p.threads, t.body.head? = none) ∧
      redisMultiplier p.store ("rl:domain:" ++ "shop.example") = max (1 / 10) (1 * (1 / 2) ^ 2) := by
  have hrun : (reportsAndScript.runActs workerSystem
      (fun p act => Served ("rl:domain:" ++ "shop.example") p act ∧
        ReadsAlone ("rl:domain:" ++ "shop.example") p act)
      [.run 0 {}, .run 0 {}, .run 2 {}, .run 0 {}, .run 1 {}, .run 1 {}, .run 1 {}]).map
      (fun p => p.threads.all fun t => t.body.head? = none) = some true := by
    decide +kernel
  obtain ⟨p, hp, hdone⟩ := Reachable.of_shown reportsAndScript_reporting hrun
  have hended : ∀ t ∈ p.threads, t.body.head? = none := by simpa using hdone
  refine ⟨p, hp, hended, ?_⟩
  rw [no_report_lost hp hended (Or.inl (by simp))]
  rfl

/-- Both reports read the multiplier before one of them has written it. -/
theorem report_lost :
    ∃ p, Reachable workerSystem (fun p act => Served ("rl:domain:" ++ "shop.example") p act)
        (Reporting (fun _ => .ok ()) "shop.example"
          ["http://shop.example/a", "http://shop.example/b"]
          [⟨"rl:domain:shop.example", 5, 5, 1⟩] 1) p ∧
      (∀ t ∈ p.threads, t.body.head? = none) ∧
      redisMultiplier p.store ("rl:domain:" ++ "shop.example") ≠
        max (1 / 10) (1 * (1 / 2) ^ 2) := by
  have hrun : (reportsAndScript.runActs workerSystem
      (fun p act => Served ("rl:domain:" ++ "shop.example") p act)
      [.run 0 {}, .run 0 {}, .run 1 {}, .run 1 {}, .run 0 {}, .run 2 {}, .run 1 {}]).map
      (fun p => (p.threads.all fun t => t.body.head? = none,
        redisMultiplier p.store ("rl:domain:" ++ "shop.example"))) = some (true, 1 / 2) := by
    decide +kernel
  obtain ⟨p, hp, hshown⟩ := Reachable.of_shown reportsAndScript_reporting hrun
  obtain ⟨hdone, hmult⟩ := Prod.mk.inj hshown
  refine ⟨p, hp, by simpa using hdone, ?_⟩
  rw [hmult]
  norm_num

end schedules

end SecurityScanner.RateLimiter

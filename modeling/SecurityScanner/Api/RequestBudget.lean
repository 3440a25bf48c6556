import SecurityScanner.Api.WirePayload
import SecurityScanner.Lib.Credits
import Mathlib.Algebra.Order.BigOperators.Group.List

/-!
# How much is done for a payload

Any number of engines and submissions share the stores; any call but those of the event loop
can raise, before its effect or after it. A payload is a credit for the requests and the saved
responses of its attempts, and every attempt is paid from it.
-/

namespace SecurityScanner

open Storage Interleaving

variable {δ : Type}

section worth

/-- The attempts a payload has left, the next one included. -/
def QueuePayload.attemptsLeft (p : QueuePayload) : ℕ := (p.maxRetries - p.attempt).toNat + 1

/-- The task whose response a session writes. -/
def Write.saved? : Write → Option TaskId
  | .insertResponse r => some r.taskId
  | .updateResponse _ new => some new.taskId
  | _ => none

def RedisWrite.removes : RedisWrite δ → Bool
  | .rpush .. => false
  | .zremrangebyscore .. => true

/-- The transaction of a mover appends due entries, and leaves no copy of them behind. -/
def Cmd.MovesDue (s : Store δ) (c : Cmd δ) : Prop :=
  ∀ ws, c = .multi ws → ws.any RedisWrite.removes → List.Subperm
    (pushed ws ++ (s.redis.multi ws).delayed.members) s.redis.delayed.members

lemma listed_rpush (R : Redis δ) (q : PriorityQueue) (data : List δ) :
    (R.rpush q data).listed.Perm (R.listed ++ data) := by
  classical
  rw [List.perm_iff_count]
  intro d
  cases q <;>
    simp only [Redis.listed, Redis.rpush, List.count_append, Function.update_self, ne_eq,
      reduceCtorEq, not_false_eq_true, Function.update_of_ne] <;>
    omega

lemma listed_multi (ws : List (RedisWrite δ)) (R : Redis δ) :
    (R.multi ws).listed.Perm (R.listed ++ pushed ws) := by
  classical
  induction ws generalizing R with
  | nil => simp [Redis.multi, pushed]
  | cons w ws ih =>
    have hrest : (R.multi (w :: ws)).listed.Perm ((R.write w).listed ++ pushed ws) := ih (R.write w)
    refine hrest.trans ?_
    cases w with
    | rpush q data =>
      have h := (listed_rpush R q data).append_right (pushed ws)
      rwa [List.append_assoc] at h
    | zremrangebyscore lo hi => exact List.Perm.refl _

lemma delayed_multi {ws : List (RedisWrite δ)} (h : ¬ws.any RedisWrite.removes) (R : Redis δ) :
    (R.multi ws).delayed = R.delayed := by
  induction ws generalizing R with
  | nil => rfl
  | cons w ws ih =>
    rw [List.any_cons, Bool.or_eq_true, not_or] at h
    cases w with
    | rpush q data => exact ih h.2 (R.rpush q data)
    | zremrangebyscore lo hi => exact absurd rfl h.1

/-- What a submission appends is what it publishes. -/
lemma pushed_batchCommands (codec : Codec δ) (payloads : List QueuePayload) :
    (pushed (batchCommands codec payloads)).Perm (payloads.map codec.dump) := by
  have h := (listed_multi (batchCommands codec payloads) {}).symm.trans
    (listed_publish {} payloads)
  exact (List.perm_append_left_iff _).mp h

end worth

section prices

/-- Prices of a request and of a saved response. -/
structure Prices where
  onRequest : HttpRequest → ℕ := fun _ => 0
  onSave : TaskId → ℕ := fun _ => 0

namespace Prices

variable (P : Prices)

/-- What the world counts of a call. -/
def call : Cmd δ → ℕ
  | .request r => P.onRequest r
  | .commit ws => ((ws.filterMap Write.saved?).map P.onSave).sum
  | _ => 0

/-- The price of one attempt. -/
def attempt (p : QueuePayload) : ℕ := P.onRequest p.request + P.onSave p.taskId

/-- The worth of a payload is the price of its attempts. -/
def payload (p : QueuePayload) : ℕ := p.attemptsLeft * P.attempt p

variable (codec : Codec δ)

def value (d : δ) : ℕ := ((codec.validate d).map P.payload).getD 0

/-- Payloads are paid for where they are stored and where their task is started. -/
def tariff : Tariff (Cmd δ) Reply String where
  cost
    | .multi ws => if ws.any RedisWrite.removes then 0 else ((pushed ws).map (P.value codec)).sum
    | .zadd d _ => P.value codec d
    | .createTask _ p => P.payload p
    | c => P.call c
  income
    | .blpop _, .ok (some (_, d)) => P.value codec d
    | _, _ => 0
  share
    | .createTask _ p => P.payload p
    | _ => 0
  answers _ _ := True

/-- The worth of the stored payloads. -/
def stored (R : Redis δ) : ℕ := (R.stored.map (P.value codec)).sum

variable {codec}

@[simp] lemma value_dump (p : QueuePayload) : P.value codec (codec.dump p) = P.payload p := by
  simp [value, codec.validate_dump]

lemma sum_value (ds : List δ) : (ds.map (P.value codec)).sum =
    ((ds.filterMap codec.validate).map P.payload).sum := by
  induction ds with
  | nil => rfl
  | cons d ds ih =>
    rw [List.map_cons, List.sum_cons, ih, value]
    cases hd : codec.validate d with
    | none => rw [List.filterMap_cons_none hd, Option.map_none, Option.getD_none, Nat.zero_add]
    | some p => rw [List.filterMap_cons_some hd, List.map_cons, List.sum_cons]; rfl

lemma stored_eq (R : Redis δ) : P.stored codec R =
    (R.listed.map (P.value codec)).sum + (R.delayed.members.map (P.value codec)).sum := by
  rw [← List.sum_append, ← List.map_append]
  rfl

variable (codec) in
lemma sum_subperm {ds ds' : List δ} (h : ds.Subperm ds') :
    (ds.map (P.value codec)).sum ≤ (ds'.map (P.value codec)).sum := by
  obtain ⟨l, hperm, hsub⟩ := h
  rw [← (hperm.map (P.value codec)).sum_eq]
  exact (hsub.map (P.value codec)).sum_le_sum fun _ _ => Nat.zero_le _

/-- A payload pays for one attempt and is worth the rest. -/
lemma payload_retry {p : QueuePayload} (h : p.attempt < p.maxRetries) :
    P.payload { p with attempt := p.attempt + 1 } + P.attempt p = P.payload p := by
  have hleft : { p with attempt := p.attempt + 1 }.attemptsLeft + 1 = p.attemptsLeft := by
    simp only [QueuePayload.attemptsLeft]
    omega
  have hattempt : P.attempt { p with attempt := p.attempt + 1 } = P.attempt p := rfl
  rw [payload, payload, hattempt, ← hleft, Nat.succ_mul]

lemma attempt_le_payload (p : QueuePayload) : P.attempt p ≤ P.payload p :=
  Nat.le_mul_of_pos_left _ (Nat.succ_pos _)

variable [DecidableEq δ]

/-- No call that is served raises the worth of the store beyond what is paid for. -/
lemma stored_effect {c : Cmd δ} {a : Answer} {s s' : Store δ} {r : Except String (Reply c)}
    (hdue : c.MovesDue s) (he : s.effect codec c a = some (r, s')) :
    P.stored codec s'.redis + P.call c + (P.tariff codec).income c r + (P.tariff codec).share c ≤
      P.stored codec s.redis + (P.tariff codec).cost c := by
  cases c with
  | multi ws =>
    cases a <;> cases he
    have hlists := ((listed_multi ws s.redis).map (P.value codec)).sum_eq
    rw [List.map_append, List.sum_append] at hlists
    simp only [stored_eq, hlists, tariff, call]
    by_cases hmove : ws.any RedisWrite.removes = true
    · have hle := P.sum_subperm codec (hdue ws rfl hmove)
      rw [List.map_append, List.sum_append] at hle
      rw [if_pos hmove]
      omega
    · rw [if_neg hmove, delayed_multi hmove]
      omega
  | zadd d score =>
    cases a <;> cases he
    have hperm := ((s.redis.delayed.members_zadd_perm codec.before d score).map (P.value codec)).sum_eq
    have hle := P.sum_subperm codec (List.erase_sublist (a := d)
      (l := s.redis.delayed.members)).subperm
    rw [List.map_cons, List.sum_cons] at hperm
    simp only [stored_eq, tariff, call, hperm, Redis.listed]
    omega
  | blpop qs =>
    cases a <;> cases he
    rcases hpop : (s.redis.blpop qs).1 with _ | ⟨q, d⟩
    · simp only [blpop_eq_none hpop, tariff, call]
      omega
    · have hperm := ((stored_blpop hpop).map (P.value codec)).sum_eq
      rw [List.map_cons, List.sum_cons] at hperm
      simp only [stored, hperm, tariff, call]
      omega
  | commit ws =>
    cases a <;> simp only [Store.effect, reduceCtorEq] at he
    split at he <;> cases he <;> exact Nat.le_refl _
  | random | semaphoreAcquire w =>
    cases a <;> simp only [Store.effect, reduceCtorEq] at he
    split at he <;> cases he
    exact Nat.le_refl _
  | createTask w p =>
    cases a <;> cases he
    exact Nat.le_refl _
  | _ =>
    cases a <;> cases he
    exact Nat.le_refl _

end Prices

end prices

section coroutines

variable {codec : Codec δ} {P : Prices}

/-- A call that is free whatever the prices. -/
def Cmd.priceless : Cmd δ → Bool
  | .multi ws => ws.any RedisWrite.removes
  | .commit ws => ws.all fun w => w.saved?.isNone
  | .zadd .. | .createTask .. | .request _ => false
  | _ => true

lemma cost_of_priceless {c : Cmd δ} (h : c.priceless = true) : (P.tariff codec).cost c = 0 := by
  cases c with
  | multi ws => exact if_pos h
  | commit ws =>
    have hnone : ws.filterMap Write.saved? = [] := by
      refine List.filterMap_eq_nil_iff.mpr fun w hw => ?_
      exact Option.isNone_iff_eq_none.mp (List.all_eq_true.mp h w hw)
    change ((ws.filterMap Write.saved?).map P.onSave).sum = 0
    rw [hnone]
    rfl
  | zadd | createTask | request => cases h
  | _ => rfl

/-- The program makes free calls only. -/
abbrev Priceless {α : Type} (q : Coroutine δ α) : Prop := q.CallsOnly fun c => c.priceless = true

lemma priceless_await {c : Cmd δ} (h : c.priceless = true) : Priceless (await c) :=
  Prog.callsOnly_perform h

lemma Priceless.spends {α : Type} {q : Coroutine δ α} (h : Priceless q) :
    (P.tariff codec).Spends 0 q :=
  (h.mono fun _ => cost_of_priceless).free

lemma priceless_recording : HoldsOfRecording fun _ (q : Coroutine δ _) => Priceless q :=
  recording_callsOnly (fun _ => rfl) (fun _ => rfl) (fun _ => rfl) (fun _ => rfl) (fun _ => rfl)
    (fun _ _ => rfl) fun _ _ => rfl

lemma priceless_reporting : HoldsOfReporting fun _ (q : Coroutine δ _) => Priceless q :=
  reporting_callsOnly (fun _ => rfl) (fun _ _ => rfl) fun _ => rfl

lemma priceless_sendToDlq (p : QueuePayload) (reason : String) :
    Priceless (sendToDlq p reason : Coroutine δ Bool) :=
  sendToDlq_of (Prog.compositional_callsOnly _) (priceless_await rfl)

lemma priceless_polling : HoldsOfPolling fun _ (q : Coroutine δ _) => Priceless q := by
  refine polling_callsOnly (moving_callsOnly rfl (fun _ _ _ _ => rfl) fun grouped now => ?_) rfl
    fun _ => rfl
  refine List.any_eq_true.mpr ⟨.zremrangebyscore 0 now, ?_, rfl⟩
  exact List.mem_append_right _ (List.mem_singleton_self _)

lemma spends_saveResponse (id : TaskId) (o : Outcome) {g : ℕ} (hg : P.onSave id ≤ g) :
    Follows (P.tariff codec).protocol g (saveResponse id o) fun r g' =>
      (∃ u, r = .ok u) ∧ g ≤ g' + P.onSave id := by
  refine follows_tryCatch_pure ?_
  refine Follows.mono ((Tariff.Spends.bind (m := 0 + (P.onSave id + 0)) (priceless_await rfl).spends
    fun dbTask => ?_) g (by omega)) fun _ g' hg' => by omega
  refine (priceless_await rfl).spends.bind fun response => ?_
  refine Tariff.Spends.bind ((Tariff.spends_perform _).mono (Nat.le_of_eq ?_))
    fun _ => Priceless.spends ?_
  · cases dbTask <;> cases response <;> exact List.sum_singleton
  · cases dbTask with
    | none => trivial
    | some t =>
      exact (priceless_recording.publishEvent _).bind fun _ =>
        priceless_recording.evaluateScanCompletion _

lemma spends_executeRequest (p : QueuePayload) :
    (P.tariff codec).Spends (P.onRequest p.request) (executeRequest p) := by
  intro g hg
  refine follows_tryCatch.mpr (Follows.mono (Q := fun _ g' => g ≤ g' + P.onRequest p.request) ?_ ?_)
  · have hrequest : (P.tariff codec).Spends (P.onRequest p.request)
        (HttpExecutor.execute p.method p.url p.headers p.payload : Coroutine δ HttpResponse) :=
      Tariff.spends_perform (Cmd.request p.request)
    exact (hrequest.bind (m := 0) fun r => (priceless_reporting.afterRequest p r).spends) g hg
  · rintro (e | o) g' hg'
    · have hfailed : Priceless (requestFailed e : Coroutine δ Outcome) :=
        priceless_reporting.requestFailed e
      exact (hfailed.spends g' (by omega)).mono fun _ g'' hg'' => by omega
    · exact hg'

/-- Free coroutines that let no exception pass. -/
lemma credits_caught {α : Type} {q : Coroutine δ α} {f : String → α}
    (h : Priceless (tryCatch q fun e => pure (f e))) (g : ℕ) :
    Follows (P.tariff codec).protocol g (tryCatch q fun e => pure (f e)) fun r g' =>
      (∃ a, r = .ok a) ∧ g ≤ g' :=
  follows_tryCatch_pure ((Priceless.spends (Prog.CallsOnly.of_tryCatch h)) g (Nat.zero_le g))

lemma credits_scheduleDelayed (p : QueuePayload) (delay : ℚ) {g : ℕ} (hg : P.payload p ≤ g) :
    Follows (P.tariff codec).protocol g (scheduleDelayed codec p delay) fun r _ =>
      ∃ b, r = .ok b := by
  refine (follows_tryCatch_pure (J := fun _ => True) ?_).mono fun _ _ h => h.1
  refine (priceless_await rfl).spends.then (Nat.zero_le _) (fun now g₁ h₁ => ?_) fun _ _ _ => trivial
  have hzadd : (P.tariff codec).Spends (P.payload p) (do
      await (.zadd (codec.dump p) (now + delay))
      pure true : Coroutine δ Bool) := by
    have hcost : (P.tariff codec).cost (.zadd (codec.dump p) (now + delay)) = P.payload p :=
      P.value_dump p
    have hpay := (P.tariff codec).spends_perform (ε := String) (.zadd (codec.dump p) (now + delay))
    rw [hcost] at hpay
    exact hpay.bind (m := 0) fun _ => Priceless.spends trivial
  exact (hzadd g₁ (by omega)).mono fun _ _ _ => trivial

/-- A retry hands on the rest of what the payload is worth. -/
lemma credits_handleRetry (settings : Settings) (p : QueuePayload) (e : String) {g : ℕ}
    (hg : P.payload p ≤ g + P.attempt p) (hsave : p.attempt < p.maxRetries → P.onSave p.taskId ≤ g) :
    Follows (P.tariff codec).protocol g (handleRetry codec settings p e) fun r g' =>
      ∀ e, r = .error e → P.onSave p.taskId ≤ g' := by
  unfold handleRetry
  split
  · next hlt =>
    have hrest := P.payload_retry hlt
    refine (priceless_await rfl).spends.then (Nat.zero_le _) (fun _ g₁ h₁ => ?_)
      fun e g' hg' e' _ => (hsave hlt).trans hg'
    refine follows_bind.mpr ((credits_caught (priceless_recording.updateTaskStatus _ _) g₁).mono ?_)
    rintro _ g₂ ⟨⟨u, rfl⟩, h₂⟩
    refine follows_bind.mpr ((credits_scheduleDelayed _ _ ?_).mono ?_)
    · omega
    · rintro _ g₃ ⟨b, rfl⟩
      exact nofun
  · refine follows_bind.mpr ((credits_caught (priceless_recording.updateTaskStatus _ _) g).mono ?_)
    rintro _ g₁ ⟨⟨u, rfl⟩, h₁⟩
    refine follows_bind.mpr ((credits_caught (priceless_sendToDlq _ _) g₁).mono ?_)
    rintro _ g₂ ⟨⟨b, rfl⟩, h₂⟩
    exact nofun

lemma credits_attemptPayload (settings : Settings) (p : QueuePayload) {g : ℕ}
    (hg : P.payload p ≤ g) :
    Follows (P.tariff codec).protocol g (attemptPayload codec settings p) fun r g' =>
      ∀ e, r = .error e → P.onSave p.taskId ≤ g' := by
  have hattempt : P.onRequest p.request + P.onSave p.taskId ≤ P.payload p := P.attempt_le_payload p
  refine follows_bind.mpr ((credits_caught (priceless_recording.updateTaskStatus _ _) g).mono ?_)
  rintro _ g₁ ⟨⟨u, rfl⟩, h₁⟩
  refine (priceless_await rfl).spends.then (Nat.zero_le _) (fun granted g₂ h₂ => ?_)
    fun _ _ _ _ _ => by omega
  split
  · refine (spends_executeRequest p).then (by omega) (fun o g₃ h₃ => ?_) fun _ _ _ _ _ => by omega
    refine follows_bind.mpr ((spends_saveResponse p.taskId o (by omega)).mono ?_)
    rintro _ g₄ ⟨⟨u, rfl⟩, h₄⟩
    dsimp only
    split
    · refine credits_handleRetry settings p _ ?_ fun hlt => ?_
      · simp only [Prices.attempt]
        omega
      · have hrest := P.payload_retry hlt
        have hmore : P.attempt p ≤ P.payload { p with attempt := p.attempt + 1 } :=
          P.attempt_le_payload { p with attempt := p.attempt + 1 }
        simp only [Prices.attempt] at hrest hmore
        omega
    · exact nofun
  · intro _ _
    omega

/-- The task of a payload lives on what the payload is worth. -/
lemma credits_processPayload (settings : Settings) (w : WorkerId) (p : QueuePayload) :
    Follows (P.tariff codec).protocol (P.payload p) (processPayload codec settings w p)
      fun _ g => g = 0 := by
  refine Tariff.follows_spent (Q := fun _ _ => True) (follows_bind.mpr (Follows.mono
    (Q := fun r _ => ∃ u, r = .ok u)
    (follows_tryCatch.mpr ((credits_attemptPayload settings p le_rfl).mono ?_)) ?_)) nofun
  · rintro (e | u) g hg
    · refine follows_bind.mpr (follows_tryCatch.mpr
        ((spends_saveResponse p.taskId _ (hg e rfl)).mono ?_))
      rintro _ g₁ ⟨⟨u, rfl⟩, -⟩
      refine follows_bind.mpr ((credits_caught (priceless_sendToDlq p e) g₁).mono ?_)
      rintro _ g₂ ⟨⟨b, rfl⟩, -⟩
      exact ⟨(), rfl⟩
    · exact ⟨u, rfl⟩
  · rintro _ g ⟨u, rfl⟩
    exact ((priceless_await rfl).spends g (Nat.zero_le g)).mono fun _ _ _ => trivial

/-- What a popped payload is worth comes in with it. -/
lemma credits_consume :
    Follows (P.tariff codec).protocol 0 (consume codec) fun r g =>
      ∃ q, r = .ok q ∧ ∀ p, q = some p → g = P.payload p := by
  refine follows_tryCatch.mpr (Follows.mono
    (Q := fun r g => ∀ q, r = .ok q → ∀ p, q = some p → g = P.payload p) ?_ ?_)
  · refine (priceless_polling.processDelayedTasks codec).spends.then (Nat.zero_le _)
      (fun _ g₁ h₁ => ?_) nofun
    refine priceless_polling.getPollQueues.spends.then (Nat.zero_le _) (fun qs g₂ h₂ => ?_) nofun
    refine follows_bind.mpr (follows_perform.mpr ⟨Nat.zero_le _, fun r _ => ?_⟩)
    refine ⟨(P.tariff codec).income (.blpop qs) r, Nat.le_add_left _ _, ?_⟩
    rcases r with e | _ | ⟨q, d⟩
    · exact nofun
    · rintro _ ⟨⟩ _ ⟨⟩
    · dsimp only
      split
      · next p hp =>
        rintro _ ⟨⟩ _ ⟨⟩
        change P.value codec d = P.payload p
        rw [Prices.value, hp]
        rfl
      · exact nofun
  · rintro (e | q) g hg
    · exact ⟨none, rfl, nofun⟩
    · exact ⟨q, rfl, hg q rfl⟩

lemma credits_engineRound (w : WorkerId) :
    Follows (P.tariff codec).protocol 0 (engineRound codec w) fun _ g => g = 0 := by
  refine Tariff.follows_spent (Q := fun _ _ => True) (follows_bind.mpr (follows_perform.mpr
    ⟨Nat.zero_le _, fun r _ => ⟨0, Nat.zero_le _, ?_⟩⟩)) nofun
  rcases r with e | u
  · trivial
  · refine follows_bind.mpr (credits_consume.mono ?_)
    rintro _ g ⟨q, rfl, hq⟩
    cases q with
    | none => exact ((priceless_await rfl).spends g (Nat.zero_le g)).mono fun _ _ _ => trivial
    | some p =>
      exact (Tariff.spends_perform (Cmd.createTask w p) g (hq p rfl).ge).mono fun _ _ _ => trivial

/-- The payloads a submission publishes. -/
def Submission.payloads (sub : Submission) : List QueuePayload :=
  queuePayloads sub.scanId sub.tasks sub.draws

lemma priceless_resumeScan (scan : Scan) : Priceless (resumeScan scan : Coroutine δ Unit) :=
  resumeScan_of (Prog.compositional_callsOnly _) (priceless_await rfl) (priceless_await rfl)
    fun _ => priceless_await rfl

lemma cost_batchCommands (payloads : List QueuePayload) :
    (P.tariff codec).cost (.multi (batchCommands codec payloads)) =
      (payloads.map P.payload).sum := by
  have hkeeps : ¬(batchCommands codec payloads).any RedisWrite.removes := by
    rw [List.any_eq_true]
    rintro ⟨w, hw, hremoves⟩
    obtain ⟨g, -, rfl⟩ := List.mem_map.mp hw
    cases hremoves
  have hperm := ((pushed_batchCommands codec payloads).map (P.value codec)).sum_eq
  rw [List.map_map] at hperm
  refine (if_neg hkeeps).trans (hperm.trans (congrArg List.sum (List.map_congr_left fun p _ => ?_)))
  exact P.value_dump p

/-- A submission pays for the payloads that it publishes. -/
lemma credits_submission (sub : Submission) :
    Follows (P.tariff codec).protocol (sub.payloads.map P.payload).sum (sub.thread codec).body
      fun _ g => g = 0 := by
  have hinsert : (Cmd.commit ((dbTasks sub.scanId sub.tasks sub.draws).map .insertTask) :
      Cmd δ).priceless = true := by
    refine List.all_eq_true.mpr fun w hw => ?_
    obtain ⟨t, -, rfl⟩ := List.mem_map.mp hw
    rfl
  refine Tariff.follows_spent (Q := fun _ _ => True) ?_ nofun
  refine follows_bind.mpr (Follows.mono (Q := fun _ _ => True) ?_ ?_)
  · refine (priceless_await rfl).spends.then (Nat.zero_le _) (fun sc g₁ h₁ => ?_) fun _ _ _ => trivial
    cases sc with
    | none => trivial
    | some scan =>
      refine (priceless_resumeScan scan).spends.then (Nat.zero_le _) (fun _ g₂ h₂ => ?_)
        fun _ _ _ => trivial
      refine (priceless_await hinsert).spends.then (Nat.zero_le _) (fun _ g₃ h₃ => ?_)
        fun _ _ _ => trivial
      unfold publishBatch
      split
      · trivial
      · refine (follows_tryCatch_pure (J := fun _ => True) ?_).mono fun _ _ _ => trivial
        have hpay := (P.tariff codec).spends_perform (ε := String)
          (.multi (batchCommands codec sub.payloads))
        rw [cost_batchCommands] at hpay
        exact hpay.then (by omega) (fun _ _ _ => trivial) fun _ _ _ => trivial
  · rintro (e | n) g _ <;> trivial

end coroutines

section system

abbrev CallLog (δ : Type) := List (Served (@Reply δ) String)

/-- The requests that were sent, in order. -/
def CallLog.requests (log : CallLog δ) : List HttpRequest :=
  log.filterMap fun e => match e.1 with
    | .request r => some r
    | _ => none

/-- The tasks whose responses sessions wrote, in order. -/
def CallLog.saves (log : CallLog δ) : List TaskId :=
  log.flatMap fun e => match e.1 with
    | .commit ws => ws.filterMap Write.saved?
    | _ => []

abbrev LoggedPool (δ : Type) := Pool (Cmd δ) Reply String (Store δ × CallLog δ)

/-- No mover appends entries that another one has moved. -/
def MoversApart (p : LoggedPool δ) (act : Act (Fate Answer String)) : Prop :=
  ∀ c, p.call? act = some c → c.MovesDue p.store.1

variable [DecidableEq δ] (codec : Codec δ) (settings : Settings)

/-- The system of `servingSystem` with a log of the calls that took place. -/
def loggedSystem : System (Cmd δ) Reply String (Store δ × CallLog δ) (Fate Answer String) :=
  (workerSystem codec settings).logging.raising fun c => !c.slotted

/-- Engines and submissions before their first calls. -/
def serving (store : Store δ) (engines : List WorkerId) (subs : List Submission) : LoggedPool δ :=
  ⟨(store, []), engines.map (engineThread codec) ++ subs.map (Submission.thread codec)⟩

/-- The payloads that are stored at the start or submitted. -/
def offered (store : Store δ) (subs : List Submission) : List QueuePayload :=
  store.redis.stored.filterMap codec.validate ++ subs.flatMap Submission.payloads

variable {codec settings} {P : Prices}

omit [DecidableEq δ] in
lemma typed_serving (store : Store δ) (engines : List WorkerId) (subs : List Submission) :
    Typed (P.tariff codec).protocol 0
      (engines.map (fun _ => 0) ++ subs.map fun sub => (sub.payloads.map P.payload).sum)
      (serving codec store engines subs).threads := by
  refine Typed.append ⟨by simp, fun i g t hg ht => ?_⟩ ⟨by simp, fun i g t hg ht => ?_⟩
  · obtain ⟨w, -, rfl⟩ := List.mem_map.mp (List.mem_of_getElem? hg)
    obtain ⟨w, -, rfl⟩ := List.mem_map.mp (List.mem_of_getElem? ht)
    refine ⟨credits_engineRound w, fun l hl => ⟨trivial, ?_⟩⟩
    exact Option.some.inj hl ▸ credits_engineRound w
  · rw [List.getElem?_map, Option.map_eq_some_iff] at hg ht
    obtain ⟨sub, hsub, rfl⟩ := hg
    obtain ⟨sub', hsub', rfl⟩ := ht
    obtain rfl := Option.some.inj (hsub.symm.trans hsub')
    exact ⟨credits_submission sub, nofun⟩

/-- What the calls of a run cost is covered by the payloads on offer. -/
lemma spent_within_budget (P : Prices) {store : Store δ} {engines : List WorkerId}
    {subs : List Submission} {p : LoggedPool δ}
    (h : Reachable (loggedSystem codec settings) MoversApart
      (· = serving codec store engines subs) p) :
    (p.store.2.map fun e => P.call e.1).sum ≤ ((offered codec store subs).map P.payload).sum := by
  have hfunded := h.funded (T := P.tariff codec)
    (fun s => (s.2.map fun e => P.call e.1).sum + P.stored codec s.1.redis)
    (fun _ => ((offered codec store subs).map P.payload).sum) ?_ ?_ ?_
  · exact (Nat.le_add_right _ _).trans hfunded
  · rintro _ rfl
    refine ⟨_, typed_serving store engines subs, ?_⟩
    have hsubs : ∀ subs : List Submission,
        (subs.map fun sub => (sub.payloads.map P.payload).sum).sum =
          ((subs.flatMap Submission.payloads).map P.payload).sum := by
      intro subs
      rw [List.flatMap_def, List.map_flatten, List.sum_flatten, List.map_map, List.map_map]
      rfl
    have hengines : (engines.map fun _ => 0).sum = 0 := by simp
    simp only [serving, offered, Prices.stored, P.sum_value, hsubs, hengines, List.map_nil,
      List.sum_nil, List.map_append, List.sum_append]
    omega
  · intro c r q hq
    cases c with
    | createTask w p => exact Option.some.inj hq ▸ credits_processPayload settings w p
    | _ => cases hq
  · intro p i c fate r s' hcall hdue he
    refine ⟨fun _ _ => trivial, ?_⟩
    have hshare : (if ((loggedSystem codec settings).fork c r).isSome then
        (P.tariff codec).share c else 0) ≤ (P.tariff codec).share c := by
      split <;> simp
    rcases System.raising_logging_effect he with ⟨a, he, hlog⟩ | ⟨hmay, ⟨e, rfl⟩, hs⟩
    · have hle := P.stored_effect (hdue c hcall) he
      rw [hlog, List.map_append, List.sum_append, List.map_singleton, List.sum_singleton]
      dsimp only at hle ⊢
      omega
    · have hincome : (P.tariff codec).income c (.error e) = 0 := by
        cases c <;> rfl
      rcases hs with rfl | ⟨a, r', he, hlog⟩
      · have hfork : (loggedSystem codec settings).fork c (.error e) = none := by
          cases c with
          | createTask w p => cases hmay
          | _ => rfl
        rw [hfork, hincome]
        change _ + 0 + 0 + _ ≤ _
        omega
      · have hle := P.stored_effect (hdue c hcall) he
        rw [hlog, List.map_append, List.sum_append, List.map_singleton, List.sum_singleton]
        dsimp only at hle ⊢
        omega

omit [DecidableEq δ] in
lemma sum_requests (req : HttpRequest) (log : CallLog δ) :
    (log.map fun e => ({ onRequest := fun r => if r = req then 1 else 0 } : Prices).call e.1).sum =
      log.requests.count req := by
  induction log with
  | nil => rfl
  | cons e log ih =>
    obtain ⟨c, r⟩ := e
    rw [List.map_cons, List.sum_cons, ih]
    cases c with
    | request r' =>
      change (if r' = req then 1 else 0) + (CallLog.requests log).count req =
        (r' :: CallLog.requests log).count req
      rw [List.count_cons, Nat.add_comm]
      simp only [beq_iff_eq]
    | commit ws =>
      change ((ws.filterMap Write.saved?).map fun _ => 0).sum + _ = (CallLog.requests log).count req
      simp
    | _ => exact Nat.zero_add _

lemma sum_attempts (mine : QueuePayload → Bool) (ps : List QueuePayload) :
    (ps.map fun p => p.attemptsLeft * if mine p then 1 else 0).sum =
      ((ps.filter mine).map QueuePayload.attemptsLeft).sum := by
  induction ps with
  | nil => rfl
  | cons p ps ih =>
    rw [List.map_cons, List.sum_cons, ih, List.filter_cons]
    by_cases h : mine p = true
    · rw [if_pos h, if_pos h, Nat.mul_one, List.map_cons, List.sum_cons]
    · rw [if_neg h, if_neg h, Nat.mul_zero, Nat.zero_add]

/-- However many engines share the queue, and whatever fails, a request is sent at most as
often as the payloads that ask for it have attempts left. -/
theorem requests_within_budget (req : HttpRequest) {store : Store δ} {engines : List WorkerId}
    {subs : List Submission} {p : LoggedPool δ}
    (h : Reachable (loggedSystem codec settings) MoversApart
      (· = serving codec store engines subs) p) :
    p.store.2.requests.count req ≤ (((offered codec store subs).filter
      fun q => q.request = req).map QueuePayload.attemptsLeft).sum := by
  have hle := spent_within_budget { onRequest := fun r => if r = req then 1 else 0 } h
  rw [sum_requests] at hle
  refine hle.trans (le_of_eq ?_)
  rw [← sum_attempts]
  refine congrArg List.sum (List.map_congr_left fun q _ => ?_)
  change q.attemptsLeft * ((if q.request = req then 1 else 0) + 0) = _
  rw [Nat.add_zero]
  simp only [decide_eq_true_eq]

end system

section examples

/-- A submission of one task that may not be retried. -/
def submitOnce : Submission where
  scanId := 0
  tasks := [{ method := "get", url := "http://target.example/items", retryCount := 0 }]
  draws := { uuid := id, enqueuedAt := fun _ => "" }

def runningScan : Store QueuePayload where
  db := { scans := .single ⟨0, "scan", "target.example", .running, none⟩ }

/-- The task is submitted and its request times out while the event stream is down. -/
def timeoutOnce : List (Act (Fate Answer String)) :=
  [.run 1 (.answered .done), .run 1 (.answered .done), .run 1 (.answered .done),
    .run 0 (.answered .done), .run 0 (.answered (.clock 0)), .run 0 (.answered .done),
    .run 0 (.answered (.random 0)), .run 0 (.answered .done), .run 0 (.answered .done),
    .run 2 (.answered .done), .run 2 (.answered .done), .run 2 (.raised "ConnectionError"),
    .run 2 (.answered (.granted true)), .run 2 (.answered (.http (.error "ReadTimeout"))),
    .run 2 (.answered .done), .run 2 (.answered .done), .run 2 (.answered .done),
    .run 2 (.answered .done)]

/-- No mover is about to append anything. -/
def NoneToMove (p : LoggedPool QueuePayload) (act : Act (Fate Answer String)) : Prop :=
  match p.call? act with
  | some (.multi ws) => ws.any RedisWrite.removes = false
  | _ => True

instance (p : LoggedPool QueuePayload) (act : Act (Fate Answer String)) :
    Decidable (NoneToMove p act) := by
  unfold NoneToMove
  split <;> infer_instance

lemma moversApart_of_noneToMove (p : LoggedPool QueuePayload) (act : Act (Fate Answer String))
    (h : NoneToMove p act) : MoversApart p act := by
  rintro c hc ws rfl hmove
  simp only [NoneToMove, hc] at h
  exact absurd (h.symm.trans hmove) Bool.false_ne_true

/-- What a schedule of one engine and the submission shows is true of a reachable pool. -/
lemma submitOnce_shows (acts : List (Act (Fate Answer String))) {β : Type}
    {f : LoggedPool QueuePayload → β} {v : β}
    (h : ((serving Codec.payloads runningScan [0] [submitOnce]).runActs
      (loggedSystem Codec.payloads {}) NoneToMove acts).map f = some v) :
    ∃ p, Reachable (loggedSystem Codec.payloads {}) MoversApart
      (· = serving Codec.payloads runningScan [0] [submitOnce]) p ∧ f p = v := by
  obtain ⟨p, hp, hv⟩ : ∃ p, Reachable (loggedSystem Codec.payloads {}) NoneToMove
      (· = serving Codec.payloads runningScan [0] [submitOnce]) p ∧ f p = v :=
    Reachable.of_shown (by rfl) h
  exact ⟨p, hp.mono moversApart_of_noneToMove, hv⟩

/-- The one attempt of the task is spent on the request that timed out. -/
theorem requests_within_budget_timeout :
    ∃ p, Reachable (loggedSystem Codec.payloads {}) MoversApart
        (· = serving Codec.payloads runningScan [0] [submitOnce]) p ∧
      p.store.2.requests.length = 1 ∧
      ∀ req ∈ p.store.2.requests, p.store.2.requests.count req ≤
        (((offered Codec.payloads runningScan [submitOnce]).filter
          fun q => q.request = req).map QueuePayload.attemptsLeft).sum := by
  obtain ⟨p, hp, hsent⟩ := submitOnce_shows timeoutOnce
    (f := fun p => p.store.2.requests.length) (v := 1) (by decide +kernel)
  exact ⟨p, hp, hsent, fun req _ => requests_within_budget req hp⟩

end examples

end SecurityScanner

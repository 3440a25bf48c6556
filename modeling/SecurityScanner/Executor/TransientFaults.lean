import SecurityScanner.Executor.RateLimiter
import SecurityScanner.Executor.StoredTasks
import SecurityScanner.Executor.Commits

/-!
# One failing call

A run of `_process_payload` by itself in which one call to the database or to Redis fails,
and the status that the task is left with. A failed call has not reached its server, or
its reply was lost.
-/

namespace SecurityScanner

open Storage Interleaving
open RateLimiter (Fault)

section surroundings

/-- The calls of `_process_payload` to the database and to Redis. -/
inductive StoreCall where
  | getTask | getScan | selectResponse | selectStatuses | commit | publish | zadd | rpushDlq
  deriving DecidableEq, Repr

def storeCall? {δ : Type} : Cmd δ → Option StoreCall
  | .getTask _ => some .getTask
  | .getScan _ => some .getScan
  | .selectResponse _ => some .selectResponse
  | .selectStatuses _ => some .selectStatuses
  | .commit _ => some .commit
  | .publish _ => some .publish
  | .zadd .. => some .zadd
  | .rpushDlq .. => some .rpushDlq
  | _ => none

/-- The call that fails: of the calls of its kind, the one that `before` others precede. -/
structure PlannedFault where
  call : StoreCall
  before : ℕ
  fault : Fault
  deriving DecidableEq

/-- What the world outside the stores answers. The limiter falls back to its own buckets
when Redis fails, so its answer stands for its calls. -/
structure Surroundings where
  limiter : Except String Bool
  report : Except String Unit
  http : Except String HttpResponse
  clock : ℚ

structure Trial (δ : Type) where
  store : Store δ
  fault : Option PlannedFault

/-- The fault that hits a call of this kind now. -/
def strikes (c : StoreCall) : Option PlannedFault → Option Fault
  | some ⟨c', 0, f⟩ => if c' = c then some f else none
  | _ => none

/-- The planned fault after a call of this kind. -/
def elapse (c : StoreCall) : Option PlannedFault → Option PlannedFault
  | some ⟨c', 0, f⟩ => if c' = c then none else some ⟨c', 0, f⟩
  | some ⟨c', n + 1, f⟩ => if c' = c then some ⟨c', n, f⟩ else some ⟨c', n + 1, f⟩
  | none => none

variable {δ : Type} [DecidableEq δ] (codec : Codec δ) (env : Surroundings)

def Surroundings.answer : Cmd δ → Answer
  | .time => .clock env.clock
  | .random => .random 0
  | .request _ => .http env.http
  | _ => .done

/-- A call that does not fail. -/
def Surroundings.serve (c : Cmd δ) (s : Store δ) : Except String (Reply c) × Store δ :=
  match c with
  | .acquire .. => (env.limiter, s)
  | .report429 _ => (env.report, s)
  | c => (s.effect codec c (env.answer c)).getD (.error "no answer", s)

def Surroundings.handle (c : Cmd δ) (s : Trial δ) : Except String (Reply c) × Trial δ :=
  let served := env.serve codec c s.store
  match storeCall? c with
  | none => (served.1, ⟨served.2, s.fault⟩)
  | some call =>
    match strikes call s.fault with
    | none => (served.1, ⟨served.2, elapse call s.fault⟩)
    | some .unreached => (.error "ConnectionError", ⟨s.store, elapse call s.fault⟩)
    | some .lostReply => (.error "ConnectionError", ⟨served.2, elapse call s.fault⟩)

/-- A payload of the task is in a priority list or in the delayed set. -/
def Queued (R : Redis δ) (task : TaskId) : Prop :=
  ∃ d ∈ R.stored, (codec.validate d).map QueuePayload.taskId = some task

instance (R : Redis δ) (task : TaskId) : Decidable (Queued codec R task) := by
  unfold Queued
  infer_instance

/-- The task waits for a worker, and no payload will bring one. -/
def Stranded (s : Store δ) (task : TaskId) : Prop :=
  (∃ t ∈ s.db.tasks.find? task, t.status = .processing ∨ t.status = .retrying) ∧
    ¬Queued codec s.redis task

instance (s : Store δ) (task : TaskId) : Decidable (Stranded codec s task) := by
  unfold Stranded
  infer_instance

/-- The outcome of a request that is a failure. -/
def Surroundings.httpFails : Bool :=
  match env.http with
  | .error _ => true
  | .ok r => r.statusCode = 429

/-- The limiter lets the request pass. -/
def Surroundings.granted : Bool :=
  match env.limiter with
  | .ok b => b
  | .error _ => false

/-- The faults of `_save_response` after which the outcome of the attempt is not stored: a
read of its own, or its commit without effect. `_mark_task_processing` makes one `get` and
one commit before it. -/
def losesSave : PlannedFault → Bool
  | ⟨.getTask, 1, _⟩ => true
  | ⟨.selectResponse, 0, _⟩ => true
  | ⟨.commit, 1, .unreached⟩ => true
  | _ => false

/-- The faults of `schedule_delayed` after which the retry is not scheduled. -/
def losesRetry : PlannedFault → Bool
  | ⟨.zadd, 0, .unreached⟩ => true
  | _ => false

/-- The fault hits the call that the end of the attempt rests on: the retry if there is
one, the save if there is none and the attempt did not use the retries up. -/
def losesTask (p : QueuePayload) (fault : PlannedFault) : Bool :=
  if env.granted && env.httpFails then p.attempt < p.maxRetries && losesRetry fault
  else losesSave fault

end surroundings

section faults

@[simp] lemma strikes_elapse_of_ne {c c' : StoreCall} (h : c ≠ c') (f : Option PlannedFault) :
    strikes c (elapse c' f) = strikes c f := by
  rcases f with _ | ⟨c'', n, fault⟩
  · rfl
  · by_cases h' : c'' = c'
    · subst h'
      rcases n with _ | _ | n <;> simp [elapse, strikes, h.symm]
    · cases n <;> simp [elapse, strikes, h']

/-- There is one fault. -/
lemma strikes_unique {c c' : StoreCall} {f : Option PlannedFault} (h : strikes c f ≠ none)
    (hc : c' ≠ c) : strikes c' f = none := by
  rcases f with _ | ⟨c'', _ | n, fault⟩
  · rfl
  · by_cases h' : c'' = c
    · subst h'
      simp [strikes, hc.symm]
    · simp [strikes, h'] at h
  · rfl

lemma elapse_of_strikes {c : StoreCall} {f : Option PlannedFault} (h : strikes c f ≠ none) :
    elapse c f = none := by
  rcases f with _ | ⟨c', _ | n, fault⟩
  · rfl
  · by_cases h' : c' = c
    · simp [elapse, h']
    · simp [strikes, h'] at h
  · simp [strikes] at h

@[simp] lemma elapse_none (c : StoreCall) : elapse c none = none := rfl

@[simp] lemma strikes_none (c : StoreCall) : strikes c none = none := rfl

end faults

section calls

variable {δ : Type} [DecidableEq δ] {codec : Codec δ} {env : Surroundings} {s : Store δ}
  {f : Option PlannedFault}

lemma handle_of_none {c : Cmd δ} (hc : storeCall? c = none) :
    env.handle codec c ⟨s, f⟩ = ((env.serve codec c s).1, ⟨(env.serve codec c s).2, f⟩) := by
  unfold Surroundings.handle
  rw [hc]

lemma handle_served {c : Cmd δ} {call : StoreCall} (hc : storeCall? c = some call)
    (hf : strikes call f = none) :
    env.handle codec c ⟨s, f⟩ =
      ((env.serve codec c s).1, ⟨(env.serve codec c s).2, elapse call f⟩) := by
  unfold Surroundings.handle
  rw [hc]
  dsimp only
  rw [hf]

/-- A struck call raises, and has its effect or none. -/
lemma handle_struck {c : Cmd δ} {call : StoreCall} (hc : storeCall? c = some call) {fault : Fault}
    (hf : strikes call f = some fault) :
    env.handle codec c ⟨s, f⟩ = (.error "ConnectionError",
      ⟨if fault = .lostReply then (env.serve codec c s).2 else s, elapse call f⟩) := by
  unfold Surroundings.handle
  rw [hc]
  dsimp only
  rw [hf]
  cases fault <;> rfl

lemma publishEvent_run (e : Event) :
    (publishEvent e : Coroutine δ Unit).run (env.handle codec) ⟨s, f⟩ =
      (.ok (), ⟨s, elapse .publish f⟩) := by
  unfold publishEvent
  rw [Prog.run_tryCatch, Prog.run_perform]
  cases hf : strikes .publish f with
  | none => rw [handle_served rfl hf]; rfl
  | some fault =>
    rw [handle_struck rfl hf]
    cases fault <;> rfl

/-- A read that is struck raises. -/
lemma read_run {c : Cmd δ} {call : StoreCall} (hc : storeCall? c = some call) {r : Reply c}
    (hr : env.serve codec c s = (.ok r, s)) :
    env.handle codec c ⟨s, f⟩ =
      (if strikes call f = none then .ok r else .error "ConnectionError", ⟨s, elapse call f⟩) := by
  cases hf : strikes call f with
  | none => rw [handle_served hc hf, hr]; rfl
  | some fault =>
    rw [handle_struck hc hf, hr]
    cases fault <;> rfl

/-- A commit that is struck raises, with its effect or without. -/
lemma commit_run {ws : List Write} {db' : Database} (hdb : s.db.commit ws = .ok db') :
    env.handle codec (.commit ws) ⟨s, f⟩ =
      (if strikes .commit f = none then .ok () else .error "ConnectionError",
        ⟨if strikes .commit f = some .unreached then s else { s with db := db' },
          elapse .commit f⟩) := by
  have hserve : env.serve codec (.commit ws) s = (.ok (), { s with db := db' }) := by
    simp only [Surroundings.serve, Surroundings.answer, Store.effect, hdb, Option.getD_some]
  cases hf : strikes .commit f with
  | none => rw [handle_served rfl hf, hserve]; rfl
  | some fault =>
    rw [handle_struck rfl hf, hserve]
    cases fault <;> rfl

end calls

section coroutines

variable {δ : Type} [DecidableEq δ] (codec : Codec δ) (env : Surroundings) (s : Store δ)
  (f : Option PlannedFault)

/-- The status of the task is changed unless the read is struck or the commit has not
reached the database. -/
lemma updateTaskStatus_run {id : TaskId} {t : Task} (ht : s.db.tasks.find? id = some t)
    (st : TaskStatus) :
    ∃ s', (updateTaskStatus id st : Coroutine δ Unit).run (env.handle codec) ⟨s, f⟩ =
        (.ok (), ⟨s', elapse .publish (elapse .commit (elapse .getTask f))⟩) ∧
      s'.redis = s.redis ∧
      ∃ t', s'.db.tasks.find? id = some t' ∧ t'.status =
        if strikes .getTask f = none ∧ strikes .commit f ≠ some .unreached then st
        else t.status := by
  have hid : t.id = id := (Table.find?_eq_some_iff.mp ht).2
  obtain ⟨db', hwrite, htasks, -, -⟩ := write_updateTask_loaded (hid ▸ ht) { t with status := st }
  have hrow := (htasks id).trans (if_pos hid.symm)
  have hcommit : s.db.commit [.updateTask t { t with status := st }] = .ok db' := by
    simp only [Database.commit, hwrite]
  have hread : env.serve codec (.getTask id) s = (.ok (some t), s) := by
    simp only [Surroundings.serve, Surroundings.answer, Store.effect, Option.getD_some, ht]
  unfold updateTaskStatus
  rw [Prog.run_tryCatch, Prog.run_bind, Prog.run_perform, read_run rfl hread]
  by_cases hg : strikes .getTask f = none
  · have hstrikes : strikes .commit (elapse .getTask f) = strikes .commit f :=
      strikes_elapse_of_ne (by decide) _
    simp only [hg, ↓reduceIte, Prog.run_bind, Prog.run_perform, commit_run hcommit, hstrikes,
      true_and]
    cases hc : strikes .commit f with
    | none =>
      simp only [↓reduceIte, publishEvent_run, reduceCtorEq, not_false_eq_true, ne_eq]
      exact ⟨_, rfl, rfl, _, hrow, rfl⟩
    | some fault =>
      have hspent : elapse .publish (elapse .commit (elapse .getTask f)) =
          elapse .commit (elapse .getTask f) := by
        rw [elapse_of_strikes (f := elapse .getTask f) (by rw [hstrikes, hc]; simp), elapse_none]
      rw [hspent]
      cases fault with
      | unreached => exact ⟨s, rfl, rfl, t, ht, by simp⟩
      | lostReply => exact ⟨{ s with db := db' }, rfl, rfl, _, hrow, by simp⟩
  · rw [elapse_of_strikes hg, elapse_none, elapse_none, if_neg hg]
    exact ⟨s, rfl, rfl, t, ht, by simp [hg]⟩

/-- The completion check leaves the tasks and the queue alone. -/
lemma evaluateScanCompletion_run (scan : ScanId) :
    ∃ s' f', (evaluateScanCompletion scan : Coroutine δ Unit).run (env.handle codec) ⟨s, f⟩ =
        (.ok (), ⟨s', f'⟩) ∧
      s'.redis = s.redis ∧ s'.db.tasks = s.db.tasks ∧ strikes .zadd f' = strikes .zadd f := by
  have hscan : env.serve codec (.getScan scan) s = (.ok (s.db.scans.find? scan), s) := rfl
  have hstatuses : env.serve codec (.selectStatuses scan) s = (.ok (s.db.statuses scan), s) := rfl
  unfold evaluateScanCompletion
  rw [Prog.run_tryCatch, Prog.run_bind, Prog.run_perform, read_run rfl hscan]
  by_cases hg : strikes .getScan f = none
  · rw [if_pos hg]
    cases hsc : s.db.scans.find? scan with
    | none => exact ⟨s, _, rfl, rfl, rfl, strikes_elapse_of_ne (by decide) _⟩
    | some sc =>
      have hid : sc.id = scan := (Table.find?_eq_some_iff.mp hsc).2
      simp only [Prog.run_bind, Prog.run_perform, read_run rfl hstatuses]
      by_cases hs : strikes .selectStatuses (elapse .getScan f) = none
      · rw [if_pos hs]
        by_cases hempty : (s.db.statuses scan).isEmpty = true
        · simp only [hempty, ↓reduceIte]
          exact ⟨s, _, rfl, rfl, rfl, by simp⟩
        · by_cases hopen : (s.db.statuses scan).any TaskStatus.open = true
          · simp only [hempty, hopen, ↓reduceIte, Bool.false_eq_true]
            exact ⟨s, _, rfl, rfl, rfl, by simp⟩
          · obtain ⟨db', hwrite, hupd⟩ :=
              write_updateScan (hid ▸ hsc) (verdict (s.db.statuses scan))
            have hcommit : s.db.commit [.updateScan sc
                { sc with status := verdict (s.db.statuses scan) }] = .ok db' := by
              simp only [Database.commit, hwrite]
            simp only [hempty, hopen, ↓reduceIte, Bool.false_eq_true, Prog.run_bind,
              Prog.run_perform, commit_run hcommit]
            cases hc : strikes .commit (elapse .selectStatuses (elapse .getScan f)) with
            | none =>
              simp only [↓reduceIte, publishEvent_run]
              exact ⟨_, _, rfl, rfl, hupd.tasks, by simp⟩
            | some fault =>
              cases fault with
              | unreached => exact ⟨s, _, rfl, rfl, rfl, by simp⟩
              | lostReply => exact ⟨_, _, rfl, rfl, hupd.tasks, by simp⟩
      · rw [if_neg hs]
        exact ⟨s, _, rfl, rfl, rfl, by simp⟩
  · rw [if_neg hg]
    exact ⟨s, _, rfl, rfl, rfl, strikes_elapse_of_ne (by decide) _⟩

/-- The fault loses the outcome that `_save_response` would store. -/
def savesNothing (f : Option PlannedFault) : Prop :=
  strikes .getTask f ≠ none ∨ strikes .selectResponse f ≠ none ∨
    strikes .commit f = some .unreached

/-- The status of the outcome is stored unless a read is struck or the commit has not
reached the database; then the fault is spent. -/
lemma saveResponse_run {id : TaskId} {t : Task} (ht : s.db.tasks.find? id = some t) (o : Outcome) :
    ∃ s' f', (saveResponse id o : Coroutine δ Unit).run (env.handle codec) ⟨s, f⟩ =
        (.ok (), ⟨s', f'⟩) ∧
      s'.redis = s.redis ∧ strikes .zadd f' = strikes .zadd f ∧
      ∃ t', s'.db.tasks.find? id = some t' ∧
        (savesNothing f ∧ t' = t ∧ f' = none ∨ ¬savesNothing f ∧ t'.status = o.taskStatus) := by
  obtain rfl : t.id = id := (Table.find?_eq_some_iff.mp ht).2
  obtain ⟨db', hcommit, htasks, -⟩ := commit_response_loaded ht o
  have hrow := (htasks t.id).trans (if_pos rfl)
  have hread : env.serve codec (.getTask t.id) s = (.ok (some t), s) := by
    simp only [Surroundings.serve, Surroundings.answer, Store.effect, Option.getD_some, ht]
  have hresp : env.serve codec (.selectResponse t.id) s = (.ok (s.db.responses.find? t.id), s) :=
    rfl
  unfold saveResponse
  rw [Prog.run_tryCatch, Prog.run_bind, Prog.run_perform, read_run rfl hread]
  by_cases hg : strikes .getTask f = none
  · rw [if_pos hg]
    simp only [Prog.run_bind, Prog.run_perform, read_run rfl hresp]
    have hrf : strikes .selectResponse (elapse .getTask f) = strikes .selectResponse f := by simp
    by_cases hr : strikes .selectResponse f = none
    · rw [hrf, if_pos hr]
      have hcf : strikes .commit (elapse .selectResponse (elapse .getTask f)) =
          strikes .commit f := by simp
      simp only [List.cons_append, List.nil_append, commit_run hcommit, hcf]
      cases hc : strikes .commit f with
      | none =>
        simp only [↓reduceIte, publishEvent_run, reduceCtorEq]
        obtain ⟨s', f', hrun, hredis, htasks', hzadd⟩ :=
          evaluateScanCompletion_run codec env { s with db := db' }
            (elapse .publish (elapse .commit (elapse .selectResponse (elapse .getTask f)))) t.scanId
        rw [hrun]
        refine ⟨s', f', rfl, hredis, by simpa using hzadd, _, htasks' ▸ hrow, Or.inr ⟨?_, rfl⟩⟩
        simp [savesNothing, hg, hr, hc]
      | some fault =>
        have hspent : elapse .commit (elapse .selectResponse (elapse .getTask f)) = none :=
          elapse_of_strikes (by rw [hcf, hc]; simp)
        have hzadd : strikes .zadd f = none := strikes_unique (hc ▸ Option.some_ne_none fault) (by decide)
        cases fault with
        | unreached =>
          exact ⟨s, none, by simp [hspent], rfl, hzadd.symm, t, ht,
            Or.inl ⟨Or.inr (Or.inr hc), rfl, rfl⟩⟩
        | lostReply =>
          exact ⟨{ s with db := db' }, none, by simp [hspent], rfl, hzadd.symm, _, hrow,
            Or.inr ⟨by simp [savesNothing, hg, hr, hc], rfl⟩⟩
    · rw [hrf, if_neg hr, elapse_of_strikes (hrf ▸ hr)]
      exact ⟨s, none, rfl, rfl, (strikes_unique hr (by decide)).symm, t, ht,
        Or.inl ⟨Or.inr (Or.inl hr), rfl, rfl⟩⟩
  · rw [if_neg hg, elapse_of_strikes hg]
    exact ⟨s, none, rfl, rfl, (strikes_unique hg (by decide)).symm, t, ht,
      Or.inl ⟨Or.inl hg, rfl, rfl⟩⟩

lemma requestFailed_run (e : String) :
    ∃ o s', (requestFailed e : Coroutine δ Outcome).run (env.handle codec) ⟨s, f⟩ =
        (.ok o, ⟨s', f⟩) ∧
      s'.db = s.db ∧ s'.redis = s.redis ∧ o.taskStatus = .failed := by
  rw [requestFailed_eq]
  split
  · exact ⟨_, s, rfl, rfl, rfl, rfl⟩
  · exact ⟨_, _, rfl, rfl, rfl, rfl⟩

lemma executeRequest_run (p : QueuePayload) :
    ∃ o s', (executeRequest p : Coroutine δ Outcome).run (env.handle codec) ⟨s, f⟩ =
        (.ok o, ⟨s', f⟩) ∧
      s'.db = s.db ∧ s'.redis = s.redis ∧
      o.taskStatus = if env.httpFails then .failed else .success := by
  unfold executeRequest
  rw [Prog.run_tryCatch, Prog.run_bind]
  unfold HttpExecutor.execute
  rw [Prog.run_perform, handle_of_none rfl]
  simp only [Surroundings.serve, Store.effect, Surroundings.answer, Option.getD_some]
  cases hhttp : env.http with
  | error e =>
    have hfails : env.httpFails = true := by simp [Surroundings.httpFails, hhttp]
    rw [hfails, if_pos rfl]
    exact requestFailed_run codec env _ f e
  | ok r =>
    by_cases h429 : r.statusCode = 429
    · have hfails : env.httpFails = true := by simp [Surroundings.httpFails, hhttp, h429]
      rw [hfails, if_pos rfl]
      simp only [h429, ↓reduceIte, Prog.run_bind, Prog.run_perform]
      rw [handle_of_none rfl]
      simp only [Surroundings.serve, Store.effect, Surroundings.answer, Option.getD_some]
      rw [handle_of_none rfl]
      simp only [Surroundings.serve]
      cases env.report with
      | error e => exact requestFailed_run codec env _ f e
      | ok u => exact requestFailed_run codec env _ f _
    · have hfails : env.httpFails = false := by simp [Surroundings.httpFails, hhttp, h429]
      simp only [hfails, h429, Bool.false_eq_true, ↓reduceIte]
      exact ⟨_, _, rfl, rfl, rfl, rfl⟩

lemma scheduleDelayed_run (p : QueuePayload) (delay : ℚ) :
    ∃ b s', (scheduleDelayed codec p delay).run (env.handle codec) ⟨s, f⟩ =
        (.ok b, ⟨s', elapse .zadd f⟩) ∧
      s'.db = s.db ∧ s.redis.stored ⊆ s'.redis.stored ∧
      (strikes .zadd f = some .unreached ∧ s'.redis = s.redis ∨
        strikes .zadd f ≠ some .unreached ∧ codec.dump p ∈ s'.redis.stored) := by
  have hstored := fun x => mem_stored_zadd codec s.redis (codec.dump p) x (env.clock + delay)
  have hadded := (hstored (codec.dump p)).mpr (Or.inl rfl)
  have hkept := fun x (hx : x ∈ s.redis.stored) => (hstored x).mpr (Or.inr hx)
  unfold scheduleDelayed
  rw [Prog.run_tryCatch, Prog.run_bind, Prog.run_perform, handle_of_none rfl]
  simp only [Surroundings.serve, Store.effect, Surroundings.answer, Option.getD_some, Prog.run_bind,
    Prog.run_perform]
  cases hz : strikes .zadd f with
  | none =>
    rw [handle_served rfl hz]
    exact ⟨_, _, rfl, rfl, hkept, Or.inr ⟨by simp, hadded⟩⟩
  | some fault =>
    rw [handle_struck rfl hz]
    cases fault with
    | unreached => exact ⟨_, _, rfl, rfl, List.Subset.refl _, Or.inl ⟨rfl, rfl⟩⟩
    | lostReply => exact ⟨_, _, rfl, rfl, hkept, Or.inr ⟨by simp, hadded⟩⟩

lemma sendToDlq_run (p : QueuePayload) (reason : String) :
    ∃ b s', (sendToDlq p reason : Coroutine δ Bool).run (env.handle codec) ⟨s, f⟩ =
        (.ok b, ⟨s', elapse .rpushDlq f⟩) ∧
      s'.db = s.db ∧ s'.redis.stored = s.redis.stored := by
  unfold sendToDlq
  rw [Prog.run_tryCatch, Prog.run_bind, Prog.run_perform]
  cases hz : strikes .rpushDlq f with
  | none =>
    rw [handle_served rfl hz]
    exact ⟨_, _, rfl, rfl, rfl⟩
  | some fault =>
    rw [handle_struck rfl hz]
    cases fault <;> exact ⟨_, _, rfl, rfl, rfl⟩

variable (settings : Settings) {p : QueuePayload} {t : Task}

/-- A retry that cannot be scheduled leaves the task RETRYING. -/
lemma handleRetry_retry (ht : s.db.tasks.find? p.taskId = some t) (hp : p.attempt < p.maxRetries)
    (e : String) :
    ∃ s' f', (handleRetry codec settings p e).run (env.handle codec) ⟨s, f⟩ =
        (.ok (), ⟨s', f'⟩) ∧
      s.redis.stored ⊆ s'.redis.stored ∧ ∃ t', s'.db.tasks.find? p.taskId = some t' ∧
        (strikes .zadd f = some .unreached ∧ t'.status = .retrying ∧ s'.redis = s.redis ∨
          strikes .zadd f ≠ some .unreached ∧ Queued codec s'.redis p.taskId) := by
  unfold handleRetry
  rw [if_pos hp, Prog.run_bind, Prog.run_perform, handle_of_none rfl]
  simp only [Surroundings.serve, Store.effect, Surroundings.answer, Option.getD_some, Prog.run_bind]
  obtain ⟨s₁, hrun₁, hredis₁, t', ht', hst⟩ :=
    updateTaskStatus_run codec env { s with metrics := { s.metrics with
      retries := s.metrics.retries + 1 } } f ht .retrying
  rw [hrun₁]
  dsimp only
  obtain ⟨b, s₂, hrun₂, hdb₂, hkept, hz⟩ := scheduleDelayed_run codec env s₁
    (elapse .publish (elapse .commit (elapse .getTask f))) { p with attempt := p.attempt + 1 }
    (retryDelay settings (p.attempt + 1))
  rw [hrun₂]
  have hzf : strikes .zadd (elapse .publish (elapse .commit (elapse .getTask f))) =
      strikes .zadd f := by simp
  rw [hzf] at hz
  refine ⟨s₂, _, rfl, hredis₁ ▸ hkept, t', hdb₂ ▸ ht', hz.imp ?_ ?_⟩
  · rintro ⟨hstruck, hredis₂⟩
    have hne : strikes .zadd f ≠ none := hstruck ▸ Option.some_ne_none _
    rw [strikes_unique hne (by decide), strikes_unique hne (by decide)] at hst
    exact ⟨hstruck, by simpa using hst, hredis₂.trans hredis₁⟩
  · rintro ⟨hstruck, hstored⟩
    exact ⟨hstruck, _, hstored, by rw [codec.validate_dump]; rfl⟩

/-- With the retries used up the task ends FAILED, or the fault is spent here. -/
lemma handleRetry_exhausted (ht : s.db.tasks.find? p.taskId = some t)
    (hp : ¬p.attempt < p.maxRetries) (e : String) :
    ∃ s' f', (handleRetry codec settings p e).run (env.handle codec) ⟨s, f⟩ =
        (.ok (), ⟨s', f'⟩) ∧
      s'.redis.stored = s.redis.stored ∧ ∃ t', s'.db.tasks.find? p.taskId = some t' ∧
        (t'.status = .failed ∨ t'.status = t.status ∧ f ≠ none) := by
  unfold handleRetry
  rw [if_neg hp, Prog.run_bind]
  obtain ⟨s₁, hrun₁, hredis₁, t', ht', hst⟩ :=
    updateTaskStatus_run codec env s f ht .failed
  rw [hrun₁]
  dsimp only
  obtain ⟨b, s₂, hrun₂, hdb₂, hkept⟩ := sendToDlq_run codec env s₁
    (elapse .publish (elapse .commit (elapse .getTask f))) p ("Max retries exceeded. Last error: " ++ e)
  rw [Prog.run_bind, hrun₂]
  refine ⟨s₂, _, rfl, by rw [hkept, hredis₁], t', hdb₂ ▸ ht', ?_⟩
  by_cases hf : f = none
  · subst hf
    exact Or.inl (by simpa using hst)
  · split at hst
    · exact Or.inl hst
    · exact Or.inr ⟨hst, hf⟩

/-- The outer handler stores the failure unless the fault is on the save. -/
lemma criticalError_run (ht : s.db.tasks.find? p.taskId = some t) (e : String) :
    ∃ s' f', (criticalError p e : Coroutine δ Unit).run (env.handle codec) ⟨s, f⟩ =
        (.ok (), ⟨s', f'⟩) ∧
      s'.redis.stored = s.redis.stored ∧ ∃ t', s'.db.tasks.find? p.taskId = some t' ∧
        (savesNothing f ∧ t' = t ∨ ¬savesNothing f ∧ t'.status = .failed) := by
  unfold criticalError
  obtain ⟨s₁, f₁, hrun₁, hredis₁, -, t', ht', hst⟩ := saveResponse_run codec env s f ht
    ⟨.failed, none, none, none, none, some ("Worker error: " ++ e)⟩
  obtain ⟨b, s₂, hrun₂, hdb₂, hkept⟩ := sendToDlq_run codec env s₁ f₁ p e
  rw [Prog.run_bind, Prog.run_tryCatch, hrun₁]
  dsimp only
  rw [Prog.run_bind, hrun₂]
  refine ⟨s₂, _, rfl, by rw [hkept, hredis₁], t', hdb₂ ▸ ht', hst.imp ?_ id⟩
  exact fun h => ⟨h.1, h.2.1⟩

end coroutines

section stranded

variable {δ : Type} [DecidableEq δ] (codec : Codec δ) (settings : Settings) (env : Surroundings)

/-- The fault after `_mark_task_processing`. -/
def afterMark (fault : PlannedFault) : Option PlannedFault :=
  elapse .publish (elapse .commit (elapse .getTask (some fault)))

lemma savesNothing_afterMark (fault : PlannedFault) :
    savesNothing (afterMark fault) ↔ losesSave fault = true := by
  rcases fault with ⟨c, n, f⟩
  rcases n with _ | _ | n <;> cases c <;> cases f <;>
    simp [savesNothing, afterMark, elapse, strikes, losesSave]

lemma zadd_afterMark (fault : PlannedFault) :
    strikes .zadd (afterMark fault) = some .unreached ↔ losesRetry fault = true := by
  have hsame : strikes .zadd (afterMark fault) = strikes .zadd (some fault) := by simp [afterMark]
  rw [hsame]
  rcases fault with ⟨c, n, f⟩
  rcases n with _ | n <;> cases c <;> cases f <;> simp [strikes, losesRetry]

/-- A fault on the save is not one on the mark. -/
lemma mark_of_losesSave {fault : PlannedFault} (h : losesSave fault = true) :
    strikes .getTask (some fault) = none ∧ strikes .commit (some fault) ≠ some .unreached := by
  rcases fault with ⟨c, n, f⟩
  rcases n with _ | n <;> cases c <;> simp_all [strikes, losesSave]

/-- The state in which `_process_payload` leaves the task when the attempt is refused. -/
lemma attemptPayload_refused {s : Store δ} {p : QueuePayload} {t : Task}
    (ht : s.db.tasks.find? p.taskId = some t) (hg : env.granted = false) (fault : PlannedFault) :
    ∃ e s', (attemptPayload codec settings p).run (env.handle codec) ⟨s, some fault⟩ =
        (.error e, ⟨s', afterMark fault⟩) ∧
      s'.redis = s.redis ∧ ∃ t', s'.db.tasks.find? p.taskId = some t' ∧ t'.status =
        if strikes .getTask (some fault) = none ∧ strikes .commit (some fault) ≠ some .unreached then
          .processing
        else t.status := by
  obtain ⟨s₁, hrun₁, hredis₁, t', ht', hst⟩ :=
    updateTaskStatus_run codec env s (some fault) ht .processing
  unfold attemptPayload markTaskProcessing
  rw [Prog.run_bind, hrun₁]
  dsimp only
  rw [Prog.run_bind, Prog.run_perform, handle_of_none rfl]
  simp only [Surroundings.serve]
  cases hlim : env.limiter with
  | error e => exact ⟨e, s₁, rfl, hredis₁, t', ht', hst⟩
  | ok b =>
    obtain rfl : b = false := by simpa [Surroundings.granted, hlim] using hg
    exact ⟨_, s₁, rfl, hredis₁, t', ht', hst⟩

lemma granted_limiter {env : Surroundings} (hg : env.granted = true) : env.limiter = .ok true := by
  unfold Surroundings.granted at hg
  split at hg
  · rename_i b hb
    exact hg ▸ hb
  · cases hg

/-- The state before `_handle_retry` of an attempt whose request is sent. -/
lemma granted_run {s : Store δ} {p : QueuePayload} {t : Task}
    (ht : s.db.tasks.find? p.taskId = some t) (hg : env.granted = true) (fault : PlannedFault) :
    ∃ s' f' e, (attemptPayload codec settings p).run (env.handle codec) ⟨s, some fault⟩ =
        (if env.httpFails then handleRetry codec settings p e
          else pure () : Coroutine δ Unit).run (env.handle codec) ⟨s', f'⟩ ∧
      s'.redis = s.redis ∧ strikes .zadd f' = strikes .zadd (afterMark fault) ∧
      ∃ t', s'.db.tasks.find? p.taskId = some t' ∧
        (losesSave fault = true ∧ t'.status = .processing ∧ f' = none ∨
          losesSave fault = false ∧
            t'.status = if env.httpFails then .failed else .success) := by
  have hlim := granted_limiter hg
  obtain ⟨s₁, hrun₁, hredis₁, t₁, ht₁, hst₁⟩ :=
    updateTaskStatus_run codec env s (some fault) ht .processing
  obtain ⟨o, s₂, hrun₂, hdb₂, hredis₂, ho⟩ :=
    executeRequest_run codec env s₁ (afterMark fault) p
  obtain ⟨s₃, f₃, hrun₃, hredis₃, hz, t₃, ht₃, hst₃⟩ :=
    saveResponse_run codec env s₂ (afterMark fault) (hdb₂ ▸ ht₁) o
  refine ⟨s₃, f₃, o.errorMessage.getD "", ?_, ?_, hz, t₃, ht₃, ?_⟩
  · unfold attemptPayload markTaskProcessing
    rw [Prog.run_bind, hrun₁]
    dsimp only
    rw [Prog.run_bind, Prog.run_perform, handle_of_none rfl]
    simp only [Surroundings.serve, hlim, ↓reduceIte]
    rw [Prog.run_bind, ← afterMark, hrun₂]
    dsimp only
    rw [Prog.run_bind, hrun₃]
    dsimp only
    rw [ho]
    cases env.httpFails <;> rfl
  · rw [hredis₃, hredis₂, hredis₁]
  · rw [savesNothing_afterMark, Bool.not_eq_true, ho] at hst₃
    refine hst₃.imp ?_ id
    rintro ⟨hlost, rfl, hf⟩
    exact ⟨hlost, hst₁.trans (if_pos (mark_of_losesSave hlost)), hf⟩

/-- How `_process_payload` leaves the task: behind, with the queue as it was, or not. -/
structure Left (codec : Codec δ) (s s' : Store δ) (task : TaskId) (behind : Bool) : Prop where
  kept : s.redis.stored ⊆ s'.redis.stored
  row : ∃ t, s'.db.tasks.find? task = some t ∧
    (behind = true ∧ (t.status = .processing ∨ t.status = .retrying) ∧
        s'.redis.stored = s.redis.stored ∨
      behind = false ∧ (t.status.Terminal ∨ Queued codec s'.redis task))

lemma attemptPayload_left {s : Store δ} {p : QueuePayload} {t : Task}
    (ht : s.db.tasks.find? p.taskId = some t) (hg : env.granted = true) (fault : PlannedFault) :
    ∃ s' f', (attemptPayload codec settings p).run (env.handle codec) ⟨s, some fault⟩ =
        (.ok (), ⟨s', f'⟩) ∧ Left codec s s' p.taskId (losesTask env p fault) := by
  obtain ⟨s₁, f₁, e, hrun₁, hredis₁, hz, t₁, ht₁, hst₁⟩ :=
    granted_run codec settings env ht hg fault
  rw [hrun₁]
  by_cases hfails : env.httpFails = true
  · simp only [hfails, ↓reduceIte] at hst₁ ⊢
    by_cases hp : p.attempt < p.maxRetries
    · obtain ⟨s₂, f₂, hrun₂, hkept, t₂, ht₂, hst₂⟩ :=
        handleRetry_retry codec env s₁ f₁ settings ht₁ hp e
      have hloses : losesTask env p fault = losesRetry fault := by
        simp [losesTask, hg, hfails, hp]
      rw [hz, zadd_afterMark, ne_eq, zadd_afterMark, Bool.not_eq_true] at hst₂
      refine ⟨s₂, f₂, hrun₂, hredis₁ ▸ hkept, t₂, ht₂, hloses ▸ hst₂.imp ?_ ?_⟩
      · rintro ⟨hlost, hst, hredis⟩
        exact ⟨hlost, Or.inr hst, by rw [hredis, hredis₁]⟩
      · exact fun h => ⟨h.1, Or.inr h.2⟩
    · obtain ⟨s₂, f₂, hrun₂, hkept, t₂, ht₂, hst₂⟩ :=
        handleRetry_exhausted codec env s₁ f₁ settings ht₁ hp e
      have hloses : losesTask env p fault = false := by simp [losesTask, hg, hfails, hp]
      refine ⟨s₂, f₂, hrun₂, by rw [hkept, hredis₁]; exact List.Subset.refl _, t₂, ht₂,
        Or.inr ⟨hloses, Or.inl (Or.inr ?_)⟩⟩
      rcases hst₂ with hst | ⟨hst, hne⟩
      · exact hst
      · rcases hst₁ with ⟨-, -, hnone⟩ | ⟨-, hfailed⟩
        · exact absurd hnone hne
        · exact hst.trans hfailed
  · have hloses : losesTask env p fault = losesSave fault := by simp [losesTask, hfails]
    simp only [hfails, Bool.false_eq_true, ↓reduceIte] at hst₁ ⊢
    refine ⟨s₁, f₁, rfl, by rw [hredis₁]; exact List.Subset.refl _, t₁, ht₁, hloses ▸ hst₁.imp ?_ ?_⟩
    · exact fun h => ⟨h.1, Or.inl h.2.1, by rw [hredis₁]⟩
    · exact fun h => ⟨h.1, Or.inl (Or.inl h.2)⟩

lemma processPayload_left {s : Store δ} {p : QueuePayload} {t : Task}
    (ht : s.db.tasks.find? p.taskId = some t) (fault : PlannedFault) (w : WorkerId) :
    ∃ s' f', (processPayload codec settings w p).run (env.handle codec) ⟨s, some fault⟩ =
        (.ok (), ⟨s', f'⟩) ∧ Left codec s s' p.taskId (losesTask env p fault) := by
  have hrelease : ∀ (s' : Store δ) f', ∃ s'',
      (await (.semaphoreRelease w) : Coroutine δ Unit).run (env.handle codec) ⟨s', f'⟩ =
        (.ok (), ⟨s'', f'⟩) ∧ s''.db = s'.db ∧ s''.redis = s'.redis := by
    intro s' f'
    rw [Prog.run_perform, handle_of_none rfl]
    exact ⟨_, rfl, rfl, rfl⟩
  unfold processPayload
  rw [Prog.run_bind, Prog.run_tryCatch]
  by_cases hg : env.granted = true
  · obtain ⟨s₁, f₁, hrun₁, hleft⟩ :=
      attemptPayload_left codec settings env ht hg fault
    obtain ⟨s₂, hrun₂, hdb, hredis⟩ := hrelease s₁ f₁
    rw [hrun₁]
    exact ⟨s₂, f₁, hrun₂, hredis ▸ hleft.kept, by rw [hdb, hredis]; exact hleft.row⟩
  · rw [Bool.not_eq_true] at hg
    obtain ⟨e, s₁, hrun₁, hredis₁, t₁, ht₁, hst₁⟩ :=
      attemptPayload_refused codec settings env ht hg fault
    obtain ⟨s₂, f₂, hrun₂, hkept, t₂, ht₂, hst₂⟩ :=
      criticalError_run codec env s₁ (afterMark fault) ht₁ e
    obtain ⟨s₃, hrun₃, hdb, hredis⟩ := hrelease s₂ f₂
    have hloses : losesTask env p fault = losesSave fault := by simp [losesTask, hg]
    rw [hredis₁] at hkept
    rw [hrun₁]
    dsimp only
    rw [hrun₂]
    refine ⟨s₃, f₂, hrun₃, by rw [hredis, hkept]; exact List.Subset.refl _, t₂, hdb ▸ ht₂, ?_⟩
    rw [savesNothing_afterMark, Bool.not_eq_true] at hst₂
    refine hloses ▸ hst₂.imp ?_ ?_
    · rintro ⟨hlost, rfl⟩
      exact ⟨hlost, Or.inl (hst₁.trans (if_pos (mark_of_losesSave hlost))), by rw [hredis, hkept]⟩
    · exact fun h => ⟨h.1, Or.inl (Or.inr h.2)⟩

/-- With one failing call, the task is left without a payload that will bring it further
exactly if no payload of it was queued before and the fault is on the save of an attempt
that has no retry, or on the scheduling of the retry. -/
theorem transient_fault_strands_iff (codec : Codec δ) (settings : Settings) (env : Surroundings)
    (fault : PlannedFault) (w : WorkerId) (p : QueuePayload) {s : Store δ} {t : Task}
    (ht : s.db.tasks.find? p.taskId = some t) :
    ¬Stranded codec ((processPayload codec settings w p).run (env.handle codec)
        ⟨s, some fault⟩).2.store p.taskId ↔
      Queued codec s.redis p.taskId ∨ losesTask env p fault = false := by
  obtain ⟨s', f', hrun, hkept, t', ht', hst⟩ :=
    processPayload_left codec settings env ht fault w
  rw [hrun]
  constructor
  · intro hnot
    rcases hst with ⟨hlost, hst, hstored⟩ | ⟨hsafe, -⟩
    · by_contra hcon
      refine hnot ⟨⟨t', ht', hst⟩, fun hq => hcon (Or.inl ?_)⟩
      unfold Queued at hq ⊢
      exact hstored ▸ hq
    · exact Or.inr hsafe
  · rintro hcond ⟨⟨t'', ht'', hopen⟩, hnotQueued⟩
    obtain rfl : t' = t'' := Option.some.inj (ht'.symm.trans ht'')
    rcases hcond with ⟨d, hd, hq⟩ | hsafe
    · exact hnotQueued ⟨d, hkept hd, hq⟩
    · rcases hst with ⟨hlost, -⟩ | ⟨-, hdone | hq⟩
      · exact absurd (hsafe.symm.trans hlost) (by decide)
      · rcases hdone with hdone | hdone <;> rcases hopen with hopen | hopen <;>
          exact absurd (hdone.symm.trans hopen) (by decide)
      · exact hnotQueued hq

/-- A store with one queued task whose payload has been popped. -/
def poppedTask : Store QueuePayload where
  db :=
    { scans := .single ⟨0, "scan", "http://target.example", .running, none⟩
      tasks := .single { id := 0, scanId := 0, method := "GET", url := "http://target.example/" } }

/-- The request fails, and so does the commit of the response; the retry is scheduled. -/
theorem transient_fault_strands_iff_retry :
    ¬Stranded Codec.payloads ((processPayload Codec.payloads {} 0
      { retryPayload 0 with attempt := 0 }).run
        (Surroundings.handle Codec.payloads ⟨.ok true, .ok (), .error "timeout", 0⟩)
        ⟨poppedTask, some ⟨.commit, 1, .unreached⟩⟩).2.store 0 :=
  (transient_fault_strands_iff Codec.payloads {} ⟨.ok true, .ok (), .error "timeout", 0⟩
    ⟨.commit, 1, .unreached⟩ 0 { retryPayload 0 with attempt := 0 } rfl).mpr
      (Or.inr (by decide +kernel))

/-- The request succeeds and the read of the task before the save fails; or the request
fails and the retry does not reach Redis. -/
theorem transient_fault_strands :
    Stranded Codec.payloads ((processPayload Codec.payloads {} 0
        { retryPayload 0 with attempt := 0 }).run
          (Surroundings.handle Codec.payloads ⟨.ok true, .ok (), .ok ⟨200, 1, [], ""⟩, 0⟩)
          ⟨poppedTask, some ⟨.getTask, 1, .unreached⟩⟩).2.store 0 ∧
      Stranded Codec.payloads ((processPayload Codec.payloads {} 0
        { retryPayload 0 with attempt := 0 }).run
          (Surroundings.handle Codec.payloads ⟨.ok true, .ok (), .error "timeout", 0⟩)
          ⟨poppedTask, some ⟨.zadd, 0, .unreached⟩⟩).2.store 0 := by
  decide +kernel

end stranded

end SecurityScanner

import SecurityScanner.Executor.RateLimiter
import SecurityScanner.Executor.WorkerInvariant
import SecurityScanner.Lib.Python

/-!
# The submission of tasks

`submit_tasks` of `executor/api/routes.py`. A submission changes the scan, the
tasks and the queue one after the other; `Atomic` says that it does so as a whole or not at
all.
-/

namespace SecurityScanner

open Storage Interleaving
open RateLimiter (Fault)

structure TaskSubmit where
  method : String
  url : String
  headers : Option (List (String × String)) := none
  payload : Json := .null
  authToken : Option String := none
  retryCount : Int := 3
  priorityLevel : String := "P3"
  mutationStrategy : Option String := none
  mutationReason : Option String := none

/-- The uuids of the rows of a submission and the times of its payloads. -/
structure Draws where
  uuid : ℕ → TaskId
  enqueuedAt : ℕ → String

variable {δ : Type}

section submission

/-- `t_data.headers or {}`, with the token of the task. -/
def TaskSubmit.sentHeaders (t : TaskSubmit) : List (String × String) :=
  let headers := t.headers.getD []
  if Python.truthy t.authToken then
    Python.Dict.setItems "Authorization" ("Bearer " ++ t.authToken.getD "") headers
  else headers

/-- The row of a task. The source gives the two mutation columns twice. -/
def TaskSubmit.row (t : TaskSubmit) (scanId : ScanId) (id : TaskId) : Task where
  id
  scanId
  method := t.method
  url := t.url
  headers := t.sentHeaders
  payload := t.payload
  mutationStrategy := t.mutationStrategy
  mutationReason := t.mutationReason
  status := .queued
  maxRetries := t.retryCount

/-- The payload that is made from a row. -/
def TaskSubmit.queuePayload (t : TaskSubmit) (row : Task) (enqueuedAt : String) : QueuePayload where
  taskId := row.id
  scanId := row.scanId
  method := row.method
  url := row.url
  headers := some row.headers
  payload := row.payload
  mutationStrategy := row.mutationStrategy
  mutationReason := row.mutationReason
  maxRetries := row.maxRetries
  enqueuedAt
  priorityLevel := t.priorityLevel

def dbTasks (scanId : ScanId) (tasks : List TaskSubmit) (draws : Draws) : List Task :=
  tasks.zipIdx.map fun t => t.1.row scanId (draws.uuid t.2)

def queuePayloads (scanId : ScanId) (tasks : List TaskSubmit) (draws : Draws) :
    List QueuePayload :=
  tasks.zipIdx.map fun t =>
    t.1.queuePayload (t.1.row scanId (draws.uuid t.2)) (draws.enqueuedAt t.2)

variable (codec : Codec δ)

/-- A scan that waits starts to run. -/
def resumeScan (scan : Scan) : Coroutine δ Unit := do
  if scan.status = .pending ∨ scan.status = .paused then
    let startedAt ← match scan.startedAt with
      | some t => pure t
      | none => await .time
    await (.commit [.updateScan scan { scan with status := .running, startedAt := some startedAt }])
    match ← await (.getScan scan.id) with
    | none => throw "InvalidRequestError"
    | some _ => pure ()

/-- `submit_tasks`, up to the number in its message. -/
def submitTasks (scanId : ScanId) (tasks : List TaskSubmit) (draws : Draws) : Coroutine δ Nat := do
  match ← await (.getScan scanId) with
  | none => throw "404: Scan not found"
  | some scan =>
    resumeScan scan
    await (.commit ((dbTasks scanId tasks draws).map .insertTask))
    publishBatch codec (queuePayloads scanId tasks draws)

section rules

variable {codec} {Φ : (α : Type) → Coroutine δ α → Prop} (h : Prog.Compositional Φ)
include h

/-- A property that a program has if its parts have it holds of a submission if it holds of the
calls of the submission. -/
lemma resumeScan_of {scan : Scan} (htime : Φ _ (await .time))
    (hget : Φ _ (await (.getScan scan.id)))
    (hresume : ∀ startedAt, Φ _ (await (.commit
      [.updateScan scan { scan with status := .running, startedAt := some startedAt }]))) :
    Φ _ (resumeScan scan) := by
  unfold resumeScan
  split
  · cases scan.startedAt with
    | some t =>
      refine h.bind (h.pure t) fun t => h.bind (hresume t) fun _ => h.bind hget ?_
      rintro (_ | _)
      · exact h.throw _
      · exact h.pure ()
    | none =>
      refine h.bind htime fun t => h.bind (hresume t) fun _ => h.bind hget ?_
      rintro (_ | _)
      · exact h.throw _
      · exact h.pure ()
  · exact h.pure ()

lemma submitTasks_of {scanId : ScanId} {tasks : List TaskSubmit} {draws : Draws}
    (hget : Φ _ (await (.getScan scanId))) (hresume : ∀ scan, Φ _ (resumeScan scan))
    (hinsert : Φ _ (await (.commit ((dbTasks scanId tasks draws).map .insertTask))))
    (hpublish : Φ _ (await (.multi (batchCommands codec (queuePayloads scanId tasks draws))))) :
    Φ _ (submitTasks codec scanId tasks draws) := by
  have hbatch : Φ _ (publishBatch codec (queuePayloads scanId tasks draws)) := by
    unfold publishBatch
    split
    · exact h.pure 0
    · exact h.tryCatch (h.bind hpublish fun _ => h.pure _) fun _ => h.pure 0
  refine h.bind hget ?_
  rintro (_ | scan)
  · exact h.throw _
  · exact h.bind (hresume scan) fun _ => h.bind hinsert fun _ => hbatch

end rules

/-- The points where a submission can fail. -/
inductive FailurePoint where
  | insertCommit | publish
  deriving DecidableEq, Repr

def Write.inserts : Write → Bool
  | .insertTask _ => true
  | _ => false

def failurePoint? : Cmd δ → Option FailurePoint
  | .commit ws => if ws.all Write.inserts then some .insertCommit else none
  | .multi _ => some .publish
  | _ => none

/-- The values in the priority lists. -/
def Redis.listed (R : Redis δ) : List δ :=
  R.lists .critical ++ R.lists .high ++ R.lists .medium ++ R.lists .low

/-- `status` and `started_at` of a scan. -/
def Database.progress (db : Database) (scanId : ScanId) : Option (ScanStatus × Option ℚ) :=
  (db.scans.find? scanId).map fun sc => (sc.status, sc.startedAt)

/-- A submission that has not queued all its payloads has changed nothing and says so; one
that reports success has queued one payload for each new row. -/
structure Atomic (scanId : ScanId) (payloads : List QueuePayload) (s s' : Store δ)
    (r : Except String Nat) : Prop where
  undone : (∃ p ∈ payloads, codec.dump p ∉ s'.redis.listed) →
    s'.db.progress scanId = s.db.progress scanId ∧
      (∀ row ∈ s'.db.tasks.rows, row.status = .queued →
        row ∈ s.db.tasks.rows ∨ row.id ∈ owners codec s'.redis.listed) ∧
      ∃ e, r = .error e
  done : (∃ n, r = .ok n) → ∀ row ∈ s'.db.tasks.rows, row ∉ s.db.tasks.rows →
    (owners codec s'.redis.listed).count row.id = 1

/-- The uuids are new. -/
structure Draws.Fresh (draws : Draws) (s : Store δ) : Prop where
  distinct : Function.Injective draws.uuid
  rows : ∀ i, s.db.tasks.find? (draws.uuid i) = none
  queue : ∀ i, draws.uuid i ∉ owners codec s.redis.listed

/-- Nothing fails, the publish fails on its way back only, or the insert fails before the
database and the scan was not waiting. -/
def Clean (status : ScanStatus) : Option (FailurePoint × Fault) → Prop
  | none => True
  | some (.publish, .lostReply) => True
  | some (.insertCommit, .unreached) => status ≠ .pending ∧ status ≠ .paused
  | _ => False

variable [DecidableEq δ]

/-- A call of a submission that does not fail, at the time `now`. -/
def serveAt (now : ℚ) (c : Cmd δ) (s : Store δ) : Except String (Reply c) × Store δ :=
  (s.effect codec c (match c with | .time => .clock now | _ => .done)).getD (.error "no answer", s)

/-- A call of a submission that fails at a point, or nowhere. -/
def serveFailing (now : ℚ) (failing : Option (FailurePoint × Fault)) (c : Cmd δ) (s : Store δ) :
    Except String (Reply c) × Store δ :=
  match failing with
  | none => serveAt codec now c s
  | some (point, fault) =>
    if failurePoint? c = some point then
      match fault with
      | .unreached => (.error "ConnectionError", s)
      | .lostReply => (.error "ConnectionError", (serveAt codec now c s).2)
    else serveAt codec now c s

end submission

section stores

variable {codec : Codec δ}

/-- New rows of known scans are inserted behind the others. -/
lemma commit_insertTasks {rows : List Task} {db : Database}
    (hscan : ∀ row ∈ rows, (db.scans.find? row.scanId).isSome) (hnodup : (rows.map Task.id).Nodup)
    (hnew : ∀ row ∈ rows, db.tasks.find? row.id = none) :
    ∃ tasks, db.commit (rows.map .insertTask) = .ok { db with tasks } ∧
      tasks.rows = db.tasks.rows ++ rows := by
  induction rows generalizing db with
  | nil => exact ⟨db.tasks, rfl, (List.append_nil _).symm⟩
  | cons row rows ih =>
    obtain ⟨sc, hsc⟩ := Option.isSome_iff_exists.mp (hscan row List.mem_cons_self)
    obtain ⟨tasks, hins, hrows⟩ := Table.insert?_of_find?_eq_none (hnew row List.mem_cons_self)
    have hwrite : db.write (.insertTask row) = .ok { db with tasks } := by
      simp only [Database.write, hsc, hins]
    rw [List.map_cons, List.nodup_cons] at hnodup
    obtain ⟨tasks', hcommit, hrows'⟩ := @ih { db with tasks }
      (fun r hr => hscan r (List.mem_cons_of_mem _ hr)) hnodup.2 (fun r hr => by
        rw [Table.find?_insert?_of_ne hins, hnew r (List.mem_cons_of_mem _ hr)]
        exact fun he => hnodup.1 (he ▸ List.mem_map_of_mem hr))
    refine ⟨tasks', ?_, by rw [hrows', hrows, List.append_assoc, List.singleton_append]⟩
    simp only [List.map_cons, Database.commit, hwrite, hcommit]

/-- A batch is appended to the priority lists, and nothing else. -/
lemma listed_publish (R : Redis δ) (payloads : List QueuePayload) :
    (R.multi (batchCommands codec payloads)).listed.Perm (R.listed ++ payloads.map codec.dump) := by
  classical
  have hroute := route_perm codec (payloads.map codec.dump)
  rw [multi_batchCommands, List.perm_iff_count]
  intro d
  have h := hroute.count_eq d
  simp only [Redis.listed, List.count_append] at h ⊢
  omega

lemma ids_dbTasks (scanId : ScanId) (tasks : List TaskSubmit) (draws : Draws) :
    (dbTasks scanId tasks draws).map Task.id = (tasks.zipIdx.map Prod.snd).map draws.uuid := by
  simp only [dbTasks, List.map_map]
  rfl

lemma owners_append (ds ds' : List δ) :
    owners codec (ds ++ ds') = owners codec ds ++ owners codec ds' := List.filterMap_append

/-- A submission has a payload for each row. -/
lemma owners_queuePayloads (scanId : ScanId) (tasks : List TaskSubmit) (draws : Draws) :
    owners codec ((queuePayloads scanId tasks draws).map codec.dump) =
      (dbTasks scanId tasks draws).map Task.id := by
  have hval : (fun d => (codec.validate d).map QueuePayload.taskId) ∘ codec.dump =
      some ∘ QueuePayload.taskId := by
    funext p
    simp only [Function.comp_apply, codec.validate_dump, Option.map_some]
  rw [owners, List.filterMap_map, hval, List.filterMap_eq_map]
  simp only [queuePayloads, dbTasks, List.map_map]
  rfl

lemma Draws.Fresh.nodup {draws : Draws} {s : Store δ} (h : draws.Fresh codec s) (scanId : ScanId)
    (tasks : List TaskSubmit) : ((dbTasks scanId tasks draws).map Task.id).Nodup := by
  rw [ids_dbTasks]
  refine List.Nodup.map h.distinct ?_
  rw [List.zipIdx_map_snd]
  exact List.nodup_range'

lemma Draws.Fresh.mem_ids {draws : Draws} {s : Store δ} (h : draws.Fresh codec s) {scanId : ScanId}
    {tasks : List TaskSubmit} {row : Task} (hrow : row ∈ dbTasks scanId tasks draws) :
    s.db.tasks.find? row.id = none ∧ row.id ∉ owners codec s.redis.listed := by
  have hid : row.id ∈ (dbTasks scanId tasks draws).map Task.id := List.mem_map_of_mem hrow
  rw [ids_dbTasks] at hid
  obtain ⟨i, -, hi⟩ := List.mem_map.mp hid
  exact hi ▸ ⟨h.rows i, h.queue i⟩

end stores

section run

variable [DecidableEq δ] {codec : Codec δ} {now : ℚ} {failing : Option (FailurePoint × Fault)}
  {s : Store δ}

lemma serveFailing_of_none {c : Cmd δ} (hc : failurePoint? c = none) :
    serveFailing codec now failing c s = serveAt codec now c s := by
  unfold serveFailing
  rw [hc]
  rcases failing with _ | ⟨point, fault⟩ <;> rfl

variable (codec now failing s)

/-- The commit that makes a scan RUNNING, and the refresh after it. -/
lemma resume_commit {sc : Scan} (hsc : s.db.scans.find? sc.id = some sc)
    (hwaits : sc.status = .pending ∨ sc.status = .paused) (t : ℚ) :
    ∃ s', (do
        await (.commit [.updateScan sc { sc with status := .running, startedAt := some t }])
        match ← await (.getScan sc.id) with
        | none => throw "InvalidRequestError"
        | some _ => pure () : Coroutine δ Unit).run (serveFailing codec now failing) s =
          (.ok (), s') ∧
      s'.redis = s.redis ∧ s'.db.tasks = s.db.tasks ∧ (s'.db.scans.find? sc.id).isSome ∧
      s'.db.progress sc.id ≠ s.db.progress sc.id := by
  set new : Scan := { sc with status := .running, startedAt := some t } with hnew
  have hcommit : s.db.commit [.updateScan sc new] =
      .ok { s.db with scans := s.db.scans.modify sc.id _ (sc.id_flush new) } := by
    simp only [Database.commit, Database.write, hsc]
  have hfind : (s.db.scans.modify sc.id _ (sc.id_flush new)).find? sc.id =
      some (sc.flush new sc) := by
    rw [Table.find?_modify, if_pos rfl, hsc]
    rfl
  have hserve : serveAt codec now (.commit [.updateScan sc new]) s = (.ok (),
      { s with db := { s.db with scans := s.db.scans.modify sc.id _ (sc.id_flush new) } }) := by
    simp only [serveAt, Store.effect, hcommit, Option.getD_some]
  rw [Prog.run_bind, Prog.run_perform, serveFailing_of_none rfl, hserve]
  dsimp only
  rw [Prog.run_bind, Prog.run_perform, serveFailing_of_none rfl]
  simp only [serveAt, Store.effect, Option.getD_some, hfind]
  refine ⟨_, rfl, rfl, rfl, by simp [hfind], ?_⟩
  simp only [Database.progress, hfind, hsc, Option.map_some, ne_eq, Option.some.injEq,
    Prod.mk.injEq, not_and]
  intro hst
  have hrunning : (sc.flush new sc).status = .running := by
    rcases hwaits with h | h <;> simp [Scan.flush, dirty, hnew, h]
  rw [hrunning] at hst
  rcases hwaits with h | h <;> exact absurd (hst.trans h) (by decide)

/-- Resuming a scan that waits makes it RUNNING; no other scan changes anything. -/
lemma resumeScan_run {sc : Scan} (hsc : s.db.scans.find? sc.id = some sc) :
    ∃ s', (resumeScan sc : Coroutine δ Unit).run (serveFailing codec now failing) s = (.ok (), s') ∧
      s'.redis = s.redis ∧ s'.db.tasks = s.db.tasks ∧ (s'.db.scans.find? sc.id).isSome ∧
      (s'.db.progress sc.id = s.db.progress sc.id ↔ sc.status ≠ .pending ∧ sc.status ≠ .paused) := by
  unfold resumeScan
  by_cases hwaits : sc.status = .pending ∨ sc.status = .paused
  · rw [if_pos hwaits]
    have hmoved : ¬(sc.status ≠ .pending ∧ sc.status ≠ .paused) := by tauto
    cases ht : sc.startedAt with
    | some t =>
      obtain ⟨s', hrun, hredis, htasks, hfound, hne⟩ :=
        resume_commit codec now failing s hsc hwaits t
      exact ⟨s', hrun, hredis, htasks, hfound, iff_of_false hne hmoved⟩
    | none =>
      obtain ⟨s', hrun, hredis, htasks, hfound, hne⟩ :=
        resume_commit codec now failing s hsc hwaits now
      refine ⟨s', ?_, hredis, htasks, hfound, iff_of_false hne hmoved⟩
      rw [Prog.run_bind, Prog.run_perform, serveFailing_of_none rfl]
      exact hrun
  · rw [if_neg hwaits]
    exact ⟨s, rfl, rfl, rfl, hsc ▸ rfl, by simpa [not_or] using hwaits⟩

/-- How far the call at a failing point gets. -/
inductive Passes (point : FailurePoint) (failing : Option (FailurePoint × Fault)) : Bool → Bool → Prop
  | ok (h : ∀ fault, failing ≠ some (point, fault)) : Passes point failing true true
  | lostReply (h : failing = some (point, .lostReply)) : Passes point failing true false
  | unreached (h : failing = some (point, .unreached)) : Passes point failing false false

/-- The call at a point that may fail has its effect or not, and answers or raises. -/
lemma serveFailing_point {c : Cmd δ} {point : FailurePoint} (hc : failurePoint? c = some point)
    {a : Reply c} {s' : Store δ} (hserve : serveAt codec now c s = (.ok a, s')) :
    ∃ applied answered, Passes point failing applied answered ∧
      serveFailing codec now failing c s =
        (if answered then .ok a else .error "ConnectionError", if applied then s' else s) := by
  unfold serveFailing
  rcases failing with _ | ⟨point', fault⟩
  · exact ⟨true, true, .ok (by simp), hserve⟩
  · dsimp only
    by_cases hp : point' = point
    · subst hp
      rw [if_pos hc]
      cases fault with
      | unreached => exact ⟨false, false, .unreached rfl, rfl⟩
      | lostReply => exact ⟨true, false, .lostReply rfl, by rw [hserve]; rfl⟩
    · rw [if_neg (by rw [hc]; simpa using Ne.symm hp)]
      exact ⟨true, true, .ok (by simp [hp]), hserve⟩

/-- The insert of the rows. -/
lemma insert_run {rows : List Task} (hscan : ∀ row ∈ rows, (s.db.scans.find? row.scanId).isSome)
    (hnodup : (rows.map Task.id).Nodup) (hnew : ∀ row ∈ rows, s.db.tasks.find? row.id = none) :
    ∃ applied answered s', Passes .insertCommit failing applied answered ∧
      (await (.commit (rows.map .insertTask)) : Coroutine δ Unit).run
          (serveFailing codec now failing) s =
        (if answered then .ok () else .error "ConnectionError", s') ∧
      s'.redis = s.redis ∧ s'.db.scans = s.db.scans ∧
      s'.db.tasks.rows = s.db.tasks.rows ++ if applied then rows else [] := by
  obtain ⟨tasks, hcommit, hrows⟩ := commit_insertTasks hscan hnodup hnew
  have hserve : serveAt codec now (.commit (rows.map .insertTask)) s =
      (.ok (), { s with db := { s.db with tasks } }) := by
    simp only [serveAt, Store.effect, hcommit, Option.getD_some]
  have hpoint : failurePoint? (.commit (rows.map .insertTask) : Cmd δ) = some .insertCommit := by
    simp [failurePoint?, Write.inserts]
  obtain ⟨applied, answered, hpass, hrun⟩ :=
    serveFailing_point codec now failing s hpoint hserve
  rw [Prog.run_perform, hrun]
  refine ⟨applied, answered, _, hpass, rfl, ?_⟩
  cases applied with
  | true => exact ⟨rfl, rfl, hrows⟩
  | false => exact ⟨rfl, rfl, (List.append_nil _).symm⟩

/-- The publication of a batch never raises. -/
lemma publishBatch_run {payloads : List QueuePayload} (hne : payloads ≠ []) :
    ∃ applied answered n s', Passes .publish failing applied answered ∧
      (publishBatch codec payloads).run (serveFailing codec now failing) s = (.ok n, s') ∧
      s'.db = s.db ∧
      s'.redis.listed.Perm (s.redis.listed ++ if applied then payloads.map codec.dump else []) := by
  unfold publishBatch
  rw [if_neg (by simpa using hne), Prog.run_tryCatch]
  have hserve : serveAt codec now (.multi (batchCommands codec payloads)) s =
      (.ok (), { s with redis := s.redis.multi (batchCommands codec payloads) }) := rfl
  obtain ⟨applied, answered, hpass, hrun⟩ := serveFailing_point codec now failing s rfl hserve
  rw [Prog.run_bind, Prog.run_perform, hrun]
  have hlisted : ∀ s' : Store δ,
      s' = (if applied then { s with redis := s.redis.multi (batchCommands codec payloads) } else s) →
      s'.db = s.db ∧
      s'.redis.listed.Perm (s.redis.listed ++ if applied then payloads.map codec.dump else []) := by
    rintro s' rfl
    cases applied with
    | true => exact ⟨rfl, listed_publish s.redis payloads⟩
    | false => exact ⟨rfl, by simp⟩
  cases answered with
  | true => exact ⟨applied, true, _, _, hpass, rfl, hlisted _ rfl⟩
  | false => exact ⟨applied, false, _, _, hpass, rfl, hlisted _ rfl⟩

/-- What of a submission has happened when it ends: the rows are inserted, the payloads are
published, success is reported. -/
inductive Ends : Option (FailurePoint × Fault) → Bool → Bool → Bool → Prop
  | notInserted : Ends (some (.insertCommit, .unreached)) false false false
  | unanswered : Ends (some (.insertCommit, .lostReply)) true false false
  | notPublished : Ends (some (.publish, .unreached)) true false true
  | uncounted : Ends (some (.publish, .lostReply)) true true true
  | done : Ends none true true true

omit [DecidableEq δ] in
/-- An insert that has not failed is followed by a publication that fails or does not. -/
lemma Ends.of_publish {failing : Option (FailurePoint × Fault)}
    (hinsert : ∀ fault, failing ≠ some (.insertCommit, fault)) {published counted : Bool}
    (h : Passes .publish failing published counted) : Ends failing true published true := by
  cases h with
  | ok hpublish =>
    rcases failing with _ | ⟨_ | _, fault⟩
    · exact .done
    · exact absurd rfl (hinsert fault)
    · exact absurd rfl (hpublish fault)
  | lostReply h => exact h ▸ .uncounted
  | unreached h => exact h ▸ .notPublished

omit [DecidableEq δ] in
/-- Without payloads there is nothing to publish, and the point is never reached. -/
lemma Ends.of_insert {failing : Option (FailurePoint × Fault)}
    (hinsert : ∀ fault, failing ≠ some (.insertCommit, fault)) :
    ∃ published, Ends failing true published true := by
  rcases failing with _ | ⟨_ | _, _ | _⟩
  · exact ⟨true, .done⟩
  · exact absurd rfl (hinsert _)
  · exact absurd rfl (hinsert _)
  · exact ⟨false, .notPublished⟩
  · exact ⟨true, .uncounted⟩

lemma submitTasks_run {draws : Draws} (hfresh : draws.Fresh codec s) (tasks : List TaskSubmit)
    {sc : Scan} (hsc : s.db.scans.find? sc.id = some sc) :
    ∃ inserted published reported r s', Ends failing inserted published reported ∧
      (submitTasks codec sc.id tasks draws).run (serveFailing codec now failing) s = (r, s') ∧
      (reported = true ↔ ∃ n, r = .ok n) ∧
      (s'.db.progress sc.id = s.db.progress sc.id ↔ sc.status ≠ .pending ∧ sc.status ≠ .paused) ∧
      s'.db.tasks.rows = s.db.tasks.rows ++ (if inserted then dbTasks sc.id tasks draws else []) ∧
      s'.redis.listed.Perm (s.redis.listed ++
        if published then (queuePayloads sc.id tasks draws).map codec.dump else []) := by
  have hread : serveAt codec now (.getScan sc.id) s = (.ok (some sc), s) := by
    simp only [serveAt, Store.effect, hsc, Option.getD_some]
  obtain ⟨s₁, hrun₁, hredis₁, htasks₁, hfound₁, hprogress⟩ :=
    resumeScan_run codec now failing s hsc
  have hscans : ∀ row ∈ dbTasks sc.id tasks draws, (s₁.db.scans.find? row.scanId).isSome := by
    intro row hrow
    obtain ⟨t, -, rfl⟩ := List.mem_map.mp hrow
    exact hfound₁
  obtain ⟨inserted, answered, s₂, hpass₂, hrun₂, hredis₂, hscans₂, hrows₂⟩ :=
    insert_run codec now failing s₁ hscans (hfresh.nodup sc.id tasks)
      fun row hrow => htasks₁ ▸ (hfresh.mem_ids hrow).1
  have hprogress₂ : s₂.db.progress sc.id = s₁.db.progress sc.id := by
    rw [Database.progress, Database.progress, hscans₂]
  rw [hredis₁] at hredis₂
  rw [htasks₁] at hrows₂
  rw [← hprogress₂] at hprogress
  have hsubmit : (submitTasks codec sc.id tasks draws).run (serveFailing codec now failing) s =
      if answered then
        (publishBatch codec (queuePayloads sc.id tasks draws)).run (serveFailing codec now failing) s₂
      else (.error "ConnectionError", s₂) := by
    unfold submitTasks
    rw [Prog.run_bind, Prog.run_perform, serveFailing_of_none rfl, hread]
    dsimp only
    rw [Prog.run_bind, hrun₁]
    dsimp only
    rw [Prog.run_bind, hrun₂]
    cases answered <;> rfl
  rw [hsubmit]
  cases hpass₂ with
  | unreached h =>
    exact ⟨false, false, false, _, s₂, h ▸ .notInserted, rfl, by simp, hprogress, hrows₂,
      by simp [hredis₂]⟩
  | lostReply h =>
    exact ⟨true, false, false, _, s₂, h ▸ .unanswered, rfl, by simp, hprogress, hrows₂,
      by simp [hredis₂]⟩
  | ok hinsert =>
    by_cases hne : queuePayloads sc.id tasks draws = []
    · have hpublish : (publishBatch codec (queuePayloads sc.id tasks draws)).run
          (serveFailing codec now failing) s₂ = (.ok 0, s₂) := by
        rw [hne]
        rfl
      obtain ⟨published, hends⟩ := Ends.of_insert hinsert
      refine ⟨true, published, true, _, s₂, hends, hpublish, by simp, hprogress, hrows₂, ?_⟩
      simp [hne, hredis₂]
    · obtain ⟨published, counted, n, s₃, hpass₃, hrun₃, hdb₃, hlisted⟩ :=
        publishBatch_run codec now failing s₂ hne
      exact ⟨true, published, true, _, s₃, Ends.of_publish hinsert hpass₃, hrun₃, by simp,
        hdb₃ ▸ hprogress, hdb₃ ▸ hrows₂, hredis₂ ▸ hlisted⟩

end run

section atomicity

variable {codec : Codec δ} {s s' : Store δ} {draws : Draws} {tasks : List TaskSubmit}
  {scanId : ScanId} {r : Except String Nat}

/-- Nothing of a submission without tasks can be half done. -/
lemma atomic_of_no_tasks (hrows : s'.db.tasks.rows = s.db.tasks.rows) :
    Atomic codec scanId (queuePayloads scanId [] draws) s s' r where
  undone h := by
    obtain ⟨p, hp, -⟩ := h
    cases hp
  done _ row hrow hnew := absurd (hrows ▸ hrow) hnew

/-- A submission that raises having changed nothing is atomic. -/
lemma atomic_of_undone {payloads : List QueuePayload} {e : String} (hr : r = .error e)
    (hprogress : s'.db.progress scanId = s.db.progress scanId)
    (hrows : s'.db.tasks.rows = s.db.tasks.rows) : Atomic codec scanId payloads s s' r where
  undone _ := ⟨hprogress, fun row hrow _ => Or.inl (hrows ▸ hrow), e, hr⟩
  done h := by
    obtain ⟨n, hn⟩ := h
    cases hr.symm.trans hn

variable (hfresh : draws.Fresh codec s)
include hfresh

/-- A payload of the submission that is not published is not queued. -/
lemma not_listed (hlisted : s'.redis.listed.Perm s.redis.listed) {p : QueuePayload}
    (hp : p ∈ queuePayloads scanId tasks draws) :
    codec.dump p ∉ s'.redis.listed ∧ p.taskId ∉ owners codec s'.redis.listed := by
  have hperm : (owners codec s'.redis.listed).Perm (owners codec s.redis.listed) :=
    hlisted.filterMap _
  have hid : p.taskId ∉ owners codec s'.redis.listed := by
    obtain ⟨t, ht, rfl⟩ := List.mem_map.mp hp
    rw [hperm.mem_iff]
    exact hfresh.queue t.2
  refine ⟨fun hmem => hid ?_, hid⟩
  exact List.mem_filterMap.mpr ⟨_, hmem, by rw [codec.validate_dump]; rfl⟩

/-- A submission whose payloads are published has one for each row. -/
lemma atomic_of_published
    (hrows : s'.db.tasks.rows = s.db.tasks.rows ++ dbTasks scanId tasks draws)
    (hlisted : s'.redis.listed.Perm
      (s.redis.listed ++ (queuePayloads scanId tasks draws).map codec.dump)) :
    Atomic codec scanId (queuePayloads scanId tasks draws) s s' r where
  undone h := by
    obtain ⟨p, hp, hnot⟩ := h
    refine absurd (hlisted.mem_iff.mpr (List.mem_append_right _ ?_)) hnot
    exact List.mem_map_of_mem hp
  done _ row hrow hnew := by
    have hrow' : row ∈ dbTasks scanId tasks draws := by
      rw [hrows] at hrow
      exact (List.mem_append.mp hrow).resolve_left hnew
    have hperm : (owners codec s'.redis.listed).Perm (owners codec s.redis.listed ++
        (dbTasks scanId tasks draws).map Task.id) := by
      rw [← @owners_queuePayloads δ codec, ← owners_append]
      exact hlisted.filterMap _
    rw [hperm.count_eq, List.count_append,
      List.count_eq_zero_of_not_mem (hfresh.mem_ids hrow').2, Nat.zero_add]
    exact List.count_eq_one_of_mem (hfresh.nodup scanId tasks) (List.mem_map_of_mem hrow')

/-- A row that is inserted without its payload. -/
lemma not_atomic_of_unqueued
    (hrows : s'.db.tasks.rows = s.db.tasks.rows ++ dbTasks scanId tasks draws)
    (hlisted : s'.redis.listed.Perm s.redis.listed) {p : QueuePayload}
    (hp : p ∈ queuePayloads scanId tasks draws) {row : Task} (hrow : row ∈ dbTasks scanId tasks draws)
    (hid : row.id = p.taskId) (hqueued : row.status = .queued) :
    ¬Atomic codec scanId (queuePayloads scanId tasks draws) s s' r := by
  intro h
  obtain ⟨hnot, howner⟩ := not_listed hfresh hlisted hp
  have hmem : row ∈ s'.db.tasks.rows := hrows ▸ List.mem_append_right _ hrow
  rcases (h.undone ⟨p, hp, hnot⟩).2.1 row hmem hqueued with hold | howned
  · have hnone := (hfresh.mem_ids hrow).1
    rw [Table.find?_key_of_mem hold] at hnone
    cases hnone
  · exact howner (hid ▸ howned)

/-- Success is reported and a payload is missing. -/
lemma not_atomic_of_reported (hlisted : s'.redis.listed.Perm s.redis.listed) {p : QueuePayload}
    (hp : p ∈ queuePayloads scanId tasks draws) {n : ℕ} (hr : r = .ok n) :
    ¬Atomic codec scanId (queuePayloads scanId tasks draws) s s' r := by
  intro h
  obtain ⟨e, he⟩ := (h.undone ⟨p, hp, (not_listed hfresh hlisted hp).1⟩).2.2
  cases hr.symm.trans he

end atomicity

/-- A submission under one failure is atomic exactly if it has no tasks, or the scan does
not exist, or nothing of it is done when it fails. -/
theorem submission_atomic_iff [DecidableEq δ] (codec : Codec δ) (now : ℚ)
    (failing : Option (FailurePoint × Fault)) (scanId : ScanId) (tasks : List TaskSubmit)
    {draws : Draws} {s : Store δ} (hfresh : draws.Fresh codec s) :
    let ended := (submitTasks codec scanId tasks draws).run (serveFailing codec now failing) s
    Atomic codec scanId (queuePayloads scanId tasks draws) s ended.2 ended.1 ↔
      tasks = [] ∨ ∀ sc, s.db.scans.find? scanId = some sc → Clean sc.status failing := by
  intro ended
  cases hsc : s.db.scans.find? scanId with
  | none =>
    have hended : ended = (.error "404: Scan not found", s) := by
      have hread : serveAt codec now (.getScan scanId) s = (.ok none, s) := by
        simp only [serveAt, Store.effect, hsc, Option.getD_some]
      simp only [ended, submitTasks]
      rw [Prog.run_bind, Prog.run_perform, serveFailing_of_none rfl, hread]
      rfl
    rw [hended]
    exact iff_of_true (atomic_of_undone rfl rfl rfl) (Or.inr fun sc h => by cases h)
  | some sc =>
    obtain rfl : sc.id = scanId := (Table.find?_eq_some_iff.mp hsc).2
    obtain ⟨inserted, published, reported, r, s', hends, hrun, hreported, hprogress, hrows, hlisted⟩ :=
      submitTasks_run codec now failing s hfresh tasks hsc
    have hended : ended = (r, s') := hrun
    rw [hended]
    by_cases ht : tasks = []
    · subst ht
      refine iff_of_true (atomic_of_no_tasks ?_) (Or.inl rfl)
      rw [hrows]
      cases inserted <;> simp [dbTasks]
    · obtain ⟨t, ts, rfl⟩ := List.exists_cons_of_ne_nil ht
      set p := t.queuePayload (t.row sc.id (draws.uuid 0)) (draws.enqueuedAt 0) with hp
      have hpmem : p ∈ queuePayloads sc.id (t :: ts) draws :=
        List.mem_map.mpr ⟨(t, 0), List.mem_cons_self, rfl⟩
      have hrow : t.row sc.id (draws.uuid 0) ∈ dbTasks sc.id (t :: ts) draws :=
        List.mem_map.mpr ⟨(t, 0), List.mem_cons_self, rfl⟩
      simp only [reduceCtorEq, false_or, Option.some.injEq, forall_eq']
      cases hends with
      | notInserted =>
        rw [if_neg Bool.false_ne_true, List.append_nil] at hlisted hrows
        constructor
        · intro h
          exact hprogress.mp (h.undone ⟨p, hpmem, (not_listed hfresh hlisted hpmem).1⟩).1
        · intro h
          cases r with
          | error e => exact atomic_of_undone rfl (hprogress.mpr h) hrows
          | ok n => cases hreported.mpr ⟨n, rfl⟩
      | unanswered =>
        rw [if_neg Bool.false_ne_true, List.append_nil] at hlisted
        rw [if_pos rfl] at hrows
        exact iff_of_false (not_atomic_of_unqueued hfresh hrows hlisted hpmem hrow rfl rfl) id
      | notPublished =>
        rw [if_neg Bool.false_ne_true, List.append_nil] at hlisted
        obtain ⟨n, hn⟩ := hreported.mp rfl
        exact iff_of_false (not_atomic_of_reported hfresh hlisted hpmem hn) id
      | uncounted => exact iff_of_true (atomic_of_published hfresh hrows hlisted) trivial
      | done => exact iff_of_true (atomic_of_published hfresh hrows hlisted) trivial

section examples

/-- A store with a scan that has not been started. -/
def pendingScan : Store QueuePayload where
  db := { scans := .single ⟨0, "scan", "http://target.example", .pending, none⟩ }

def numbered : Draws := ⟨id, fun _ => "2026-01-01T00:00:00+00:00"⟩

lemma numbered_fresh : numbered.Fresh Codec.payloads pendingScan where
  distinct := Function.injective_id
  rows _ := rfl
  queue _ h := by cases h

def oneTask : List TaskSubmit := [{ method := "GET", url := "http://target.example/" }]

/-- The reply to the publication is lost. -/
theorem submission_atomic_iff_uncounted :
    let ended := (submitTasks Codec.payloads 0 oneTask numbered).run
      (serveFailing Codec.payloads 5 (some (.publish, .lostReply))) pendingScan
    Atomic Codec.payloads 0 (queuePayloads 0 oneTask numbered) pendingScan ended.2 ended.1 :=
  (submission_atomic_iff Codec.payloads 5 (some (.publish, .lostReply)) 0 oneTask
    numbered_fresh).mpr (Or.inr fun _ _ => trivial)

/-- The submission when the call at `point` fails as `fault` says. -/
def submitFailing (point : FailurePoint) (fault : Fault) :
    Except String Nat × Store QueuePayload :=
  (submitTasks Codec.payloads 0 oneTask numbered).run
    (serveFailing Codec.payloads 5 (some (point, fault))) pendingScan

/-- The scan has been changed and no payload is stored. -/
lemma not_atomic_of_progress {ended : Except String Nat × Store QueuePayload}
    (h : ended.2.db.progress 0 ≠ pendingScan.db.progress 0 ∧
      ∃ p ∈ queuePayloads 0 oneTask numbered, Codec.payloads.dump p ∉ ended.2.redis.listed) :
    ¬Atomic Codec.payloads 0 (queuePayloads 0 oneTask numbered) pendingScan ended.2 ended.1 :=
  fun hatomic => h.1 (hatomic.undone h.2).1

/-- The publication fails, and the submission reports success; or the insert fails, and the
scan is RUNNING. -/
theorem submission_half_done :
    ¬Atomic Codec.payloads 0 (queuePayloads 0 oneTask numbered) pendingScan
        (submitFailing .publish .unreached).2 (submitFailing .publish .unreached).1 ∧
      ¬Atomic Codec.payloads 0 (queuePayloads 0 oneTask numbered) pendingScan
        (submitFailing .insertCommit .unreached).2 (submitFailing .insertCommit .unreached).1 :=
  ⟨not_atomic_of_progress (by decide +kernel), not_atomic_of_progress (by decide +kernel)⟩

end examples

end SecurityScanner

import SecurityScanner.Json
import SecurityScanner.Lib.Table

/-!
# The database of the executor

Rows of `executor/persistence/models.py` and what a commit of a session does to them. An
identifier is the number a UUID stands for.
-/

namespace SecurityScanner

open Storage

abbrev TaskId := Nat
abbrev ScanId := Nat

inductive ScanStatus where
  | pending | running | paused | completed | failed | cancelled
  deriving DecidableEq, Repr

inductive TaskStatus where
  | queued | processing | retrying | success | failed
  deriving DecidableEq, Repr

/-- A status after which the executor has nothing left to do for the task. -/
def TaskStatus.Terminal (s : TaskStatus) : Prop := s = .success ∨ s = .failed

instance (s : TaskStatus) : Decidable s.Terminal := by
  unfold TaskStatus.Terminal
  infer_instance

structure Scan where
  id : ScanId
  name : String
  target : String
  status : ScanStatus := .pending
  startedAt : Option ℚ := none
  deriving DecidableEq

structure Task where
  id : TaskId
  scanId : ScanId
  method : String
  url : String
  headers : List (String × String) := []
  payload : Json := .null
  mutationStrategy : Option String := none
  mutationReason : Option String := none
  status : TaskStatus := .queued
  attempts : Int := 0
  maxRetries : Int := 3
  deriving DecidableEq

/-- A task has at most one response row. -/
structure ScanResponse where
  taskId : TaskId
  statusCode : Option Int := none
  latencyMs : Option ℚ := none
  responseHeaders : Option (List (String × String)) := none
  responseBody : Option String := none
  errorMessage : Option String := none
  deriving DecidableEq

structure Database where
  scans : Table Scan ScanId Scan.id := .empty
  tasks : Table Task TaskId Task.id := .empty
  responses : Table ScanResponse TaskId ScanResponse.taskId := .empty

/-- The change of one object in a session: the object as loaded and as the code left it, a
new object, or an object to delete. -/
inductive Write where
  | updateScan (loaded new : Scan)
  | updateTask (loaded new : Task)
  | insertResponse (r : ScanResponse)
  | updateResponse (loaded new : ScanResponse)
  | insertTask (t : Task)
  | deleteScan (scan : ScanId)

/-- The session sends the columns that differ from what it loaded. -/
def dirty {α : Type} [DecidableEq α] (loaded new current : α) : α :=
  if new = loaded then current else new

@[simp] lemma dirty_self {α : Type} [DecidableEq α] (loaded current : α) :
    dirty loaded loaded current = current := if_pos rfl

lemma dirty_of_ne {α : Type} [DecidableEq α] {loaded new : α} (h : new ≠ loaded)
    (current : α) : dirty loaded new current = new := if_neg h

/-- An UPDATE of the columns `status` and `attempts`. -/
def Task.flush (loaded new row : Task) : Task :=
  { row with
    status := dirty loaded.status new.status row.status
    attempts := dirty loaded.attempts new.attempts row.attempts }

/-- An UPDATE of `status` and `started_at`; `finished_at` is not modelled. -/
def Scan.flush (loaded new row : Scan) : Scan :=
  { row with
    status := dirty loaded.status new.status row.status
    startedAt := dirty loaded.startedAt new.startedAt row.startedAt }

def ScanResponse.flush (loaded new row : ScanResponse) : ScanResponse where
  taskId := row.taskId
  statusCode := dirty loaded.statusCode new.statusCode row.statusCode
  latencyMs := dirty loaded.latencyMs new.latencyMs row.latencyMs
  responseHeaders := dirty loaded.responseHeaders new.responseHeaders row.responseHeaders
  responseBody := dirty loaded.responseBody new.responseBody row.responseBody
  errorMessage := dirty loaded.errorMessage new.errorMessage row.errorMessage

@[simp] lemma Task.id_flush (loaded new row : Task) : (loaded.flush new row).id = row.id := rfl

@[simp] lemma Scan.id_flush (loaded new row : Scan) : (loaded.flush new row).id = row.id := rfl

@[simp] lemma ScanResponse.taskId_flush (loaded new row : ScanResponse) :
    (loaded.flush new row).taskId = row.taskId := rfl

/-- The errors of a flush: the row to update is gone, a unique key is taken, or the row that
a foreign key names does not exist. A deleted scan takes its tasks and their responses
along (`ON DELETE CASCADE`). -/
def Database.write (db : Database) : Write → Except String Database
  | .updateScan loaded new =>
    match db.scans.find? loaded.id with
    | none => .error "StaleDataError"
    | some _ =>
      .ok { db with scans := db.scans.modify loaded.id _ (loaded.id_flush new) }
  | .updateTask loaded new =>
    if new.status = loaded.status ∧ new.attempts = loaded.attempts then .ok db
    else
      match db.tasks.find? loaded.id with
      | none => .error "StaleDataError"
      | some _ =>
        .ok { db with tasks := db.tasks.modify loaded.id _ (loaded.id_flush new) }
  | .insertResponse r =>
    match db.tasks.find? r.taskId with
    | none => .error "IntegrityError"
    | some _ =>
      match db.responses.insert? r with
      | none => .error "IntegrityError"
      | some responses => .ok { db with responses }
  | .updateResponse loaded new =>
    if new = loaded then .ok db
    else
      match db.responses.find? loaded.taskId with
      | none => .error "StaleDataError"
      | some _ =>
        .ok { db with
          responses := db.responses.modify loaded.taskId _ (loaded.taskId_flush new) }
  | .insertTask t =>
    match db.scans.find? t.scanId with
    | none => .error "IntegrityError"
    | some _ =>
      match db.tasks.insert? t with
      | none => .error "IntegrityError"
      | some tasks => .ok { db with tasks }
  | .deleteScan scan =>
    .ok
      { scans := db.scans.filter fun sc => sc.id ≠ scan
        tasks := db.tasks.filter fun t => t.scanId ≠ scan
        responses := db.responses.filter fun r =>
          (db.tasks.find? r.taskId).all fun t => t.scanId ≠ scan }

/-- A commit writes all changes of the session or none. -/
def Database.commit (db : Database) : List Write → Except String Database
  | [] => .ok db
  | w :: ws =>
    match db.write w with
    | .ok db' => db'.commit ws
    | .error e => .error e

/-- `select(Task.status).where(Task.scan_id == scan_id)`. -/
def Database.statuses (db : Database) (scan : ScanId) : List TaskStatus :=
  (db.tasks.rows.filter (fun t => t.scanId = scan)).map Task.status

end SecurityScanner

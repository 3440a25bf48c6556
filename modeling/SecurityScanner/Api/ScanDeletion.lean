import SecurityScanner.Api.Submission
import SecurityScanner.Executor.FinalVerdict

/-!
# The deletion of a scan

`delete_scan` of `executor/api/routes.py`. The rows of the scan go with one commit; the
payloads of its tasks stay in Redis and in the hands of the workers, which nothing stops.
-/

namespace SecurityScanner

open Storage Interleaving

section model

variable {δ : Type}

def deleteScan (scanId : ScanId) : Coroutine δ Unit := do
  match ← await (.getScan scanId) with
  | none => throw "404: Scan not found"
  | some scan => await (.commit [.deleteScan scan.id])

/-- The tasks of a scan. -/
def Database.tasksOf (db : Database) (scan : ScanId) : List TaskId :=
  (db.tasks.rows.filter fun t => t.scanId = scan).map Task.id

/-- No task is inserted under an id of `ids`. -/
def KeepsIds (ids : List TaskId) (p : Workers δ) (act : Act Answer) : Prop :=
  ∀ ws, p.call? act = some (.commit ws) → ∀ t, .insertTask t ∈ ws → t.id ∉ ids

/-- Neither the scan nor its tasks nor their responses have a row. -/
structure Gone (scan : ScanId) (ids : List TaskId) (db : Database) : Prop where
  scan : db.scans.find? scan = none
  tasks : ∀ id ∈ ids, db.tasks.find? id = none
  responses : ∀ id ∈ ids, db.responses.find? id = none

end model

section database

variable {scan : ScanId} {ids : List TaskId} {db db' : Database}

/-- The deletion takes the scan with all that hangs on it. -/
lemma gone_of_deleteScan (h : db.write (.deleteScan scan) = .ok db') :
    Gone scan (db.tasksOf scan) db' := by
  obtain rfl := Except.ok.inj h
  have hscanId : ∀ id ∈ db.tasksOf scan, ∃ t, db.tasks.find? id = some t ∧ t.scanId = scan := by
    intro id hid
    obtain ⟨t, ht, rfl⟩ := List.mem_map.mp hid
    obtain ⟨hrow, hscan⟩ := List.mem_filter.mp ht
    exact ⟨t, Table.find?_key_of_mem hrow, of_decide_eq_true hscan⟩
  refine ⟨Table.find?_filter_eq_none fun r hr => ?_,
    fun id hid => Table.find?_filter_eq_none fun r hr => ?_,
    fun id hid => Table.find?_filter_eq_none fun r hr => ?_⟩
  · simp [(Table.find?_eq_some_iff.mp hr).2]
  · obtain ⟨t, ht, hscan⟩ := hscanId id hid
    obtain rfl := Option.some.inj (ht.symm.trans hr)
    simp [hscan]
  · obtain ⟨t, ht, hscan⟩ := hscanId id hid
    have hid' : r.taskId = id := (Table.find?_eq_some_iff.mp hr).2
    simp [hid', ht, hscan]

/-- A write brings nothing of it back: a response needs the row of its task. -/
lemma Gone.write (hgone : Gone scan ids db) {w : Write} (hw : ∀ t, w = .insertTask t → t.id ∉ ids)
    (h : db.write w = .ok db') : Gone scan ids db' := by
  cases w with
  | updateScan loaded new =>
    simp only [Database.write] at h
    split at h
    · cases h
    · obtain rfl := Except.ok.inj h
      exact ⟨Table.find?_modify_eq_none (loaded.id_flush new) hgone.scan, hgone.tasks,
        hgone.responses⟩
  | updateTask loaded new =>
    simp only [Database.write] at h
    split at h
    · exact Except.ok.inj h ▸ hgone
    · split at h
      · cases h
      · obtain rfl := Except.ok.inj h
        exact ⟨hgone.scan, fun id hid =>
          Table.find?_modify_eq_none (loaded.id_flush new) (hgone.tasks id hid), hgone.responses⟩
  | insertResponse r =>
    simp only [Database.write] at h
    split at h
    · cases h
    · rename_i t ht
      split at h
      · cases h
      · rename_i responses hins
        obtain rfl := Except.ok.inj h
        refine ⟨hgone.scan, hgone.tasks, fun id hid => ?_⟩
        have hne : id ≠ r.taskId := by
          rintro rfl
          exact absurd (ht.symm.trans (hgone.tasks _ hid)) (by simp)
        exact (Table.find?_insert?_of_ne hins hne).trans (hgone.responses id hid)
  | updateResponse loaded new =>
    simp only [Database.write] at h
    split at h
    · exact Except.ok.inj h ▸ hgone
    · split at h
      · cases h
      · obtain rfl := Except.ok.inj h
        exact ⟨hgone.scan, hgone.tasks, fun id hid =>
          Table.find?_modify_eq_none (loaded.taskId_flush new) (hgone.responses id hid)⟩
  | insertTask t =>
    simp only [Database.write] at h
    split at h
    · cases h
    · split at h
      · cases h
      · rename_i tasks hins
        obtain rfl := Except.ok.inj h
        refine ⟨hgone.scan, fun id hid => ?_, hgone.responses⟩
        have hne : id ≠ t.id := fun he => hw t rfl (he ▸ hid)
        exact (Table.find?_insert?_of_ne hins hne).trans (hgone.tasks id hid)
  | deleteScan scan' =>
    obtain rfl := Except.ok.inj h
    exact ⟨Table.find?_filter_of_eq_none hgone.scan _,
      fun id hid => Table.find?_filter_of_eq_none (hgone.tasks id hid) _,
      fun id hid => Table.find?_filter_of_eq_none (hgone.responses id hid) _⟩

lemma Gone.commit {ws : List Write} (hgone : Gone scan ids db)
    (hw : ∀ t, .insertTask t ∈ ws → t.id ∉ ids) (h : db.commit ws = .ok db') :
    Gone scan ids db' := by
  induction ws generalizing db with
  | nil => exact Except.ok.inj h ▸ hgone
  | cons w ws ih =>
    simp only [Database.commit] at h
    split at h
    · rename_i db₁ hwrite
      refine ih (hgone.write (fun t ht => hw t (ht ▸ List.mem_cons_self)) hwrite)
        (fun t ht => hw t (List.mem_cons_of_mem _ ht)) h
    · cases h

end database

section runs

variable {δ : Type} [DecidableEq δ] {codec : Codec δ} {s s' : Store δ}

/-- Only a commit changes the database. -/
lemma db_of_effect {c : Cmd δ} {a : Answer} {r : Except String (Reply c)}
    (h : s.effect codec c a = some (r, s')) :
    s'.db = s.db ∨ ∃ ws, c = .commit ws ∧ s.db.commit ws = .ok s'.db := by
  cases c with
  | commit ws =>
    cases a <;> simp only [Store.effect, reduceCtorEq] at h
    split at h
    · rename_i db hdb
      obtain ⟨-, rfl⟩ := Prod.mk.inj (Option.some.inj h)
      exact Or.inr ⟨ws, rfl, hdb⟩
    · obtain ⟨-, rfl⟩ := Prod.mk.inj (Option.some.inj h)
      exact Or.inl rfl
  | random =>
    cases a <;> simp only [Store.effect, reduceCtorEq] at h
    split at h
    · obtain ⟨-, rfl⟩ := Prod.mk.inj (Option.some.inj h)
      exact Or.inl rfl
    · cases h
  | semaphoreAcquire w =>
    cases a <;> simp only [Store.effect, reduceCtorEq] at h
    split at h
    · cases h
    · obtain ⟨-, rfl⟩ := Prod.mk.inj (Option.some.inj h)
      exact Or.inl rfl
  | _ =>
    cases a <;> simp only [Store.effect, reduceCtorEq] at h
    obtain ⟨-, rfl⟩ := Prod.mk.inj (Option.some.inj h)
    exact Or.inl rfl

lemma Gone.step {scan : ScanId} {ids : List TaskId} {settings : Settings} {p p' : Workers δ}
    {act : Act Answer} (hgone : Gone scan ids p.store.db) (hids : KeepsIds ids p act)
    (h : p.step (workerSystem codec settings) act = some p') : Gone scan ids p'.store.db := by
  cases act with
  | run i a =>
    obtain ⟨c, k, l, r, s', ht, he, rfl⟩ := Pool.step_run h
    rcases db_of_effect he with hdb | ⟨ws, rfl, hcommit⟩
    · exact hdb ▸ hgone
    · exact hgone.commit (hids ws (Pool.call?_run ht)) hcommit
  | again i =>
    obtain ⟨u, l, -, rfl⟩ := Pool.step_again h
    exact hgone

end runs

/-- Once the deletion of a scan has committed, no run of whatever threads brings a row of
the scan, of its tasks or of their responses back, as long as task ids are not used again. -/
theorem deleted_scan_stays_gone {δ : Type} [DecidableEq δ] {codec : Codec δ} {settings : Settings}
    {scan : ScanId} {p p₁ p' : Workers δ} {act : Act Answer}
    (hcall : p.call? act = some (.commit [.deleteScan scan]))
    (hstep : p.step (workerSystem codec settings) act = some p₁)
    (hrun : Reachable (workerSystem codec settings) (KeepsIds (p.store.db.tasksOf scan))
      (· = p₁) p') :
    Gone scan (p.store.db.tasksOf scan) p'.store.db := by
  induction hrun with
  | start hp =>
    subst hp
    cases act with
    | again i => cases hcall
    | run i a =>
      obtain ⟨c, k, l, r, s', ht, he, rfl⟩ := Pool.step_run hstep
      obtain rfl : c = .commit [.deleteScan scan] :=
        Option.some.inj ((Pool.call?_run ht).symm.trans hcall)
      have hwrite : p.store.db.commit [.deleteScan scan] = .ok s'.db := by
        change p.store.effect codec _ a = _ at he
        cases a <;> simp only [Store.effect, reduceCtorEq] at he
        simp only [Database.commit, Database.write] at he ⊢
        obtain ⟨-, rfl⟩ := Prod.mk.inj (Option.some.inj he)
        rfl
      exact gone_of_deleteScan (by simpa only [Database.commit, Database.write] using hwrite)
  | step act _ hids hs ih => exact ih.step hids hs

section examples

/-- The step inserts no task. -/
def InsertsNothing {δ : Type} (p : Workers δ) (act : Act Answer) : Prop :=
  match p.call? act with
  | some (.commit ws) => ws.all fun w => !w.inserts
  | _ => True

/-- Whether a call inserts a task. -/
def Cmd.inserts {δ : Type} : Cmd δ → Bool
  | .commit ws => ws.any Write.inserts
  | _ => false

lemma insertsNothing_iff {δ : Type} {p : Workers δ} {act : Act Answer} :
    (p.call? act).all (fun c => !c.inserts) = true ↔ InsertsNothing p act := by
  unfold InsertsNothing
  cases p.call? act with
  | none => exact iff_of_true rfl trivial
  | some c => cases c <;> simp [Cmd.inserts]

instance {δ : Type} (p : Workers δ) (act : Act Answer) : Decidable (InsertsNothing p act) :=
  decidable_of_iff _ insertsNothing_iff

lemma InsertsNothing.keepsIds {δ : Type} {p : Workers δ} {act : Act Answer}
    (h : InsertsNothing p act) (ids : List TaskId) : KeepsIds ids p act := by
  intro ws hws t ht
  unfold InsertsNothing at h
  rw [hws] at h
  exact absurd (List.all_eq_true.mp h _ ht) (by simp [Write.inserts])

/-- An engine, and a deletion of its scan. -/
def deletedWhileQueued : Workers QueuePayload :=
  { freshScan 1 1 with threads := (freshScan 1 1).threads ++ [⟨deleteScan 0, none⟩] }

/-- The same when the deletion has read the scan. -/
def deletionCommitting : Workers QueuePayload :=
  { freshScan 1 1 with
    threads := (freshScan 1 1).threads ++ [⟨await (.commit [.deleteScan 0]), none⟩] }

/-- The engine pops the payload after the deletion, sends the request and saves in vain. -/
def lateAttempt : List (Act Answer) :=
  popRound 0 false ++ [.run 2 .done, .run 2 (.granted true), .run 2 (.http (.ok ⟨200, 1, [], ""⟩))] ++
    List.replicate 5 (.run 2 .done)

/-- The engine takes the task of a deleted scan up and sends its request. -/
theorem deleted_scan_stays_gone_saving :
    ∃ p₁ p : Workers QueuePayload,
      deletionCommitting.step (workerSystem Codec.payloads {}) (.run 1 .done) = some p₁ ∧
      Reachable (workerSystem Codec.payloads {}) InsertsNothing (· = p₁) p ∧
      p.store.metrics.requests .success = 1 ∧ Gone 0 [0] p.store.db := by
  have hrun : ((deletionCommitting.step (workerSystem Codec.payloads {}) (.run 1 .done)).bind
      fun p₁ => (p₁.runActs (workerSystem Codec.payloads {}) InsertsNothing lateAttempt).map
        fun p => p.store.metrics.requests .success) = some 1 := by
    decide +kernel
  obtain ⟨p₁, hstep, hlate⟩ := Option.bind_eq_some_iff.mp hrun
  obtain ⟨p, hp, hrequests⟩ := Option.map_eq_some_iff.mp hlate
  have hreach : Reachable (workerSystem Codec.payloads {}) InsertsNothing (· = p₁) p :=
    Reachable.of_runActs (.start rfl) _ hp
  exact ⟨p₁, p, hstep, hreach, hrequests, @deleted_scan_stays_gone QueuePayload _ Codec.payloads {} 0
    deletionCommitting p₁ p (.run 1 .done) rfl hstep (hreach.mono fun _ _ h => h.keepsIds _)⟩

/-- Some thread is about to send a request. -/
def Requesting {δ : Type} (p : Workers δ) : Bool :=
  p.threads.any fun t => match t.body.head? with
    | some (.request _) => true
    | _ => false

/-- The worker sends the request for a task that was deleted before the pop. -/
theorem deleted_scan_is_requested :
    ∃ p₁ p : Workers QueuePayload,
      Reachable (workerSystem Codec.payloads {}) (fun _ _ => True) (· = deletedWhileQueued) p₁ ∧
      p₁.store.db.scans.rows = [] ∧
      p₁.store.redis.stored = [{ retryPayload 0 with attempt := 0 }] ∧ ¬Requesting p₁ ∧
      Reachable (workerSystem Codec.payloads {}) (fun _ _ => True) (· = p₁) p ∧ Requesting p := by
  have hrun : ((deletedWhileQueued.runActs (workerSystem Codec.payloads {}) (fun _ _ => True)
      (List.replicate 2 (.run 1 .done))).bind fun p₁ =>
        (p₁.runActs (workerSystem Codec.payloads {}) (fun _ _ => True) (lateAttempt.take 8)).map
          fun p => (p₁.store.db.scans.rows, p₁.store.redis.stored, Requesting p₁, Requesting p)) =
        some ([], [{ retryPayload 0 with attempt := 0 }], false, true) := by
    decide +kernel
  obtain ⟨p₁, hp₁, hlate⟩ := Option.bind_eq_some_iff.mp hrun
  obtain ⟨p, hp, hall⟩ := Option.map_eq_some_iff.mp hlate
  obtain ⟨hscans, hrest⟩ := Prod.mk.inj hall
  obtain ⟨hstored, hrest⟩ := Prod.mk.inj hrest
  obtain ⟨hno, hyes⟩ := Prod.mk.inj hrest
  exact ⟨p₁, p, Reachable.of_runActs (.start rfl) _ hp₁, hscans, hstored, by simp [hno],
    Reachable.of_runActs (.start rfl) _ hp, hyes⟩

end examples

end SecurityScanner

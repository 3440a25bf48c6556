import SecurityScanner.Executor.Engine

/-!
# The commits of the workers

What a commit of a worker leaves behind for the readers of the database.
-/

namespace SecurityScanner

open Storage

lemma mem_statuses {db : Database} {scan : ScanId} {st : TaskStatus} :
    st ∈ db.statuses scan ↔ ∃ t row, db.tasks.find? t = some row ∧ row.scanId = scan ∧
      row.status = st := by
  simp only [Database.statuses, List.mem_map, List.mem_filter, decide_eq_true_eq]
  constructor
  · rintro ⟨row, ⟨hrow, hscan⟩, hst⟩
    exact ⟨row.id, row, Table.find?_key_of_mem hrow, hscan, hst⟩
  · rintro ⟨t, row, hrow, hscan, hst⟩
    exact ⟨row, ⟨(Table.find?_eq_some_iff.mp hrow).1, hscan⟩, hst⟩

/-- An update of a row is not seen by other scans. -/
lemma statuses_modify {db : Database} {loaded new row : Task}
    (hrow : db.tasks.find? loaded.id = some row) {scan : ScanId} (hscan : scan ≠ row.scanId) :
    { db with tasks := db.tasks.modify loaded.id _ (loaded.id_flush new) }.statuses scan =
      db.statuses scan := by
  simp only [Database.statuses, Table.modify, List.filter_map, List.map_map]
  have hfilter : (fun t : Task => decide (t.scanId = scan)) ∘
      (fun r => if r.id = loaded.id then loaded.flush new r else r) =
        fun t => decide (t.scanId = scan) := by
    funext r
    by_cases hr : r.id = loaded.id <;> simp [hr, Task.flush]
  rw [hfilter]
  refine List.map_congr_left fun r hr => ?_
  obtain ⟨hmem, hscan'⟩ := List.mem_filter.mp hr
  have hne : r.id ≠ loaded.id := by
    intro hid
    have hr' := (Table.find?_eq_some_iff (T := db.tasks)).mpr ⟨hmem, hid⟩
    rw [hrow, Option.some.injEq] at hr'
    exact hscan (hr' ▸ (of_decide_eq_true hscan').symm)
  simp [hne]

/-- The row `row` gets the status `st`; other tasks and other scans do not see it. -/
structure TaskUpdate (db db' : Database) (row : Task) (st : TaskStatus) : Prop where
  found : db.tasks.find? row.id = some row
  updated : ∃ row', db'.tasks.find? row.id = some row' ∧ row'.status = st ∧
    row'.scanId = row.scanId
  tasks : ∀ t ≠ row.id, db'.tasks.find? t = db.tasks.find? t
  statuses : ∀ scan ≠ row.scanId, db'.statuses scan = db.statuses scan
  responses : ∀ t ≠ row.id, db'.responses.find? t = db.responses.find? t
  scans : db'.scans = db.scans

/-- A changed status is written whatever the row holds by then. -/
lemma write_updateTask {db : Database} {loaded new row : Task}
    (hrow : db.tasks.find? loaded.id = some row) (hne : new.status ≠ loaded.status) :
    ∃ db', db.write (.updateTask loaded new) = .ok db' ∧ TaskUpdate db db' row new.status ∧
      db'.responses = db.responses := by
  have hid : row.id = loaded.id := (Table.find?_eq_some_iff.mp hrow).2
  have hwrite : db.write (.updateTask loaded new) =
      .ok { db with tasks := db.tasks.modify loaded.id _ (loaded.id_flush new) } := by
    simp only [Database.write, hne, false_and, ↓reduceIte, hrow]
  refine ⟨_, hwrite, ⟨hid ▸ hrow, ?_, ?_, fun scan => statuses_modify hrow, fun _ _ => rfl, rfl⟩,
    rfl⟩
  · refine ⟨loaded.flush new row, ?_, dirty_of_ne hne _, rfl⟩
    rw [Table.find?_modify, if_pos hid, hid, hrow]
    rfl
  · intro t ht
    rw [Table.find?_modify, if_neg (hid ▸ ht)]

/-- An update that changes nothing sends nothing. -/
lemma write_updateTask_same {db : Database} {loaded new : Task} (hst : new.status = loaded.status)
    (hatt : new.attempts = loaded.attempts) : db.write (.updateTask loaded new) = .ok db :=
  if_pos ⟨hst, hatt⟩

/-- An update of a row that is as it was loaded. -/
lemma write_updateTask_loaded {db : Database} {t : Task} (hrow : db.tasks.find? t.id = some t)
    (new : Task) :
    ∃ db', db.write (.updateTask t new) = .ok db' ∧
      (∀ k, db'.tasks.find? k =
        if k = t.id then some { t with status := new.status, attempts := new.attempts }
        else db.tasks.find? k) ∧
      db'.scans = db.scans ∧ db'.responses = db.responses := by
  by_cases hsame : new.status = t.status ∧ new.attempts = t.attempts
  · refine ⟨db, if_pos hsame, fun k => ?_, rfl, rfl⟩
    by_cases hk : k = t.id
    · rw [if_pos hk, hk, hrow, hsame.1, hsame.2]
    · rw [if_neg hk]
  · have hwrite : db.write (.updateTask t new) =
        .ok { db with tasks := db.tasks.modify t.id _ (t.id_flush new) } := by
      simp only [Database.write, hsame, ↓reduceIte, hrow]
    refine ⟨_, hwrite, fun k => ?_, rfl, rfl⟩
    rw [Table.find?_modify]
    by_cases hk : k = t.id
    · rw [if_pos hk, if_pos hk, hk, hrow]
      by_cases hst : new.status = t.status <;> by_cases ha : new.attempts = t.attempts <;>
        simp [Task.flush, dirty, hst, ha]
    · rw [if_neg hk, if_neg hk]

/-- The response of a task is written without touching the rest. -/
lemma write_response {db : Database} {t : TaskId} {row : Task}
    (hrow : db.tasks.find? t = some row) (o : Outcome) :
    ∃ db', db.write (responseWrite t o (db.responses.find? t)) = .ok db' ∧
      db'.tasks = db.tasks ∧ db'.scans = db.scans ∧
      ∀ t' ≠ t, db'.responses.find? t' = db.responses.find? t' := by
  cases h : db.responses.find? t with
  | none =>
    obtain ⟨responses, hins, -⟩ := Table.insert?_of_find?_eq_none (r := o.response t) h
    have hwrite : db.write (.insertResponse (o.response t)) = .ok { db with responses } := by
      have hrow' : db.tasks.find? (o.response t).taskId = some row := hrow
      simp only [Database.write, hrow', hins]
    refine ⟨_, hwrite, rfl, rfl, fun t' ht' => ?_⟩
    rw [Table.find?_insert? hins]
    exact if_neg ht'
  | some r =>
    have hr : r.taskId = t := (Table.find?_eq_some_iff.mp h).2
    by_cases hsame : o.response t = r
    · exact ⟨db, if_pos hsame, rfl, rfl, fun _ _ => rfl⟩
    · have hwrite : db.write (.updateResponse r (o.response t)) = .ok { db with
          responses := db.responses.modify r.taskId _ (r.taskId_flush (o.response t)) } := by
        simp only [Database.write, hsame, ↓reduceIte, hr, h]
      refine ⟨_, hwrite, rfl, rfl, fun t' ht' => ?_⟩
      rw [Table.find?_modify, if_neg (hr ▸ ht')]

/-- The commit of a response: the task's row and its response row. -/
lemma commit_response {db : Database} {row loaded : Task} {o : Outcome} {t : TaskId}
    (ht : loaded.id = t) (hrow : db.tasks.find? t = some row) (hne : o.taskStatus ≠ loaded.status) :
    ∃ db', db.commit [.updateTask loaded
        { loaded with status := o.taskStatus, attempts := loaded.attempts + 1 },
        responseWrite t o (db.responses.find? t)] = .ok db' ∧
      TaskUpdate db db' row o.taskStatus := by
  subst ht
  have hid : row.id = loaded.id := (Table.find?_eq_some_iff.mp hrow).2
  have hne' : { loaded with status := o.taskStatus, attempts := loaded.attempts + 1 }.status ≠
      loaded.status := hne
  obtain ⟨db₁, hwrite, hupd, hresp⟩ := write_updateTask hrow hne'
  obtain ⟨row₁, hrow₁, hst₁, hscan₁⟩ := hupd.updated
  obtain ⟨db₂, hwrite₂, htasks₂, hscans₂, hresp₂⟩ := write_response (hid ▸ hrow₁) o
  rw [hresp] at hwrite₂
  refine ⟨db₂, by simp only [Database.commit, hwrite, hwrite₂], hupd.found,
    ⟨row₁, htasks₂ ▸ hrow₁, hst₁, hscan₁⟩, ?_, ?_, ?_, hscans₂.trans hupd.scans⟩
  · intro t ht
    rw [htasks₂, hupd.tasks t ht]
  · intro scan hscan
    rw [← hupd.statuses scan hscan, Database.statuses, Database.statuses, htasks₂]
  · intro t ht
    rw [hresp₂ t (hid ▸ ht), hresp]

/-- The commit of a response when the row of the task is as it was loaded. -/
lemma commit_response_loaded {db : Database} {t : Task} (hrow : db.tasks.find? t.id = some t)
    (o : Outcome) :
    ∃ db', db.commit [.updateTask t
        { t with status := o.taskStatus, attempts := t.attempts + 1 },
        responseWrite t.id o (db.responses.find? t.id)] = .ok db' ∧
      (∀ k, db'.tasks.find? k = if k = t.id then
        some { t with status := o.taskStatus, attempts := t.attempts + 1 }
        else db.tasks.find? k) ∧
      db'.scans = db.scans := by
  obtain ⟨db₁, hwrite, htasks, hscans, hresp⟩ :=
    write_updateTask_loaded hrow { t with status := o.taskStatus, attempts := t.attempts + 1 }
  have hrow₁ := (htasks t.id).trans (if_pos rfl)
  obtain ⟨db₂, hwrite₂, htasks₂, hscans₂, -⟩ := write_response hrow₁ o
  rw [hresp] at hwrite₂
  exact ⟨db₂, by simp only [Database.commit, hwrite, hwrite₂], htasks₂ ▸ htasks,
    hscans₂.trans hscans⟩

/-- The scan `scan`, loaded as `sc`, gets the status `st` unless that is what was loaded. -/
structure ScanUpdate (db db' : Database) (sc : Scan) (st : ScanStatus) : Prop where
  updated : ∃ cur, db.scans.find? sc.id = some cur ∧
    db'.scans.find? sc.id = some { cur with status := dirty sc.status st cur.status }
  scans : ∀ k ≠ sc.id, db'.scans.find? k = db.scans.find? k
  tasks : db'.tasks = db.tasks
  responses : db'.responses = db.responses

lemma write_updateScan {db : Database} {sc cur : Scan} (hcur : db.scans.find? sc.id = some cur)
    (st : ScanStatus) :
    ∃ db', db.write (.updateScan sc { sc with status := st }) = .ok db' ∧
      ScanUpdate db db' sc st := by
  have hwrite : db.write (.updateScan sc { sc with status := st }) = .ok { db with
      scans := db.scans.modify sc.id _ (sc.id_flush { sc with status := st }) } := by
    simp only [Database.write, hcur]
  refine ⟨_, hwrite, ⟨cur, hcur, ?_⟩, fun k hk => ?_, rfl, rfl⟩
  · rw [Table.find?_modify, if_pos rfl, hcur]
    simp [Scan.flush]
  · rw [Table.find?_modify, if_neg hk]

end SecurityScanner

import SecurityScanner.Api.EarnedCalls
import SecurityScanner.Lib.RelyGuarantee

/-!
# The counted attempts of a task

The column `attempts` of a task, its response row and its saved responses in the runs of engines
and submissions, whatever raises. Rows are never lost there, so a thread may rely on those it
has seen.
-/

namespace SecurityScanner

open Storage Interleaving

variable {δ : Type}

section database

/-- Tasks, and their attempts, are as before; so are the responses. -/
structure SameAttempts (db db' : Database) : Prop where
  attempts : ∀ t, (db'.tasks.find? t).map Task.attempts = (db.tasks.find? t).map Task.attempts
  responses : db'.responses = db.responses

lemma write_status {db db' : Database} {task : Task} {st : TaskStatus}
    (h : db.write (.updateTask task { task with status := st }) = .ok db') : SameAttempts db db' := by
  simp only [Database.write] at h
  split at h
  · cases h
    exact ⟨fun _ => rfl, rfl⟩
  · split at h
    · cases h
    · cases h
      refine ⟨fun t => ?_, rfl⟩
      rw [Table.find?_modify]
      split
      · rw [Option.map_map]
        refine congrArg (Option.map · _) (funext fun row => ?_)
        exact dirty_self _ _
      · rfl

lemma commit_status {db db' : Database} {task : Task} {st : TaskStatus}
    (h : db.commit [.updateTask task { task with status := st }] = .ok db') :
    SameAttempts db db' := by
  rw [Database.commit] at h
  split at h
  · next db₁ hwrite =>
    cases h
    exact write_status hwrite
  · cases h

lemma commit_scan {db db' : Database} {loaded new : Scan}
    (h : db.commit [.updateScan loaded new] = .ok db') : SameAttempts db db' := by
  rw [Database.commit] at h
  split at h
  · next db₁ hwrite =>
    cases h
    simp only [Database.write] at hwrite
    split at hwrite
    · cases hwrite
    · cases hwrite
      exact ⟨fun _ => rfl, rfl⟩
  · cases h

/-- What is left after new rows are inserted. -/
structure Inserted (db db' : Database) (rows : List Task) : Prop where
  old : ∀ t row, db.tasks.find? t = some row → db'.tasks.find? t = some row
  new : ∀ t row, db.tasks.find? t = none → db'.tasks.find? t = some row → row ∈ rows
  found : ∀ row ∈ rows, db'.tasks.find? row.id = some row
  responses : db'.responses = db.responses

lemma write_insertTask {db db' : Database} {row : Task}
    (h : db.write (.insertTask row) = .ok db') :
    (∀ t, db'.tasks.find? t = if t = row.id then some row else db.tasks.find? t) ∧
      db.tasks.find? row.id = none ∧ db'.responses = db.responses := by
  simp only [Database.write] at h
  split at h
  · cases h
  · split at h
    · cases h
    · next tasks hins =>
      cases h
      refine ⟨Table.find?_insert? hins, ?_, rfl⟩
      cases hrow : db.tasks.find? row.id with
      | none => rfl
      | some r =>
        rw [Table.insert?_of_find?_eq_some hrow] at hins
        cases hins

lemma commit_inserts {rows : List Task} {db db' : Database}
    (h : db.commit (rows.map .insertTask) = .ok db') : Inserted db db' rows := by
  induction rows generalizing db with
  | nil =>
    cases h
    exact ⟨fun _ _ h => h, fun _ _ h h' => absurd (h.symm.trans h') nofun, nofun, rfl⟩
  | cons row rows ih =>
    rw [List.map_cons, Database.commit] at h
    split at h
    · next db₁ hwrite =>
      obtain ⟨hfind, hnew, hresp⟩ := write_insertTask hwrite
      have hrest := ih h
      refine ⟨fun t r hr => hrest.old t r ?_, fun t r hnone hr => ?_, fun r hr => ?_,
        hrest.responses.trans hresp⟩
      · rw [hfind, if_neg]
        · exact hr
        · rintro rfl
          rw [hnew] at hr
          cases hr
      · by_cases ht : t = row.id
        · have hrow := hrest.old t row (by rw [hfind, if_pos ht])
          rw [hrow] at hr
          exact Option.some.inj hr ▸ List.mem_cons_self
        · exact List.mem_cons_of_mem _ (hrest.new t r (by rw [hfind, if_neg ht, hnone]) hr)
      · rcases List.mem_cons.mp hr with rfl | hr
        · exact hrest.old _ _ (by rw [hfind, if_pos rfl])
        · exact hrest.found r hr
    · cases h

/-- What is left after a response was saved over the object `loaded`. -/
structure ResponseSaved (db db' : Database) (loaded : Task) : Prop where
  attempted : ∃ row, db'.tasks.find? loaded.id = some row ∧ row.attempts = loaded.attempts + 1
  existed : (db.tasks.find? loaded.id).isSome
  tasks : ∀ t ≠ loaded.id, db'.tasks.find? t = db.tasks.find? t
  answered : (db'.responses.find? loaded.id).isSome
  responses : ∀ t ≠ loaded.id, db'.responses.find? t = db.responses.find? t

lemma write_counted {db db' : Database} {loaded : Task} {st : TaskStatus}
    (h : db.write (.updateTask loaded
      { loaded with status := st, attempts := loaded.attempts + 1 }) = .ok db') :
    (∃ row, db'.tasks.find? loaded.id = some row ∧ row.attempts = loaded.attempts + 1) ∧
      (db.tasks.find? loaded.id).isSome ∧
      (∀ t ≠ loaded.id, db'.tasks.find? t = db.tasks.find? t) ∧ db'.responses = db.responses := by
  have hne : loaded.attempts + 1 ≠ loaded.attempts := by omega
  simp only [Database.write, hne, and_false, ↓reduceIte] at h
  split at h
  · cases h
  · next row hrow =>
    cases h
    refine ⟨⟨loaded.flush { loaded with status := st, attempts := loaded.attempts + 1 } row, ?_,
      dirty_of_ne hne _⟩, by rw [hrow]; rfl, fun t ht => ?_, rfl⟩
    · rw [Table.find?_modify, if_pos rfl, hrow]
      rfl
    · rw [Table.find?_modify, if_neg ht]

/-- A response is written where there was one, or none. -/
lemma write_saved {db db' : Database} {t : TaskId} {o : Outcome} {response : Option ScanResponse}
    (hloaded : ∀ r, response = some r → r.taskId = t ∧ (db.responses.find? t).isSome)
    (h : db.write (responseWrite t o response) = .ok db') :
    db'.tasks = db.tasks ∧ (db'.responses.find? t).isSome ∧
      ∀ t' ≠ t, db'.responses.find? t' = db.responses.find? t' := by
  cases response with
  | none =>
    simp only [responseWrite, Database.write] at h
    split at h
    · cases h
    · split at h
      · cases h
      · next responses hins =>
        cases h
        refine ⟨rfl, ?_, fun t' ht' => Table.find?_insert?_of_ne hins ht'⟩
        have hkey : (o.response t).taskId = t := rfl
        rw [Table.find?_insert? hins, hkey, if_pos rfl]
        rfl
  | some r =>
    obtain ⟨rfl, hsome⟩ := hloaded r rfl
    simp only [responseWrite, Database.write] at h
    split at h
    · cases h
      exact ⟨rfl, hsome, fun _ _ => rfl⟩
    · split at h
      · cases h
      · next row hrow =>
        cases h
        refine ⟨rfl, ?_, fun t' ht' => ?_⟩
        · rw [Table.find?_modify, if_pos rfl, hrow]
          rfl
        · rw [Table.find?_modify, if_neg ht']

lemma commit_responseWrite {db db' : Database} {t : TaskId} {o : Outcome}
    {response : Option ScanResponse}
    (hloaded : ∀ r, response = some r → r.taskId = t ∧ (db.responses.find? t).isSome)
    (h : db.commit [responseWrite t o response] = .ok db') :
    db'.tasks = db.tasks ∧ (db'.responses.find? t).isSome ∧
      ∀ t' ≠ t, db'.responses.find? t' = db.responses.find? t' := by
  rw [Database.commit] at h
  split at h
  · next db₁ hsaved =>
    cases h
    exact write_saved hloaded hsaved
  · cases h

lemma commit_saved {db db' : Database} {loaded : Task} {o : Outcome}
    {response : Option ScanResponse}
    (hloaded : ∀ r, response = some r →
      r.taskId = loaded.id ∧ (db.responses.find? loaded.id).isSome)
    (h : db.commit ([.updateTask loaded
      { loaded with status := o.taskStatus, attempts := loaded.attempts + 1 }] ++
        [responseWrite loaded.id o response]) = .ok db') : ResponseSaved db db' loaded := by
  rw [List.singleton_append, Database.commit] at h
  split at h
  · next db₁ hcounted =>
    obtain ⟨⟨row, hrow, hattempts⟩, hexisted, htasks, hresp⟩ := write_counted hcounted
    rw [← hresp] at hloaded
    obtain ⟨htasks₂, hsome, hothers⟩ := commit_responseWrite hloaded h
    refine ⟨⟨row, htasks₂ ▸ hrow, hattempts⟩, hexisted, fun t ht => ?_, hsome, fun t ht => ?_⟩
    · rw [htasks₂, htasks t ht]
    · rw [hothers t ht, hresp]
  · cases h

end database

section invariant

/-- Queued payloads have tasks, and the attempted tasks are those with a response. -/
structure Accounted (codec : Codec δ) (s : Store δ) : Prop where
  attempts : ∀ row ∈ s.db.tasks.rows, 0 ≤ row.attempts
  answered : ∀ t, (s.db.responses.find? t).isSome ↔
    ∃ row, s.db.tasks.find? t = some row ∧ 0 < row.attempts
  queued : ∀ d ∈ s.redis.stored, ∀ p, codec.validate d = some p →
    (s.db.tasks.find? p.taskId).isSome

lemma Accounted.nonneg {codec : Codec δ} {s : Store δ} (h : Accounted codec s) {t : TaskId}
    {row : Task} (hrow : s.db.tasks.find? t = some row) : 0 ≤ row.attempts :=
  h.attempts row (Table.find?_eq_some_iff.mp hrow).1

/-- The attempts of a task that are counted in the database. -/
def Store.attempts (s : Store δ) (t : TaskId) : ℕ :=
  ((s.db.tasks.find? t).map fun row => row.attempts.toNat).getD 0

variable (codec : Codec δ) (start : Store δ)

/-- What the threads keep in a run from the store `start`: the counted attempts of a task are no
more than those it had there and the sessions that saved since. -/
structure AttemptsInv (s : Store δ × CallLog δ) : Prop where
  counted : ∀ t row, s.1.db.tasks.find? t = some row →
    row.attempts ≤ start.attempts t + (CallLog.saves s.2).count t
  accounted : Accounted codec start → Accounted codec s.1

/-- The task has a row, if the run started with a store that was accounted for. -/
def HasRow (s : Store δ × CallLog δ) (t : TaskId) : Prop :=
  Accounted codec start → (s.1.db.tasks.find? t).isSome

/-- A value whose payload has a task. -/
def Owned (s : Store δ × CallLog δ) (d : δ) : Prop :=
  ∀ p, codec.validate d = some p → HasRow codec start s p.taskId

/-- Rows and responses stay, and the log grows. -/
structure Grows (s s' : Store δ × CallLog δ) : Prop where
  tasks : ∀ t, (s.1.db.tasks.find? t).isSome → (s'.1.db.tasks.find? t).isSome
  responses : ∀ t, (s.1.db.responses.find? t).isSome → (s'.1.db.responses.find? t).isSome
  saves : ∀ t, (CallLog.saves s.2).count t ≤ (CallLog.saves s'.2).count t

lemma Grows.refl (s : Store δ × CallLog δ) : Grows s s :=
  ⟨fun _ h => h, fun _ h => h, fun _ => Nat.le_refl _⟩

lemma Grows.trans {s₁ s₂ s₃ : Store δ × CallLog δ} (h : Grows s₁ s₂) (h' : Grows s₂ s₃) :
    Grows s₁ s₃ :=
  ⟨fun t ht => h'.tasks t (h.tasks t ht), fun t ht => h'.responses t (h.responses t ht),
    fun t => (h.saves t).trans (h'.saves t)⟩

lemma count_saves_append (log : CallLog δ) (e : Served (@Reply δ) String) (t : TaskId) :
    (CallLog.saves log).count t ≤ (CallLog.saves (log ++ [e])).count t := by
  rw [CallLog.saves, CallLog.saves, List.flatMap_append, List.count_append]
  exact Nat.le_add_right _ _

variable {codec start} {s s' : Store δ × CallLog δ} {e : Served (@Reply δ) String}

lemma HasRow.grows (hgrows : Grows s s') {t : TaskId} (h : HasRow codec start s t) :
    HasRow codec start s' t := fun hstart => hgrows.tasks t (h hstart)

lemma Owned.grows (hgrows : Grows s s') {d : δ} (h : Owned codec start s d) :
    Owned codec start s' d := fun p hp => (h p hp).grows hgrows

lemma AttemptsInv.owned (h : AttemptsInv codec start s) {d : δ} (hd : d ∈ s.1.redis.stored) :
    Owned codec start s d := fun p hp hstart => (h.accounted hstart).queued d hd p hp

/-- A step that leaves the tasks with their attempts, and the responses. -/
lemma AttemptsInv.keep (h : AttemptsInv codec start s) (hdb : SameAttempts s.1.db s'.1.db)
    (hlog : s'.2 = s.2 ++ [e])
    (hstored : ∀ d ∈ s'.1.redis.stored, d ∈ s.1.redis.stored ∨ Owned codec start s d) :
    AttemptsInv codec start s' ∧ Grows s s' := by
  have hsome : ∀ t, (s'.1.db.tasks.find? t).isSome = (s.1.db.tasks.find? t).isSome := by
    intro t
    rw [← Option.isSome_map (f := Task.attempts), hdb.attempts, Option.isSome_map]
  have hrow : ∀ t row, s'.1.db.tasks.find? t = some row →
      ∃ row₀, s.1.db.tasks.find? t = some row₀ ∧ row₀.attempts = row.attempts := by
    intro t row hrow
    have h := hdb.attempts t
    rw [hrow, Option.map_some] at h
    obtain ⟨row₀, hrow₀, hatt⟩ := Option.map_eq_some_iff.mp h.symm
    exact ⟨row₀, hrow₀, hatt⟩
  have hresponse : ∀ t, s'.1.db.responses.find? t = s.1.db.responses.find? t :=
    fun t => by rw [hdb.responses]
  refine ⟨⟨fun t row hr => ?_, fun hstart => ⟨fun row hmem => ?_, fun t => ?_, fun d hd p hp => ?_⟩⟩,
    fun t ht => (hsome t).symm ▸ ht, fun t ht => (hresponse t).symm ▸ ht,
    fun t => hlog ▸ count_saves_append s.2 e t⟩
  · obtain ⟨row₀, hrow₀, hatt⟩ := hrow t row hr
    have hle := count_saves_append s.2 e t
    rw [← hatt, hlog]
    exact (h.counted t row₀ hrow₀).trans (by omega)
  · obtain ⟨row₀, hrow₀, hatt⟩ := hrow row.id row (Table.find?_eq_some_iff.mpr ⟨hmem, rfl⟩)
    exact hatt ▸ (h.accounted hstart).nonneg hrow₀
  · rw [hresponse, (h.accounted hstart).answered]
    constructor
    · rintro ⟨row₀, hrow₀, hpos⟩
      have hmap := hdb.attempts t
      rw [hrow₀, Option.map_some] at hmap
      obtain ⟨row, hr, hatt⟩ := Option.map_eq_some_iff.mp hmap
      exact ⟨row, hr, hatt ▸ hpos⟩
    · rintro ⟨row, hr, hpos⟩
      obtain ⟨row₀, hrow₀, hatt⟩ := hrow t row hr
      exact ⟨row₀, hrow₀, hatt ▸ hpos⟩
  · rw [hsome]
    rcases hstored d hd with hd | hd
    · exact (h.accounted hstart).queued d hd p hp
    · exact hd p hp hstart

/-- New rows are not attempted yet. -/
lemma AttemptsInv.insert {rows : List Task} (h : AttemptsInv codec start s)
    (hdb : Inserted s.1.db s'.1.db rows) (hrows : ∀ row ∈ rows, row.attempts = 0)
    (hlog : s'.2 = s.2 ++ [e]) (hredis : s'.1.redis = s.1.redis) :
    AttemptsInv codec start s' ∧ Grows s s' := by
  have hcount : ∀ t, (CallLog.saves s.2).count t ≤ (CallLog.saves s'.2).count t :=
    fun t => hlog ▸ count_saves_append s.2 e t
  have hkept : ∀ t, (s.1.db.tasks.find? t).isSome → (s'.1.db.tasks.find? t).isSome := by
    intro t ht
    obtain ⟨row, hrow⟩ := Option.isSome_iff_exists.mp ht
    rw [hdb.old t row hrow]
    rfl
  -- A row is one of the new rows, or it was there.
  have hrow : ∀ t row, s'.1.db.tasks.find? t = some row →
      row.attempts = 0 ∨ s.1.db.tasks.find? t = some row := by
    intro t row hr
    cases hold : s.1.db.tasks.find? t with
    | none => exact Or.inl (hrows row (hdb.new t row hold hr))
    | some row₀ => exact Or.inr ((hdb.old t row₀ hold).symm.trans hr)
  refine ⟨⟨fun t row hr => ?_, fun hstart => ⟨fun row hmem => ?_, fun t => ?_, fun d hd p hp => ?_⟩⟩,
    hkept, fun t ht => ?_, hcount⟩
  · rcases hrow t row hr with h0 | hr
    · rw [h0]
      omega
    · exact (h.counted t row hr).trans (by have := hcount t; omega)
  · rcases hrow row.id row (Table.find?_eq_some_iff.mpr ⟨hmem, rfl⟩) with h0 | hr
    · exact h0.ge
    · exact (h.accounted hstart).nonneg hr
  · rw [hdb.responses, (h.accounted hstart).answered]
    constructor
    · rintro ⟨row, hr, hpos⟩
      exact ⟨row, hdb.old t row hr, hpos⟩
    · rintro ⟨row, hr, hpos⟩
      rcases hrow t row hr with h0 | hr
      · exact absurd h0 (by omega)
      · exact ⟨row, hr, hpos⟩
  · exact hkept _ ((h.accounted hstart).queued d (hredis ▸ hd) p hp)
  · rw [hdb.responses]
    exact ht

/-- A saved response counts one more attempt than its session had read. -/
lemma AttemptsInv.save {loaded : Task} {ws : List Write} {r : Except String Unit}
    (h : AttemptsInv codec start s) (hdb : ResponseSaved s.1.db s'.1.db loaded)
    (hloaded : loaded.attempts ≤ start.attempts loaded.id + (CallLog.saves s.2).count loaded.id)
    (hpos : Accounted codec start → 0 ≤ loaded.attempts)
    (hws : ws.filterMap Write.saved? = [loaded.id]) (hlog : s'.2 = s.2 ++ [⟨.commit ws, r⟩])
    (hredis : s'.1.redis = s.1.redis) : AttemptsInv codec start s' ∧ Grows s s' := by
  have hsaves : CallLog.saves s'.2 = CallLog.saves s.2 ++ [loaded.id] := by
    rw [hlog, CallLog.saves, CallLog.saves, List.flatMap_append, List.flatMap_singleton]
    exact congrArg (_ ++ ·) hws
  have hcount : ∀ t, (CallLog.saves s.2).count t ≤ (CallLog.saves s'.2).count t :=
    fun t => hlog ▸ count_saves_append s.2 _ t
  obtain ⟨row', hrow', hatt⟩ := hdb.attempted
  have hkept : ∀ t, (s.1.db.tasks.find? t).isSome → (s'.1.db.tasks.find? t).isSome := by
    intro t ht
    by_cases hid : t = loaded.id
    · rw [hid, hrow']
      rfl
    · rwa [hdb.tasks t hid]
  refine ⟨⟨fun t row hr => ?_, fun hstart => ⟨fun row hmem => ?_, fun t => ?_, fun d hd p hp => ?_⟩⟩,
    hkept, fun t ht => ?_, hcount⟩
  · by_cases hid : t = loaded.id
    · subst hid
      obtain rfl := Option.some.inj (hrow'.symm.trans hr)
      rw [hatt, hsaves, List.count_append, List.count_singleton_self]
      push_cast
      omega
    · rw [hdb.tasks t hid] at hr
      exact (h.counted t row hr).trans (by have := hcount t; omega)
  · have hr := Table.find?_eq_some_iff.mpr ⟨hmem, rfl⟩
    by_cases hid : row.id = loaded.id
    · have hsame := Option.some.inj (hrow'.symm.trans (hid ▸ hr))
      have h0 := hpos hstart
      rw [← hsame, hatt]
      omega
    · rw [hdb.tasks _ hid] at hr
      exact (h.accounted hstart).nonneg hr
  · by_cases hid : t = loaded.id
    · subst hid
      have h0 := hpos hstart
      exact iff_of_true hdb.answered ⟨row', hrow', by omega⟩
    · rw [hdb.responses t hid, hdb.tasks t hid]
      exact (h.accounted hstart).answered t
  · exact hkept _ ((h.accounted hstart).queued d (hredis ▸ hd) p hp)
  · by_cases hid : t = loaded.id
    · rw [hid]
      exact hdb.answered
    · rwa [hdb.responses t hid]

/-- A response without a task counts nothing. -/
lemma AttemptsInv.respond (h : AttemptsInv codec start s) (hlost : ¬Accounted codec start)
    (htasks : s'.1.db.tasks = s.1.db.tasks)
    (hresponses : ∀ t, (s.1.db.responses.find? t).isSome → (s'.1.db.responses.find? t).isSome)
    (hlog : s'.2 = s.2 ++ [e]) : AttemptsInv codec start s' ∧ Grows s s' := by
  have hcount : ∀ t, (CallLog.saves s.2).count t ≤ (CallLog.saves s'.2).count t :=
    fun t => hlog ▸ count_saves_append s.2 e t
  refine ⟨⟨fun t row hr => ?_, fun hstart => absurd hstart hlost⟩, fun t ht => ?_, hresponses, hcount⟩
  · rw [htasks] at hr
    exact (h.counted t row hr).trans (by have := hcount t; omega)
  · rwa [htasks]

end invariant

section sharing

variable [DecidableEq δ] (codec : Codec δ) (settings : Settings) (start : Store δ) (n : ℕ)

def Cmd.creates : Cmd δ → Bool
  | .createTask .. => true
  | _ => false

/-- Every thread keeps the invariant and relies on the rows and responses that it has seen; a
task starts on a payload whose row is there. -/
def attemptSharing : Sharing (loggedSystem codec settings) where
  inv := AttemptsInv codec start
  size s := n + s.2.countP fun e => e.1.creates
  rely _ := Grows
  guar _ := Grows
  start _ q s := ∃ w p, q = processPayload codec settings w p ∧
    HasRow codec start s p.taskId
  done _ _ _ := True
  rely_refl _ := Grows.refl
  rely_trans _ _ _ _ := Grows.trans
  rely_of_guar _ _ _ _ _ h := h
  done_stable _ _ _ _ _ _ := trivial

variable {codec settings start n} {i : ℕ} {s : Store δ × CallLog δ}

variable (codec settings start n i s) in
/-- The program keeps the invariant, and what it returns is in `Q`. -/
def Tends {α : Type} (q : Coroutine δ α) (Q : α → Store δ × CallLog δ → Prop) : Prop :=
  Ensures (attemptSharing codec settings start n) i q
    (fun r s' => Grows s s' ∧ ∀ a, r = .ok a → Q a s') s

/-- A call that starts no task is checked for the case that it is served. -/
lemma tends_call {c : Cmd δ} {Q : Reply c → Store δ × CallLog δ → Prop} (hc : c.creates = false)
    (h : ∀ s₁ a r s', AttemptsInv codec start s₁ → Grows s s₁ →
      s₁.1.effect codec c a = some (r, s'.1) → s'.2 = s₁.2 ++ [⟨c, r⟩] →
        (AttemptsInv codec start s' ∧ Grows s₁ s') ∧ ∀ x, r = .ok x → Q x s') :
    Tends codec settings start n i s (await c) Q := by
  refine ensures_perform.mpr fun s₁ hinv hrely fate r s' he => ?_
  have hstarts : (s'.2.countP fun e : Served (@Reply δ) String => e.1.creates) =
      (s₁.2.countP fun e => e.1.creates) →
        (attemptSharing codec settings start n).Starts c r s₁ s' := by
    intro hcount
    have hfork : (loggedSystem codec settings).fork c r = none := by
      cases c with
      | createTask w p => cases hc
      | _ => rfl
    unfold Sharing.Starts
    rw [hfork]
    exact congrArg (n + ·) hcount
  have hserved : ∀ r' : Except String (Reply c), s'.2 = s₁.2 ++ [⟨c, r'⟩] →
      (s'.2.countP fun e : Served (@Reply δ) String => e.1.creates) =
        s₁.2.countP fun e => e.1.creates := by
    intro r' hlog
    rw [hlog, List.countP_append, List.countP_singleton, hc]
    rfl
  rcases System.raising_logging_effect he with ⟨a, he, hlog⟩ | ⟨-, ⟨e, rfl⟩, rfl | ⟨a, r', he, hlog⟩⟩
  · obtain ⟨⟨hinv', hgrows⟩, hQ⟩ := h s₁ a r s' hinv hrely he hlog
    exact ⟨hinv', hgrows, hstarts (hserved r hlog), Grows.trans hrely hgrows, hQ⟩
  · exact ⟨hinv, Grows.refl _, hstarts rfl, hrely, nofun⟩
  · obtain ⟨⟨hinv', hgrows⟩, -⟩ := h s₁ a r' s' hinv hrely he hlog
    exact ⟨hinv', hgrows, hstarts (hserved r' hlog), Grows.trans hrely hgrows, nofun⟩

lemma tends_pure {α : Type} {a : α} {Q : α → Store δ × CallLog δ → Prop} (h : Q a s) :
    Tends codec settings start n i s (pure a) Q :=
  ⟨Grows.refl s, fun _ ha => Except.ok.inj ha ▸ h⟩

lemma tends_throw {α : Type} {e : String} {Q : α → Store δ × CallLog δ → Prop} :
    Tends codec settings start n i s (throw e) Q :=
  ⟨Grows.refl s, nofun⟩

lemma Tends.bind {α β : Type} {q : Coroutine δ α} {f : α → Coroutine δ β}
    {Q : α → Store δ × CallLog δ → Prop} {Q' : β → Store δ × CallLog δ → Prop}
    (h : Tends codec settings start n i s q Q)
    (hf : ∀ a s', Grows s s' → Q a s' → Tends codec settings start n i s' (f a) Q') :
    Tends codec settings start n i s (q >>= f) Q' := by
  refine ensures_bind.mpr (Ensures.mono h ?_)
  rintro (e | a) s' ⟨hgrows, hQ⟩
  · exact ⟨hgrows, nofun⟩
  · exact (hf a s' hgrows (hQ a rfl)).mono fun _ _ hend => ⟨hgrows.trans hend.1, hend.2⟩

lemma Tends.tryCatch {α : Type} {q : Coroutine δ α} {f : String → Coroutine δ α}
    {Q : α → Store δ × CallLog δ → Prop} (h : Tends codec settings start n i s q Q)
    (hf : ∀ e s', Grows s s' → Tends codec settings start n i s' (f e) Q) :
    Tends codec settings start n i s (tryCatch q f) Q := by
  refine ensures_tryCatch.mpr (Ensures.mono h ?_)
  rintro (e | a) s' ⟨hgrows, hQ⟩
  · exact (hf e s' hgrows).mono fun _ _ hend => ⟨hgrows.trans hend.1, hend.2⟩
  · exact ⟨hgrows, hQ⟩

/-- A call that leaves the tasks and the queue alone. -/
def Cmd.still : Cmd δ → Bool
  | .multi _ | .zadd .. | .commit _ | .createTask .. => false
  | _ => true

/-- Such a call changes nothing that the invariant is about. -/
lemma still_effect {c : Cmd δ} (hc : c.still = true) {a : Answer} {s s' : Store δ}
    {r : Except String (Reply c)} (he : s.effect codec c a = some (r, s')) :
    s'.db = s.db ∧ ∀ d ∈ s'.redis.stored, d ∈ s.redis.stored := by
  cases c with
  | multi | zadd | commit | createTask => cases hc
  | blpop qs =>
    cases a <;> cases he
    refine ⟨rfl, fun d hd => ?_⟩
    rcases hpop : (s.redis.blpop qs).1 with _ | ⟨q, d'⟩
    · exact blpop_eq_none hpop ▸ hd
    · exact (stored_blpop hpop).mem_iff.mpr (List.mem_cons_of_mem _ hd)
  | random | semaphoreAcquire w =>
    cases a <;> simp only [Store.effect, reduceCtorEq] at he
    split at he <;> cases he
    exact ⟨rfl, fun _ hd => hd⟩
  | _ =>
    cases a <;> cases he
    exact ⟨rfl, fun _ hd => hd⟩

lemma still_keep {c : Cmd δ} (hc : c.still = true) {a : Answer} {s s' : Store δ × CallLog δ}
    {r : Except String (Reply c)} (hinv : AttemptsInv codec start s)
    (he : s.1.effect codec c a = some (r, s'.1)) (hlog : s'.2 = s.2 ++ [⟨c, r⟩]) :
    AttemptsInv codec start s' ∧ Grows s s' := by
  obtain ⟨hdb, hstored⟩ := still_effect hc he
  exact hinv.keep ⟨fun t => by rw [hdb], by rw [hdb]⟩ hlog fun d hd => Or.inl (hstored d hd)

lemma tends_await {c : Cmd δ} (hc : c.still = true) :
    Tends codec settings start n i s (await c) fun _ _ => True := by
  refine tends_call ?_ fun s₁ a r s' hinv _ he hlog => ⟨still_keep hc hinv he hlog, fun _ _ => trivial⟩
  cases c <;> first | rfl | cases hc

variable (codec settings start n i s) in
/-- From every later state the program keeps the invariant. -/
def TendsAfter {α : Type} (q : Coroutine δ α) : Prop :=
  ∀ s', Grows s s' → Tends codec settings start n i s' q fun _ _ => True

lemma tendsAfter_compositional : Prog.Compositional fun _ (q : Coroutine δ _) =>
    TendsAfter codec settings start n i s q where
  pure _ := fun _ _ => tends_pure trivial
  throw _ := fun _ _ => tends_throw
  bind hp hf := fun s' hs' => (hp s' hs').bind fun a s'' hs'' _ => hf a s'' (hs'.trans hs'')
  tryCatch hp hf := fun s' hs' => (hp s' hs').tryCatch fun e s'' hs'' => hf e s'' (hs'.trans hs'')

lemma tendsAfter_await {c : Cmd δ} (hc : c.still = true) :
    TendsAfter codec settings start n i s (await c) := fun _ _ => tends_await hc

end sharing

section workers

variable [DecidableEq δ] {codec : Codec δ} {settings : Settings} {start : Store δ} {n i : ℕ}
  {s : Store δ × CallLog δ}

lemma commit_effect {ws : List Write} {a : Answer} {s s' : Store δ} {r : Except String Unit}
    (h : s.effect codec (.commit ws) a = some (r, s')) :
    (∃ db, s.db.commit ws = .ok db ∧ r = .ok () ∧ s' = { s with db }) ∨
      (∃ e, r = .error e) ∧ s' = s := by
  cases a <;> simp only [Store.effect, reduceCtorEq] at h
  split at h
  · next db hcommit =>
    cases h
    exact Or.inl ⟨db, hcommit, rfl, rfl⟩
  · cases h
    exact Or.inr ⟨⟨_, rfl⟩, rfl⟩

/-- A commit is checked where it does not fail. -/
lemma tends_commit {ws : List Write} {Q : Unit → Store δ × CallLog δ → Prop}
    (h : ∀ (s₁ s' : Store δ × CallLog δ) r, AttemptsInv codec start s₁ → Grows s s₁ →
      s₁.1.db.commit ws = .ok s'.1.db → s'.1.redis = s₁.1.redis →
        s'.2 = s₁.2 ++ [⟨.commit ws, r⟩] → (AttemptsInv codec start s' ∧ Grows s₁ s') ∧ Q () s') :
    Tends codec settings start n i s (await (.commit ws)) Q := by
  refine tends_call rfl fun s₁ a r s' hinv hgrows he hlog => ?_
  rcases commit_effect he with ⟨db, hcommit, rfl, hs'⟩ | ⟨⟨e, rfl⟩, hs'⟩
  · obtain ⟨hkeep, hQ⟩ := h s₁ s' _ hinv hgrows (by rw [hs']; exact hcommit) (by rw [hs']) hlog
    exact ⟨hkeep, fun _ _ => hQ⟩
  · refine ⟨hinv.keep ⟨fun t => by rw [hs'], by rw [hs']⟩ hlog fun d hd => Or.inl ?_, nofun⟩
    rwa [hs'] at hd

lemma tends_sameAttempts {ws : List Write}
    (h : ∀ db db' : Database, db.commit ws = .ok db' → SameAttempts db db') :
    Tends codec settings start n i s (await (.commit ws)) fun _ _ => True := by
  refine tends_commit fun s₁ s' r hinv _ hcommit hredis hlog => ⟨?_, trivial⟩
  exact hinv.keep (h _ _ hcommit) hlog fun d hd => Or.inl (hredis ▸ hd)

lemma tendsAfter_recording : HoldsOfRecording fun _ (q : Coroutine δ _) =>
    TendsAfter codec settings start n i s q :=
  { tendsAfter_compositional with
    getTask := fun _ => tendsAfter_await rfl
    getScan := fun _ => tendsAfter_await rfl
    selectResponse := fun _ => tendsAfter_await rfl
    selectStatuses := fun _ => tendsAfter_await rfl
    publish := fun _ => tendsAfter_await rfl
    setTaskStatus := fun _ _ _ _ => tends_sameAttempts fun _ _ => commit_status
    setScanStatus := fun _ _ _ _ => tends_sameAttempts fun _ _ => commit_scan }

lemma tendsAfter_reporting : HoldsOfReporting fun _ (q : Coroutine δ _) =>
    TendsAfter codec settings start n i s q :=
  { tendsAfter_compositional with
    incRequests := fun _ => tendsAfter_await rfl
    observeLatency := fun _ _ => tendsAfter_await rfl
    report429 := fun _ => tendsAfter_await rfl }

/-- The row and the response that a session loads bound what is there when it commits. -/
lemma tends_saveResponse {id : TaskId} (o : Outcome) (hid : HasRow codec start s id) :
    Tends codec settings start n i s (saveResponse id o) fun _ _ => True := by
  have hload : Tends codec settings start n i s (await (.getTask id)) fun dbTask s' =>
      (∀ t : Task, dbTask = some t → t.id = id ∧ (Accounted codec start → 0 ≤ t.attempts) ∧
        t.attempts ≤ start.attempts id + (CallLog.saves s'.2).count id) ∧
      (dbTask = none → ¬Accounted codec start) := by
    refine tends_call rfl fun s₁ a r s' hinv hgrows he hlog => ?_
    have hkeep := still_keep rfl hinv he hlog
    refine ⟨hkeep, fun x hx => ?_⟩
    have hreply : r = .ok (s₁.1.db.tasks.find? id) := by
      cases a <;> simp only [Store.effect, reduceCtorEq, Option.some.injEq, Prod.mk.injEq] at he
      exact he.1.symm
    cases hreply.symm.trans hx
    refine ⟨fun t ht => ⟨(Table.find?_eq_some_iff.mp ht).2, fun hstart =>
      (hinv.accounted hstart).nonneg ht, ?_⟩, fun hnone hstart => ?_⟩
    · have hle := hkeep.2.saves id
      exact (hinv.counted id t ht).trans (by omega)
    · have hrow := hgrows.tasks id (hid hstart)
      rw [hnone] at hrow
      cases hrow
  have hresponse : ∀ s, Tends codec settings start n i s (await (.selectResponse id))
      fun response s' => ∀ r : ScanResponse, response = some r →
        r.taskId = id ∧ (s'.1.db.responses.find? id).isSome := by
    intro s
    refine tends_call rfl fun s₁ a r s' hinv hgrows he hlog => ?_
    refine ⟨still_keep rfl hinv he hlog, fun x hx row hrow => ?_⟩
    have hfound : r = .ok (s₁.1.db.responses.find? id) ∧ s₁.1 = s'.1 := by
      cases a <;> simp only [Store.effect, reduceCtorEq, Option.some.injEq, Prod.mk.injEq] at he
      exact ⟨he.1.symm, he.2⟩
    cases hfound.1.symm.trans hx
    rw [← hfound.2]
    exact ⟨(Table.find?_eq_some_iff.mp hrow).2, Option.isSome_iff_exists.mpr ⟨row, hrow⟩⟩
  refine Tends.tryCatch (hload.bind ?_) fun _ _ _ => tends_pure trivial
  rintro dbTask s₁ - ⟨hsome, hnone⟩
  refine (hresponse s₁).bind fun response s₂ hgrows₂ hloaded => ?_
  have hstill : ∀ {s₃ : Store δ × CallLog δ}, Grows s₂ s₃ → ∀ r, response = some r →
      r.taskId = id ∧ (s₃.1.db.responses.find? id).isSome := fun hgrows r hr =>
    ⟨(hloaded r hr).1, hgrows.responses _ (hloaded r hr).2⟩
  cases dbTask with
  | none =>
    refine Tends.bind (Q := fun _ _ => True) ?_ fun _ _ _ _ => tends_pure trivial
    refine tends_commit fun s₃ s' r hinv hgrows hcommit hredis hlog => ⟨?_, trivial⟩
    obtain ⟨htasks, hanswered, hothers⟩ := commit_responseWrite (hstill hgrows) hcommit
    refine hinv.respond (hnone rfl) htasks (fun t ht => ?_) hlog
    by_cases ht' : t = id
    · rw [ht']
      exact hanswered
    · rwa [hothers t ht']
  | some t =>
    obtain ⟨rfl, hpos, hle⟩ := hsome t rfl
    refine Tends.bind (Q := fun _ _ => True) ?_ fun _ _ _ _ =>
      (tendsAfter_recording.publishEvent _ _ (Grows.refl _)).bind fun _ _ hgrows _ =>
        tendsAfter_recording.evaluateScanCompletion _ _ hgrows
    refine tends_commit fun s₃ s' r hinv hgrows hcommit hredis hlog => ⟨?_, trivial⟩
    have hsaves : ([Write.updateTask t { t with status := o.taskStatus, attempts := t.attempts + 1 }]
        ++ [responseWrite t.id o response]).filterMap Write.saved? = [t.id] := by
      cases response <;> rfl
    have hmore : (CallLog.saves s₁.2).count t.id ≤ (CallLog.saves s₃.2).count t.id :=
      (hgrows₂.saves t.id).trans (hgrows.saves t.id)
    exact hinv.save (commit_saved (hstill hgrows) hcommit) (hle.trans (by omega)) hpos hsaves hlog
      hredis

/-- A value is delayed whose payload has a task. -/
lemma tends_zadd {d : δ} (score : ℚ) (hd : Owned codec start s d) :
    Tends codec settings start n i s (await (.zadd d score)) fun _ _ => True := by
  refine tends_call rfl fun s₁ a r s' hinv hgrows he hlog => ⟨?_, fun _ _ => trivial⟩
  have hs' : s'.1 = { s₁.1 with redis := { s₁.1.redis with
      delayed := s₁.1.redis.delayed.zadd codec.before d score } } := by
    cases a <;> simp only [Store.effect, reduceCtorEq, Option.some.injEq, Prod.mk.injEq] at he
    exact he.2.symm
  refine hinv.keep ⟨fun t => by rw [hs'], by rw [hs']⟩ hlog fun d' hd' => ?_
  rw [hs', mem_stored_zadd] at hd'
  rcases hd' with rfl | hd'
  · exact Or.inr (hd.grows hgrows)
  · exact Or.inl hd'

lemma tends_processPayload (w : WorkerId) {p : QueuePayload}
    (hp : HasRow codec start s p.taskId) :
    TendsAfter codec settings start n i s (processPayload codec settings w p) := by
  have hsave : ∀ o, TendsAfter codec settings start n i s (saveResponse p.taskId o) :=
    fun o _ hgrows => tends_saveResponse o (hp.grows hgrows)
  have hdlq : ∀ reason, TendsAfter codec settings start n i s (sendToDlq p reason) :=
    fun _ => sendToDlq_of tendsAfter_compositional (tendsAfter_await rfl)
  have hschedule : ∀ delay, TendsAfter codec settings start n i s
      (scheduleDelayed codec { p with attempt := p.attempt + 1 } delay) := by
    refine fun _ => scheduleDelayed_of tendsAfter_compositional (tendsAfter_await rfl)
      fun score _ hgrows => tends_zadd score fun p' hp' => ?_
    rw [codec.validate_dump, Option.some.injEq] at hp'
    exact hp' ▸ hp.grows hgrows
  have hattempt : TendsAfter codec settings start n i s (attemptPayload codec settings p) :=
    attemptPayload_of tendsAfter_compositional (tendsAfter_recording.updateTaskStatus _ _)
      (tendsAfter_await rfl) (tendsAfter_reporting.executeRequest p (tendsAfter_await rfl)) hsave
      fun e => tendsAfter_recording.handleRetry settings p e (tendsAfter_await rfl)
        (fun _ => hschedule) hdlq
  exact processPayload_of tendsAfter_compositional hattempt
    (fun e => criticalError_of tendsAfter_compositional hsave (hdlq e)) (tendsAfter_await rfl)

end workers

section runs

variable [DecidableEq δ] {codec : Codec δ} {settings : Settings} {start : Store δ} {n i : ℕ}
  {s : Store δ × CallLog δ}

/-- A transaction that appends what has a task. -/
lemma tends_multi {ws : List (RedisWrite δ)}
    (h : ∀ q data, .rpush q data ∈ ws → ∀ d ∈ data, Owned codec start s d) :
    Tends codec settings start n i s (await (.multi ws)) fun _ _ => True := by
  refine tends_call rfl fun s₁ a r s' hinv hgrows he hlog => ⟨?_, fun _ _ => trivial⟩
  have hs' : s'.1 = { s₁.1 with redis := s₁.1.redis.multi ws } := by
    cases a <;> simp only [Store.effect, reduceCtorEq, Option.some.injEq, Prod.mk.injEq] at he
    exact he.2.symm
  refine hinv.keep ⟨fun t => by rw [hs'], by rw [hs']⟩ hlog fun d hd => ?_
  rw [hs'] at hd
  rcases mem_stored_multi hd with hd | ⟨q, data, hmem, hd⟩
  · exact Or.inl hd
  · exact Or.inr ((h q data hmem d hd).grows hgrows)

omit [DecidableEq δ] in
lemma decoded_of_groupDueTasks {ds : List δ} {acc grouped : List (PriorityQueue × List δ)}
    (h : groupDueTasks codec ds acc = .ok grouped) : ∀ d ∈ ds, (codec.validate d).isSome := by
  induction ds generalizing acc with
  | nil => exact nofun
  | cons d ds ih =>
    rw [groupDueTasks] at h
    split at h
    · next p hp =>
      intro d' hd'
      rcases List.mem_cons.mp hd' with rfl | hd'
      · rw [hp]
        rfl
      · exact ih h d' hd'
    · cases h

lemma tends_processDelayedTasks :
    Tends codec settings start n i s (processDelayedTasks codec) fun _ _ => True := by
  refine Tends.tryCatch ((tends_await rfl).bind fun now s₁ _ _ => ?_) fun _ _ _ => tends_pure trivial
  have hread : Tends codec settings start n i s₁ (await (.zrangebyscore 0 now 0 50))
      fun due s' => ∀ d ∈ due, Owned codec start s' d := by
    refine tends_call rfl fun s₂ a r s' hinv hgrows he hlog => ?_
    have hkeep := still_keep rfl hinv he hlog
    refine ⟨hkeep, fun due hdue d hd => (hinv.owned ?_).grows hkeep.2⟩
    have hreply : r = .ok (s₂.1.redis.delayed.zrangebyscore 0 now 0 50) := by
      cases a <;> simp only [Store.effect, reduceCtorEq, Option.some.injEq, Prod.mk.injEq] at he
      exact he.1.symm
    cases hreply.symm.trans hdue
    exact Redis.mem_stored.mpr (Or.inr ((s₂.1.redis.delayed.members_perm_zremrangebyscore 0
      now).mem_iff.mpr (List.mem_append_left _
        ((s₂.1.redis.delayed.zrangebyscore_sublist 0 now 0 50).subset hd))))
  refine hread.bind fun due s₂ _ hdue => ?_
  split
  · exact tends_pure trivial
  · split
    · next grouped hgrouped =>
      refine tends_multi fun q data hmem d hd => hdue d ?_
      exact (mem_moveCommands (decoded_of_groupDueTasks hgrouped) hgrouped now d).mp
        ⟨q, data, hmem, hd⟩
    · exact tends_throw

/-- The payload that the consumer returns has a task. -/
lemma tends_consume : Tends codec settings start n i s (consume codec)
    fun r s' => ∀ p, r = some p → HasRow codec start s' p.taskId := by
  have hqueues : ∀ s, Tends codec settings start n i s
      (getPollQueues : Coroutine δ (List PriorityQueue)) fun _ _ => True :=
    fun _ => (tends_await rfl).bind fun _ _ _ _ => tends_pure trivial
  have hnone : ∀ s', Tends codec settings start n i s' (pure none : Coroutine δ (Option QueuePayload))
      fun r s' => ∀ p, r = some p → HasRow codec start s' p.taskId := by
    intro s'
    exact tends_pure (by simp)
  have hpop : ∀ (qs : List PriorityQueue) s, Tends codec settings start n i s (await (.blpop qs))
      fun r s' => ∀ q d, r = some (q, d) → Owned codec start s' d := by
    intro qs s
    refine tends_call rfl fun s₁ a r s' hinv hgrows he hlog => ?_
    have hkeep := still_keep rfl hinv he hlog
    refine ⟨hkeep, fun x hx q d hd => (hinv.owned ?_).grows hkeep.2⟩
    have hreply : r = .ok (s₁.1.redis.blpop qs).1 := by
      cases a <;> simp only [Store.effect, reduceCtorEq, Option.some.injEq, Prod.mk.injEq] at he
      exact he.1.symm
    cases hreply.symm.trans hx
    exact (stored_blpop hd).mem_iff.mpr List.mem_cons_self
  refine Tends.tryCatch (tends_processDelayedTasks.bind fun _ _ _ _ =>
    (hqueues _).bind fun qs s₁ _ _ => (hpop qs s₁).bind ?_)
    fun _ s' _ => hnone s'
  rintro (_ | ⟨q, d⟩) s₂ - hd
  · exact hnone s₂
  · dsimp only
    split
    · next p hp =>
      refine tends_pure fun p' hp' => ?_
      exact Option.some.inj hp' ▸ hd q d rfl p hp
    · exact tends_throw

lemma tends_createTask (w : WorkerId) {p : QueuePayload} (hp : HasRow codec start s p.taskId) :
    Tends codec settings start n i s (await (.createTask w p)) fun _ _ => True := by
  refine ensures_perform.mpr fun s₁ hinv hrely fate r s' he => ?_
  rcases System.raising_logging_effect he with ⟨a, he, hlog⟩ | ⟨hmay, -, -⟩
  · have hs' : s'.1 = s₁.1 := by
      have he : Store.effect codec (.createTask w p) a s₁.1 = some (r, s'.1) := he
      cases a <;> simp only [Store.effect, reduceCtorEq, Option.some.injEq, Prod.mk.injEq] at he
      exact he.2.symm
    obtain ⟨hinv', hgrows⟩ := hinv.keep ⟨fun t => by rw [hs'], by rw [hs']⟩ hlog
      fun d hd => Or.inl (hs' ▸ hd)
    refine ⟨hinv', hgrows, ⟨?_, w, p, rfl, ?_⟩, Grows.trans hrely hgrows, fun _ _ => trivial⟩
    · have hone : ([⟨.createTask w p, r⟩] : CallLog δ).countP (fun e => e.1.creates) = 1 := rfl
      change n + s'.2.countP _ = n + s₁.2.countP _ + 1
      rw [hlog, List.countP_append, hone, Nat.add_assoc]
    · exact (hp.grows hrely).grows hgrows
  · cases hmay

lemma tends_engineRound (w : WorkerId) :
    Tends codec settings start n i s (engineRound codec w) fun _ _ => True := by
  refine (tends_await rfl).bind fun _ s₁ _ _ => tends_consume.bind ?_
  rintro (_ | p) s₂ - hp
  · exact tends_await rfl
  · exact tends_createTask w (hp p rfl)

/-- A submission publishes the payloads of the rows that it has inserted. -/
lemma tends_submission (sub : Submission) :
    Tends codec settings start n i s (sub.thread codec).body fun _ _ => True := by
  refine Tends.bind (Q := fun _ _ => True) ((tends_await rfl).bind ?_) fun _ _ _ _ => tends_pure trivial
  rintro (_ | scan) s₁ - -
  · exact tends_throw
  · have hresume : TendsAfter codec settings start n i s₁ (resumeScan scan) :=
      resumeScan_of tendsAfter_compositional (tendsAfter_await rfl) (tendsAfter_await rfl)
        fun _ _ _ => tends_sameAttempts fun _ _ => commit_scan
    refine (hresume s₁ (Grows.refl s₁)).bind fun _ s₂ _ _ => ?_
    have hinsert : Tends codec settings start n i s₂
        (await (.commit ((dbTasks sub.scanId sub.tasks sub.draws).map .insertTask)))
        fun _ s' => ∀ row ∈ dbTasks sub.scanId sub.tasks sub.draws,
          (s'.1.db.tasks.find? row.id).isSome := by
      refine tends_commit fun s₃ s' r hinv _ hcommit hredis hlog => ?_
      have hdb := commit_inserts hcommit
      refine ⟨hinv.insert hdb (fun row hrow => ?_) hlog hredis, fun row hrow => ?_⟩
      · obtain ⟨t, -, rfl⟩ := List.mem_map.mp hrow
        rfl
      · rw [hdb.found row hrow]
        rfl
    refine hinsert.bind fun _ s₃ _ hrows => ?_
    unfold publishBatch
    split
    · exact tends_pure trivial
    · refine Tends.tryCatch ((tends_multi fun q data hmem d hd => ?_).bind fun _ _ _ _ =>
        tends_pure trivial) fun _ _ _ => tends_pure trivial
      obtain ⟨p, hp, rfl⟩ := mem_batchCommands hmem hd
      obtain ⟨t, ht, rfl⟩ := List.mem_map.mp hp
      intro p' hp'
      rw [codec.validate_dump, Option.some.injEq] at hp'
      exact hp' ▸ fun _ => hrows _ (List.mem_map_of_mem ht)

/-- The invariant holds along every run. -/
lemma attemptsInv_of_reachable {ok : LoggedPool δ → Act (Fate Answer String) → Prop}
    {store : Store δ} {engines : List WorkerId} {subs : List Submission} {p : LoggedPool δ}
    (h : Reachable (loggedSystem codec settings) ok (· = serving codec store engines subs) p) :
    AttemptsInv codec store p.store := by
  refine (h.kept (H := attemptSharing codec settings store
    (serving codec store engines subs).threads.length) ?_ ?_).inv
  · rintro _ rfl
    refine ⟨⟨fun t row hrow => ?_, fun hstore => hstore⟩, rfl, fun i t ht => ?_⟩
    · have hrow : store.db.tasks.find? t = some row := hrow
      have hbase : store.attempts t = row.attempts.toNat := by
        rw [Store.attempts, hrow]
        rfl
      rw [hbase]
      omega
    · have hend : ∀ {q : Coroutine δ Unit} {s : Store δ × CallLog δ} {n : ℕ},
          Tends codec settings store n i s q (fun _ _ => True) →
            Ensures (attemptSharing codec settings store n) i q
              ((attemptSharing codec settings store n).done i) s :=
        fun hq => Ensures.mono hq fun _ _ _ => trivial
      rcases List.mem_append.mp (List.mem_of_getElem? ht) with ht | ht
      · obtain ⟨w, -, rfl⟩ := List.mem_map.mp ht
        refine ⟨hend (tends_engineRound w), fun l hl _ s _ _ => ?_⟩
        exact Option.some.inj hl ▸ hend (tends_engineRound w)
      · obtain ⟨sub, -, rfl⟩ := List.mem_map.mp ht
        exact ⟨hend (tends_submission sub), nofun⟩
  · rintro n _ s - ⟨w, q, rfl, hq⟩
    exact Ensures.mono (tends_processPayload w hq s (Grows.refl s)) fun _ _ _ => trivial

omit [DecidableEq δ] in
lemma sum_saves (t : TaskId) (log : CallLog δ) :
    (log.map fun e => ({ onSave := fun t' => if t' = t then 1 else 0 } : Prices).call e.1).sum =
      (CallLog.saves log).count t := by
  have hids : ∀ ids : List TaskId, (ids.map fun t' => if t' = t then 1 else 0).sum = ids.count t := by
    intro ids
    induction ids with
    | nil => rfl
    | cons id ids ih =>
      rw [List.map_cons, List.sum_cons, ih, List.count_cons, Nat.add_comm]
      simp only [beq_iff_eq]
  induction log with
  | nil => rfl
  | cons e log ih =>
    obtain ⟨c, r⟩ := e
    rw [List.map_cons, List.sum_cons, ih]
    cases c with
    | commit ws =>
      change ((ws.filterMap Write.saved?).map fun t' => if t' = t then 1 else 0).sum + _ =
        (ws.filterMap Write.saved? ++ CallLog.saves log).count t
      rw [hids, List.count_append]
    | _ => exact Nat.zero_add _

/-- Whatever fails, a task counts no more attempts than it had before and its payloads have
left. -/
theorem attempts_within_budget {store : Store δ} {engines : List WorkerId}
    {subs : List Submission} {p : LoggedPool δ}
    (h : Reachable (loggedSystem codec settings) MoversApart
      (· = serving codec store engines subs) p) {t : TaskId} {row : Task}
    (hrow : p.store.1.db.tasks.find? t = some row) :
    row.attempts ≤ store.attempts t + (((offered codec store subs).filter
      fun q => q.taskId = t).map QueuePayload.attemptsLeft).sum := by
  have hcounted := (attemptsInv_of_reachable h).counted t row hrow
  have hle := spent_within_budget { onSave := fun t' => if t' = t then 1 else 0 } h
  have hworth : ((offered codec store subs).map
      ({ onSave := fun t' => if t' = t then 1 else 0 } : Prices).payload).sum =
        (((offered codec store subs).filter fun q => q.taskId = t).map
          QueuePayload.attemptsLeft).sum := by
    rw [← sum_attempts]
    refine congrArg List.sum (List.map_congr_left fun q _ => ?_)
    change q.attemptsLeft * (0 + if q.taskId = t then 1 else 0) = _
    rw [Nat.zero_add]
    simp only [decide_eq_true_eq]
  rw [sum_saves, hworth] at hle
  exact hcounted.trans (by exact_mod_cast Nat.add_le_add_left hle _)

/-- Whatever fails, and however engines and submissions interleave, the tasks with a response
row are those with counted attempts. -/
theorem answered_iff_attempted {ok : LoggedPool δ → Act (Fate Answer String) → Prop}
    {store : Store δ} {engines : List WorkerId} {subs : List Submission} {p : LoggedPool δ}
    (hstore : Accounted codec store)
    (h : Reachable (loggedSystem codec settings) ok (· = serving codec store engines subs) p)
    (t : TaskId) :
    (p.store.1.db.responses.find? t).isSome ↔
      ∃ row, p.store.1.db.tasks.find? t = some row ∧ 0 < row.attempts :=
  ((attemptsInv_of_reachable h).accounted hstore).answered t

end runs

section examples

lemma accounted_runningScan : Accounted Codec.payloads runningScan where
  attempts := nofun
  answered t := by
    refine iff_of_false nofun ?_
    rintro ⟨row, hrow, -⟩
    cases hrow
  queued := nofun

/-- The counted attempt of the request that timed out. -/
theorem attempts_within_budget_timeout :
    ∃ p, Reachable (loggedSystem Codec.payloads {}) MoversApart
        (· = serving Codec.payloads runningScan [0] [submitOnce]) p ∧
      ∃ row, p.store.1.db.tasks.find? 0 = some row ∧ row.attempts = 1 ∧
        row.attempts ≤ runningScan.attempts 0 +
          (((offered Codec.payloads runningScan [submitOnce]).filter
            fun q => q.taskId = 0).map QueuePayload.attemptsLeft).sum := by
  obtain ⟨p, hp, hrow⟩ := submitOnce_shows timeoutOnce
    (f := fun p => (p.store.1.db.tasks.find? 0).map Task.attempts) (v := some 1) (by decide +kernel)
  obtain ⟨row, hrow, hattempts⟩ := Option.map_eq_some_iff.mp hrow
  exact ⟨p, hp, row, hrow, hattempts, attempts_within_budget hp hrow⟩

/-- Its response row. -/
theorem answered_iff_attempted_timeout :
    ∃ p, Reachable (loggedSystem Codec.payloads {}) MoversApart
        (· = serving Codec.payloads runningScan [0] [submitOnce]) p ∧
      (p.store.1.db.responses.find? 0).isSome ∧
      ∃ row, p.store.1.db.tasks.find? 0 = some row ∧ 0 < row.attempts := by
  obtain ⟨p, hp, hsome⟩ := submitOnce_shows timeoutOnce
    (f := fun p => (p.store.1.db.responses.find? 0).isSome) (v := true) (by decide +kernel)
  exact ⟨p, hp, hsome, (answered_iff_attempted accounted_runningScan hp 0).mp hsome⟩

end examples

end SecurityScanner

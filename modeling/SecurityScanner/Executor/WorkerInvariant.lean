import SecurityScanner.Executor.Commits
import SecurityScanner.Executor.StoredTasks
import SecurityScanner.Executor.WorkerProtocol

/-!
# The invariant of the workers

A task is claimed at most once: by one stored payload or by one thread, and its row has the
status that fits the place of the claim. `Transition` lists what a step of a thread can do;
the invariant, and what is proved about scans, follow from it.
-/

namespace SecurityScanner

open Storage Interleaving

variable {δ : Type}

lemma TaskStatus.open_iff {st : TaskStatus} : st.open = true ↔ ¬st.Terminal := by
  cases st <;> decide

section transitions

/-- The object of the scan that a thread has loaded. -/
def Evaluation.scan? : Evaluation → Option Scan
  | .loaded sc | .verdict sc _ => some sc
  | _ => Option.none

/-- A step of `_evaluate_scan_completion` up to the verdict. -/
inductive Evaluation.Step (db : Database) (scan : ScanId) : Evaluation → Evaluation → Prop
  | load {sc : Scan} (h : db.scans.find? scan = some sc) : Step db scan .pending (.loaded sc)
  | leave {sc : Scan} {st : TaskStatus} (h : st ∈ db.statuses scan) (hst : ¬st.Terminal) :
      Step db scan (.loaded sc) .none
  | conclude {sc : Scan} (h : ∀ st ∈ db.statuses scan, st.Terminal) :
      Step db scan (.loaded sc) (.verdict sc (db.statuses scan))

/-- The scan, the intent and the progress of a thread that saved a response. -/
def Worker.evaluation? : Worker δ → Option (ScanId × Bool × Evaluation)
  | .saved _ scan retry _ eval => some (scan, retry, eval)
  | _ => none

variable (codec : Codec δ)

/-- What a thread relies on. -/
structure Worker.Ok (db : Database) (g : Worker δ) : Prop where
  row : ∀ t, g.task? = some t →
    ∃ row, db.tasks.find? t = some row ∧ g.StatusOk row.status ∧ g.ScanOk row.scanId
  response : ∀ p scan response, g = .saving p scan response →
    db.responses.find? p.taskId = response
  read : ∀ now read, g = .due now read → read.Nodup ∧ ∀ d ∈ read, (codec.validate d).isSome
  loaded : ∀ scan retry eval sc, g.evaluation? = some (scan, retry, eval) →
    eval.scan? = some sc → sc.id = scan

/-- What one step of a thread does to the store and which threads come of it. -/
inductive Transition (s : Store δ) : Worker δ → Store δ → List (Worker δ) → Prop
  | quiet {g g' s'} (hdb : s'.db = s.db) (hstored : s'.redis.stored = s.redis.stored)
      (htask : g'.task? = g.task?) (heval : g'.evaluation? = g.evaluation?)
      (hok : g'.Ok codec s.db) : Transition s g s' [g']
  | pop {p d s'} (hdb : s'.db = s.db) (hd : codec.validate d = some p)
      (hstored : s.redis.stored.Perm (d :: s'.redis.stored)) : Transition s .idle s' [.popped p]
  | move {now read lost s'} (hdb : s'.db = s.db)
      (hstored : s.redis.stored.Perm (s'.redis.stored ++ lost))
      (hlost : ∀ d ∈ lost, d ∈ s.redis.delayed.inRange 0 now ∧ d ∉ read) :
      Transition s (.due now read) s' [.idle]
  | dispatch {p s'} (hdb : s'.db = s.db) (hstored : s'.redis.stored = s.redis.stored) :
      Transition s (.popped p) s' [.idle, .taken p]
  | mark {p row s'} (hstored : s'.redis.stored = s.redis.stored) (hid : row.id = p.taskId)
      (hupd : TaskUpdate s.db s'.db row .processing) : Transition s (.taken p) s' [.running p]
  | save {p response row retry st s'} (hstored : s'.redis.stored = s.redis.stored)
      (hid : row.id = p.taskId) (hupd : TaskUpdate s.db s'.db row st) (hst : st.Terminal)
      (hretry : retry = true → st = .failed) :
      Transition s (.saving p row.scanId response) s' [.saved p row.scanId retry st .pending]
  | evaluate {p scan retry st eval eval' s'} (hdb : s'.db = s.db)
      (hstored : s'.redis.stored = s.redis.stored) (heval : eval.Step s.db scan eval') :
      Transition s (.saved p scan retry st eval) s' [.saved p scan retry st eval']
  | settle {p scan retry st sc statuses s'} (hstored : s'.redis.stored = s.redis.stored)
      (hupd : ScanUpdate s.db s'.db sc (verdict statuses)) :
      Transition s (.saved p scan retry st (.verdict sc statuses)) s' [.saved p scan retry st .none]
  | retry {p row st s'} (hstored : s'.redis.stored = s.redis.stored) (hid : row.id = p.taskId)
      (hupd : TaskUpdate s.db s'.db row .retrying) :
      Transition s (.saved p row.scanId true st .none) s'
        [.requeue { p with attempt := p.attempt + 1 }]
  | push {p d s'} (hdb : s'.db = s.db) (hd : codec.validate d = some p)
      (hstored : s'.redis.stored.Perm (d :: s.redis.stored)) : Transition s (.requeue p) s' [.idle]
  | finish {p scan st s'} (hdb : s'.db = s.db) (hstored : s'.redis.stored = s.redis.stored) :
      Transition s (.saved p scan false st .none) s' [.idle]

end transitions

section invariant

variable (codec : Codec δ)

/-- The tasks of stored values. -/
def owners (ds : List δ) : List TaskId :=
  ds.filterMap fun d => (codec.validate d).map QueuePayload.taskId

/-- The tasks claimed by a stored value or by a thread. -/
def claims (s : Store δ) (gs : List (Worker δ)) : List TaskId :=
  owners codec s.redis.stored ++ gs.filterMap Worker.task?

structure WorkersInv (s : Store δ) (gs : List (Worker δ)) : Prop where
  decodable : ∀ d ∈ s.redis.stored, (codec.validate d).isSome
  nodup : (claims codec s gs).Nodup
  waiting : ∀ t ∈ owners codec s.redis.stored, ∃ row, s.db.tasks.find? t = some row ∧
    (row.status = .queued ∨ row.status = .retrying)
  places : ∀ g ∈ gs, g.Ok codec s.db
  scans : ∀ t row, s.db.tasks.find? t = some row → (s.db.scans.find? row.scanId).isSome

variable {codec}

lemma WorkersInv.perm {s : Store δ} {gs gs' : List (Worker δ)} (hp : gs.Perm gs')
    (h : WorkersInv codec s gs) : WorkersInv codec s gs' where
  decodable := h.decodable
  nodup := by
    have hclaims : (claims codec s gs).Perm (claims codec s gs') :=
      (hp.filterMap Worker.task?).append_left _
    exact hclaims.nodup_iff.mp h.nodup
  waiting := h.waiting
  places g hg := h.places g (hp.mem_iff.mpr hg)
  scans := h.scans

/-- A thread does not see a commit about another task. -/
lemma Worker.Ok.frame {db db' : Database} {g : Worker δ} (h : g.Ok codec db)
    (ht : ∀ t, g.task? = some t → db'.tasks.find? t = db.tasks.find? t ∧
      db'.responses.find? t = db.responses.find? t) : g.Ok codec db' where
  row t hg := (ht t hg).1 ▸ h.row t hg
  response p scan response hg := by
    rw [(ht p.taskId (by rw [hg]; rfl)).2]
    exact h.response p scan response hg
  read := h.read
  loaded := h.loaded

/-- Steps that leave the database alone hand claims on, or drop them. -/
lemma WorkersInv.regroup {s s' : Store δ} {g : Worker δ} {rest new : List (Worker δ)}
    (h : WorkersInv codec s (g :: rest)) (hdb : s'.db = s.db)
    (hdec : ∀ d ∈ s'.redis.stored, (codec.validate d).isSome)
    (hclaims : ∀ t, (claims codec s' new).count t ≤ (claims codec s [g]).count t)
    (hwait : ∀ t ∈ owners codec s'.redis.stored, ∃ row, s.db.tasks.find? t = some row ∧
      (row.status = .queued ∨ row.status = .retrying))
    (hok : ∀ g' ∈ new, g'.Ok codec s.db) : WorkersInv codec s' (new ++ rest) where
  decodable := hdec
  nodup := by
    rw [List.nodup_iff_count_le_one]
    intro t
    have h₁ := List.nodup_iff_count_le_one.mp h.nodup t
    have h₂ := hclaims t
    have hcons : (g :: rest).filterMap Worker.task? =
        [g].filterMap Worker.task? ++ rest.filterMap Worker.task? := by
      rw [← List.filterMap_append, List.singleton_append]
    simp only [claims, hcons, List.filterMap_append, List.count_append] at h₁ h₂ ⊢
    omega
  waiting := hdb ▸ hwait
  places g' hg' := by
    rw [hdb]
    rcases List.mem_append.mp hg' with hnew | hrest
    · exact hok g' hnew
    · exact h.places g' (List.mem_cons_of_mem _ hrest)
  scans := hdb ▸ h.scans

/-- Steps that leave the store and the database alone pass a claim between threads. -/
lemma WorkersInv.relay {s s' : Store δ} {g : Worker δ} {rest new : List (Worker δ)}
    (h : WorkersInv codec s (g :: rest)) (hdb : s'.db = s.db)
    (hstored : s'.redis.stored = s.redis.stored)
    (hsub : (new.filterMap Worker.task?).Sublist ([g].filterMap Worker.task?))
    (hok : ∀ g' ∈ new, g'.Ok codec s.db) : WorkersInv codec s' (new ++ rest) := by
  refine h.regroup hdb (hstored ▸ h.decodable) (fun t => ?_) (hstored ▸ h.waiting) hok
  have hcount := hsub.count_le t
  simp only [claims, hstored, List.count_append]
  omega

/-- The claim of a thread is the only one of its task. -/
lemma WorkersInv.alone {s : Store δ} {g : Worker δ} {rest : List (Worker δ)}
    (h : WorkersInv codec s (g :: rest)) {t : TaskId} (hg : g.task? = some t) :
    t ∉ owners codec s.redis.stored ∧ ∀ g' ∈ rest, g'.task? ≠ some t := by
  have hnodup := h.nodup
  rw [claims, List.filterMap_cons_some hg, List.nodup_middle, List.nodup_cons,
    List.mem_append, not_or] at hnodup
  refine ⟨hnodup.1.1, fun g' hg' ht => hnodup.1.2 ?_⟩
  exact List.mem_filterMap.mpr ⟨g', hg', ht⟩

/-- A commit about the task of the thread that makes it. -/
lemma WorkersInv.update {s s' : Store δ} {g g' : Worker δ} {rest : List (Worker δ)}
    (h : WorkersInv codec s (g :: rest)) (hstored : s'.redis.stored = s.redis.stored)
    {row : Task} {st : TaskStatus} (hupd : TaskUpdate s.db s'.db row st)
    (hg : g.task? = some row.id) (hg' : g'.task? = some row.id) (hok : g'.Ok codec s'.db) :
    WorkersInv codec s' ([g'] ++ rest) := by
  obtain ⟨hstore, hrest⟩ := h.alone hg
  refine ⟨hstored ▸ h.decodable, ?_, ?_, ?_, ?_⟩
  · have hnodup := h.nodup
    rw [claims, List.filterMap_cons_some hg] at hnodup
    rwa [claims, hstored, List.singleton_append, List.filterMap_cons_some hg']
  · intro t ht
    rw [hstored] at ht
    have hne : t ≠ row.id := fun he => hstore (he ▸ ht)
    rw [hupd.tasks t hne]
    exact h.waiting t ht
  · intro x hx
    rcases List.mem_append.mp hx with hx | hx
    · rw [List.mem_singleton.mp hx]
      exact hok
    · refine (h.places x (List.mem_cons_of_mem _ hx)).frame fun t ht => ?_
      have hne : t ≠ row.id := fun he => hrest x hx (he ▸ ht)
      exact ⟨hupd.tasks t hne, hupd.responses t hne⟩
  · intro t r hr
    rw [hupd.scans]
    by_cases hne : t = row.id
    · obtain ⟨row', hrow', -, hscan⟩ := hupd.updated
      rw [hne, hrow', Option.some.injEq] at hr
      rw [← hr, hscan]
      exact h.scans _ _ hupd.found
    · rw [hupd.tasks t hne] at hr
      exact h.scans t r hr

lemma owners_cons {d : δ} {p : QueuePayload} (hd : codec.validate d = some p) (ds : List δ) :
    owners codec (d :: ds) = p.taskId :: owners codec ds := by
  simp [owners, hd]

variable (codec) in
lemma owners_perm {ds ds' : List δ} (h : ds.Perm ds') :
    (owners codec ds).Perm (owners codec ds') := h.filterMap _

lemma mem_owners {ds : List δ} {d : δ} {p : QueuePayload} (hmem : d ∈ ds)
    (hd : codec.validate d = some p) : p.taskId ∈ owners codec ds :=
  List.mem_filterMap.mpr ⟨d, hmem, by simp [hd]⟩

/-- A place that relies on nothing but a row. -/
lemma Worker.Ok.of_row {db : Database} {g : Worker δ} {t : TaskId} {row : Task}
    (hg : g.task? = some t) (hrow : db.tasks.find? t = some row) (hst : g.StatusOk row.status)
    (hscan : g.ScanOk row.scanId)
    (hloaded : ∀ scan retry eval sc, g.evaluation? = some (scan, retry, eval) →
      eval.scan? = some sc → sc.id = scan)
    (hresponse : ∀ p scan response, g ≠ .saving p scan response) : g.Ok codec db where
  row t' ht' := by
    rw [hg, Option.some.injEq] at ht'
    exact ⟨row, ht' ▸ hrow, hst, hscan⟩
  response p scan response he := absurd he (hresponse p scan response)
  read now read he := by
    rw [he] at hg
    cases hg
  loaded := hloaded

/-- A polling thread relies on what it read. -/
lemma Worker.Ok.of_free {db : Database} {g : Worker δ} (hg : g.task? = none)
    (hread : ∀ now read, g = .due now read →
      read.Nodup ∧ ∀ d ∈ read, (codec.validate d).isSome) : g.Ok codec db where
  row t ht := by
    rw [hg] at ht
    cases ht
  response p scan response he := by
    rw [he] at hg
    cases hg
  read := hread
  loaded scan retry eval sc he := by
    cases g <;> cases he
    cases hg

lemma Worker.Ok.idle (db : Database) : (Worker.idle : Worker δ).Ok codec db :=
  .of_free rfl fun _ _ h => by cases h

/-- The row of a thread's task, as a query returns it. -/
lemma Worker.Ok.getTask {db : Database} {g : Worker δ} (hg : g.Ok codec db) {t : TaskId}
    (ht : g.task? = some t) :
    ∃ row : Task, db.tasks.find? t = some row ∧ row.id = t ∧ g.StatusOk row.status ∧
      g.ScanOk row.scanId := by
  obtain ⟨row, hrow, hst, hscan⟩ := hg.row t ht
  exact ⟨row, hrow, (Table.find?_eq_some_iff.mp hrow).2, hst, hscan⟩

/-- A verdict touches neither tasks nor claims. -/
lemma WorkersInv.rescan {s s' : Store δ} {g g' : Worker δ} {rest : List (Worker δ)}
    (h : WorkersInv codec s (g :: rest)) (hstored : s'.redis.stored = s.redis.stored) {sc : Scan}
    {st : ScanStatus} (hupd : ScanUpdate s.db s'.db sc st) (htask : g'.task? = g.task?)
    (hok : g'.Ok codec s.db) : WorkersInv codec s' ([g'] ++ rest) := by
  have hframe : ∀ x : Worker δ, x.Ok codec s.db → x.Ok codec s'.db := fun x hx =>
    hx.frame fun t _ => ⟨by rw [hupd.tasks], by rw [hupd.responses]⟩
  refine ⟨hstored ▸ h.decodable, ?_, ?_, ?_, ?_⟩
  · have hnodup := h.nodup
    simpa [claims, hstored, List.filterMap_cons, htask] using hnodup
  · rw [hstored, hupd.tasks]
    exact h.waiting
  · intro x hx
    rcases List.mem_append.mp hx with hx | hx
    · exact hframe x (List.mem_singleton.mp hx ▸ hok)
    · exact hframe x (h.places x (List.mem_cons_of_mem _ hx))
  · intro t row hrow
    rw [hupd.tasks] at hrow
    by_cases hk : row.scanId = sc.id
    · obtain ⟨cur, -, hcur⟩ := hupd.updated
      rw [hk, hcur]
      rfl
    · rw [hupd.scans _ hk]
      exact h.scans t row hrow

/-- The invariant holds after every step of a thread. -/
theorem WorkersInv.step {s s' : Store δ} {g : Worker δ} {rest new : List (Worker δ)}
    (h : WorkersInv codec s (g :: rest)) (ht : Transition codec s g s' new) :
    WorkersInv codec s' (new ++ rest) := by
  have hg := h.places g List.mem_cons_self
  cases ht with
  | @quiet g g' s' hdb hstored htask heval hok =>
    refine h.relay hdb hstored ?_ (List.forall_mem_singleton.mpr hok)
    simp [List.filterMap_cons, htask]
  | @pop p d s' hdb hd hstored =>
    have howners := owners_perm codec hstored
    rw [owners_cons hd] at howners
    obtain ⟨row, hrow, hst⟩ := h.waiting p.taskId (howners.mem_iff.mpr List.mem_cons_self)
    refine h.regroup hdb (fun x hx => h.decodable x (hstored.mem_iff.mpr (List.mem_cons_of_mem _ hx)))
      (fun t => ?_) (fun t ht => h.waiting t (howners.mem_iff.mpr (List.mem_cons_of_mem _ ht))) ?_
    · have hcount := howners.count_eq t
      rw [List.count_cons] at hcount
      simp only [claims, List.count_append, List.filterMap_cons, Worker.task?, List.filterMap_nil,
        List.count_cons, List.count_nil]
      omega
    · exact List.forall_mem_singleton.mpr <| .of_row rfl hrow hst trivial
        (fun _ _ _ _ he => by cases he) (fun _ _ _ he => by cases he)
  | @move now read lost s' hdb hstored hlost =>
    have howners : (owners codec s.redis.stored).Perm
        (owners codec s'.redis.stored ++ owners codec lost) := by
      rw [owners, owners, owners, ← List.filterMap_append]
      exact hstored.filterMap _
    refine h.regroup hdb (fun x hx => h.decodable x (hstored.mem_iff.mpr
      (List.mem_append_left _ hx))) (fun t => ?_) (fun t ht => h.waiting t
        (howners.mem_iff.mpr (List.mem_append_left _ ht))) ?_
    · have hcount := howners.count_eq t
      rw [List.count_append] at hcount
      simp only [claims, List.count_append, List.filterMap_cons, Worker.task?, List.filterMap_nil,
        List.count_nil]
      omega
    · exact List.forall_mem_singleton.mpr (.idle _)
  | @dispatch p s' hdb hstored =>
    obtain ⟨row, hrow, hst, -⟩ := hg.row p.taskId rfl
    refine h.relay hdb hstored ?_ ?_
    · simp [List.filterMap_cons, Worker.task?]
    · intro x hx
      rcases List.mem_pair.mp hx with rfl | rfl
      · exact .idle _
      · exact .of_row rfl hrow hst trivial (fun _ _ _ _ he => by cases he)
          (fun _ _ _ he => by cases he)
  | @mark p row s' hstored hid hupd =>
    obtain ⟨row', hrow', hst', -⟩ := hupd.updated
    refine h.update hstored hupd (by rw [hid]; rfl) (by rw [hid]; rfl) ?_
    exact .of_row rfl (hid ▸ hrow') hst' trivial (fun _ _ _ _ he => by cases he)
      (fun _ _ _ he => by cases he)
  | @save p response row retry st s' hstored hid hupd hst hretry =>
    obtain ⟨row', hrow', hst', hscan'⟩ := hupd.updated
    refine h.update hstored hupd (by rw [hid]; rfl) (by rw [hid]; rfl) ?_
    refine .of_row rfl (hid ▸ hrow') ⟨hst', hst, hretry⟩ hscan' (fun _ _ _ sc he hsc => ?_)
      (fun _ _ _ he => by cases he)
    cases he
    cases hsc
  | @evaluate p scan retry st eval eval' s' hdb hstored heval =>
    obtain ⟨row, hrow, hst, hscan⟩ := hg.row p.taskId rfl
    refine h.relay hdb hstored (by simp [Worker.task?]) (List.forall_mem_singleton.mpr ?_)
    refine .of_row rfl hrow hst hscan (fun _ _ _ sc he hsc => ?_) (fun _ _ _ he => by cases he)
    cases he
    cases heval with
    | load hload =>
      cases hsc
      exact (Table.find?_eq_some_iff.mp hload).2
    | leave => cases hsc
    | conclude =>
      cases hsc
      exact hg.loaded _ _ _ _ rfl rfl
  | @settle p scan retry st sc statuses s' hstored hupd =>
    obtain ⟨row, hrow, hst, hscan⟩ := hg.row p.taskId rfl
    refine h.rescan hstored hupd rfl ?_
    refine .of_row rfl hrow hst hscan (fun _ _ _ sc he hsc => ?_) (fun _ _ _ he => by cases he)
    cases he
    cases hsc
  | @retry p row st s' hstored hid hupd =>
    obtain ⟨row', hrow', hst', -⟩ := hupd.updated
    refine h.update hstored hupd (by rw [hid]; rfl) (by rw [hid]; rfl) ?_
    exact .of_row rfl (hid ▸ hrow') hst' trivial (fun _ _ _ _ he => by cases he)
      (fun _ _ _ he => by cases he)
  | @push p d s' hdb hd hstored =>
    obtain ⟨row, hrow, hst, -⟩ := hg.row p.taskId rfl
    have howners := owners_perm codec hstored
    rw [owners_cons hd] at howners
    refine h.regroup hdb (fun x hx => ?_) (fun t => ?_) (fun t ht => ?_) ?_
    · rcases List.mem_cons.mp (hstored.mem_iff.mp hx) with rfl | hx
      · rw [hd]
        rfl
      · exact h.decodable x hx
    · have hcount := howners.count_eq t
      rw [List.count_cons] at hcount
      simp only [claims, List.count_append, List.filterMap_cons, Worker.task?, List.filterMap_nil,
        List.count_cons, List.count_nil]
      omega
    · rcases List.mem_cons.mp (howners.mem_iff.mp ht) with rfl | ht
      · exact ⟨row, hrow, Or.inr hst⟩
      · exact h.waiting t ht
    · exact List.forall_mem_singleton.mpr (.idle _)
  | @finish p scan st s' hdb hstored =>
    refine h.relay hdb hstored ?_ (List.forall_mem_singleton.mpr (.idle _))
    simp [List.filterMap_cons, Worker.task?]

end invariant

section effects

variable [DecidableEq δ] (codec : Codec δ) (settings : Settings)

/-- A call is answered as the protocol expects, and what follows is a transition. -/
def Answered (s : Store δ) (g : Worker δ) (c : Cmd δ) (r : Except String (Reply c))
    (s' : Store δ) : Prop :=
  workerReply codec g c r ∧ ∀ g', workerNext codec g c r g' →
    Transition codec s g s' (g' :: ((workerSystem codec settings).fork c r).toList.map
      fun _ => (workerProtocol codec).child g c)

/-- What a transaction appends is what it removes, or less. -/
def Cmd.PushesDue (s : Store δ) (c : Cmd δ) : Prop :=
  ∀ ws, c = .multi ws → ∀ q data, RedisWrite.rpush q data ∈ ws → ∀ d ∈ data,
    ∃ lo hi, RedisWrite.zremrangebyscore lo hi ∈ ws ∧ d ∈ s.redis.delayed.inRange lo hi

variable {codec settings}

lemma answered_idle {s s' : Store δ} {c : Cmd δ} {a : Answer} {r : Except String (Reply c)}
    (hdec : ∀ d ∈ s.redis.stored, (codec.validate d).isSome)
    (hc : workerAllowed codec .idle c) (he : Store.effect codec c a s = some (r, s')) :
    Answered codec settings s .idle c r s' := by
  have hidle : (Worker.idle : Worker δ).Ok codec s.db := .idle _
  cases c <;> try exact hc.elim
  case time =>
    cases a <;> simp only [Store.effect, reduceCtorEq, Option.some.injEq, Prod.mk.injEq] at he
    obtain ⟨rfl, rfl⟩ := he
    refine ⟨⟨_, rfl⟩, ?_⟩
    rintro g' rfl
    exact .quiet rfl rfl rfl rfl (.of_free rfl fun _ _ h => by cases h)
  case random =>
    cases a <;> simp only [Store.effect, reduceCtorEq] at he
    split at he <;> simp only [reduceCtorEq, Option.some.injEq, Prod.mk.injEq] at he
    obtain ⟨rfl, rfl⟩ := he
    refine ⟨⟨_, rfl⟩, ?_⟩
    rintro g' rfl
    exact .quiet rfl rfl rfl rfl hidle
  case semaphoreAcquire w =>
    cases a <;> simp only [Store.effect, reduceCtorEq] at he
    split at he <;> simp only [reduceCtorEq, Option.some.injEq, Prod.mk.injEq] at he
    obtain ⟨rfl, rfl⟩ := he
    refine ⟨⟨_, rfl⟩, ?_⟩
    rintro g' rfl
    exact .quiet rfl rfl rfl rfl hidle
  case semaphoreRelease w =>
    cases a <;> simp only [Store.effect, reduceCtorEq, Option.some.injEq, Prod.mk.injEq] at he
    obtain ⟨rfl, rfl⟩ := he
    refine ⟨⟨_, rfl⟩, ?_⟩
    rintro g' rfl
    exact .quiet rfl rfl rfl rfl hidle
  case blpop qs =>
    cases a <;> simp only [Store.effect, reduceCtorEq, Option.some.injEq, Prod.mk.injEq] at he
    obtain ⟨rfl, rfl⟩ := he
    rcases hpop : (s.redis.blpop qs).1 with _ | ⟨q, d⟩
    · refine ⟨Or.inl rfl, ?_⟩
      rintro g' rfl
      have hsame := blpop_eq_none hpop
      exact .quiet rfl (congrArg Redis.stored hsame) rfl rfl hidle
    · have hstored := stored_blpop hpop
      obtain ⟨p, hp⟩ := Option.isSome_iff_exists.mp
        (hdec d (hstored.mem_iff.mpr List.mem_cons_self))
      refine ⟨Or.inr ⟨q, d, p, rfl, hp⟩, ?_⟩
      rintro g' ⟨p', hp', rfl⟩
      exact .pop rfl hp' hstored

lemma answered_timed {s s' : Store δ} {now : ℚ} {c : Cmd δ} {a : Answer}
    {r : Except String (Reply c)} (hdec : ∀ d ∈ s.redis.stored, (codec.validate d).isSome)
    (hc : workerAllowed codec (.timed now) c) (he : Store.effect codec c a s = some (r, s')) :
    Answered codec settings s (.timed now) c r s' := by
  cases c <;> try exact hc.elim
  rename_i lo hi start num
  cases a <;> simp only [Store.effect, reduceCtorEq, Option.some.injEq, Prod.mk.injEq] at he
  obtain ⟨rfl, rfl⟩ := he
  have hsub := (s.redis.delayed.zrangebyscore_sublist lo hi start num).trans
    (s.redis.delayed.inRange_sublist lo hi)
  have hread : ∀ d ∈ s.redis.delayed.zrangebyscore lo hi start num, (codec.validate d).isSome :=
    fun d hd => hdec d (Redis.mem_stored.mpr (Or.inr (hsub.mem hd)))
  have hnodup := s.redis.delayed.nodup_zrangebyscore lo hi start num
  refine ⟨⟨_, rfl, hnodup, hread⟩, ?_⟩
  rintro g' rfl
  split
  · exact .quiet rfl rfl rfl rfl (.idle _)
  · refine .quiet rfl rfl rfl rfl (.of_free rfl ?_)
    rintro now read ⟨⟩
    exact ⟨hnodup, hread⟩

lemma answered_due {s s' : Store δ} {now : ℚ} {read : List δ} {c : Cmd δ} {a : Answer}
    {r : Except String (Reply c)} (hg : (Worker.due now read).Ok codec s.db)
    (hpush : c.PushesDue s) (hc : workerAllowed codec (.due now read) c)
    (he : Store.effect codec c a s = some (r, s')) :
    Answered codec settings s (.due now read) c r s' := by
  cases c <;> try exact hc.elim
  obtain ⟨grouped, hok, rfl⟩ := hc
  cases a <;> simp only [Store.effect, reduceCtorEq, Option.some.injEq, Prod.mk.injEq] at he
  obtain ⟨rfl, rfl⟩ := he
  obtain ⟨hnodup, hdec⟩ := hg.read now read rfl
  have hsub : read ⊆ s.redis.delayed.inRange 0 now := by
    intro d hd
    obtain ⟨q, data, hmem, hd'⟩ := (mem_moveCommands hdec hok now d).mpr hd
    obtain ⟨lo, hi, hrem, hin⟩ := hpush _ rfl q data hmem d hd'
    have hrange : lo = 0 ∧ hi = now := by simpa [moveCommands] using hrem
    rwa [hrange.1, hrange.2] at hin
  have hperm : (s.redis.delayed.inRange 0 now).Perm
      (read ++ (s.redis.delayed.inRange 0 now).filter (· ∉ read)) := by
    have hin : ((s.redis.delayed.inRange 0 now).filter (· ∈ read)).Perm read := by
      have hdue := (s.redis.delayed.nodup_inRange 0 now).filter (· ∈ read)
      refine (List.perm_ext_iff_of_nodup hdue hnodup).mpr fun d => ?_
      simp only [List.mem_filter, decide_eq_true_eq]
      exact ⟨fun hd => hd.2, fun hd => ⟨hsub hd, hd⟩⟩
    have hsplit := List.filter_append_perm (· ∈ read) (s.redis.delayed.inRange 0 now)
    simp only [← decide_not] at hsplit
    exact hsplit.symm.trans (hin.append_right _)
  refine ⟨⟨_, rfl⟩, ?_⟩
  rintro g' rfl
  refine .move rfl (stored_move hperm hdec hok) fun d hd => ?_
  obtain ⟨hin, hnot⟩ := List.mem_filter.mp hd
  exact ⟨hin, by simpa using hnot⟩

lemma answered_popped {s s' : Store δ} {p : QueuePayload} {c : Cmd δ} {a : Answer}
    {r : Except String (Reply c)} (hc : workerAllowed codec (.popped p) c)
    (he : Store.effect codec c a s = some (r, s')) :
    Answered codec settings s (.popped p) c r s' := by
  cases c <;> try exact hc.elim
  cases a <;> simp only [Store.effect, reduceCtorEq, Option.some.injEq, Prod.mk.injEq] at he
  obtain ⟨rfl, rfl⟩ := he
  refine ⟨⟨_, rfl⟩, ?_⟩
  rintro g' rfl
  exact .dispatch rfl rfl

lemma answered_taken {s s' : Store δ} {p : QueuePayload} {c : Cmd δ} {a : Answer}
    {r : Except String (Reply c)} (hg : (Worker.taken p).Ok codec s.db)
    (hc : workerAllowed codec (.taken p) c) (he : Store.effect codec c a s = some (r, s')) :
    Answered codec settings s (.taken p) c r s' := by
  obtain ⟨row, hrow, hid, hst, -⟩ := hg.getTask rfl
  cases c <;> try exact hc.elim
  case getTask id =>
    obtain rfl : id = p.taskId := hc
    cases a <;> simp only [Store.effect, reduceCtorEq, Option.some.injEq, Prod.mk.injEq] at he
    obtain ⟨rfl, rfl⟩ := he
    refine ⟨⟨row, congrArg Except.ok hrow, hid, hst, trivial⟩, ?_⟩
    rintro g' rfl
    exact .quiet rfl rfl rfl rfl hg
  case commit ws =>
    obtain ⟨loaded, hloaded, hne, rfl⟩ := hc
    have hne' : { loaded with status := .processing }.status ≠ loaded.status := hne.symm
    obtain ⟨db', hwrite, hupd, -⟩ := write_updateTask (hloaded ▸ hrow) hne'
    cases a <;> simp only [Store.effect, Database.commit, hwrite, reduceCtorEq, Option.some.injEq,
      Prod.mk.injEq] at he
    obtain ⟨rfl, rfl⟩ := he
    refine ⟨⟨_, rfl⟩, ?_⟩
    rintro g' rfl
    exact .mark rfl hid hupd

lemma answered_running {s s' : Store δ} {p : QueuePayload} {c : Cmd δ} {a : Answer}
    {r : Except String (Reply c)} (hg : (Worker.running p).Ok codec s.db)
    (hc : workerAllowed codec (.running p) c) (he : Store.effect codec c a s = some (r, s')) :
    Answered codec settings s (.running p) c r s' := by
  obtain ⟨row, hrow, hid, hst, -⟩ := hg.getTask rfl
  cases c <;> try exact hc.elim
  case getTask id =>
    obtain rfl : id = p.taskId := hc
    cases a <;> simp only [Store.effect, hrow, reduceCtorEq, Option.some.injEq,
      Prod.mk.injEq] at he
    obtain ⟨rfl, rfl⟩ := he
    refine ⟨⟨row, rfl, hid, hst, trivial⟩, ?_⟩
    rintro g' rfl
    exact .quiet rfl rfl rfl rfl (.of_row rfl hrow hst rfl (fun _ _ _ _ he => by cases he)
      (fun _ _ _ he => by cases he))
  case request req =>
    cases a <;> simp only [Store.effect, reduceCtorEq, Option.some.injEq, Prod.mk.injEq] at he
    obtain ⟨rfl, rfl⟩ := he
    refine ⟨trivial, ?_⟩
    rintro g' rfl
    exact .quiet rfl rfl rfl rfl hg
  all_goals
    cases a <;> simp only [Store.effect, reduceCtorEq, Option.some.injEq, Prod.mk.injEq] at he
    obtain ⟨rfl, rfl⟩ := he
    refine ⟨⟨_, rfl⟩, ?_⟩
    rintro g' rfl
    exact .quiet rfl rfl rfl rfl hg

lemma answered_fetched {s s' : Store δ} {p : QueuePayload} {scan : ScanId} {c : Cmd δ}
    {a : Answer} {r : Except String (Reply c)} (hg : (Worker.fetched p scan).Ok codec s.db)
    (hc : workerAllowed codec (.fetched p scan) c)
    (he : Store.effect codec c a s = some (r, s')) :
    Answered codec settings s (.fetched p scan) c r s' := by
  cases c <;> try exact hc.elim
  rename_i id
  obtain rfl : id = p.taskId := hc
  cases a <;> simp only [Store.effect, reduceCtorEq, Option.some.injEq, Prod.mk.injEq] at he
  obtain ⟨rfl, rfl⟩ := he
  refine ⟨⟨_, rfl⟩, ?_⟩
  rintro g' rfl
  refine .quiet rfl rfl rfl rfl
    ⟨hg.row, ?_, fun _ _ h => (by cases h), fun _ _ _ _ h => (by cases h)⟩
  rintro p' scan' response ⟨⟩
  rfl

lemma answered_saving {s s' : Store δ} {p : QueuePayload} {scan : ScanId}
    {response : Option ScanResponse} {c : Cmd δ} {a : Answer} {r : Except String (Reply c)}
    (hg : (Worker.saving p scan response).Ok codec s.db)
    (hc : workerAllowed codec (.saving p scan response) c)
    (he : Store.effect codec c a s = some (r, s')) :
    Answered codec settings s (.saving p scan response) c r s' := by
  obtain ⟨row, hrow, hid, hst, hscan⟩ := hg.getTask rfl
  obtain rfl : row.scanId = scan := hscan
  cases c <;> try exact hc.elim
  obtain ⟨loaded, o, hloaded, -, hproc, ho, rfl⟩ := hc
  have hne : o.taskStatus ≠ loaded.status := by
    rw [hproc]
    intro he
    rw [he] at ho
    exact absurd ho (by decide)
  obtain ⟨db', hcommit, hupd⟩ := commit_response hloaded hrow hne
  rw [hg.response p _ response rfl] at hcommit
  cases a <;> simp only [Store.effect, hcommit, reduceCtorEq, Option.some.injEq,
    Prod.mk.injEq] at he
  obtain ⟨rfl, rfl⟩ := he
  refine ⟨⟨_, rfl⟩, ?_⟩
  rintro g' ⟨retry, hretry, rfl⟩
  exact .save rfl hid hupd ho hretry

/-- After the save, up to the verdict. -/
lemma answered_evaluating {s s' : Store δ} {p : QueuePayload} {scan : ScanId} {retry : Bool}
    {st : TaskStatus} {eval : Evaluation} (heval : eval ≠ .none) {c : Cmd δ} {a : Answer}
    {r : Except String (Reply c)} (hg : (Worker.saved p scan retry st eval).Ok codec s.db)
    (hscans : (s.db.scans.find? scan).isSome)
    (hc : workerAllowed codec (.saved p scan retry st eval) c)
    (he : Store.effect codec c a s = some (r, s')) :
    Answered codec settings s (.saved p scan retry st eval) c r s' := by
  obtain ⟨row, hrow, hid, hst, hscan⟩ := hg.getTask rfl
  obtain ⟨cur, hcur⟩ := Option.isSome_iff_exists.mp hscans
  cases eval with
  | none => exact absurd rfl heval
  | pending =>
    cases c <;> try exact hc.elim
    case publish e =>
      cases a <;> simp only [Store.effect, reduceCtorEq, Option.some.injEq, Prod.mk.injEq] at he
      obtain ⟨rfl, rfl⟩ := he
      refine ⟨⟨_, rfl⟩, ?_⟩
      rintro g' rfl
      exact .quiet rfl rfl rfl rfl hg
    case getScan id =>
      obtain rfl : id = scan := hc
      cases a <;> simp only [Store.effect, hcur, reduceCtorEq, Option.some.injEq,
        Prod.mk.injEq] at he
      obtain ⟨rfl, rfl⟩ := he
      refine ⟨⟨cur, rfl, (Table.find?_eq_some_iff.mp hcur).2⟩, ?_⟩
      rintro g' rfl
      exact .evaluate rfl rfl (.load hcur)
  | loaded sc =>
    cases c <;> try exact hc.elim
    rename_i id
    obtain rfl : id = scan := hc
    cases a <;> simp only [Store.effect, reduceCtorEq, Option.some.injEq, Prod.mk.injEq] at he
    obtain ⟨rfl, rfl⟩ := he
    refine ⟨⟨_, rfl⟩, ?_⟩
    rintro g' rfl
    have hmem : row.status ∈ s.db.statuses id := mem_statuses.mpr ⟨_, row, hrow, hscan, rfl⟩
    split
    · rename_i hopen
      rw [Bool.or_eq_true, List.isEmpty_iff, List.any_eq_true] at hopen
      rcases hopen with hnil | ⟨x, hx, hopen⟩
      · rw [hnil] at hmem
        cases hmem
      · exact .evaluate rfl rfl (.leave hx (TaskStatus.open_iff.mp hopen))
    · rename_i hopen
      rw [Bool.or_eq_true, List.any_eq_true, not_or] at hopen
      refine .evaluate rfl rfl (.conclude fun x hx => ?_)
      by_contra hx'
      exact hopen.2 ⟨x, hx, TaskStatus.open_iff.mpr hx'⟩
  | verdict sc statuses =>
    have hsc : sc.id = scan := hg.loaded _ _ _ _ rfl rfl
    cases c <;> try exact hc.elim
    obtain rfl := hc
    obtain ⟨db', hwrite, hupd⟩ := write_updateScan (hsc ▸ hcur) (verdict statuses)
    cases a <;> simp only [Store.effect, Database.commit, hwrite, reduceCtorEq,
      Option.some.injEq, Prod.mk.injEq] at he
    obtain ⟨rfl, rfl⟩ := he
    refine ⟨⟨_, rfl⟩, ?_⟩
    rintro g' rfl
    exact .settle rfl hupd

/-- After the evaluation. -/
lemma answered_evaluated {s s' : Store δ} {p : QueuePayload} {scan : ScanId} {retry : Bool}
    {st : TaskStatus} {c : Cmd δ} {a : Answer} {r : Except String (Reply c)}
    (hg : (Worker.saved p scan retry st .none).Ok codec s.db)
    (hc : workerAllowed codec (.saved p scan retry st .none) c)
    (he : Store.effect codec c a s = some (r, s')) :
    Answered codec settings s (.saved p scan retry st .none) c r s' := by
  obtain ⟨row, hrow, hid, hst, hscan⟩ := hg.getTask rfl
  obtain rfl : row.scanId = scan := hscan
  cases c <;> try exact hc.elim
  case getTask id =>
    obtain rfl : id = p.taskId := hc
    cases a <;> simp only [Store.effect, hrow, reduceCtorEq, Option.some.injEq,
      Prod.mk.injEq] at he
    obtain ⟨rfl, rfl⟩ := he
    refine ⟨⟨row, rfl, hid, hst, rfl⟩, ?_⟩
    rintro g' rfl
    exact .quiet rfl rfl rfl rfl hg
  case semaphoreRelease w =>
    obtain rfl : retry = false := hc
    cases a <;> simp only [Store.effect, reduceCtorEq, Option.some.injEq, Prod.mk.injEq] at he
    obtain ⟨rfl, rfl⟩ := he
    refine ⟨⟨_, rfl⟩, ?_⟩
    rintro g' rfl
    exact .finish rfl rfl
  case commit ws =>
    obtain ⟨loaded, hloaded, -, hlst, rfl, rfl⟩ := hc
    cases retry with
    | true =>
      have hne : { loaded with status := .retrying }.status ≠ loaded.status := by
        rw [hlst]
        exact fun h => by cases h
      obtain ⟨db', hwrite, hupd, -⟩ := write_updateTask (hloaded ▸ hrow) hne
      cases a <;> simp only [Store.effect, Database.commit, ↓reduceIte, hwrite, reduceCtorEq,
        Option.some.injEq, Prod.mk.injEq] at he
      obtain ⟨rfl, rfl⟩ := he
      refine ⟨⟨_, rfl⟩, ?_⟩
      rintro g' rfl
      exact .retry rfl hid hupd
    | false =>
      have hwrite : s.db.write (.updateTask loaded { loaded with status := .failed }) = .ok s.db :=
        write_updateTask_same hlst.symm rfl
      cases a <;> simp only [Store.effect, Database.commit, Bool.false_eq_true, ↓reduceIte,
        hwrite, reduceCtorEq, Option.some.injEq, Prod.mk.injEq] at he
      obtain ⟨rfl, rfl⟩ := he
      refine ⟨⟨_, rfl⟩, ?_⟩
      rintro g' rfl
      exact .quiet rfl rfl rfl rfl hg
  all_goals
    cases a <;> simp only [Store.effect, reduceCtorEq, Option.some.injEq, Prod.mk.injEq] at he
    obtain ⟨rfl, rfl⟩ := he
    refine ⟨⟨_, rfl⟩, ?_⟩
    rintro g' rfl
    exact .quiet rfl rfl rfl rfl hg

lemma answered_requeue {s s' : Store δ} {p : QueuePayload} {c : Cmd δ} {a : Answer}
    {r : Except String (Reply c)} (hnew : codec.dump p ∉ s.redis.delayed.members)
    (hg : (Worker.requeue p).Ok codec s.db) (hc : workerAllowed codec (.requeue p) c)
    (he : Store.effect codec c a s = some (r, s')) :
    Answered codec settings s (.requeue p) c r s' := by
  cases c <;> try exact hc.elim
  case zadd data score =>
    obtain rfl : data = codec.dump p := hc
    cases a <;> simp only [Store.effect, reduceCtorEq, Option.some.injEq, Prod.mk.injEq] at he
    obtain ⟨rfl, rfl⟩ := he
    refine ⟨⟨_, rfl⟩, ?_⟩
    rintro g' rfl
    exact .push rfl (codec.validate_dump p) (stored_zadd hnew score)
  all_goals
    cases a <;> simp only [Store.effect, reduceCtorEq, Option.some.injEq, Prod.mk.injEq] at he
    obtain ⟨rfl, rfl⟩ := he
    refine ⟨⟨_, rfl⟩, ?_⟩
    rintro g' rfl
    exact .quiet rfl rfl rfl rfl hg

/-- What a step of a thread can do. -/
theorem WorkersInv.answered {s s' : Store δ} {g : Worker δ} {rest : List (Worker δ)}
    (h : WorkersInv codec s (g :: rest)) {c : Cmd δ} (hc : workerAllowed codec g c)
    (hpush : c.PushesDue s) {a : Answer} {r : Except String (Reply c)}
    (he : Store.effect codec c a s = some (r, s')) : Answered codec settings s g c r s' := by
  have hg := h.places g List.mem_cons_self
  cases g with
  | idle => exact answered_idle h.decodable hc he
  | timed now => exact answered_timed h.decodable hc he
  | due now read => exact answered_due hg hpush hc he
  | popped p => exact answered_popped hc he
  | taken p => exact answered_taken hg hc he
  | running p => exact answered_running hg hc he
  | fetched p scan => exact answered_fetched hg hc he
  | saving p scan response => exact answered_saving hg hc he
  | saved p scan retry st eval =>
    by_cases heval : eval = .none
    · subst heval
      exact answered_evaluated hg hc he
    · obtain ⟨row, hrow, -, -, hscan⟩ := hg.getTask rfl
      obtain rfl : row.scanId = scan := hscan
      exact answered_evaluating heval hg (h.scans _ _ hrow) hc he
  | requeue p =>
    refine answered_requeue (fun hmem => ?_) hg hc he
    have hstored : codec.dump p ∈ s.redis.stored := Redis.mem_stored.mpr (Or.inr hmem)
    exact (h.alone rfl).1 (mem_owners hstored (codec.validate_dump p))

end effects

end SecurityScanner

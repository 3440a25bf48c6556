import SecurityScanner.Executor.AdaptiveRate
import SecurityScanner.Executor.DeadLetters

/-!
# How an outcome is classified

A run of `_process_payload` in which neither the database nor Redis fails: the counter that
it increments and the status code that it stores. The exception that stands for a 429 is told
from the others by its text.
-/

namespace SecurityScanner

open Storage Interleaving

variable {δ : Type} [DecidableEq δ] (codec : Codec δ) (settings : Settings) (env : Surroundings)

section outcome

/-- The outcome after `HttpExecutor.execute`, when `report_429` returns. -/
def Surroundings.outcome : Outcome :=
  match env.http with
  | .error e => ⟨.failed, if textContains "429" e then some 429 else none, none, none, none, some e⟩
  | .ok r =>
    if r.statusCode = 429 then
      ⟨.failed, some 429, none, none, none, some "HTTP 429 Too Many Requests"⟩
    else ⟨.success, some r.statusCode, some r.latencyMs, some r.headers, some r.body, none⟩

/-- The counter that is incremented, if any. -/
def Surroundings.counted : Option RequestLabel :=
  match env.http with
  | .error e => if textContains "429" e then none else some .failure
  | .ok r => some (if r.statusCode = 429 then .tooMany else .success)

/-- The counters with one more request of the label. -/
def counting (label : Option RequestLabel) (requests : RequestLabel → ℕ) : RequestLabel → ℕ :=
  match label with
  | none => requests
  | some label => Function.update requests label (requests label + 1)

def Store.count (s : Store δ) (label : Option RequestLabel) : Store δ :=
  { s with metrics := { s.metrics with requests := counting label s.metrics.requests } }

end outcome

section uncounted

/-- An update of a row of a task or a scan. -/
def Write.isUpdate : Write → Bool
  | .updateTask .. => true
  | .updateScan .. => true
  | _ => false

/-- A call that leaves the counters of requests, the responses and the keys of the tasks as
they are. -/
def Cmd.uncounted : Cmd δ → Bool
  | .incRequests _ => false
  | .commit ws => ws.all Write.isUpdate
  | _ => true

/-- What such calls keep. -/
structure Unmoved (s : Store δ) (s' : Trial δ) : Prop where
  fault : s'.fault = none
  requests : s'.store.metrics.requests = s.metrics.requests
  responses : s'.store.db.responses = s.db.responses
  tasks : ∀ id, s'.store.db.tasks.find? id = none ↔ s.db.tasks.find? id = none

lemma handle_none (c : Cmd δ) (s : Store δ) :
    env.handle codec c ⟨s, none⟩ = ((env.serve codec c s).1, ⟨(env.serve codec c s).2, none⟩) := by
  cases hc : storeCall? c with
  | none => exact handle_of_none hc
  | some call => exact handle_served hc rfl

/-- The commit keeps the responses and the keys of the tasks. -/
def KeepsKeys (db db' : Database) : Prop :=
  db'.responses = db.responses ∧ ∀ id, db'.tasks.find? id = none ↔ db.tasks.find? id = none

lemma keepsKeys_write {db db' : Database} {w : Write} (hw : w.isUpdate = true)
    (h : db.write w = .ok db') : KeepsKeys db db' := by
  cases w with
  | updateScan loaded new =>
    unfold Database.write at h
    dsimp only at h
    split at h
    · cases h
    · cases h
      exact ⟨rfl, fun _ => Iff.rfl⟩
  | updateTask loaded new =>
    unfold Database.write at h
    dsimp only at h
    split at h
    · cases h
      exact ⟨rfl, fun _ => Iff.rfl⟩
    · split at h
      · cases h
      · cases h
        refine ⟨rfl, fun id => ?_⟩
        rw [Table.find?_modify]
        split <;> simp
  | _ => cases hw

lemma keepsKeys_commit {ws : List Write} {db db' : Database} (hws : ws.all Write.isUpdate = true)
    (h : db.commit ws = .ok db') : KeepsKeys db db' := by
  induction ws generalizing db with
  | nil =>
    obtain rfl : db = db' := Except.ok.inj h
    exact ⟨rfl, fun _ => Iff.rfl⟩
  | cons w ws ih =>
    rw [List.all_cons, Bool.and_eq_true] at hws
    rw [Database.commit] at h
    cases hw : db.write w with
    | error e =>
      rw [hw] at h
      cases h
    | ok db₁ =>
      rw [hw] at h
      obtain ⟨hresponses, htasks⟩ := ih hws.2 h
      obtain ⟨hresponses₁, htasks₁⟩ := keepsKeys_write hws.1 hw
      exact ⟨hresponses.trans hresponses₁, fun id => (htasks id).trans (htasks₁ id)⟩

lemma unmoved_handle {c : Cmd δ} (hc : c.uncounted = true) {s : Store δ} {t : Trial δ}
    (h : Unmoved s t) : Unmoved s (env.handle codec c t).2 := by
  obtain ⟨t, fault⟩ := t
  obtain rfl : fault = none := h.fault
  rw [handle_none]
  cases c with
  | commit ws =>
    change Unmoved s ⟨((t.effect codec (.commit ws) .done).getD (.error "no answer", t)).2, none⟩
    unfold Store.effect
    dsimp only
    cases hcommit : t.db.commit ws with
    | error e => exact h
    | ok db =>
      obtain ⟨hresponses, htasks⟩ := keepsKeys_commit hc hcommit
      exact ⟨rfl, h.requests, hresponses.trans h.responses,
        fun id => (htasks id).trans (h.tasks id)⟩
  | incRequests label => cases hc
  | semaphoreAcquire w =>
    change Unmoved s ⟨((t.effect codec (.semaphoreAcquire w) .done).getD
      (.error "no answer", t)).2, none⟩
    unfold Store.effect
    dsimp only
    split <;> exact ⟨rfl, h.requests, h.responses, h.tasks⟩
  | _ => exact ⟨rfl, h.requests, h.responses, h.tasks⟩

/-- A program of such calls. -/
abbrev Uncounted {α : Type} (q : Coroutine δ α) : Prop := q.CallsOnly fun c => c.uncounted = true

lemma unmoved_run {α : Type} {q : Coroutine δ α} (hq : Uncounted q) (s : Store δ) :
    Unmoved s (q.run (env.handle codec) ⟨s, none⟩).2 :=
  hq.run_keeps (fun _ _ hc => unmoved_handle codec env hc) ⟨rfl, rfl, rfl, fun _ => Iff.rfl⟩

omit [DecidableEq δ] in
lemma uncounted_await {c : Cmd δ} (h : c.uncounted = true) : Uncounted (await c) := Prog.callsOnly_perform h

omit [DecidableEq δ] in
lemma uncounted_recording : HoldsOfRecording fun _ (q : Coroutine δ _) => Uncounted q :=
  recording_callsOnly (fun _ => rfl) (fun _ => rfl) (fun _ => rfl) (fun _ => rfl) (fun _ => rfl)
    (fun _ _ => rfl) fun _ _ => rfl

omit [DecidableEq δ] in
lemma uncounted_handleRetry (p : QueuePayload) (e : String) :
    Uncounted (handleRetry codec settings p e) :=
  uncounted_recording.handleRetry settings p e (uncounted_await rfl)
    (fun _ _ => scheduleDelayed_of (Prog.compositional_callsOnly _) (uncounted_await rfl)
      fun _ => uncounted_await rfl)
    fun _ => sendToDlq_of (Prog.compositional_callsOnly _) (uncounted_await rfl)

end uncounted

section saving

/-- A response of the task can be written: its row is there, or it has a response to update. -/
def Storable (db : Database) (task : TaskId) : Prop :=
  db.tasks.find? task ≠ none ∨ db.responses.find? task ≠ none

lemma dirty_loaded {α : Type} [DecidableEq α] (loaded new : α) :
    dirty loaded new loaded = new := by
  by_cases h : new = loaded
  · rw [h, dirty_self]
  · exact dirty_of_ne h loaded

/-- The response row after its write. -/
lemma find?_responseWrite {db db' : Database} {t : TaskId} {o : Outcome}
    (h : db.write (responseWrite t o (db.responses.find? t)) = .ok db') :
    db'.responses.find? t = some (o.response t) := by
  cases hr : db.responses.find? t with
  | none =>
    rw [hr] at h
    unfold responseWrite Database.write at h
    dsimp only at h
    split at h
    · cases h
    · cases hins : db.responses.insert? (o.response t) with
      | none =>
        rw [hins] at h
        cases h
      | some responses =>
        rw [hins] at h
        cases h
        rw [Table.find?_insert? hins]
        exact if_pos rfl
  | some r =>
    obtain rfl : r.taskId = t := (Table.find?_eq_some_iff.mp hr).2
    rw [hr] at h
    unfold responseWrite Database.write at h
    dsimp only at h
    by_cases hsame : o.response r.taskId = r
    · rw [if_pos hsame] at h
      cases h
      rw [hr, hsame]
    · rw [if_neg hsame, hr] at h
      cases h
      rw [Table.find?_modify, if_pos rfl, hr, Option.map_some]
      unfold ScanResponse.flush
      rw [dirty_loaded, dirty_loaded, dirty_loaded, dirty_loaded, dirty_loaded]
      rfl

lemma write_response_of_storable {db : Database} {t : TaskId} (h : Storable db t) (o : Outcome) :
    ∃ db', db.write (responseWrite t o (db.responses.find? t)) = .ok db' := by
  cases htask : db.tasks.find? t with
  | some row =>
    obtain ⟨db', hwrite, -⟩ := write_response htask o
    exact ⟨db', hwrite⟩
  | none =>
    cases hr : db.responses.find? t with
    | none =>
      rcases h with h | h
      · exact absurd htask h
      · exact absurd hr h
    | some r =>
      obtain rfl : r.taskId = t := (Table.find?_eq_some_iff.mp hr).2
      unfold responseWrite Database.write
      dsimp only
      rw [hr]
      split <;> exact ⟨_, rfl⟩

/-- Without the row of the task its foreign key refuses the response. -/
lemma write_response_of_not_storable {db : Database} {t : TaskId} (h : ¬Storable db t)
    (o : Outcome) :
    db.write (responseWrite t o (db.responses.find? t)) = .error "IntegrityError" := by
  unfold Storable at h
  push Not at h
  obtain ⟨htask, hr⟩ := h
  have htask' : db.tasks.find? (o.response t).taskId = none := htask
  rw [hr]
  unfold responseWrite Database.write
  dsimp only
  rw [htask']

/-- The row that the run leaves: the outcome, or none where it cannot be written. -/
structure Saves (task : TaskId) (o : Outcome) (s : Store δ) (t : Trial δ) : Prop where
  fault : t.fault = none
  requests : t.store.metrics.requests = s.metrics.requests
  stored : Storable s.db task → t.store.db.responses.find? task = some (o.response task)
  lost : ¬Storable s.db task → t.store.db.responses.find? task = none

omit [DecidableEq δ] in
/-- Uncounted calls after the save change nothing of it. -/
lemma Saves.unmoved {task : TaskId} {o : Outcome} {s s' : Store δ} {t : Trial δ}
    (h : Saves task o s ⟨s', none⟩) (ht : Unmoved s' t) : Saves task o s t := by
  refine ⟨ht.fault, ht.requests.trans h.requests, fun hs => ?_, fun hs => ?_⟩
  · rw [ht.responses, h.stored hs]
  · rw [ht.responses, h.lost hs]

/-- The commit that `_save_response` makes. -/
def savedWrites (task : TaskId) (o : Outcome) (db : Database) : List Write :=
  (match db.tasks.find? task with
    | some t => [Write.updateTask t { t with status := o.taskStatus, attempts := t.attempts + 1 }]
    | none => []) ++ [responseWrite task o (db.responses.find? task)]

lemma saves_commit (task : TaskId) (o : Outcome) (s : Store δ) :
    Saves task o s (env.handle codec (.commit (savedWrites task o s.db)) ⟨s, none⟩).2 := by
  rw [handle_none]
  change Saves task o s ⟨((s.effect codec (.commit _) .done).getD (.error "no answer", s)).2, none⟩
  unfold Store.effect savedWrites
  dsimp only
  cases htask : s.db.tasks.find? task with
  | none =>
    rw [List.nil_append, Database.commit]
    by_cases hs : Storable s.db task
    · obtain ⟨db', hwrite⟩ := write_response_of_storable hs o
      rw [hwrite]
      exact ⟨rfl, rfl, fun _ => find?_responseWrite hwrite, fun hn => absurd hs hn⟩
    · rw [write_response_of_not_storable hs o]
      refine ⟨rfl, rfl, fun h => absurd h hs, fun _ => ?_⟩
      unfold Storable at hs
      push Not at hs
      exact hs.2
  | some t =>
    obtain rfl : t.id = task := (Table.find?_eq_some_iff.mp htask).2
    have hs : Storable s.db t.id := Or.inl (by rw [htask]; exact Option.some_ne_none t)
    obtain ⟨db₁, hwrite₁, htasks, -, hresponses⟩ := write_updateTask_loaded htask
      { t with status := o.taskStatus, attempts := t.attempts + 1 }
    have hrow := (htasks t.id).trans (if_pos rfl)
    obtain ⟨db₂, hwrite₂, -⟩ := write_response hrow o
    have hfound := find?_responseWrite hwrite₂
    rw [hresponses] at hwrite₂
    rw [List.cons_append, List.nil_append, Database.commit, hwrite₁]
    dsimp only
    rw [Database.commit, hwrite₂]
    exact ⟨rfl, rfl, fun _ => hfound, fun hn => absurd hs hn⟩

omit [DecidableEq δ] in
/-- A handler that does nothing leaves the state of the failure. -/
lemma run_tryCatch_silent {α : Type} (q : Coroutine δ α) (a : α)
    {handle : (c : Cmd δ) → Trial δ → Except String (Reply c) × Trial δ} (s : Trial δ) :
    ((tryCatch q fun _ => pure a).run handle s).2 = (q.run handle s).2 := by
  rw [Prog.run_tryCatch]
  rcases q.run handle s with ⟨e | b, s'⟩ <;> rfl

/-- A call that saves, before calls that count and store nothing. -/
lemma Saves.perform_bind {task : TaskId} {o : Outcome} {s : Store δ} {c : Cmd δ}
    {k : Reply c → Coroutine δ Unit} (h : Saves task o s (env.handle codec c ⟨s, none⟩).2)
    (hk : ∀ a, Uncounted (k a)) :
    Saves task o s ((await c >>= k).run (env.handle codec) ⟨s, none⟩).2 := by
  rw [Prog.run_bind, Prog.run_perform]
  rcases hrun : env.handle codec c ⟨s, none⟩ with ⟨e | a, ⟨s', fault⟩⟩
  · rw [hrun] at h
    exact h
  · rw [hrun] at h
    obtain rfl : fault = none := h.fault
    exact h.unmoved (unmoved_run codec env (hk a) s')

lemma saves_saveResponse (task : TaskId) (o : Outcome) (s : Store δ) :
    Saves task o s ((saveResponse task o : Coroutine δ Unit).run (env.handle codec) ⟨s, none⟩).2 := by
  have hcommit := saves_commit codec env task o s
  have hread : env.serve codec (.getTask task) s = (.ok (s.db.tasks.find? task), s) := rfl
  have hresp : env.serve codec (.selectResponse task) s =
      (.ok (s.db.responses.find? task), s) := rfl
  unfold savedWrites at hcommit
  unfold saveResponse
  rw [run_tryCatch_silent, Prog.run_bind, Prog.run_perform, handle_none, hread]
  dsimp only
  rw [Prog.run_bind, Prog.run_perform, handle_none, hresp]
  cases htask : s.db.tasks.find? task with
  | none =>
    rw [htask] at hcommit
    exact Saves.perform_bind codec env hcommit fun _ => trivial
  | some t =>
    rw [htask] at hcommit
    exact Saves.perform_bind codec env hcommit fun _ =>
      (uncounted_recording.publishEvent _).bind fun _ =>
        uncounted_recording.evaluateScanCompletion _

end saving

section classification

/-- The run of the request when `report_429` returns. -/
lemma executeRequest_classifies (hreport : env.report = .ok ()) (p : QueuePayload) (s : Store δ) :
    (executeRequest p : Coroutine δ Outcome).run (env.handle codec) ⟨s, none⟩ =
      (.ok env.outcome, ⟨s.count env.counted, none⟩) := by
  have hrequest : ∀ r, env.handle codec (.request r) ⟨s, none⟩ = (env.http, ⟨s, none⟩) :=
    fun r => handle_none codec env _ s
  have hfailed : ∀ (e : String) (s : Store δ),
      (requestFailed e : Coroutine δ Outcome).run (env.handle codec) ⟨s, none⟩ =
        (.ok ⟨.failed, if textContains "429" e then some 429 else none, none, none, none, some e⟩,
          ⟨s.count (if textContains "429" e then none else some .failure), none⟩) := by
    intro e s
    rw [requestFailed_eq]
    cases textContains "429" e with
    | true => rfl
    | false =>
      rw [if_neg (by decide), Prog.run_bind, Prog.run_perform, handle_none]
      rfl
  unfold executeRequest
  rw [Prog.run_tryCatch, Prog.run_bind]
  unfold HttpExecutor.execute
  rw [Prog.run_perform, hrequest]
  unfold Surroundings.outcome Surroundings.counted
  cases hhttp : env.http with
  | error e => exact hfailed e s
  | ok r =>
    dsimp only
    by_cases h429 : r.statusCode = 429
    · have hcount : env.handle codec (.incRequests .tooMany) ⟨s, none⟩ =
          (.ok (), ⟨s.count (some .tooMany), none⟩) :=
        handle_none codec env _ s
      have hreported : ∀ s : Store δ, env.handle codec (.report429 p.url) ⟨s, none⟩ =
          (.ok (), ⟨s, none⟩) := by
        intro s
        rw [handle_none]
        exact congrArg (·, _) hreport
      rw [if_pos h429, if_pos h429, if_pos h429, Prog.run_bind, Prog.run_perform, hcount]
      dsimp only
      rw [Prog.run_bind, Prog.run_perform, hreported]
      exact hfailed _ _
    · rw [if_neg h429, if_neg h429, if_neg h429, Prog.run_bind, Prog.run_perform, handle_none]
      rfl

omit [DecidableEq δ] in
lemma Saves.of_unmoved {task : TaskId} {o : Outcome} {s s₁ : Store δ} {t : Trial δ}
    {label : Option RequestLabel} (hs : Unmoved s ⟨s₁, none⟩)
    (h : Saves task o (s₁.count label) t) : Saves task o (s.count label) t := by
  have hstorable : Storable s₁.db task ↔ Storable s.db task :=
    or_congr (not_congr (hs.tasks task)) (by rw [hs.responses])
  refine ⟨h.fault, h.requests.trans ?_, fun h' => h.stored (hstorable.mpr h'),
    fun h' => h.lost (mt hstorable.mp h')⟩
  exact congrArg (counting label) hs.requests

variable {env}

/-- A payload that the limiter lets pass gets one outcome, which is counted and saved. -/
lemma processPayload_classifies (hgranted : env.granted = true) (hreport : env.report = .ok ())
    (w : WorkerId) (p : QueuePayload) (s : Store δ) :
    Saves p.taskId env.outcome (s.count env.counted)
      ((processPayload codec settings w p).run (env.handle codec) ⟨s, none⟩).2 := by
  obtain ⟨⟨⟩, ⟨s₁, f₁⟩, hmark⟩ :=
    (@leaving_updateTaskStatus δ _ codec env p.taskId .processing ⟨s, none⟩).returns
  have hmoved := unmoved_run codec env (uncounted_recording.updateTaskStatus p.taskId .processing) s
  rw [hmark] at hmoved
  obtain rfl : f₁ = none := hmoved.fault
  have hacquire : env.handle codec (.acquire p.url p.scanId) ⟨s₁, none⟩ = (.ok true, ⟨s₁, none⟩) := by
    rw [← granted_limiter hgranted]
    exact handle_none codec env _ s₁
  obtain ⟨⟨⟩, ⟨s₂, f₂⟩, hsave⟩ := (@leaving_saveResponse δ _ codec env p.taskId env.outcome
    ⟨s₁.count env.counted, none⟩).returns
  have hsaves := saves_saveResponse codec env p.taskId env.outcome (s₁.count env.counted)
  rw [hsave] at hsaves
  obtain rfl : f₂ = none := hsaves.fault
  have hattempt : (attemptPayload codec settings p).run (env.handle codec) ⟨s, none⟩ =
      (if env.outcome.taskStatus = .failed then
        handleRetry codec settings p (env.outcome.errorMessage.getD "")
      else pure () : Coroutine δ Unit).run (env.handle codec) ⟨s₂, none⟩ := by
    unfold attemptPayload markTaskProcessing
    rw [Prog.run_bind, hmark]
    dsimp only
    rw [Prog.run_bind, Prog.run_perform, hacquire]
    dsimp only
    rw [if_pos rfl, Prog.run_bind, executeRequest_classifies codec env hreport]
    dsimp only
    rw [Prog.run_bind, hsave]
  have hretry : ∃ s₃, (attemptPayload codec settings p).run (env.handle codec) ⟨s, none⟩ =
      (.ok (), s₃) ∧ Unmoved s₂ s₃ := by
    rw [hattempt]
    by_cases hfailed : env.outcome.taskStatus = .failed
    · rw [if_pos hfailed]
      obtain ⟨⟨⟩, s₃, hrun⟩ := (@leaving_handleRetry δ _ codec settings env p
        (env.outcome.errorMessage.getD "") ⟨s₂, none⟩).returns
      have hquiet := unmoved_run codec env
        (uncounted_handleRetry codec settings p (env.outcome.errorMessage.getD "")) s₂
      rw [hrun] at hquiet
      exact ⟨s₃, hrun, hquiet⟩
    · rw [if_neg hfailed]
      exact ⟨_, rfl, rfl, rfl, rfl, fun _ => Iff.rfl⟩
  obtain ⟨⟨s₃, f₃⟩, hrun, hquiet⟩ := hretry
  obtain rfl : f₃ = none := hquiet.fault
  unfold processPayload
  rw [Prog.run_bind, Prog.run_tryCatch, hrun]
  dsimp only
  apply Saves.of_unmoved hmoved
  exact (hsaves.unmoved hquiet).unmoved (unmoved_run codec env (uncounted_await rfl) s₃)

end classification

section classes

/-- The limiter lets the payload pass, and the report of a 429 is that of the same limiter. -/
structure PassesLimiter (checkNetloc : String → Except Url.ValueError Unit) (env : Surroundings)
    (p : QueuePayload) : Prop where
  granted : env.granted = true
  acquired : ∃ w config scanId tokens timeout fuel s,
    (RateLimiter.acquire checkNetloc w config p.url scanId tokens timeout fuel s).1 = .ok (some true)
  reported : ∃ s m, env.report =
    (RateLimiter.report429 checkNetloc s p.url m).1.mapError Url.ValueError.message

/-- The server answered 429. -/
def Surroundings.Answered429 (env : Surroundings) : Prop :=
  ∃ r, env.http = .ok r ∧ r.statusCode = 429

/-- The call raised. -/
def Surroundings.Raised (env : Surroundings) : Prop := ∃ e, env.http = .error e

/-- The response row of the task has the status code. -/
def StoredCode (db : Database) (task : TaskId) (code : Option Int) : Prop :=
  ∃ r, db.responses.find? task = some r ∧ r.statusCode = code

/-- One counter is incremented, and the stored status code says what came of the request. -/
structure Classifies (env : Surroundings) (task : TaskId) (s s' : Store δ) : Prop where
  counted : ∃ label, s'.metrics.requests =
    Function.update s.metrics.requests label (s.metrics.requests label + 1)
  stored429 : StoredCode s'.db task (some 429) ↔ env.Answered429
  storedNull : StoredCode s'.db task none ↔ env.Raised

variable {env}

lemma PassesLimiter.report {checkNetloc : String → Except Url.ValueError Unit} {p : QueuePayload}
    (h : PassesLimiter checkNetloc env p) : env.report = .ok () := by
  obtain ⟨w, config, scanId, tokens, timeout, fuel, s, hacquire⟩ := h.acquired
  obtain ⟨s', m, hreport⟩ := h.reported
  rw [hreport, RateLimiter.report429_returns hacquire s' m]
  rfl

omit [DecidableEq δ] in
lemma storedCode_iff {task : TaskId} {o : Outcome} {s : Store δ} {t : Trial δ}
    (h : Saves task o s t) (code : Option Int) :
    StoredCode t.store.db task code ↔ Storable s.db task ∧ o.statusCode = code := by
  unfold StoredCode
  by_cases hs : Storable s.db task
  · rw [h.stored hs]
    constructor
    · rintro ⟨r, hr, hcode⟩
      obtain rfl : o.response task = r := Option.some.inj hr
      exact ⟨hs, hcode⟩
    · rintro ⟨-, hcode⟩
      exact ⟨_, rfl, hcode⟩
  · rw [h.lost hs]
    constructor
    · rintro ⟨r, hr, -⟩
      cases hr
    · rintro ⟨hs', -⟩
      exact absurd hs' hs

lemma update_ne_self (f : RequestLabel → ℕ) (label : RequestLabel) :
    Function.update f label (f label + 1) ≠ f := by
  intro h
  have hlabel := congrFun h label
  rw [Function.update_self] at hlabel
  omega

omit [DecidableEq δ] in
/-- The final store, in terms of the outcome. -/
lemma classifies_iff {task : TaskId} {s : Store δ} {t : Trial δ}
    (h : Saves task env.outcome (s.count env.counted) t) :
    Classifies env task s t.store ↔ env.counted ≠ none ∧
      (Storable s.db task ∧ env.outcome.statusCode = some 429 ↔ env.Answered429) ∧
      (Storable s.db task ∧ env.outcome.statusCode = none ↔ env.Raised) := by
  have hrequests : t.store.metrics.requests = counting env.counted s.metrics.requests := h.requests
  have hcode : ∀ code, StoredCode t.store.db task code ↔
      Storable s.db task ∧ env.outcome.statusCode = code :=
    fun code => storedCode_iff (s := s.count env.counted) h code
  constructor
  · rintro ⟨⟨label, hlabel⟩, h429, hnull⟩
    refine ⟨?_, (hcode _).symm.trans h429, (hcode _).symm.trans hnull⟩
    intro hnone
    rw [hnone] at hrequests
    exact update_ne_self _ label (hlabel.symm.trans hrequests)
  · rintro ⟨hcounted, h429, hnull⟩
    refine ⟨?_, (hcode _).trans h429, (hcode _).trans hnull⟩
    obtain ⟨label, hlabel⟩ := Option.ne_none_iff_exists'.mp hcounted
    rw [hlabel] at hrequests
    exact ⟨label, hrequests⟩

/-- A payload that passes the limiter is classified by what became of its request exactly if
the request did not raise an exception with `429` in its text, and a response can be stored
where it is needed. -/
theorem process_payload_classifies_iff (codec : Codec δ) (settings : Settings)
    {checkNetloc : String → Except Url.ValueError Unit} {p : QueuePayload}
    (hpass : PassesLimiter checkNetloc env p) (w : WorkerId) (s : Store δ) :
    Classifies env p.taskId s
        ((processPayload codec settings w p).run (env.handle codec) ⟨s, none⟩).2.store ↔
      (∀ e, env.http = .error e → textContains "429" e = false) ∧
        (Storable s.db p.taskId ∨ ∃ r, env.http = .ok r ∧ r.statusCode ≠ 429) := by
  rw [classifies_iff (processPayload_classifies codec settings hpass.granted hpass.report w p s)]
  unfold Surroundings.counted Surroundings.outcome Surroundings.Answered429 Surroundings.Raised
  cases hhttp : env.http with
  | error e =>
    cases h429 : textContains "429" e with
    | true => simp [h429]
    | false => simp [h429]
  | ok r =>
    by_cases h429 : r.statusCode = 429
    · simp [h429]
    · simp [h429]

/-- A limiter in the process lets a first request pass. -/
lemma passesLimiter_first (http : Except String HttpResponse) :
    PassesLimiter (fun _ => .ok ()) ⟨.ok true, .ok (), http, 0⟩ (retryPayload 0) := by
  have hacquire : (RateLimiter.acquire (fun _ => .ok ()) RateLimiter.localSurroundings {}
      (retryPayload 0).url "0" 1 1 3 {}).1 = .ok (some true) := by
    decide +kernel
  refine ⟨rfl, ⟨_, _, _, _, _, _, _, hacquire⟩, {}, { now := 0 }, ?_⟩
  rw [RateLimiter.report429_returns hacquire]
  rfl

/-- The server answers 429. -/
theorem process_payload_classifies_429 :
    Classifies ⟨.ok true, .ok (), .ok ⟨429, 12, [], "slow down"⟩, 0⟩ 0 poppedTask
      ((processPayload Codec.payloads {} 0 (retryPayload 0)).run
        (Surroundings.handle Codec.payloads ⟨.ok true, .ok (), .ok ⟨429, 12, [], "slow down"⟩, 0⟩)
        ⟨poppedTask, none⟩).2.store :=
  (process_payload_classifies_iff Codec.payloads {} (passesLimiter_first _) 0 poppedTask).mpr
    ⟨nofun, Or.inl (Or.inl (by decide +kernel))⟩

/-- A connection to the port 4290 fails. -/
def refusedConnection : Surroundings where
  limiter := .ok true
  report := .ok ()
  http := .error "Connect call failed ('10.0.0.5', 4290)"
  clock := 0

/-- Nothing is counted, and 429 is stored. -/
theorem process_payload_misclassifies :
    ¬Classifies refusedConnection 0 poppedTask
      ((processPayload Codec.payloads {} 0 (retryPayload 0)).run
        (refusedConnection.handle Codec.payloads) ⟨poppedTask, none⟩).2.store := by
  have hgranted : refusedConnection.granted = true := rfl
  have hsaves :=
    processPayload_classifies Codec.payloads {} hgranted rfl 0 (retryPayload 0) poppedTask
  intro h
  have hcounted := ((classifies_iff hsaves).mp h).1
  revert hcounted
  decide +kernel

end classes

end SecurityScanner

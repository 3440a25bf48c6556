import SecurityScanner.Executor.CoroutineRules
import SecurityScanner.Executor.WorkerRuns

/-!
# A completed scan stays completed

A scan is settled when its tasks have final statuses and no thread is going to retry one of
them. A settled scan stays settled; a verdict is sound when the scan is settled at the read
it comes from.
-/

namespace SecurityScanner

open Storage Interleaving

variable {δ : Type} (codec : Codec δ)

/-- The thread has saved a failure of a task of `scan` and is going to retry it. -/
def Worker.Retries (g : Worker δ) (scan : ScanId) : Prop :=
  ∃ eval, g.evaluation? = some (scan, true, eval)

/-- The thread has a verdict on `scan` to commit. -/
def Worker.Holds (g : Worker δ) (scan : ScanId) : Prop :=
  ∃ retry sc statuses, g.evaluation? = some (scan, retry, .verdict sc statuses)

def Settled (s : Store δ) (gs : List (Worker δ)) (scan : ScanId) : Prop :=
  (∀ st ∈ s.db.statuses scan, st.Terminal) ∧ ∀ g ∈ gs, ¬g.Retries scan

/-- The scan has a verdict, or is about to get one. -/
def Concluded (s : Store δ) (gs : List (Worker δ)) (scan : ScanId) : Prop :=
  (∃ sc, s.db.scans.find? scan = some sc ∧ (sc.status = .completed ∨ sc.status = .failed)) ∨
    ∃ g ∈ gs, g.Holds scan

variable {codec}

section transitions

/-- The statuses of a scan change with an open task, or with one that is retried. -/
lemma Transition.statuses {s s' : Store δ} {g : Worker δ} {rest new : List (Worker δ)}
    (hinv : WorkersInv codec s (g :: rest)) (ht : Transition codec s g s' new) :
    (∀ scan, s'.db.statuses scan = s.db.statuses scan) ∨
      ∃ row st, TaskUpdate s.db s'.db row st ∧ (¬row.status.Terminal ∨
        (row.status = .failed ∧ g.Retries row.scanId ∧ ∃ p, new = [.requeue p])) := by
  have hg := hinv.places g List.mem_cons_self
  have hfound : ∀ {row : Task} {st : TaskStatus} {t : TaskId}, g.task? = some t → row.id = t →
      TaskUpdate s.db s'.db row st → g.StatusOk row.status := by
    rintro row st t htask rfl hupd
    obtain ⟨row', hrow', -, hst, -⟩ := hg.getTask htask
    rw [hupd.found, Option.some.injEq] at hrow'
    exact hrow' ▸ hst
  cases ht with
  | mark hstored hid hupd =>
    refine Or.inr ⟨_, _, hupd, Or.inl ?_⟩
    rcases hfound rfl hid hupd with hst | hst <;> rw [hst] <;> decide
  | save hstored hid hupd =>
    refine Or.inr ⟨_, _, hupd, Or.inl ?_⟩
    rw [show _ = _ from hfound rfl hid hupd]
    decide
  | retry hstored hid hupd =>
    obtain ⟨hst, -, hfailed⟩ := hfound rfl hid hupd
    exact Or.inr ⟨_, _, hupd, Or.inr ⟨hst.trans (hfailed rfl), ⟨.none, rfl⟩, _, rfl⟩⟩
  | settle hstored hupd =>
    refine Or.inl fun scan => ?_
    rw [Database.statuses, Database.statuses, hupd.tasks]
  | quiet hdb | pop hdb | move hdb | dispatch hdb | evaluate hdb | push hdb | finish hdb =>
    exact Or.inl fun scan => by rw [hdb]

/-- How a thread comes to be where it is in an evaluation. -/
lemma Transition.evaluation {s s' : Store δ} {g : Worker δ} {rest new : List (Worker δ)}
    (hinv : WorkersInv codec s (g :: rest)) (ht : Transition codec s g s' new) {x : Worker δ}
    (hx : x ∈ new) {scan : ScanId} {retry : Bool} {eval : Evaluation}
    (he : x.evaluation? = some (scan, retry, eval)) :
    g.evaluation? = some (scan, retry, eval) ∨
      (eval = .pending ∧ ∃ st ∈ s.db.statuses scan, ¬st.Terminal) ∨
      (∃ eval₀, g.evaluation? = some (scan, retry, eval₀) ∧ eval₀.Step s.db scan eval ∧
        s'.db = s.db) ∨
      (eval = .none ∧ ∃ sc statuses, g.evaluation? = some (scan, retry, .verdict sc statuses)) := by
  have hg := hinv.places g List.mem_cons_self
  cases ht with
  | quiet hdb hstored htask heval hok =>
    rw [List.mem_singleton.mp hx, heval] at he
    exact Or.inl he
  | save hstored hid hupd =>
    rw [List.mem_singleton.mp hx] at he
    cases he
    obtain ⟨row', hrow', -, hst, -⟩ := hg.getTask rfl
    rw [← hid, hupd.found, Option.some.injEq] at hrow'
    refine Or.inr (Or.inl ⟨rfl, .processing, mem_statuses.mpr ⟨_, _, hupd.found, rfl, ?_⟩, by decide⟩)
    exact hrow' ▸ hst
  | evaluate hdb hstored heval =>
    rw [List.mem_singleton.mp hx] at he
    cases he
    exact Or.inr (Or.inr (Or.inl ⟨_, rfl, heval, hdb⟩))
  | settle hstored hupd =>
    rw [List.mem_singleton.mp hx] at he
    cases he
    exact Or.inr (Or.inr (Or.inr ⟨rfl, _, _, rfl⟩))
  | dispatch =>
    rcases List.mem_pair.mp hx with rfl | rfl <;> cases he
  | pop | move | mark | retry | push | finish =>
    rw [List.mem_singleton.mp hx] at he
    cases he

/-- A scan changes with the commit of a verdict. -/
lemma Transition.scans {s s' : Store δ} {g : Worker δ} {new : List (Worker δ)}
    (ht : Transition codec s g s' new) :
    s'.db.scans = s.db.scans ∨ ∃ scan retry sc statuses,
      g.evaluation? = some (scan, retry, .verdict sc statuses) ∧
        ScanUpdate s.db s'.db sc (verdict statuses) := by
  cases ht with
  | settle hstored hupd => exact Or.inr ⟨_, _, _, _, rfl, hupd⟩
  | mark hstored hid hupd | save hstored hid hupd | retry hstored hid hupd =>
    exact Or.inl hupd.scans
  | quiet hdb | pop hdb | move hdb | dispatch hdb | evaluate hdb | push hdb | finish hdb =>
    exact Or.inl (by rw [hdb])

end transitions

/-- A settled scan stays settled. -/
lemma Settled.step {s s' : Store δ} {g : Worker δ} {rest new : List (Worker δ)} {scan : ScanId}
    (hinv : WorkersInv codec s (g :: rest)) (ht : Transition codec s g s' new)
    (h : Settled s (g :: rest) scan) : Settled s' (new ++ rest) scan := by
  have hself := h.2 g List.mem_cons_self
  constructor
  · rcases ht.statuses hinv with hsame | ⟨row, st, hupd, hrow⟩
    · exact hsame scan ▸ h.1
    · have hne : scan ≠ row.scanId := by
        rintro rfl
        rcases hrow with hopen | ⟨-, hretry, -⟩
        · exact hopen (h.1 _ (mem_statuses.mpr ⟨_, row, hupd.found, rfl, rfl⟩))
        · exact hself hretry
      exact hupd.statuses scan hne ▸ h.1
  · intro x hx hretry
    rcases List.mem_append.mp hx with hx | hx
    · obtain ⟨eval, he⟩ := hretry
      rcases ht.evaluation hinv hx he with hsame | ⟨-, st, hst, hopen⟩ | ⟨e, hsame, -⟩ |
        ⟨-, sc, statuses, hsame⟩
      · exact hself ⟨_, hsame⟩
      · exact hopen (h.1 st hst)
      · exact hself ⟨_, hsame⟩
      · exact hself ⟨_, hsame⟩
    · exact h.2 x (List.mem_cons_of_mem _ hx) hretry

/-- A scan gets a verdict from a read that finds its tasks in final statuses. -/
lemma Concluded.step {s s' : Store δ} {g : Worker δ} {rest new : List (Worker δ)} {scan : ScanId}
    (hinv : WorkersInv codec s (g :: rest)) (ht : Transition codec s g s' new)
    (h : Concluded s' (new ++ rest) scan) :
    Concluded s (g :: rest) scan ∨ (∀ st ∈ s.db.statuses scan, st.Terminal) ∧
      ∃ sc retry, g.evaluation? = some (scan, retry, .loaded sc) := by
  have hg := hinv.places g List.mem_cons_self
  rcases h with ⟨sc, hsc, hst⟩ | ⟨x, hx, retry, sc, statuses, he⟩
  · refine Or.inl ?_
    rcases ht.scans with hsame | ⟨scan', retry, sc', statuses, hev, hupd⟩
    · exact Or.inl ⟨sc, hsame ▸ hsc, hst⟩
    · have hid := hg.loaded _ _ _ _ hev rfl
      by_cases heq : scan = scan'
      · exact Or.inr ⟨g, List.mem_cons_self, retry, sc', statuses, heq ▸ hev⟩
      · rw [hupd.scans scan (hid ▸ heq)] at hsc
        exact Or.inl ⟨sc, hsc, hst⟩
  · rcases List.mem_append.mp hx with hx | hx
    · rcases ht.evaluation hinv hx he with hsame | ⟨hp, -⟩ | ⟨e, hev, hstep, -⟩ | ⟨hn, -⟩
      · exact Or.inl (Or.inr ⟨g, List.mem_cons_self, retry, sc, statuses, hsame⟩)
      · cases hp
      · cases hstep with
        | conclude hall => exact Or.inr ⟨hall, sc, retry, hev⟩
      · cases hn
    · exact Or.inl (Or.inr ⟨x, List.mem_cons_of_mem _ hx, retry, sc, statuses, he⟩)

section retries

variable (codec) in
/-- The call puts a payload of a task of `scan` into the delayed set. -/
def SchedulesRetry (db : Database) (scan : ScanId) (c : Cmd δ) : Prop :=
  ∃ p score, c = .zadd (codec.dump p) score ∧
    ∃ row, db.tasks.find? p.taskId = some row ∧ row.scanId = scan

/-- The places from the save of a failure to the retry of the task `t`. -/
def Worker.RetryAhead (t : TaskId) : Worker δ → Prop
  | .saved p _ retry status _ => p.taskId = t ∧ retry = true ∧ status = .failed
  | .requeue p => p.taskId = t
  | _ => False

lemma retryAhead_next {t : TaskId} {g g' : Worker δ} {c : Cmd δ} {r : Except String (Reply c)}
    (hg : g.RetryAhead t) (hc : workerAllowed codec g c) (hn : workerNext codec g c r g') :
    g'.RetryAhead t ∨ ∃ p score, c = .zadd (codec.dump p) score ∧ p.taskId = t := by
  cases g <;> try exact hg.elim
  case saved p scan retry status eval =>
    obtain ⟨rfl, rfl, rfl⟩ := hg
    refine Or.inl ?_
    cases eval <;> cases c <;> first | exact hc.elim | skip
    case pending.getScan =>
      rcases r with e | none | sc
      · exact hn ▸ ⟨rfl, rfl, rfl⟩
      · exact hn ▸ ⟨rfl, rfl, rfl⟩
      · exact hn ▸ ⟨rfl, rfl, rfl⟩
    case loaded.selectStatuses =>
      cases r <;> exact hn ▸ ⟨rfl, rfl, rfl⟩
    case none.semaphoreRelease => cases hc
    case none.commit => exact hn ▸ rfl
    all_goals exact hn ▸ ⟨rfl, rfl, rfl⟩
  case requeue p =>
    obtain rfl : p.taskId = t := hg
    cases c <;> try exact hc.elim
    case zadd data score =>
      obtain rfl : data = codec.dump p := hc
      exact Or.inr ⟨p, score, rfl, rfl⟩
    all_goals exact Or.inl (hn ▸ rfl)

lemma retryAhead_reply {t : TaskId} {g : Worker δ} {c : Cmd δ} (hg : g.RetryAhead t)
    (hc : workerAllowed codec g c) : ∃ r, workerReply codec g c r := by
  cases g <;> try exact hg.elim
  case saved p scan retry status eval =>
    obtain ⟨rfl, rfl, rfl⟩ := hg
    have hterm : TaskStatus.failed.Terminal := Or.inr rfl
    cases eval <;> cases c <;> first | exact hc.elim | skip
    case pending.getScan id => exact ⟨.ok (some { id, name := "", target := "" }), _, rfl, rfl⟩
    case loaded.selectStatuses => exact ⟨.ok [], _, rfl⟩
    case none.getTask id =>
      refine ⟨.ok (some { id, scanId := scan, method := "", url := "", status := .failed }),
        _, rfl, rfl, ⟨rfl, hterm, fun _ => rfl⟩, rfl⟩
    all_goals exact ⟨.ok (), _, rfl⟩
  case requeue p =>
    cases c <;> try exact hc.elim
    case time => exact ⟨.ok 0, _, rfl⟩
    all_goals exact ⟨.ok (), _, rfl⟩

/-- A thread that is going to retry a task still has the call ahead of it. -/
lemma Worker.Retries.mayCall {db : Database} {g : Worker δ} {scan : ScanId}
    (h : g.Retries scan) (hg : g.Ok codec db) {q : Coroutine δ Unit}
    (hq : Follows (workerProtocol codec) g q (fun _ g' => g' = .idle)) :
    q.MayCall (SchedulesRetry codec db scan) := by
  obtain ⟨eval, he⟩ := h
  cases g <;> cases he
  rename_i p status
  obtain ⟨row, hrow, -, hst, hscan⟩ := hg.getTask rfl
  refine hq.mayCall (S := Worker.RetryAhead p.taskId) ?_ ?_ ?_ ⟨rfl, rfl, hst.2.2 rfl⟩
  · intro g c r g' hS hc hn hleft
    rcases retryAhead_next hS hc hn with hS' | ⟨p', score, rfl, hp'⟩
    · exact absurd hS' hleft
    · exact ⟨p', score, rfl, row, hp' ▸ hrow, hscan⟩
  · intro g c hS hc
    exact retryAhead_reply hS hc
  · rintro r g' rfl hS
    exact hS

end retries

section safety

/-- A read that finds every task of a scan in a final status comes when no thread has a
retry of one of them ahead. -/
def NoRetryAhead (codec : Codec δ) (p : Workers δ) (act : Act Answer) : Prop :=
  ∀ scan, p.call? act = some (.selectStatuses scan) →
    (∀ st ∈ p.store.db.statuses scan, st.Terminal) →
    ∀ t ∈ p.threads, ¬t.body.MayCall (SchedulesRetry codec p.store.db scan)

/-- Nothing is left to do for a scan with a verdict. -/
structure CompletionSafe (codec : Codec δ) (s : Store δ) : Prop where
  final : ∀ sc ∈ s.db.scans.rows, sc.status = .completed ∨ sc.status = .failed →
    ∀ row ∈ s.db.tasks.rows, row.scanId = sc.id →
      row.status ≠ .queued ∧ row.status ≠ .processing ∧ row.status ≠ .retrying
  dequeued : ∀ sc ∈ s.db.scans.rows, sc.status = .completed ∨ sc.status = .failed →
    ∀ d p, (∃ q, d ∈ s.redis.lists q) ∨ d ∈ s.redis.delayed.members →
      codec.validate d = some p → ∀ row ∈ s.db.tasks.rows, row.id = p.taskId → row.scanId ≠ sc.id

lemma WorkersInv.completionSafe {s : Store δ} {gs : List (Worker δ)}
    (h : WorkersInv codec s gs) (hset : ∀ scan, Concluded s gs scan → Settled s gs scan) :
    CompletionSafe codec s := by
  have hterm : ∀ sc ∈ s.db.scans.rows, sc.status = .completed ∨ sc.status = .failed →
      ∀ t row, s.db.tasks.find? t = some row → row.scanId = sc.id → row.status.Terminal := by
    intro sc hsc hst t row hrow hscan
    have hfind := Table.find?_key_of_mem hsc
    exact (hset sc.id (Or.inl ⟨sc, hfind, hst⟩)).1 _ (mem_statuses.mpr ⟨t, row, hrow, hscan, rfl⟩)
  constructor
  · intro sc hsc hst row hrow hscan
    have ht := hterm sc hsc hst row.id row (Table.find?_key_of_mem hrow) hscan
    refine ⟨?_, ?_, ?_⟩ <;> intro he <;> rw [he] at ht <;> exact absurd ht (by decide)
  · intro sc hsc hst d p hd hp row hrow hid hscan
    obtain ⟨row', hrow', hwait⟩ := h.waiting p.taskId (mem_owners (Redis.mem_stored.mpr hd) hp)
    have hfind := (Table.find?_eq_some_iff (T := s.db.tasks)).mpr ⟨hrow, hid⟩
    rw [hfind, Option.some.injEq] at hrow'
    subst hrow'
    have ht := hterm sc hsc hst p.taskId row hfind hscan
    rcases hwait with hw | hw <;> rw [hw] at ht <;> exact absurd ht (by decide)

lemma Settled.perm {s : Store δ} {gs gs' : List (Worker δ)} (hp : gs.Perm gs') {scan : ScanId}
    (h : Settled s gs scan) : Settled s gs' scan :=
  ⟨h.1, fun g hg => h.2 g (hp.mem_iff.mpr hg)⟩

lemma Concluded.perm {s : Store δ} {gs gs' : List (Worker δ)} (hp : gs.Perm gs') {scan : ScanId}
    (h : Concluded s gs scan) : Concluded s gs' scan :=
  h.imp_right fun ⟨g, hg, hholds⟩ => ⟨g, hp.mem_iff.mp hg, hholds⟩

lemma selectStatuses_of_loaded {g : Worker δ} {c : Cmd δ} {scan : ScanId} {retry : Bool}
    {sc : Scan} (hg : g.evaluation? = some (scan, retry, .loaded sc))
    (hc : workerAllowed codec g c) : c = .selectStatuses scan := by
  cases g <;> cases hg
  cases c <;> first | exact hc.elim | exact congrArg _ hc

variable [DecidableEq δ]

/-- A scan with a verdict is settled in every state of a run whose steps meet the
conditions. -/
theorem scan_completion_safe (settings : Settings) {p : Workers δ}
    (h : Reachable (workerSystem codec settings)
      (fun p act => NoRetryAhead codec p act ∧ PushesDue p act) (Started codec) p) :
    CompletionSafe codec p.store := by
  have hinit : ∀ p : Workers δ, Started codec p → ∀ scan,
      Concluded p.store (List.replicate p.threads.length .idle) scan →
        Settled p.store (List.replicate p.threads.length .idle) scan := by
    rintro p hp scan (⟨sc, hsc, hst⟩ | ⟨g, hg, retry, sc, statuses, he⟩)
    · have hrun := hp.running sc (Table.find?_eq_some_iff.mp hsc).1
      exact absurd hst (not_or.mpr hrun)
    · rw [List.eq_of_mem_replicate hg] at he
      cases he
  have hrun := workers_run (X := fun s gs => ∀ scan, Concluded s gs scan → Settled s gs scan)
    (fun p act hok => hok.2)
    (fun s gs gs' hp hset scan hc => (hset scan (hc.perm hp.symm)).perm hp) hinit ?_ h
  · obtain ⟨gs, -, hinv, hset⟩ := hrun
    exact hinv.completionSafe hset
  · intro p act g rest c r g' s' new hthreads hinv hset hok hcall hc hn ht scan hconc
    refine Settled.step hinv ht ?_
    rcases hconc.step hinv ht with hold | ⟨hterm, sc, retry, hg⟩
    · exact hset scan hold
    · refine ⟨hterm, fun y hy hretry => ?_⟩
      obtain ⟨t, htmem, htyped⟩ := hthreads y hy
      have hsel : c = .selectStatuses scan := selectStatuses_of_loaded hg hc
      exact hok.1 scan (hsel ▸ hcall) hterm t htmem (hretry.mayCall (hinv.places y hy) htyped.1)

end safety

section conditions

/-- A read of the statuses of a scan finds one that is not final. -/
def ReadsOpen (p : Workers δ) (act : Act Answer) : Prop :=
  match p.call? act with
  | some (.selectStatuses scan) => ∃ st ∈ p.store.db.statuses scan, ¬st.Terminal
  | _ => True

instance (p : Workers δ) (act : Act Answer) : Decidable (ReadsOpen p act) := by
  unfold ReadsOpen
  split <;> infer_instance

lemma ReadsOpen.noRetryAhead {p : Workers δ} {act : Act Answer} (h : ReadsOpen p act) :
    NoRetryAhead codec p act := by
  intro scan hcall hterm
  unfold ReadsOpen at h
  rw [hcall] at h
  obtain ⟨st, hst, hopen⟩ := h
  exact absurd (hterm st hst) hopen

/-- A payload whose task is started is not retried any more. -/
def StartsSpent (p : Workers δ) (act : Act Answer) : Prop :=
  match p.call? act with
  | some (.createTask _ q) => ¬q.attempt < q.maxRetries
  | _ => True

instance (p : Workers δ) (act : Act Answer) : Decidable (StartsSpent p act) := by
  unfold StartsSpent
  split <;> infer_instance

def Cmd.schedules : Cmd δ → Bool
  | .zadd .. => true
  | _ => false

/-- The program puts nothing into the delayed set. -/
abbrev Unscheduled {α : Type} (q : Coroutine δ α) : Prop := q.CallsOnly fun c => c.schedules = false

lemma unscheduled_await {c : Cmd δ} (h : c.schedules = false) : Unscheduled (await c) :=
  Prog.callsOnly_perform h

lemma unscheduled_engineRound (w : WorkerId) : Unscheduled (engineRound codec w) := by
  have hpolling : HoldsOfPolling fun _ (q : Coroutine δ _) => Unscheduled q :=
    polling_callsOnly (moving_callsOnly rfl (fun _ _ _ _ => rfl) fun _ _ => rfl) rfl fun _ => rfl
  exact engineRound_of (Prog.compositional_callsOnly _) (unscheduled_await rfl)
    (hpolling.consume codec) (unscheduled_await rfl) fun _ => unscheduled_await rfl

lemma unscheduled_processPayload (settings : Settings) (w : WorkerId) {p : QueuePayload}
    (hspent : ¬p.attempt < p.maxRetries) : Unscheduled (processPayload codec settings w p) := by
  have hrecording : HoldsOfRecording fun _ (q : Coroutine δ _) => Unscheduled q :=
    recording_callsOnly (fun _ => rfl) (fun _ => rfl) (fun _ => rfl) (fun _ => rfl) (fun _ => rfl)
      (fun _ _ => rfl) fun _ _ => rfl
  have hreporting : HoldsOfReporting fun _ (q : Coroutine δ _) => Unscheduled q :=
    reporting_callsOnly (fun _ => rfl) (fun _ _ => rfl) fun _ => rfl
  have hsave : ∀ o, Unscheduled (saveResponse p.taskId o : Coroutine δ Unit) := fun o =>
    hrecording.saveResponse p.taskId o (fun _ => unscheduled_await rfl) fun _ _ =>
      unscheduled_await rfl
  have hdlq : ∀ reason, Unscheduled (sendToDlq p reason : Coroutine δ Bool) := fun _ =>
    sendToDlq_of (Prog.compositional_callsOnly _) (unscheduled_await rfl)
  have hattempt : Unscheduled (attemptPayload codec settings p) :=
    attemptPayload_of (Prog.compositional_callsOnly _) (hrecording.updateTaskStatus _ _)
      (unscheduled_await rfl) (hreporting.executeRequest p (unscheduled_await rfl)) hsave
      fun e => hrecording.handleRetry settings p e (unscheduled_await rfl)
        (fun hretry => absurd hretry hspent) hdlq
  exact processPayload_of (Prog.compositional_callsOnly _) hattempt
    (fun e => criticalError_of (Prog.compositional_callsOnly _) hsave (hdlq e))
    (unscheduled_await rfl)

variable [DecidableEq δ] {settings : Settings}

/-- When all threads are at rest, no retry is ahead in a run that starts spent payloads only. -/
lemma noRetryAhead_of_spent {p₀ p : Workers δ}
    (hloops : ∀ t ∈ p₀.threads, ∀ l, t.loop = some l → Unscheduled l)
    (hrest : ∀ t ∈ p₀.threads, t.body.head?.isNone)
    (h : Reachable (workerSystem codec settings) (fun p act => StartsSpent p act ∧ PushesDue p act)
      (· = p₀) p) (act : Act Answer) : NoRetryAhead codec p act := by
  have hall : ∀ t ∈ p.threads, Unscheduled t.body := by
    refine h.all_callsOnly ?_ ?_
    · rintro _ rfl t ht
      refine ⟨?_, hloops t ht⟩
      have hhead := hrest t ht
      cases hbody : t.body with
      | pure a => trivial
      | raise e => trivial
      | call c k =>
        rw [hbody] at hhead
        cases hhead
    · intro p i a c r q hok hcall hq
      cases c with
      | createTask w p' =>
        have hspent := hok.1
        unfold StartsSpent at hspent
        rw [hcall] at hspent
        exact Option.some.inj hq ▸ unscheduled_processPayload settings w hspent
      | _ => cases hq
  rintro scan - - t ht hmay
  obtain ⟨c, hc, q, score, rfl, -⟩ := (hall t ht).exists_of_mayCall hmay
  cases hc

end conditions

section transient

/-- Tasks 0 to n - 1 of one scan, all queued, and `k` engines. -/
def freshScan (n k : Nat) : Workers QueuePayload where
  store :=
    { db :=
        { scans := ⟨[⟨0, "scan", "http://target.example", .running, none⟩], List.nodup_singleton _⟩
          tasks := ⟨(List.range n).map fun i =>
              { id := i, scanId := 0, method := "GET", url := "http://target.example/" },
            by rw [List.map_map]; exact List.nodup_range.map fun i j h => h⟩ }
      redis := { lists := fun q => if q = .medium then
        (List.range n).map fun i => { retryPayload i with attempt := 0 } else [] } }
  threads := List.replicate k (engineThread Codec.payloads 0)

lemma freshScan_started (n k : Nat) : Started Codec.payloads (freshScan n k) where
  engines t ht := ⟨0, List.eq_of_mem_replicate ht⟩
  decodable _ _ := rfl
  payloads := by
    have h : (freshScan n k).store.redis.stored =
        (List.range n).map fun i => { retryPayload i with attempt := 0 } := by
      simp [freshScan, Redis.stored, SortedSet.members, SortedSet.empty]
    rw [h]
    simp [owners, freshScan, Codec.payloads, List.filterMap_map, Function.comp_def, retryPayload]
  queued row hrow := by
    obtain ⟨i, -, rfl⟩ := List.mem_map.mp hrow
    rfl
  scans row hrow := by
    obtain ⟨i, -, rfl⟩ := List.mem_map.mp hrow
    rfl
  running sc hsc := by
    rw [List.mem_singleton.mp hsc]
    decide

/-- Task 0 may be retried once and task 1 never, and there is one engine. -/
def retriedScan : Workers QueuePayload where
  store :=
    { db :=
        { scans := (freshScan 2 1).store.db.scans
          tasks := ⟨(List.range 2).map fun i =>
              { id := i, scanId := 0, method := "GET", url := "http://target.example/",
                maxRetries := 1 - i },
            by rw [List.map_map]; exact List.nodup_range.map fun i j h => h⟩ }
      redis := { lists := fun q => if q = .medium then
        (List.range 2).map fun i => { retryPayload i with attempt := 0, maxRetries := 1 - i }
        else [] } }
  threads := [engineThread Codec.payloads 0]

lemma retriedScan_started : Started Codec.payloads retriedScan where
  engines t ht := ⟨0, List.mem_singleton.mp ht⟩
  decodable _ _ := rfl
  payloads := by decide +kernel
  queued := by decide +kernel
  scans := by decide +kernel
  running := by decide +kernel

/-- A round of engine 0 at the time `t` that pops a payload. -/
def popRound (t : ℚ) (moves : Bool) : List (Act Answer) :=
  [.run 0 .done, .run 0 (.clock t), .run 0 .done] ++ (if moves then [.run 0 .done] else []) ++
    [.run 0 (.random 0), .run 0 .done, .run 0 .done]

/-- The thread `i` up to the commit of its response. -/
def requestUntilSaved (i : Nat) (response : Except String HttpResponse) : List (Act Answer) :=
  List.replicate 3 (.run i .done) ++ [.run i (.granted true), .run i (.http response)] ++
    List.replicate (match response with | .ok _ => 5 | .error _ => 4) (.run i .done)

/-- The request of task 0 fails and its retry is scheduled. -/
def untilScheduled : List (Act Answer) :=
  popRound 0 false ++ requestUntilSaved 1 (.error "timeout") ++ List.replicate 7 (.run 1 .done) ++
    [.run 1 (.clock 0), .run 1 .done, .run 1 .done]

/-- Task 1 succeeds; the retry of task 0 is moved at the time 10 and succeeds as well. -/
def untilCompleted : List (Act Answer) :=
  [.again 0] ++ popRound 0 false ++ requestUntilSaved 2 (.ok ⟨200, 1, [], ""⟩) ++
    List.replicate 4 (.run 2 .done) ++ [.again 0] ++ popRound 10 true ++
    requestUntilSaved 3 (.ok ⟨200, 1, [], ""⟩) ++ List.replicate 6 (.run 3 .done)

/-- A run with a retry that ends with the scan completed. -/
theorem scan_completion_safe_retried :
    ∃ p, Reachable (workerSystem Codec.payloads {})
        (fun p act => NoRetryAhead Codec.payloads p act ∧ PushesDue p act)
        (Started Codec.payloads) p ∧
      p.store.db.scans.rows.map Scan.status = [.completed] ∧
      p.store.db.tasks.rows.map (fun row => (row.status, row.attempts)) =
        [(.success, 2), (.success, 1)] ∧
      CompletionSafe Codec.payloads p.store := by
  have hrun : ((retriedScan.runActs (workerSystem Codec.payloads {})
      (fun p act => ReadsOpen p act ∧ PushesDue p act) untilScheduled).bind fun p₀ =>
        (p₀.runActs (workerSystem Codec.payloads {})
          (fun p act => StartsSpent p act ∧ PushesDue p act) untilCompleted).map
          fun p => (decide (∀ t ∈ p₀.threads, t.body.head?.isNone),
            p.store.db.scans.rows.map Scan.status,
            p.store.db.tasks.rows.map fun row => (row.status, row.attempts))) =
      some (true, [.completed], [(.success, 2), (.success, 1)]) := by
    decide +kernel
  obtain ⟨p₀, hp₀, hlate⟩ := Option.bind_eq_some_iff.mp hrun
  obtain ⟨p, hp, hall⟩ := Option.map_eq_some_iff.mp hlate
  obtain ⟨hrest, hrows⟩ := Prod.mk.inj hall
  obtain ⟨hscans, htasks⟩ := Prod.mk.inj hrows
  have hreach₀ := Reachable.of_runActs (.start retriedScan_started) _ hp₀
  have hloops := hreach₀.all_loops (L := Unscheduled) fun p hp t ht l hl => by
    obtain ⟨w, rfl⟩ := hp.engines t ht
    exact Option.some.inj hl ▸ unscheduled_engineRound w
  have hspent : Reachable (workerSystem Codec.payloads {})
      (fun p act => StartsSpent p act ∧ PushesDue p act) (· = p₀) p :=
    Reachable.of_runActs (.start rfl) _ hp
  have hreach : Reachable (workerSystem Codec.payloads {})
      (fun p act => NoRetryAhead Codec.payloads p act ∧ PushesDue p act)
      (Started Codec.payloads) p :=
    (hreach₀.mono fun _ _ h => ⟨h.1.noRetryAhead, h.2⟩).then hspent fun _ act h hok =>
      ⟨noRetryAhead_of_spent hloops (of_decide_eq_true hrest) h act, hok.2⟩
  exact ⟨p, hreach, hscans, htasks, scan_completion_safe {} hreach⟩

/-- The engine takes the payload; the request fails; the scan is closed on the failure that
is then retried. -/
def failedAttempt : List (Act Answer) :=
  [.run 0 .done, .run 0 (.clock 0), .run 0 .done, .run 0 (.random 0), .run 0 .done, .run 0 .done] ++
    List.replicate 3 (.run 1 .done) ++ [.run 1 (.granted true), .run 1 (.http (.error "timeout"))] ++
    List.replicate 12 (.run 1 .done)

theorem scan_completion_unsafe :
    ∃ p, Reachable (workerSystem Codec.payloads {}) (fun _ _ => True) (Started Codec.payloads) p ∧
      ¬CompletionSafe Codec.payloads p.store := by
  have hrun : (((freshScan 1 1).runActs (workerSystem Codec.payloads {}) (fun _ _ => True)
      failedAttempt).map fun p => (p.store.db.scans.rows.map fun sc => (sc.id, sc.status),
        p.store.db.tasks.rows.map fun row => (row.scanId, row.status))) =
      some ([(0, .failed)], [(0, .retrying)]) := by
    decide +kernel
  obtain ⟨p, hp, hrows⟩ := Reachable.of_shown (freshScan_started 1 1) hrun
  obtain ⟨hscans, htasks⟩ := Prod.mk.inj hrows
  have hscan : ((0 : ScanId), ScanStatus.failed) ∈
      p.store.db.scans.rows.map fun sc => (sc.id, sc.status) := by
    rw [hscans]
    exact List.mem_singleton_self _
  have htask : ((0 : ScanId), TaskStatus.retrying) ∈
      p.store.db.tasks.rows.map fun row => (row.scanId, row.status) := by
    rw [htasks]
    exact List.mem_singleton_self _
  obtain ⟨sc, hsc, hsc'⟩ := List.mem_map.mp hscan
  obtain ⟨row, hrow, hrow'⟩ := List.mem_map.mp htask
  obtain ⟨hid, hst⟩ := Prod.mk.inj hsc'
  obtain ⟨hscanId, hretry⟩ := Prod.mk.inj hrow'
  refine ⟨p, hp, fun hsafe => ?_⟩
  exact (hsafe.final sc hsc (Or.inr hst) row hrow (hscanId.trans hid.symm)).2.2 hretry

end transient

end SecurityScanner

import SecurityScanner.Executor.Commits
import SecurityScanner.Executor.RetryInvariant

/-!
# The task of an attempt

What a background task does with the payload of an attempt, from its start to the end of
the last attempt or to the schedule of the next one.
-/

namespace SecurityScanner

open Storage Interleaving

variable {δ : Type}

/-- A call that leaves the database, the queue and the log as they are. -/
def Cmd.looks : Cmd δ → Bool
  | .createTask .. | .multi _ | .blpop _ | .zadd .. | .rpushDlq .. | .commit _ | .request _ => false
  | _ => true

namespace RetryCase

section attempts

variable {X : RetryCase δ}

/-- An attempt takes place when the retries allow it and those before it failed. -/
lemma lt_attempts_iff {j : ℕ} :
    j < X.attempts ↔ j < X.limit ∧ ∀ i < j, succeeds (X.outcomes i) = false := by
  unfold attempts
  cases h : (List.range X.limit).find? fun i => succeeds (X.outcomes i) with
  | none =>
    have hnone := List.find?_range_eq_none.mp h
    simp only [Option.map_none, Option.getD_none]
    refine ⟨fun hj => ⟨hj, fun i hi => ?_⟩, fun hj => hj.1⟩
    simpa using hnone i (hi.trans hj)
  | some k =>
    obtain ⟨hk, hmem, hbefore⟩ := List.find?_range_eq_some.mp h
    have hk' := List.mem_range.mp hmem
    simp only [Option.map_some, Option.getD_some]
    constructor
    · intro hj
      refine ⟨by omega, fun i hi => ?_⟩
      simpa using hbefore i (by omega)
    · rintro ⟨-, hall⟩
      by_contra hj
      have := hall k (by omega)
      simp [hk] at this

lemma attempts_of_succeeds {j : ℕ} (hj : j < X.attempts) (h : succeeds (X.outcomes j) = true) :
    X.attempts = j + 1 := by
  have hnext : ¬j + 1 < X.attempts := by
    intro hlt
    have := (lt_attempts_iff.mp hlt).2 j (Nat.lt_succ_self j)
    simp [h] at this
  omega

/-- After a failure the retries decide. -/
lemma succ_lt_attempts_iff {j : ℕ} (hj : j < X.attempts) (h : succeeds (X.outcomes j) = false) :
    j + 1 < X.attempts ↔ (j : ℤ) < X.payload.maxRetries := by
  obtain ⟨-, hall⟩ := lt_attempts_iff.mp hj
  have hbefore : ∀ i < j + 1, succeeds (X.outcomes i) = false := by
    intro i hi
    rcases Nat.lt_succ_iff_lt_or_eq.mp hi with hi | rfl
    · exact hall i hi
    · exact h
  rw [lt_attempts_iff, and_iff_left hbefore]
  unfold limit
  omega

end attempts

/-- The state when a retry was written at the time `now`. -/
def delay [DecidableEq δ] (X : RetryCase δ) (d : δ) (score now : ℚ) (s : RetryState δ) :
    RetryState δ where
  store :=
    let delayed := s.store.redis.delayed.zadd X.codec.before d score
    { s.store with redis := { s.store.redis with delayed } }
  clock := now
  log := { s.log with scheduled := s.log.scheduled ++ [(now, score)] }

section calls

variable [DecidableEq δ] {X : RetryCase δ} {dlq : List (QueuePayload × String)}
  {s s' : RetryState δ} {t : Tick}

lemma effect_cases {c : Cmd δ} {r : Except String (Reply c)}
    (h : X.effect c t s = some (r, s')) :
    s.clock ≤ t.now ∧ ∃ store, s.store.effect X.codec c (X.answer t s c) = some (r, store) ∧
      s' = ⟨store, t.now, s.log.record X.codec t.now c r⟩ := by
  unfold effect at h
  split at h
  · cases h
  · rename_i hnow
    split at h
    · rename_i r' store he
      cases h
      exact ⟨not_lt.mp hnow, store, he, rfl⟩
    · cases h

lemma effect_of {c : Cmd δ} {r : Except String (Reply c)} {store : Store δ}
    (hnow : s.clock ≤ t.now) (h : s.store.effect X.codec c (X.answer t s c) = some (r, store)) :
    X.effect c t s = some (r, ⟨store, t.now, s.log.record X.codec t.now c r⟩) := by
  unfold effect
  rw [if_neg (not_lt.mpr hnow), h]

/-- A call that looks succeeds. -/
lemma looks_cases {c : Cmd δ} {r : Except String (Reply c)} (hc : c.looks = true)
    (h : X.effect c t s = some (r, s')) :
    s.Same s' ∧ s.clock ≤ s'.clock ∧ ∃ a, r = .ok a := by
  obtain ⟨hnow, store, he, rfl⟩ := effect_cases h
  have hsame : (store.db = s.store.db ∧ store.redis = s.store.redis ∧
      s.log.record X.codec t.now c r = s.log) ∧ ∃ a, r = .ok a := by
    cases c with
    | random =>
      simp only [answer, Store.effect] at he
      split at he <;> cases he
      exact ⟨⟨rfl, rfl, rfl⟩, _, rfl⟩
    | semaphoreAcquire w =>
      simp only [answer, Store.effect] at he
      split at he <;> cases he
      exact ⟨⟨rfl, rfl, rfl⟩, _, rfl⟩
    | createTask w p | multi ws | blpop qs | zadd d z | rpushDlq p e | commit ws | request q =>
      cases hc
    | _ =>
      cases he
      exact ⟨⟨rfl, rfl, rfl⟩, _, rfl⟩
  obtain ⟨⟨hdb, hredis, hlog⟩, hok⟩ := hsame
  exact ⟨⟨hdb, hredis, hlog⟩, hnow, hok⟩

/-- What there is to show of a call that starts no thread. -/
lemma ensures_call {i : ℕ} {c : Cmd δ} (hfork : ∀ r, X.system.fork c r = none)
    {Q : Except String (Reply c) → RetryState δ → Prop}
    (hQ : ∀ s₁ t r s', X.Inv dlq s₁ → s.Rely i s₁ → X.effect c t s₁ = some (r, s') →
      X.Inv dlq s' ∧ s₁.Guar i s' ∧ s'.log.created = s₁.log.created ∧ Q r s') :
    Ensures (X.sharing dlq) i (await c) Q s := by
  refine ensures_perform.mpr fun s₁ hinv hrely t r s' he => ?_
  obtain ⟨hinv', hguar, hcreated, hq⟩ := hQ s₁ t r s' hinv hrely he
  refine ⟨hinv', hguar, ?_, hq⟩
  unfold Sharing.Starts
  rw [hfork]
  exact congrArg (· + 1) hcreated

/-- A call that looks is fit for every place. -/
lemma ensures_looks {i : ℕ} {c : Cmd δ} (hc : c.looks = true)
    {Q : Except String (Reply c) → RetryState δ → Prop}
    (hQ : ∀ s₁ t r s', X.Inv dlq s₁ → s.Rely i s₁ → X.effect c t s₁ = some (r, s') →
      s₁.Same s' → s₁.clock ≤ s'.clock → Q r s') :
    Ensures (X.sharing dlq) i (await c) Q s := by
  have hfork : ∀ r, X.system.fork c r = none := by
    intro r
    cases c <;> first | rfl | cases hc
  refine ensures_call hfork fun s₁ t r s' hinv hrely he => ?_
  obtain ⟨hsame, hclock, -⟩ := looks_cases hc he
  exact ⟨hinv.same hsame hclock, hsame.guar hclock i, by rw [hsame.log],
    hQ s₁ t r s' hinv hrely he hsame hclock⟩

lemma reply_getTask {id : TaskId} {r : Except String (Option Task)}
    (h : X.effect (.getTask id) t s = some (r, s')) : r = .ok (s'.store.db.tasks.find? id) := by
  obtain ⟨-, store, he, rfl⟩ := effect_cases h
  cases he
  rfl

lemma reply_getScan {id : ScanId} {r : Except String (Option Scan)}
    (h : X.effect (.getScan id) t s = some (r, s')) : r = .ok (s'.store.db.scans.find? id) := by
  obtain ⟨-, store, he, rfl⟩ := effect_cases h
  cases he
  rfl

lemma reply_selectResponse {id : TaskId} {r : Except String (Option ScanResponse)}
    (h : X.effect (.selectResponse id) t s = some (r, s')) :
    r = .ok (s'.store.db.responses.find? id) := by
  obtain ⟨-, store, he, rfl⟩ := effect_cases h
  cases he
  rfl

lemma reply_selectStatuses {id : ScanId} {r : Except String (List TaskStatus)}
    (h : X.effect (.selectStatuses id) t s = some (r, s')) : r = .ok (s'.store.db.statuses id) := by
  obtain ⟨-, store, he, rfl⟩ := effect_cases h
  cases he
  rfl

end calls

section task

variable [DecidableEq δ] {X : RetryCase δ} {dlq : List (QueuePayload × String)}
  {s s' : RetryState δ} {j sent : ℕ} {P : TaskStatus → Prop} {n : ℤ}
  {dl : List (QueuePayload × String)}

namespace Trying

lemma looks (h : X.Trying j sent P n dl s) {c : Cmd δ} (hc : c.looks = true)
    {Q : Except String (Reply c) → RetryState δ → Prop}
    (hQ : ∀ s₁ t r s', X.Inv dlq s' → X.Trying j sent P n dl s' → s.Same s' →
      X.effect c t s₁ = some (r, s') → Q r s') :
    Ensures (X.sharing dlq) (j + 1) (await c) Q s :=
  ensures_looks hc fun s₁ t r s' hinv hrely he hsame hclock =>
    hQ s₁ t r s' (hinv.same hsame hclock) ((h.rely hrely).same hsame)
      ((hrely.same h.owns).trans hsame) he

/-- A call that changes something of the task's. -/
lemma acts (h : X.Trying j sent P n dl s) {c : Cmd δ} (hfork : ∀ r, X.system.fork c r = none)
    {Q : Except String (Reply c) → RetryState δ → Prop}
    (hQ : ∀ s₁ t r s', X.Inv dlq s₁ → s.Same s₁ → s.clock ≤ s₁.clock →
      X.Trying j sent P n dl s₁ → X.effect c t s₁ = some (r, s') →
      X.Inv dlq s' ∧ s'.log.popped = s₁.log.popped ∧ s'.log.created = s₁.log.created ∧
        s₁.log.scheduled.length ≤ s'.log.scheduled.length ∧ Q r s') :
    Ensures (X.sharing dlq) (j + 1) (await c) Q s := by
  refine ensures_call hfork fun s₁ t r s' hinv hrely he => ?_
  have h₁ := h.rely hrely
  obtain ⟨hinv', hpopped, hcreated, hscheduled, hq⟩ :=
    hQ s₁ t r s' hinv (hrely.same h.owns) hrely.clock h₁ he
  obtain ⟨hnow, store, -, hs'⟩ := effect_cases he
  have hclock : s₁.clock ≤ s'.clock := by rwa [hs']
  exact ⟨hinv', ⟨hclock, hscheduled, fun hown => absurd h₁.owns hown,
    fun _ => ⟨hpopped, hcreated⟩⟩, hcreated, hq⟩

lemma publishEvent (h : X.Trying j sent P n dl s) (e : Event)
    {Q : Except String Unit → RetryState δ → Prop}
    (hQ : ∀ s', X.Trying j sent P n dl s' → Q (.ok ()) s') :
    Ensures (X.sharing dlq) (j + 1) (publishEvent e) Q s := by
  refine ensures_tryCatch.mpr (h.looks rfl fun s₁ t r s' _ h' _ _ => ?_)
  cases r with
  | ok u => exact hQ s' h'
  | error e => exact hQ s' h'

lemma commit (h : X.Trying j sent P n dl s) (hsent : sent ≤ j + 1) {ws : List Write}
    {db' : Database} (hcommit : s.store.db.commit ws = .ok db') {P' : TaskStatus → Prop} {n' : ℤ}
    (hrow : X.Row db' P' n') {Q : Except String Unit → RetryState δ → Prop}
    (hQ : ∀ s', X.Trying j sent P' n' dl s' → Q (.ok ()) s') :
    Ensures (X.sharing dlq) (j + 1) (await (.commit ws)) Q s := by
  refine h.acts (fun _ => rfl) fun s₁ t r s' hinv hsame _ h₁ he => ?_
  obtain ⟨hnow, store, hstore, rfl⟩ := effect_cases he
  simp only [answer, Store.effect, hsame.db, hcommit] at hstore
  cases hstore
  have h' : X.Trying j sent P' n' dl ⟨{ s₁.store with db := db' }, t.now, s₁.log⟩ :=
    ⟨h₁.lt, h₁.empty, h₁.popped, h₁.created, h₁.scheduled, h₁.sent, hrow, h₁.dlq⟩
  exact ⟨⟨hinv.clock.trans hnow, hinv.ledger.later hnow rfl rfl rfl, j,
    Or.inr (Or.inr (h'.works hsent))⟩, rfl, rfl, le_refl _, hQ _ h'⟩

/-- The row gets the status `st`. -/
lemma updateTaskStatus (h : X.Trying j sent P n dl s) (hsent : sent ≤ j + 1) (st : TaskStatus)
    {Q : Except String Unit → RetryState δ → Prop}
    (hQ : ∀ s', X.Trying j sent (· = st) n dl s' → Q (.ok ()) s') :
    Ensures (X.sharing dlq) (j + 1) (updateTaskStatus X.payload.taskId st) Q s := by
  refine ensures_tryCatch.mpr (ensures_bind.mpr (h.looks rfl fun s₁ t r s₂ _ h₂ _ he => ?_))
  obtain rfl := reply_getTask he
  obtain ⟨row, hrow, -, hn⟩ := h₂.row
  have hid : row.id = X.payload.taskId := (Table.find?_eq_some_iff.mp hrow).2
  obtain ⟨db', hwrite, htasks, -, -⟩ :=
    write_updateTask_loaded (hid ▸ hrow) { row with status := st }
  have hcommit : s₂.store.db.commit [.updateTask row { row with status := st }] = .ok db' := by
    simp only [Database.commit, hwrite]
  have hrow' : X.Row db' (· = st) n := ⟨_, (htasks _).trans (if_pos hid.symm), rfl, hn⟩
  simp only [hrow]
  exact ensures_bind.mpr (h₂.commit hsent hcommit hrow' fun s₃ h₃ => h₃.publishEvent _ hQ)

/-- The scan may be evaluated meanwhile; its tasks stay as they are. -/
lemma evaluateScanCompletion (h : X.Trying j sent P n dl s) (hsent : sent ≤ j + 1) (scan : ScanId)
    {Q : Except String Unit → RetryState δ → Prop}
    (hQ : ∀ s', X.Trying j sent P n dl s' → Q (.ok ()) s') :
    Ensures (X.sharing dlq) (j + 1) (evaluateScanCompletion scan) Q s := by
  refine ensures_tryCatch.mpr (ensures_bind.mpr (h.looks rfl fun s₁ t r s₂ _ h₂ _ he => ?_))
  obtain rfl := reply_getScan he
  cases hscan : s₂.store.db.scans.find? scan with
  | none => exact hQ s₂ h₂
  | some sc =>
    refine ensures_bind.mpr (h₂.looks rfl fun s₃ t r s₄ _ h₄ hsame he => ?_)
    obtain rfl := reply_selectStatuses he
    dsimp only
    split
    · exact hQ s₄ h₄
    split
    · exact hQ s₄ h₄
    have hid : sc.id = scan := (Table.find?_eq_some_iff.mp hscan).2
    have hcur : s₄.store.db.scans.find? sc.id = some sc := by rw [hsame.db, hid, hscan]
    obtain ⟨db', hwrite, hupd⟩ :=
      write_updateScan hcur (verdict (s₄.store.db.statuses scan))
    have hcommit : s₄.store.db.commit [.updateScan sc
        { sc with status := verdict (s₄.store.db.statuses scan) }] = .ok db' := by
      simp only [Database.commit, hwrite]
    have hrow : X.Row db' P n := by
      obtain ⟨row, hrow, hP, hn⟩ := h₄.row
      exact ⟨row, by rw [hupd.tasks, hrow], hP, hn⟩
    exact ensures_bind.mpr (h₄.commit hsent hcommit hrow fun s₅ h₅ => h₅.publishEvent _ hQ)

/-- The response of the attempt is saved with its status, and the attempt is counted. -/
lemma saveResponse (h : X.Trying j sent P n dl s) (hsent : sent ≤ j + 1) (o : Outcome)
    {Q : Except String Unit → RetryState δ → Prop}
    (hQ : ∀ s', X.Trying j sent (· = o.taskStatus) (n + 1) dl s' → Q (.ok ()) s') :
    Ensures (X.sharing dlq) (j + 1) (saveResponse X.payload.taskId o) Q s := by
  refine ensures_tryCatch.mpr (ensures_bind.mpr (h.looks rfl fun s₁ t r s₂ _ h₂ _ he => ?_))
  obtain rfl := reply_getTask he
  obtain ⟨row, hrow, -, hn⟩ := h₂.row
  have hid : row.id = X.payload.taskId := (Table.find?_eq_some_iff.mp hrow).2
  dsimp only
  rw [hrow]
  refine ensures_bind.mpr (h₂.looks rfl fun s₃ t r s₄ _ h₄ hsame he => ?_)
  obtain rfl := reply_selectResponse he
  have hrow₄ : s₄.store.db.tasks.find? row.id = some row := by rw [hsame.db, hid, hrow]
  obtain ⟨db', hcommit, htasks, -⟩ := commit_response_loaded hrow₄ o
  have hrow' : X.Row db' (· = o.taskStatus) (n + 1) :=
    ⟨_, (htasks _).trans (if_pos hid.symm), rfl, by rw [hn]⟩
  refine ensures_bind.mpr (h₄.commit hsent ?_ hrow' fun s₅ h₅ =>
    ensures_bind.mpr (h₅.publishEvent _ fun s₆ h₆ => h₆.evaluateScanCompletion hsent _ hQ))
  rw [← hcommit, hid]
  rfl

/-- The answer of the request, which is sent once. -/
lemma request (h : X.Trying j j P n dl s) (q : HttpRequest)
    {Q : Except String HttpResponse → RetryState δ → Prop}
    (hQ : ∀ s', X.Trying j (j + 1) P n dl s' → Q (X.outcomes j) s') :
    Ensures (X.sharing dlq) (j + 1) (await (.request q)) Q s := by
  refine h.acts (fun _ => rfl) fun s₁ t r s' hinv hsame _ h₁ he => ?_
  obtain ⟨hnow, store, hstore, rfl⟩ := effect_cases he
  simp only [answer, Store.effect, Option.some.injEq, Prod.mk.injEq, h₁.sent] at hstore
  obtain ⟨rfl, rfl⟩ := hstore
  have hlen : (s₁.log.sent ++ [t.now]).length = j + 1 := by simp [h₁.sent]
  have h' : X.Trying j (j + 1) P n dl
      ⟨s₁.store, t.now, { s₁.log with sent := s₁.log.sent ++ [t.now] }⟩ :=
    ⟨h₁.lt, h₁.empty, h₁.popped, h₁.created, h₁.scheduled, hlen, h₁.row, h₁.dlq⟩
  have hledger : X.Ledger ⟨s₁.store, t.now, { s₁.log with sent := s₁.log.sent ++ [t.now] }⟩ := by
    refine ⟨fun u hu => ?_, hinv.ledger.popped, fun i z hz => ?_, hinv.ledger.due⟩
    · rcases List.mem_append.mp hu with hu | hu
      · exact (hinv.ledger.past u hu).trans hnow
      · exact (List.mem_singleton.mp hu).le
    · obtain ⟨sentAt, now, hsentAt, hz'⟩ := hinv.ledger.schedules i z hz
      obtain ⟨hlt, -⟩ := List.getElem?_eq_some_iff.mp hsentAt
      exact ⟨sentAt, now, (List.getElem?_append_left hlt).trans hsentAt, hz'⟩
  exact ⟨⟨hinv.clock.trans hnow, hledger, j, Or.inr (Or.inr (h'.works (le_refl _)))⟩, rfl, rfl,
    le_refl _, hQ _ h'⟩

lemma requestFailed (h : X.Trying j sent P n dl s) (e : String)
    {Q : Except String Outcome → RetryState δ → Prop}
    (hQ : ∀ o s', X.Trying j sent P n dl s' → o.taskStatus = .failed → Q (.ok o) s') :
    Ensures (X.sharing dlq) (j + 1) (requestFailed e) Q s := by
  rw [requestFailed_eq]
  split
  · exact hQ _ s h rfl
  · refine ensures_bind.mpr (h.looks rfl fun s₁ t r s₂ _ h₂ _ hr => ?_)
    obtain ⟨-, -, u, rfl⟩ := looks_cases rfl hr
    exact hQ _ s₂ h₂ rfl

/-- The status of the attempt says whether the request succeeded. -/
lemma executeRequest (h : X.Trying j j P n dl s) (p : QueuePayload)
    {Q : Except String Outcome → RetryState δ → Prop}
    (hQ : ∀ o s', X.Trying j (j + 1) P n dl s' →
      o.taskStatus = (if succeeds (X.outcomes j) then .success else .failed) → Q (.ok o) s') :
    Ensures (X.sharing dlq) (j + 1) (executeRequest p) Q s := by
  unfold SecurityScanner.executeRequest
  generalize "HTTP 429 Too Many Requests" = e
  refine ensures_tryCatch.mpr (ensures_bind.mpr (h.request _ fun s₁ h₁ => ?_))
  cases ho : X.outcomes j with
  | error e =>
    exact h₁.requestFailed e fun o s' h' hstatus => hQ o s' h' (by rw [ho]; exact hstatus)
  | ok r =>
    by_cases hcode : r.statusCode = 429
    · have hfail : succeeds (X.outcomes j) = false := by simp [ho, succeeds, hcode]
      simp only [hcode, ↓reduceIte]
      refine ensures_bind.mpr (h₁.looks rfl fun _ t r s₂ _ h₂ _ hr => ?_)
      obtain ⟨-, -, u, rfl⟩ := looks_cases rfl hr
      refine ensures_bind.mpr (h₂.looks rfl fun _ t r s₃ _ h₃ _ hr => ?_)
      obtain ⟨-, -, u, rfl⟩ := looks_cases rfl hr
      exact h₃.requestFailed e fun o s' h' hstatus => hQ o s' h' (by rw [hfail]; exact hstatus)
    · have hsucc : succeeds (X.outcomes j) = true := by simp [ho, succeeds, hcode]
      simp only [hcode, ↓reduceIte]
      refine ensures_bind.mpr (h₁.looks rfl fun _ t r s₂ _ h₂ _ hr => ?_)
      obtain ⟨-, -, u, rfl⟩ := looks_cases rfl hr
      refine ensures_bind.mpr (h₂.looks rfl fun _ t r s₃ _ h₃ _ hr => ?_)
      obtain ⟨-, -, u, rfl⟩ := looks_cases rfl hr
      exact hQ _ s₃ h₃ (by rw [if_pos hsucc])

lemma sendToDlq (h : X.Trying j sent P n dl s) (hsent : sent ≤ j + 1) (p : QueuePayload)
    (reason : String) {Q : Except String Bool → RetryState δ → Prop}
    (hQ : ∀ b s', X.Trying j sent P n (dl ++ [(p, reason)]) s' → Q (.ok b) s') :
    Ensures (X.sharing dlq) (j + 1) (sendToDlq p reason) Q s := by
  refine ensures_tryCatch.mpr (ensures_bind.mpr
    (h.acts (fun _ => rfl) fun s₁ t r s' hinv hsame _ h₁ he => ?_))
  obtain ⟨hnow, store, hstore, rfl⟩ := effect_cases he
  cases hstore
  have h' : X.Trying j sent P n (dl ++ [(p, reason)]) ⟨{ s₁.store with redis :=
      { s₁.store.redis with dlq := s₁.store.redis.dlq ++ [(p, reason)] } }, t.now, s₁.log⟩ :=
    ⟨h₁.lt, h₁.empty, h₁.popped, h₁.created, h₁.scheduled, h₁.sent, h₁.row, by rw [h₁.dlq]⟩
  exact ⟨⟨hinv.clock.trans hnow, hinv.ledger.later hnow rfl rfl rfl, j,
    Or.inr (Or.inr (h'.works hsent))⟩, rfl, rfl, le_refl _, hQ true _ h'⟩

/-- The payload of the next attempt waits in the delayed set. -/
lemma waits (h : X.Trying j (j + 1) P (j + 1) dlq s) (hnext : j + 1 < X.attempts) {now score : ℚ}
    (hscore : 0 ≤ score) :
    X.Waits dlq (j + 1) (X.delay (X.codec.dump (X.payloadAt (j + 1))) score now s) := by
  have hempty : s.store.redis.delayed.members = [] := by
    have hstored := h.empty
    simp only [Redis.stored, List.append_eq_nil_iff] at hstored
    exact hstored.2
  have hentries : s.store.redis.delayed.entries = [] := List.map_eq_nil_iff.mp hempty
  have hnew : (s.store.redis.delayed.zadd X.codec.before
      (X.codec.dump (X.payloadAt (j + 1))) score).entries =
        [(X.codec.dump (X.payloadAt (j + 1)), score)] := by
    simp [SortedSet.zadd, hentries, SortedSet.insertEntry]
  have hlen : (s.log.scheduled ++ [(now, score)]).length = j + 1 := by simp [h.scheduled]
  refine ⟨hnext, ⟨_, ?_, X.codec.validate_dump _⟩, fun e he => ?_, fun i z hi hz => Or.inr ?_,
    h.popped, h.created, hlen, h.sent, ?_, h.dlq⟩
  · have hfresh : X.codec.dump (X.payloadAt (j + 1)) ∉ s.store.redis.delayed.members := by
      rw [hempty]
      exact List.not_mem_nil
    refine List.perm_singleton.mp ((stored_zadd hfresh score).trans ?_)
    rw [h.empty]
  · unfold delay at he
    rw [hnew, List.mem_singleton] at he
    exact he ▸ hscore
  · obtain rfl : j = i := Nat.succ_injective hi
    have hlast : (s.log.scheduled ++ [(now, score)])[j]? = some (now, score) := by
      rw [← h.scheduled, List.getElem?_concat_length]
    obtain rfl : (now, score) = z := Option.some.inj (hlast.symm.trans hz)
    unfold delay
    rw [hnew]
    exact ⟨_, List.mem_singleton_self _, rfl⟩
  · obtain ⟨row, hrow, -, hn⟩ := h.row
    exact ⟨row, hrow, trivial, by rw [hn]; push_cast; rfl⟩

/-- The log is right about the schedule. -/
lemma ledger (h : X.Trying j (j + 1) P n dl s) (hledger : X.Ledger s) {now sentAt time : ℚ} {d : δ}
    (hsentAt : s.log.sent[j]? = some sentAt) (hle : sentAt ≤ time) (htime : time ≤ s.clock)
    (hnow : s.clock ≤ now) :
    X.Ledger (X.delay d (time + X.settings.defaultRetryBackoff * 2 ^ j) now s) := by
  refine ⟨fun u hu => (hledger.past u hu).trans hnow, hledger.popped, fun i z hz => ?_,
    fun i e he => ?_⟩
  · by_cases hi : i < j
    · have hold := (List.getElem?_append_left (h.scheduled.symm ▸ hi)).symm.trans hz
      exact hledger.schedules i z hold
    · obtain ⟨rfl, rfl⟩ := last_of_not_lt h.scheduled hi hz
      exact ⟨sentAt, time, hsentAt, hle, htime.trans hnow, rfl⟩
  · obtain ⟨z, hz, hle⟩ := hledger.due i e he
    obtain ⟨hlt, -⟩ := List.getElem?_eq_some_iff.mp hz
    exact ⟨z, (List.getElem?_append_left hlt).trans hz, hle⟩

/-- The task schedules the next attempt and has nothing left. -/
lemma scheduleDelayed (h : X.Trying j (j + 1) P (j + 1) dlq s)
    (hbackoff : 0 ≤ X.settings.defaultRetryBackoff) (hnext : j + 1 < X.attempts)
    {Q : Except String Bool → RetryState δ → Prop}
    (hQ : ∀ b s', j < s'.log.scheduled.length → Q (.ok b) s') :
    Ensures (X.sharing dlq) (j + 1) (scheduleDelayed X.codec (X.payloadAt (j + 1))
      (X.settings.defaultRetryBackoff * 2 ^ j)) Q s := by
  refine ensures_tryCatch.mpr (ensures_bind.mpr (h.looks rfl fun s₀ t r s₁ hinv₁ h₁ _ he => ?_))
  obtain ⟨-, store, hstore, hs₁⟩ := effect_cases he
  cases hstore
  have hclock₁ : s₁.clock = t.now := by rw [hs₁]
  generalize t.now = time at hclock₁
  obtain ⟨sentAt, hsentAt⟩ : ∃ sentAt, s₁.log.sent[j]? = some sentAt :=
    ⟨_, List.getElem?_eq_getElem (h₁.sent.symm ▸ Nat.lt_succ_self j)⟩
  have hpast : sentAt ≤ time := hclock₁ ▸ hinv₁.ledger.past _ (List.mem_of_getElem? hsentAt)
  refine ensures_bind.mpr (h₁.acts (fun _ => rfl) fun s₂ t₂ r s₃ hinv₂ hsame hclock₂ h₂ he => ?_)
  obtain ⟨hnow, store₃, hstore, rfl⟩ := effect_cases he
  cases hstore
  have hscore : 0 ≤ time + X.settings.defaultRetryBackoff * 2 ^ j :=
    add_nonneg (hclock₁ ▸ hinv₁.clock) (mul_nonneg hbackoff (pow_nonneg zero_le_two j))
  have hledger := h₂.ledger (d := X.codec.dump (X.payloadAt (j + 1))) hinv₂.ledger
    (hsame.log.symm ▸ hsentAt) hpast (hclock₁ ▸ hclock₂) hnow
  have hwaits : X.Waits dlq (j + 1) (X.delay _ _ t₂.now s₂) := h₂.waits hnext hscore
  have hlen : j < (s₂.log.scheduled ++
      [(t₂.now, time + X.settings.defaultRetryBackoff * 2 ^ j)]).length := by
    simp [h₂.scheduled]
  have hinv₃ : X.Inv dlq _ := ⟨hinv₂.clock.trans hnow, hledger, j + 1, Or.inl hwaits⟩
  exact ⟨hinv₃, rfl, rfl, by simp [RetryLog.record], hQ true _ hlen⟩

/-- After a failure the next attempt is scheduled, or the payload is a dead letter. -/
lemma handleRetry (h : X.Trying j (j + 1) P (j + 1) dlq s)
    (hbackoff : 0 ≤ X.settings.defaultRetryBackoff) (hfail : succeeds (X.outcomes j) = false)
    (e : String) :
    Ensures (X.sharing dlq) (j + 1) (handleRetry X.codec X.settings (X.payloadAt j) e)
      (X.Done dlq (j + 1)) s := by
  have hnext := succ_lt_attempts_iff h.lt hfail
  unfold SecurityScanner.handleRetry
  split
  · rename_i hlt
    have hdelay : retryDelay X.settings (X.payloadAt (j + 1)).attempt =
        X.settings.defaultRetryBackoff * 2 ^ j := by
      simp [retryDelay, payloadAt]
    have hpayload : { X.payloadAt j with attempt := (X.payloadAt j).attempt + 1 } =
        X.payloadAt (j + 1) := by
      simp [payloadAt]
    rw [hpayload]
    dsimp only
    rw [hdelay]
    refine ensures_bind.mpr (h.looks rfl fun s₁ t r s₂ _ h₂ _ hr => ?_)
    obtain ⟨-, -, u, rfl⟩ := looks_cases rfl hr
    refine ensures_bind.mpr (h₂.updateTaskStatus (le_refl _) .retrying fun s₃ h₃ => ?_)
    refine ensures_bind.mpr (h₃.scheduleDelayed hbackoff (hnext.mpr hlt) fun b s₄ h₄ => ?_)
    exact ⟨⟨_, rfl⟩, Or.inr h₄⟩
  · rename_i hge
    have hlast : X.attempts = j + 1 := by
      have hlt := h.lt
      have hnot := mt hnext.mp hge
      omega
    refine ensures_bind.mpr (h.updateTaskStatus (le_refl _) .failed fun s₂ h₂ => ?_)
    refine ensures_bind.mpr (h₂.sendToDlq (le_refl _) _ _ fun b s₃ h₃ => ?_)
    refine ⟨⟨_, rfl⟩, Or.inl ⟨hlast, ?_⟩⟩
    rw [if_neg (by simp [hfail])]
    exact ⟨_, h₃⟩

/-- The task of an attempt. -/
theorem processPayload (h : X.Trying j j (fun _ => True) j dlq s)
    (hbackoff : 0 ≤ X.settings.defaultRetryBackoff) :
    Ensures (X.sharing dlq) (j + 1)
      (processPayload X.codec X.settings X.worker (X.payloadAt j)) (X.Done dlq (j + 1)) s := by
  have hend : ∀ r s', X.Done dlq (j + 1) r s' → Ensures (X.sharing dlq) (j + 1)
      (await (.semaphoreRelease X.worker)) (X.Done dlq (j + 1)) s' := by
    intro r s' hdone
    refine ensures_looks rfl fun s₁ t r s₂ _ hrely he hsame hclock => ?_
    obtain ⟨-, -, u, rfl⟩ := looks_cases rfl he
    exact ⟨⟨_, rfl⟩, ((hdone.rely hrely).rely (hsame.rely hclock _)).2⟩
  refine ensures_bind.mpr (ensures_tryCatch.mpr ?_)
  refine ensures_bind.mpr (h.updateTaskStatus (Nat.le_succ j) .processing fun s₁ h₁ => ?_)
  refine ensures_bind.mpr (h₁.looks rfl fun s₂ t r s₃ _ h₃ _ hr => ?_)
  obtain ⟨-, store, hstore, -⟩ := effect_cases hr
  cases hstore
  refine ensures_bind.mpr (h₃.executeRequest _ fun o s₄ h₄ hstatus => ?_)
  refine ensures_bind.mpr (h₄.saveResponse (le_refl _) o fun s₅ h₅ => ?_)
  dsimp only
  cases hsucc : succeeds (X.outcomes j) with
  | true =>
    simp only [hsucc, ↓reduceIte] at hstatus
    rw [hstatus] at h₅ ⊢
    have hlast : X.Last dlq j s₅ := by
      refine ⟨attempts_of_succeeds h₅.lt hsucc, ?_⟩
      rw [if_pos hsucc]
      exact h₅
    exact hend (.ok ()) s₅ ⟨⟨_, rfl⟩, Or.inl hlast⟩
  | false =>
    simp only [hsucc, Bool.false_eq_true, ↓reduceIte] at hstatus
    rw [hstatus] at h₅ ⊢
    refine (h₅.handleRetry hbackoff hsucc _).mono ?_
    rintro r s₆ hdone
    obtain ⟨u, rfl⟩ := hdone.1
    exact hend _ s₆ hdone

end Trying

end task

end RetryCase

end SecurityScanner

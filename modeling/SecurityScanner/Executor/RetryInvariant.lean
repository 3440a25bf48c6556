import SecurityScanner.Executor.RetryRuns
import SecurityScanner.Lib.RelyGuarantee

/-!
# Who has the payload

In the runs of one payload it waits in the queue, or the loop has popped it, or the task of
an attempt works on it. While it is with a task, nobody else touches the database, the queue
and the log; the task relies on that, and so does the loop in its time.
-/

namespace SecurityScanner

open Storage Interleaving

variable {δ : Type}

lemma last_of_not_lt {α : Type} {l : List α} {a b : α} {i n : ℕ} (hl : l.length = n) (hi : ¬i < n)
    (h : (l ++ [a])[i]? = some b) : i = n ∧ a = b := by
  have hlen := (List.getElem?_eq_some_iff.mp h).1
  rw [List.length_append, List.length_singleton, hl] at hlen
  obtain rfl : i = n := by omega
  rw [← hl, List.getElem?_concat_length] at h
  exact ⟨rfl, Option.some.inj h⟩

namespace RetryState

/-- The parts of the state that belong to whoever has the payload. -/
structure Same (s s' : RetryState δ) : Prop where
  db : s'.store.db = s.store.db
  redis : s'.store.redis = s.store.redis
  log : s'.log = s.log

lemma Same.refl (s : RetryState δ) : s.Same s := ⟨rfl, rfl, rfl⟩

lemma Same.trans {s s' s'' : RetryState δ} (h : s.Same s') (h' : s'.Same s'') : s.Same s'' :=
  ⟨h'.db.trans h.db, h'.redis.trans h.redis, h'.log.trans h.log⟩

/-- The loop, at the place 0, has the payload while it waits or is popped; after that the
latest task has it. -/
def Owns : ℕ → RetryState δ → Prop
  | 0, s => s.store.redis.stored ≠ [] ∨ s.log.created ≠ s.log.popped.length
  | i + 1, s =>
    s.store.redis.stored = [] ∧ s.log.created = s.log.popped.length ∧ s.log.created = i + 1

lemma Owns.unique {i j : ℕ} {s : RetryState δ} (hi : s.Owns i) (hj : s.Owns j) : i = j := by
  cases i with
  | zero =>
    cases j with
    | zero => rfl
    | succ j =>
      obtain ⟨hempty, hcreated, -⟩ := hj
      rcases hi with h | h
      · exact absurd hempty h
      · exact absurd hcreated h
  | succ i =>
    cases j with
    | zero =>
      obtain ⟨hempty, hcreated, -⟩ := hi
      rcases hj with h | h
      · exact absurd hempty h
      · exact absurd hcreated h
    | succ j => exact hi.2.2.symm.trans hj.2.2

lemma Owns.same {i : ℕ} {s s' : RetryState δ} (hi : s.Owns i) (h : s.Same s') : s'.Owns i := by
  cases i with
  | zero => rwa [Owns, h.redis, h.log]
  | succ i => rwa [Owns, h.redis, h.log]

/-- What the others leave to the place `i`. -/
structure Rely (i : ℕ) (s s' : RetryState δ) : Prop where
  clock : s.clock ≤ s'.clock
  scheduled : s.log.scheduled.length ≤ s'.log.scheduled.length
  same : s.Owns i → s.Same s'
  counts : i = 0 → s'.log.popped = s.log.popped ∧ s'.log.created = s.log.created

/-- What the place `i` leaves to the others. -/
structure Guar (i : ℕ) (s s' : RetryState δ) : Prop where
  clock : s.clock ≤ s'.clock
  scheduled : s.log.scheduled.length ≤ s'.log.scheduled.length
  same : ¬s.Owns i → s.Same s'
  counts : i ≠ 0 → s'.log.popped = s.log.popped ∧ s'.log.created = s.log.created

lemma Rely.refl (i : ℕ) (s : RetryState δ) : s.Rely i s :=
  ⟨le_refl _, le_refl _, fun _ => .refl s, fun _ => ⟨rfl, rfl⟩⟩

lemma Rely.trans {i : ℕ} {s s' s'' : RetryState δ} (h : s.Rely i s') (h' : s'.Rely i s'') :
    s.Rely i s'' where
  clock := h.clock.trans h'.clock
  scheduled := h.scheduled.trans h'.scheduled
  same hown := (h.same hown).trans (h'.same (hown.same (h.same hown)))
  counts hi := ⟨(h'.counts hi).1.trans (h.counts hi).1, (h'.counts hi).2.trans (h.counts hi).2⟩

lemma Same.guar {s s' : RetryState δ} (h : s.Same s') (hclock : s.clock ≤ s'.clock) (i : ℕ) :
    s.Guar i s' := by
  refine ⟨hclock, by rw [h.log], fun _ => h, fun _ => ?_⟩
  rw [h.log]
  exact ⟨rfl, rfl⟩

lemma Guar.rely {i j : ℕ} {s s' : RetryState δ} (hij : i ≠ j) (h : s.Guar i s') : s.Rely j s' where
  clock := h.clock
  scheduled := h.scheduled
  same hown := h.same fun hi => hij (hi.unique hown)
  counts hj := h.counts (hj ▸ hij)

lemma Same.rely {s s' : RetryState δ} (h : s.Same s') (hclock : s.clock ≤ s'.clock) (i : ℕ) :
    s.Rely i s' :=
  (h.guar hclock (i + 1)).rely (Nat.succ_ne_self i)

end RetryState

namespace RetryCase

variable (X : RetryCase δ) (dlq : List (QueuePayload × String))

/-- The payload of the `j`-th retry. -/
def payloadAt (j : ℕ) : QueuePayload := { X.payload with attempt := j }

/-- The row of the task counts `n` attempts. -/
def Row (db : Database) (P : TaskStatus → Prop) (n : ℤ) : Prop :=
  ∃ row, db.tasks.find? X.payload.taskId = some row ∧ P row.status ∧ row.attempts = n

/-- The log is right about the past. -/
structure Ledger (s : RetryState δ) : Prop where
  past : ∀ t ∈ s.log.sent, t ≤ s.clock
  popped : ∀ (j : ℕ) e, s.log.popped[j]? = some e → e.2 = X.payloadAt j
  schedules : ∀ (j : ℕ) z, s.log.scheduled[j]? = some z → ∃ sentAt now,
    s.log.sent[j]? = some sentAt ∧ sentAt ≤ now ∧ now ≤ z.1 ∧
    z.2 = now + X.settings.defaultRetryBackoff * 2 ^ j
  due : ∀ (j : ℕ) e, s.log.popped[j + 1]? = some e →
    ∃ z, s.log.scheduled[j]? = some z ∧ z.2 ≤ e.1

/-- `j` attempts are over, and the payload waits for the next one. -/
structure Waits (j : ℕ) (s : RetryState δ) : Prop where
  lt : j < X.attempts
  stored : ∃ d, s.store.redis.stored = [d] ∧ X.codec.validate d = some (X.payloadAt j)
  nonneg : ∀ e ∈ s.store.redis.delayed.entries, 0 ≤ e.2
  due : ∀ i z, j = i + 1 → s.log.scheduled[i]? = some z →
    z.2 ≤ s.clock ∨ ∃ e ∈ s.store.redis.delayed.entries, e.2 = z.2
  popped : s.log.popped.length = j
  created : s.log.created = j
  scheduled : s.log.scheduled.length = j
  sent : s.log.sent.length = j
  row : X.Row s.store.db (fun _ => True) j
  dlq : s.store.redis.dlq = dlq

/-- The loop has popped the payload for the attempt `j`. -/
structure Holds (j : ℕ) (s : RetryState δ) : Prop where
  lt : j < X.attempts
  empty : s.store.redis.stored = []
  popped : s.log.popped.length = j + 1
  created : s.log.created = j
  scheduled : s.log.scheduled.length = j
  sent : s.log.sent.length = j
  row : X.Row s.store.db (fun _ => True) j
  dlq : s.store.redis.dlq = dlq

/-- A task works on the attempt `j`, or has ended it for good. -/
structure Works (j : ℕ) (s : RetryState δ) : Prop where
  lt : j < X.attempts
  empty : s.store.redis.stored = []
  popped : s.log.popped.length = j + 1
  created : s.log.created = j + 1
  scheduled : s.log.scheduled.length = j
  sent : s.log.sent.length ≤ j + 1

structure Inv (s : RetryState δ) : Prop where
  clock : 0 ≤ s.clock
  ledger : X.Ledger s
  phase : ∃ j, X.Waits dlq j s ∨ X.Holds dlq j s ∨ X.Works j s

/-- What the task of the attempt `j` knows: the requests sent, the status and the attempts
of its row, and the dead letters. -/
structure Trying (j sent : ℕ) (P : TaskStatus → Prop) (n : ℤ) (dl : List (QueuePayload × String))
    (s : RetryState δ) : Prop where
  lt : j < X.attempts
  empty : s.store.redis.stored = []
  popped : s.log.popped.length = j + 1
  created : s.log.created = j + 1
  scheduled : s.log.scheduled.length = j
  sent : s.log.sent.length = sent
  row : X.Row s.store.db P n
  dlq : s.store.redis.dlq = dl

/-- The attempt `j` was the last one. -/
def Last (j : ℕ) (s : RetryState δ) : Prop :=
  X.attempts = j + 1 ∧
    if succeeds (X.outcomes j) then X.Trying j (j + 1) (· = .success) (j + 1) dlq s
    else ∃ reason, X.Trying j (j + 1) (· = .failed) (j + 1) (dlq ++ [(X.payloadAt j, reason)]) s

/-- The loop ends its rounds with nothing in its hands. A task ends with the last attempt,
or has scheduled the next one. -/
def Done : ℕ → Except String Unit → RetryState δ → Prop
  | 0, r, s => (∃ u, r = .ok u) ∧ s.log.created = s.log.popped.length
  | j + 1, r, s => (∃ u, r = .ok u) ∧ (X.Last dlq j s ∨ j < s.log.scheduled.length)

section

variable {X dlq} {s s' : RetryState δ} {j sent : ℕ} {P : TaskStatus → Prop} {n : ℤ}
  {dl : List (QueuePayload × String)}

lemma Trying.same (h : X.Trying j sent P n dl s) (hs : s.Same s') : X.Trying j sent P n dl s' := by
  obtain ⟨hlt, hempty, hpopped, hcreated, hscheduled, hsent, hrow, hdlq⟩ := h
  refine ⟨hlt, ?_, ?_, ?_, ?_, ?_, ?_, ?_⟩
  · rwa [hs.redis]
  · rwa [hs.log]
  · rwa [hs.log]
  · rwa [hs.log]
  · rwa [hs.log]
  · rwa [hs.db]
  · rwa [hs.redis]

lemma Trying.owns (h : X.Trying j sent P n dl s) : s.Owns (j + 1) :=
  ⟨h.empty, h.created.trans h.popped.symm, h.created⟩

lemma Trying.rely (h : X.Trying j sent P n dl s) (hs : s.Rely (j + 1) s') : X.Trying j sent P n dl s' :=
  h.same (hs.same h.owns)

lemma Trying.works (h : X.Trying j sent P n dl s) (hsent : sent ≤ j + 1) : X.Works j s :=
  ⟨h.lt, h.empty, h.popped, h.created, h.scheduled, h.sent ▸ hsent⟩

lemma Last.rely (h : X.Last dlq j s) (hs : s.Rely (j + 1) s') : X.Last dlq j s' := by
  obtain ⟨hattempts, h⟩ := h
  refine ⟨hattempts, ?_⟩
  split at h
  · rename_i hsucc
    rw [if_pos hsucc]
    exact h.rely hs
  · rename_i hsucc
    rw [if_neg hsucc]
    obtain ⟨reason, h⟩ := h
    exact ⟨reason, h.rely hs⟩

lemma Done.rely {i : ℕ} {r : Except String Unit} (h : X.Done dlq i r s) (hs : s.Rely i s') :
    X.Done dlq i r s' := by
  cases i with
  | zero =>
    obtain ⟨hok, hcreated⟩ := h
    obtain ⟨hp, hc⟩ := hs.counts rfl
    exact ⟨hok, by rw [hp, hc, hcreated]⟩
  | succ j =>
    obtain ⟨hok, h⟩ := h
    exact ⟨hok, h.imp (fun h => h.rely hs) fun h => lt_of_lt_of_le h hs.scheduled⟩

lemma Ledger.later (h : X.Ledger s) (hclock : s.clock ≤ s'.clock)
    (hsent : s'.log.sent = s.log.sent) (hpopped : s'.log.popped = s.log.popped)
    (hscheduled : s'.log.scheduled = s.log.scheduled) : X.Ledger s' := by
  obtain ⟨hpast, hpops, hschedules, hdue⟩ := h
  rw [← hsent] at hpast hschedules
  rw [← hpopped] at hpops hdue
  rw [← hscheduled] at hschedules hdue
  exact ⟨fun t ht => (hpast t ht).trans hclock, hpops, hschedules, hdue⟩

lemma Ledger.same (h : X.Ledger s) (hs : s.Same s') (hclock : s.clock ≤ s'.clock) :
    X.Ledger s' :=
  h.later hclock (by rw [hs.log]) (by rw [hs.log]) (by rw [hs.log])

lemma Waits.same (h : X.Waits dlq j s) (hs : s.Same s') (hclock : s.clock ≤ s'.clock) :
    X.Waits dlq j s' := by
  obtain ⟨hlt, hstored, hnonneg, hdue, hpopped, hcreated, hscheduled, hsent, hrow, hdlq⟩ := h
  refine ⟨hlt, ?_, ?_, fun i z hi hz => ?_, ?_, ?_, ?_, ?_, ?_, ?_⟩
  · rwa [hs.redis]
  · rwa [hs.redis]
  · rw [hs.log] at hz
    rw [hs.redis]
    exact (hdue i z hi hz).imp_left fun hle => hle.trans hclock
  · rwa [hs.log]
  · rwa [hs.log]
  · rwa [hs.log]
  · rwa [hs.log]
  · rwa [hs.db]
  · rwa [hs.redis]

lemma Holds.same (h : X.Holds dlq j s) (hs : s.Same s') : X.Holds dlq j s' := by
  obtain ⟨hlt, hempty, hpopped, hcreated, hscheduled, hsent, hrow, hdlq⟩ := h
  refine ⟨hlt, ?_, ?_, ?_, ?_, ?_, ?_, ?_⟩
  · rwa [hs.redis]
  · rwa [hs.log]
  · rwa [hs.log]
  · rwa [hs.log]
  · rwa [hs.log]
  · rwa [hs.db]
  · rwa [hs.redis]

lemma Works.same (h : X.Works j s) (hs : s.Same s') : X.Works j s' := by
  obtain ⟨hlt, hempty, hpopped, hcreated, hscheduled, hsent⟩ := h
  refine ⟨hlt, ?_, ?_, ?_, ?_, ?_⟩
  · rwa [hs.redis]
  · rwa [hs.log]
  · rwa [hs.log]
  · rwa [hs.log]
  · rwa [hs.log]

lemma Inv.same (h : X.Inv dlq s) (hs : s.Same s') (hclock : s.clock ≤ s'.clock) :
    X.Inv dlq s' := by
  refine ⟨h.clock.trans hclock, h.ledger.same hs hclock, ?_⟩
  obtain ⟨j, hwaits | hholds | hworks⟩ := h.phase
  · exact ⟨j, Or.inl (hwaits.same hs hclock)⟩
  · exact ⟨j, Or.inr (Or.inl (hholds.same hs))⟩
  · exact ⟨j, Or.inr (Or.inr (hworks.same hs))⟩

end

variable [DecidableEq δ]

/-- How the loop and the tasks share the state. -/
def sharing : Sharing X.system where
  inv := X.Inv dlq
  size s := s.log.created + 1
  rely := RetryState.Rely
  guar := RetryState.Guar
  start n q s := ∃ j, n = j + 1 ∧
    q = processPayload X.codec X.settings X.worker (X.payloadAt j) ∧
    X.Trying j j (fun _ => True) j dlq s
  done := X.Done dlq
  rely_refl := RetryState.Rely.refl
  rely_trans _ _ _ _ h h' := h.trans h'
  rely_of_guar _ _ _ _ hij h := h.rely hij
  done_stable _ _ _ _ hs h := h.rely hs

end RetryCase

end SecurityScanner

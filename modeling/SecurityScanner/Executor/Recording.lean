import SecurityScanner.Executor.CoroutineRules

/-!
# The coroutines that record and settle

What a worker records of a task: its status, its response and the verdict on its scan. These
coroutines ask the database and publish events; they do nothing else. What it does with a
task after the request settles the task; this reaches the queue and the metrics as well.
-/

namespace SecurityScanner

open Interleaving

variable {δ : Type}

/-- A call to the database or the event stream. -/
def Cmd.records : Cmd δ → Bool
  | .getTask _ | .getScan _ | .selectResponse _ | .selectStatuses _ | .commit _ | .publish _ => true
  | _ => false

/-- The program only records. -/
abbrev Records {α : Type} (q : Coroutine δ α) : Prop := q.CallsOnly fun c => c.records = true

lemma records_await {c : Cmd δ} (h : c.records = true) : Records (await c) :=
  Prog.callsOnly_perform h

lemma records_recording : HoldsOfRecording fun _ (q : Coroutine δ _) => Records q :=
  recording_callsOnly (fun _ => rfl) (fun _ => rfl) (fun _ => rfl) (fun _ => rfl) (fun _ => rfl)
    (fun _ _ => rfl) fun _ _ => rfl

lemma records_updateTaskStatus (id : TaskId) (st : TaskStatus) :
    Records (updateTaskStatus id st : Coroutine δ Unit) :=
  records_recording.updateTaskStatus id st

lemma records_saveResponse (id : TaskId) (o : Outcome) :
    Records (saveResponse id o : Coroutine δ Unit) :=
  records_recording.saveResponse id o (fun _ => records_await rfl) fun _ _ => records_await rfl

/-- A call that a task makes after its request. -/
def Cmd.settles : Cmd δ → Bool
  | .time | .zadd .. | .rpushDlq .. | .report429 _ | .incRequests _ | .observeLatency ..
  | .incRetries => true
  | c => c.records

/-- The program only settles. -/
abbrev Settles {α : Type} (q : Coroutine δ α) : Prop := q.CallsOnly fun c => c.settles = true

lemma settles_of_records {c : Cmd δ} (h : c.records = true) : c.settles = true := by
  cases c <;> first | rfl | cases h

lemma settles_await {c : Cmd δ} (h : c.settles = true) : Settles (await c) :=
  Prog.callsOnly_perform h

lemma settles_updateTaskStatus (id : TaskId) (st : TaskStatus) :
    Settles (updateTaskStatus id st : Coroutine δ Unit) :=
  (records_updateTaskStatus id st).mono fun _ => settles_of_records

lemma settles_saveResponse (id : TaskId) (o : Outcome) :
    Settles (saveResponse id o : Coroutine δ Unit) :=
  (records_saveResponse id o).mono fun _ => settles_of_records

lemma settles_reporting : HoldsOfReporting fun _ (q : Coroutine δ _) => Settles q :=
  reporting_callsOnly (fun _ => rfl) (fun _ _ => rfl) fun _ => rfl

lemma settles_sendToDlq (p : QueuePayload) (reason : String) :
    Settles (sendToDlq p reason : Coroutine δ Bool) :=
  sendToDlq_of (Prog.compositional_callsOnly _) (settles_await rfl)

lemma settles_criticalError (p : QueuePayload) (e : String) :
    Settles (criticalError p e : Coroutine δ Unit) :=
  criticalError_of (Prog.compositional_callsOnly _) (settles_saveResponse _)
    (settles_sendToDlq p e)

lemma settles_handleRetry (codec : Codec δ) (settings : Settings) (p : QueuePayload)
    (e : String) : Settles (handleRetry codec settings p e) := by
  have hrecording : HoldsOfRecording fun _ (q : Coroutine δ _) => Settles q :=
    recording_callsOnly (fun _ => rfl) (fun _ => rfl) (fun _ => rfl) (fun _ => rfl) (fun _ => rfl)
      (fun _ _ => rfl) fun _ _ => rfl
  exact hrecording.handleRetry settings p e (settles_await rfl)
    (fun _ _ => scheduleDelayed_of (Prog.compositional_callsOnly _) (settles_await rfl)
      fun _ => settles_await rfl) (settles_sendToDlq p)

end SecurityScanner

import SecurityScanner.Executor.Engine

/-!
# Rules for the coroutines

A property that a program has if its parts have it holds of a coroutine if it holds of the calls
of the coroutine. The rules say for each coroutine which calls these are.
-/

namespace SecurityScanner

open Interleaving

variable {δ : Type} (Φ : (α : Type) → Coroutine δ α → Prop)

/-- The property holds of the calls that read the database, set a status and tell of it. -/
structure HoldsOfRecording : Prop extends Prog.Compositional Φ where
  getTask : ∀ id, Φ _ (await (.getTask id))
  getScan : ∀ id, Φ _ (await (.getScan id))
  selectResponse : ∀ id, Φ _ (await (.selectResponse id))
  selectStatuses : ∀ scan, Φ _ (await (.selectStatuses scan))
  publish : ∀ e, Φ _ (await (.publish e))
  setTaskStatus : ∀ task : Task, ∀ status,
    Φ _ (await (.commit [.updateTask task { task with status }]))
  setScanStatus : ∀ scan : Scan, ∀ status,
    Φ _ (await (.commit [.updateScan scan { scan with status }]))

/-- The property holds of the calls that report on a request. -/
structure HoldsOfReporting : Prop extends Prog.Compositional Φ where
  incRequests : ∀ label, Φ _ (await (.incRequests label))
  observeLatency : ∀ method seconds, Φ _ (await (.observeLatency method seconds))
  report429 : ∀ url, Φ _ (await (.report429 url))

/-- The property holds of the calls that move what is due. -/
structure HoldsOfMoving : Prop extends Prog.Compositional Φ where
  time : Φ _ (await .time)
  zrangebyscore : ∀ lo hi start num, Φ _ (await (.zrangebyscore lo hi start num))
  move : ∀ grouped now, Φ _ (await (.multi (moveCommands grouped now)))

/-- The property holds of the calls that poll the queue. -/
structure HoldsOfPolling : Prop extends HoldsOfMoving Φ where
  random : Φ _ (await .random)
  blpop : ∀ qs, Φ _ (await (.blpop qs))

variable {Φ}

section callsOnly

variable {T : Cmd δ → Prop}

lemma recording_callsOnly (getTask : ∀ id, T (.getTask id)) (getScan : ∀ id, T (.getScan id))
    (selectResponse : ∀ id, T (.selectResponse id))
    (selectStatuses : ∀ scan, T (.selectStatuses scan)) (publish : ∀ e, T (.publish e))
    (setTaskStatus : ∀ (task : Task) status, T (.commit [.updateTask task { task with status }]))
    (setScanStatus : ∀ (scan : Scan) status, T (.commit [.updateScan scan { scan with status }])) :
    HoldsOfRecording fun _ (q : Coroutine δ _) => q.CallsOnly T :=
  { Prog.compositional_callsOnly T with
    getTask := fun id => Prog.callsOnly_perform (getTask id)
    getScan := fun id => Prog.callsOnly_perform (getScan id)
    selectResponse := fun id => Prog.callsOnly_perform (selectResponse id)
    selectStatuses := fun scan => Prog.callsOnly_perform (selectStatuses scan)
    publish := fun e => Prog.callsOnly_perform (publish e)
    setTaskStatus := fun task status => Prog.callsOnly_perform (setTaskStatus task status)
    setScanStatus := fun scan status => Prog.callsOnly_perform (setScanStatus scan status) }

lemma reporting_callsOnly (incRequests : ∀ label, T (.incRequests label))
    (observeLatency : ∀ method seconds, T (.observeLatency method seconds))
    (report429 : ∀ url, T (.report429 url)) :
    HoldsOfReporting fun _ (q : Coroutine δ _) => q.CallsOnly T :=
  { Prog.compositional_callsOnly T with
    incRequests := fun label => Prog.callsOnly_perform (incRequests label)
    observeLatency := fun method seconds => Prog.callsOnly_perform (observeLatency method seconds)
    report429 := fun url => Prog.callsOnly_perform (report429 url) }

lemma moving_callsOnly (time : T .time)
    (zrangebyscore : ∀ lo hi start num, T (.zrangebyscore lo hi start num))
    (move : ∀ grouped now, T (.multi (moveCommands grouped now))) :
    HoldsOfMoving fun _ (q : Coroutine δ _) => q.CallsOnly T :=
  { Prog.compositional_callsOnly T with
    time := Prog.callsOnly_perform time
    zrangebyscore := fun lo hi start num => Prog.callsOnly_perform (zrangebyscore lo hi start num)
    move := fun grouped now => Prog.callsOnly_perform (move grouped now) }

lemma polling_callsOnly (hmoving : HoldsOfMoving fun _ (q : Coroutine δ _) => q.CallsOnly T)
    (random : T .random) (blpop : ∀ qs, T (.blpop qs)) :
    HoldsOfPolling fun _ (q : Coroutine δ _) => q.CallsOnly T :=
  { hmoving with
    random := Prog.callsOnly_perform random
    blpop := fun qs => Prog.callsOnly_perform (blpop qs) }

end callsOnly

section compositional

variable (h : Prog.Compositional Φ)
include h

lemma sendToDlq_of {p : QueuePayload} {reason : String}
    (hpush : Φ _ (await (.rpushDlq p reason))) : Φ _ (sendToDlq p reason) :=
  h.tryCatch (h.bind hpush fun _ => h.pure true) fun _ => h.pure false

lemma scheduleDelayed_of {codec : Codec δ} {p : QueuePayload} {delay : ℚ}
    (htime : Φ _ (await .time)) (hzadd : ∀ score, Φ _ (await (.zadd (codec.dump p) score))) :
    Φ _ (scheduleDelayed codec p delay) :=
  h.tryCatch (h.bind htime fun _ => h.bind (hzadd _) fun _ => h.pure true) fun _ => h.pure false

/-- A retry is scheduled, or the payload goes to the dead letters. -/
lemma handleRetry_of {codec : Codec δ} {settings : Settings} {p : QueuePayload} {e : String}
    (hcount : Φ _ (await .incRetries)) (hstatus : ∀ status, Φ _ (updateTaskStatus p.taskId status))
    (hschedule : p.attempt < p.maxRetries → ∀ delay,
      Φ _ (scheduleDelayed codec { p with attempt := p.attempt + 1 } delay))
    (hdlq : ∀ reason, Φ _ (sendToDlq p reason)) : Φ _ (handleRetry codec settings p e) := by
  unfold handleRetry
  split
  · next hretry =>
    refine h.bind hcount fun _ => h.bind (hstatus _) fun _ => ?_
    exact h.bind (hschedule hretry _) fun _ => h.pure ()
  · exact h.bind (hstatus _) fun _ => h.bind (hdlq _) fun _ => h.pure ()

/-- A failed request counts a failure, or calls nothing. -/
lemma requestFailed_of (hcount : Φ _ (await (.incRequests .failure))) (e : String) :
    Φ _ (requestFailed e) := by
  rw [requestFailed_eq]
  split
  · exact h.pure _
  · exact h.bind hcount fun _ => h.pure _

/-- An attempt: the mark, the token, the request, its response, and a retry if it failed. -/
lemma attemptPayload_of {codec : Codec δ} {settings : Settings} {p : QueuePayload}
    (hmark : Φ _ (updateTaskStatus p.taskId .processing))
    (hacquire : Φ _ (await (.acquire p.url p.scanId))) (hrequest : Φ _ (executeRequest p))
    (hsave : ∀ o, Φ _ (saveResponse p.taskId o))
    (hretry : ∀ e, Φ _ (handleRetry codec settings p e)) :
    Φ _ (attemptPayload codec settings p) := by
  refine h.bind hmark fun _ => h.bind hacquire fun granted => ?_
  split
  · refine h.bind hrequest fun o => h.bind (hsave o) fun _ => ?_
    split
    · exact hretry _
    · exact h.pure ()
  · exact h.throw _

lemma criticalError_of {p : QueuePayload} {e : String}
    (hsave : ∀ o, Φ _ (saveResponse p.taskId o)) (hdlq : Φ _ (sendToDlq p e)) :
    Φ _ (criticalError p e) :=
  h.bind (h.tryCatch (hsave _) fun _ => h.pure ()) fun _ => h.bind hdlq fun _ => h.pure ()

lemma processPayload_of {codec : Codec δ} {settings : Settings} {w : WorkerId}
    {p : QueuePayload} (hattempt : Φ _ (attemptPayload codec settings p))
    (hcritical : ∀ e, Φ _ (criticalError p e)) (hrelease : Φ _ (await (.semaphoreRelease w))) :
    Φ _ (processPayload codec settings w p) :=
  h.bind (h.tryCatch hattempt hcritical) fun _ => hrelease

lemma engineRound_of {codec : Codec δ} {w : WorkerId}
    (hacquire : Φ _ (await (.semaphoreAcquire w))) (hconsume : Φ _ (consume codec))
    (hrelease : Φ _ (await (.semaphoreRelease w)))
    (hcreate : ∀ p, Φ _ (await (.createTask w p))) : Φ _ (engineRound codec w) := by
  refine h.bind hacquire fun _ => h.bind hconsume ?_
  rintro (_ | p)
  · exact hrelease
  · exact hcreate p

end compositional

namespace HoldsOfRecording

variable (h : HoldsOfRecording Φ)
include h

lemma publishEvent (e : Event) : Φ _ (publishEvent e) :=
  h.tryCatch (h.publish e) fun _ => h.pure ()

lemma updateTaskStatus (id : TaskId) (status : TaskStatus) : Φ _ (updateTaskStatus id status) := by
  refine h.tryCatch (h.bind (h.getTask id) ?_) fun _ => h.pure ()
  rintro (_ | task)
  · exact h.pure ()
  · exact h.bind (h.setTaskStatus task status) fun _ => h.publishEvent _

lemma evaluateScanCompletion (scan : ScanId) : Φ _ (evaluateScanCompletion scan) := by
  refine h.tryCatch (h.bind (h.getScan scan) ?_) fun _ => h.pure ()
  rintro (_ | sc)
  · exact h.pure ()
  · refine h.bind (h.selectStatuses scan) fun statuses => ?_
    split
    · exact h.pure ()
    · split
      · exact h.pure ()
      · exact h.bind (h.setScanStatus sc _) fun _ => h.publishEvent _

/-- The session of `_save_response` also writes the response and counts the attempt. -/
lemma saveResponse (id : TaskId) (o : Outcome)
    (hlost : ∀ response, Φ _ (await (.commit [responseWrite id o response])))
    (hsave : ∀ (t : Task) response, Φ _ (await (.commit
      [.updateTask t { t with status := o.taskStatus, attempts := t.attempts + 1 },
        responseWrite id o response]))) :
    Φ _ (saveResponse id o) := by
  refine h.tryCatch (h.bind (h.getTask id) fun dbTask =>
    h.bind (h.selectResponse id) fun response => ?_) fun _ => h.pure ()
  cases dbTask with
  | none => exact h.bind (hlost response) fun _ => h.pure ()
  | some t =>
    exact h.bind (hsave t response) fun _ =>
      h.bind (h.publishEvent _) fun _ => h.evaluateScanCompletion _

lemma handleRetry {codec : Codec δ} (settings : Settings) (p : QueuePayload) (e : String)
    (hcount : Φ _ (await .incRetries))
    (hschedule : p.attempt < p.maxRetries → ∀ delay,
      Φ _ (scheduleDelayed codec { p with attempt := p.attempt + 1 } delay))
    (hdlq : ∀ reason, Φ _ (sendToDlq p reason)) : Φ _ (handleRetry codec settings p e) :=
  handleRetry_of h.toCompositional hcount (h.updateTaskStatus _) hschedule hdlq

end HoldsOfRecording

namespace HoldsOfReporting

variable (h : HoldsOfReporting Φ)
include h

lemma requestFailed (e : String) : Φ _ (requestFailed e) :=
  requestFailed_of h.toCompositional (h.incRequests _) e

/-- What follows the answer to a request. -/
lemma afterRequest (p : QueuePayload) (r : HttpResponse) :
    Φ Outcome (if r.statusCode = 429 then do
        await (.incRequests .tooMany)
        await (.report429 p.url)
        throw "HTTP 429 Too Many Requests"
      else do
        await (.incRequests .success)
        await (.observeLatency p.method (r.latencyMs / 1000))
        pure ⟨.success, some r.statusCode, some r.latencyMs, some r.headers, some r.body, none⟩) := by
  split
  · exact h.bind (h.incRequests _) fun _ => h.bind (h.report429 _) fun _ => h.throw _
  · exact h.bind (h.incRequests _) fun _ => h.bind (h.observeLatency _ _) fun _ => h.pure _

lemma executeRequest (p : QueuePayload)
    (hrequest : Φ _ (HttpExecutor.execute p.method p.url p.headers p.payload)) :
    Φ _ (executeRequest p) :=
  h.tryCatch (h.bind hrequest fun r => h.afterRequest p r) fun e => h.requestFailed e

end HoldsOfReporting

lemma HoldsOfMoving.processDelayedTasks (h : HoldsOfMoving Φ) (codec : Codec δ) :
    Φ _ (processDelayedTasks codec) := by
  refine h.tryCatch (h.bind h.time fun now => h.bind (h.zrangebyscore _ _ _ _) fun due => ?_)
    fun _ => h.pure ()
  split
  · exact h.pure ()
  · split
    · exact h.move _ now
    · exact h.throw _

namespace HoldsOfPolling

variable (h : HoldsOfPolling Φ)
include h

lemma getPollQueues : Φ _ (getPollQueues : Coroutine δ (List PriorityQueue)) :=
  h.bind h.random fun _ => h.pure _

lemma consume (codec : Codec δ) : Φ _ (consume codec) := by
  refine h.tryCatch (h.bind (h.processDelayedTasks codec) fun _ => h.bind h.getPollQueues fun _ =>
    h.bind (h.blpop _) ?_) fun _ => h.pure none
  rintro (_ | ⟨q, d⟩)
  · exact h.pure none
  · dsimp only
    split
    · exact h.pure _
    · exact h.throw _

end HoldsOfPolling

end SecurityScanner

import SecurityScanner.Api.Submission
import SecurityScanner.Executor.Semaphore
import SecurityScanner.Lib.Discipline

/-!
# The payload of a task on the wire

A payload goes from a submission through the row of its task, the queue and the retries to the
request of a worker. All of these carry it as it is; the request drops what is false for
Python, and has a JSON body for objects only.
-/

namespace SecurityScanner

open Storage Interleaving

section request

/-- The request for a queued payload. -/
def QueuePayload.request (p : QueuePayload) : HttpRequest where
  method := upper p.method
  url := p.url
  headers := p.headers
  body := HttpExecutor.requestBody p.payload

/-- A text is a raw body, `null` and the empty text are no body, and all other values are JSON
bodies. -/
def wireBody : Json → RequestBody
  | .null => .none
  | .str s => if s = "" then .none else .data (.str s)
  | v => .json v

/-- `null`, a text or an object with a field. -/
def ReachesWire : Json → Prop
  | .null | .str _ | .obj (_ :: _) => True
  | _ => False

lemma requestBody_eq_wireBody_iff (v : Json) :
    HttpExecutor.requestBody v = wireBody v ↔ ReachesWire v := by
  cases v with
  | null => exact iff_of_true rfl trivial
  | bool b => cases b <;> exact iff_of_false nofun id
  | int n =>
    refine iff_of_false ?_ id
    unfold HttpExecutor.requestBody wireBody
    split <;> exact nofun
  | float q =>
    refine iff_of_false ?_ id
    unfold HttpExecutor.requestBody wireBody
    split <;> exact nofun
  | str s =>
    refine iff_of_true ?_ trivial
    by_cases hs : s = ""
    · simp [HttpExecutor.requestBody, wireBody, Json.truthy, hs]
    · simp [HttpExecutor.requestBody, wireBody, Json.truthy, hs]
  | arr xs =>
    refine iff_of_false ?_ id
    unfold HttpExecutor.requestBody wireBody
    split <;> exact nofun
  | obj fields =>
    cases fields with
    | nil => exact iff_of_false nofun id
    | cons kv fields => exact iff_of_true rfl trivial

end request

variable {δ : Type}

section requests

variable (codec : Codec δ) (settings : Settings) (w : WorkerId) (p : QueuePayload)

/-- Every call but the request of another payload. -/
def Cmd.RequestsOnly (p : QueuePayload) (c : Cmd δ) : Prop := ∀ r, c = .request r → r = p.request

variable {p} in
lemma requestsOnly_of_settles {c : Cmd δ} (h : c.settles = true) : c.RequestsOnly p := by
  rintro r rfl
  cases h

/-- The task of a payload makes no other request than the payload's. -/
lemma requestsOnly_processPayload :
    (processPayload codec settings w p).CallsOnly (Cmd.RequestsOnly p) := by
  have hsettles : ∀ {α} {q : Coroutine δ α}, Settles q → q.CallsOnly (Cmd.RequestsOnly p) :=
    fun hq => hq.mono fun _ => requestsOnly_of_settles
  have hreporting : HoldsOfReporting fun _ (q : Coroutine δ _) =>
      q.CallsOnly (Cmd.RequestsOnly p) :=
    reporting_callsOnly (fun _ => requestsOnly_of_settles rfl)
      (fun _ _ => requestsOnly_of_settles rfl) fun _ => requestsOnly_of_settles rfl
  have hrequest : (HttpExecutor.execute p.method p.url p.headers p.payload :
      Coroutine δ HttpResponse).CallsOnly (Cmd.RequestsOnly p) :=
    Prog.callsOnly_perform fun r hr => (Cmd.request.inj hr).symm
  have hattempt : (attemptPayload codec settings p).CallsOnly (Cmd.RequestsOnly p) :=
    attemptPayload_of (Prog.compositional_callsOnly _) (hsettles (settles_updateTaskStatus _ _))
      (Prog.callsOnly_perform nofun) (hreporting.executeRequest p hrequest)
      (fun o => hsettles (settles_saveResponse _ o))
      fun e => hsettles (settles_handleRetry codec settings p e)
  exact processPayload_of (Prog.compositional_callsOnly _) hattempt
    (fun e => hsettles (settles_criticalError p e)) (Prog.callsOnly_perform nofun)

/-- It may make that one. -/
lemma mayRequest_iff (r : HttpRequest) :
    (processPayload codec settings w p).MayCall (· = .request r) ↔ r = p.request := by
  constructor
  · intro h
    obtain ⟨c, hc, rfl⟩ := (requestsOnly_processPayload codec settings w p).exists_of_mayCall h
    exact hc r rfl
  · rintro rfl
    -- The mark may fail; once the limiter grants a token the request is sent.
    exact Or.inr ⟨.error "", Or.inr ⟨.ok true, Or.inl rfl⟩⟩

end requests

section queue

/-- One call of `submit_tasks`. -/
structure Submission where
  scanId : ScanId
  tasks : List TaskSubmit
  draws : Draws

/-- The payload of a submitted task, before its first attempt or before a retry. -/
def SubmittedAs (subs : List Submission) (t : TaskSubmit) (p : QueuePayload) : Prop :=
  ∃ sub ∈ subs, ∃ (i : ℕ) (attempt : Int), sub.tasks[i]? = some t ∧
    p = { t.queuePayload (t.row sub.scanId (sub.draws.uuid i)) (sub.draws.enqueuedAt i) with
      attempt }

lemma SubmittedAs.retry {subs : List Submission} {t : TaskSubmit} {p : QueuePayload}
    (h : SubmittedAs subs t p) : SubmittedAs subs t { p with attempt := p.attempt + 1 } := by
  obtain ⟨sub, hsub, i, attempt, ht, rfl⟩ := h
  exact ⟨sub, hsub, i, _, ht, rfl⟩

variable (codec : Codec δ) (subs : List Submission)

/-- A stored value is the dump of a submitted payload. -/
def StoredAs (d : δ) : Prop := ∃ t p, SubmittedAs subs t p ∧ d = codec.dump p

/-- Only submitted payloads are stored and worked on. -/
def submittedOnly : Discipline (Cmd δ) Reply where
  sends
    | .multi ws => ∀ q data, .rpush q data ∈ ws → ∀ d ∈ data, StoredAs codec subs d
    | .zadd d _ => StoredAs codec subs d
    | .createTask _ p => ∃ t, SubmittedAs subs t p
    | _ => True
  answers
    | .zrangebyscore .., ds => ∀ d ∈ ds, StoredAs codec subs d
    | .blpop _, some (_, d) => StoredAs codec subs d
    | _, _ => True

/-- A call that stores a payload or starts its task. -/
def Cmd.handsOn : Cmd δ → Bool
  | .multi _ | .zadd .. | .createTask .. => true
  | _ => false

variable {codec subs}

lemma StoredAs.isSome {d : δ} (h : StoredAs codec subs d) : (codec.validate d).isSome := by
  obtain ⟨t, p, -, rfl⟩ := h
  rw [codec.validate_dump]
  rfl

lemma sends_of_not_handsOn {c : Cmd δ} (h : c.handsOn = false) :
    (submittedOnly codec subs).sends c := by
  cases c <;> trivial

/-- A call that hands nothing on. -/
lemma keeps_await {c : Cmd δ} (h : c.handsOn = false) :
    (submittedOnly codec subs).Keeps (await c) ((submittedOnly codec subs).answers c) :=
  Discipline.keeps_perform (sends_of_not_handsOn h)

/-- What a transaction stores was there or is pushed. -/
lemma mem_stored_multi {ws : List (RedisWrite δ)} {R : Redis δ} {d : δ}
    (h : d ∈ (R.multi ws).stored) :
    d ∈ R.stored ∨ ∃ q data, RedisWrite.rpush q data ∈ ws ∧ d ∈ data := by
  induction ws generalizing R with
  | nil => exact Or.inl h
  | cons w ws ih =>
    change d ∈ ((R.write w).multi ws).stored at h
    rcases ih h with h | ⟨q, data, hmem, hd⟩
    · cases w with
      | rpush q data =>
        rcases Redis.mem_stored.mp h with ⟨q', h⟩ | h
        · by_cases hq : q' = q
          · subst hq
            simp only [Redis.write, Redis.rpush, Function.update_self, List.mem_append] at h
            rcases h with h | h
            · exact Or.inl (Redis.mem_stored.mpr (Or.inl ⟨q', h⟩))
            · exact Or.inr ⟨q', data, List.mem_cons_self, h⟩
          · simp only [Redis.write, Redis.rpush, Function.update_of_ne hq] at h
            exact Or.inl (Redis.mem_stored.mpr (Or.inl ⟨q', h⟩))
        · exact Or.inl (Redis.mem_stored.mpr (Or.inr h))
      | zremrangebyscore lo hi =>
        rcases Redis.mem_stored.mp h with h | h
        · exact Or.inl (Redis.mem_stored.mpr (Or.inl h))
        · have hmem := (R.delayed.members_perm_zremrangebyscore lo hi).mem_iff.mpr
            (List.mem_append_right _ h)
          exact Or.inl (Redis.mem_stored.mpr (Or.inr hmem))
    · exact Or.inr ⟨q, data, List.mem_cons_of_mem _ hmem, hd⟩

lemma keeps_processDelayedTasks :
    (submittedOnly codec subs).Keeps (processDelayedTasks codec) fun _ => True := by
  refine Discipline.Keeps.tryCatch ((keeps_await rfl).bind fun now _ =>
    (keeps_await rfl).bind fun due hdue => ?_) fun _ => trivial
  split
  · trivial
  · split
    · next grouped hgrouped =>
      refine (Discipline.keeps_perform fun q data hmem d hd => ?_).mono fun _ _ => trivial
      have hread := (mem_moveCommands (fun d hd => (hdue d hd).isSome) hgrouped now d).mp
        ⟨q, data, hmem, hd⟩
      exact hdue d hread
    · trivial

lemma keeps_consume :
    (submittedOnly codec subs).Keeps (consume codec) fun r =>
      ∀ p, r = some p → ∃ t, SubmittedAs subs t p := by
  refine Discipline.Keeps.tryCatch (keeps_processDelayedTasks.bind fun _ _ => ?_) fun _ => nofun
  have hqueues : (submittedOnly codec subs).Keeps (getPollQueues : Coroutine δ _) fun _ => True :=
    (keeps_await rfl).bind fun _ _ => trivial
  refine hqueues.bind fun qs _ => (keeps_await rfl).bind ?_
  rintro (_ | ⟨q, d⟩) hanswer
  · exact nofun
  · obtain ⟨t, p, hp, rfl⟩ := hanswer
    dsimp only
    rw [codec.validate_dump]
    rintro p' hp'
    exact Option.some.inj hp' ▸ ⟨t, hp⟩

lemma keeps_engineRound (w : WorkerId) :
    (submittedOnly codec subs).Keeps (engineRound codec w) fun _ => True := by
  refine (keeps_await rfl).bind fun _ _ => keeps_consume.bind ?_
  rintro (_ | p) hp
  · exact (keeps_await rfl).mono fun _ _ => trivial
  · exact (Discipline.keeps_perform (hp p rfl)).mono fun _ _ => trivial

/-- A call whose answer tells nothing. -/
lemma keeps_call {c : Cmd δ} (h : (submittedOnly codec subs).sends c) :
    (submittedOnly codec subs).Keeps (await c) fun _ => True :=
  (Discipline.keeps_perform h).mono fun _ _ => trivial

lemma keeps_recording :
    HoldsOfRecording fun _ (q : Coroutine δ _) => (submittedOnly codec subs).Keeps q fun _ => True :=
  { Discipline.compositional with
    getTask := fun _ => keeps_call trivial
    getScan := fun _ => keeps_call trivial
    selectResponse := fun _ => keeps_call trivial
    selectStatuses := fun _ => keeps_call trivial
    publish := fun _ => keeps_call trivial
    setTaskStatus := fun _ _ => keeps_call trivial
    setScanStatus := fun _ _ => keeps_call trivial }

lemma keeps_reporting :
    HoldsOfReporting fun _ (q : Coroutine δ _) => (submittedOnly codec subs).Keeps q fun _ => True :=
  { Discipline.compositional with
    incRequests := fun _ => keeps_call trivial
    observeLatency := fun _ _ => keeps_call trivial
    report429 := fun _ => keeps_call trivial }

/-- A retry stores the payload with its attempt counted, and nothing else changed. -/
lemma keeps_processPayload (settings : Settings) (w : WorkerId) {t : TaskSubmit}
    {p : QueuePayload} (hp : SubmittedAs subs t p) :
    (submittedOnly codec subs).Keeps (processPayload codec settings w p) fun _ => True := by
  have hsave : ∀ o, (submittedOnly codec subs).Keeps (saveResponse p.taskId o : Coroutine δ Unit)
      fun _ => True := fun o =>
    keeps_recording.saveResponse p.taskId o (fun _ => keeps_call trivial) fun _ _ =>
      keeps_call trivial
  have hdlq : ∀ reason, (submittedOnly codec subs).Keeps (sendToDlq p reason : Coroutine δ Bool)
      fun _ => True := fun _ => sendToDlq_of Discipline.compositional (keeps_call trivial)
  have hschedule : ∀ delay, (submittedOnly codec subs).Keeps
      (scheduleDelayed codec { p with attempt := p.attempt + 1 } delay) fun _ => True := fun _ =>
    scheduleDelayed_of Discipline.compositional (keeps_call trivial) fun _ =>
      keeps_call ⟨t, _, hp.retry, rfl⟩
  have hattempt : (submittedOnly codec subs).Keeps (attemptPayload codec settings p)
      fun _ => True :=
    attemptPayload_of Discipline.compositional (keeps_recording.updateTaskStatus _ _)
      (keeps_call trivial) (keeps_reporting.executeRequest p (keeps_call trivial)) hsave fun e =>
      keeps_recording.handleRetry settings p e (keeps_call trivial) (fun _ => hschedule) hdlq
  exact processPayload_of Discipline.compositional hattempt
    (fun e => criticalError_of Discipline.compositional hsave (hdlq e)) (keeps_call trivial)

end queue

section submission

variable {codec : Codec δ} {subs : List Submission}

/-- A batch pushes the dumps of its payloads. -/
lemma mem_batchCommands {payloads : List QueuePayload} {q : PriorityQueue} {data : List δ} {d : δ}
    (h : RedisWrite.rpush q data ∈ batchCommands codec payloads) (hd : d ∈ data) :
    ∃ p ∈ payloads, d = codec.dump p := by
  have hdec : ∀ d ∈ payloads.map codec.dump, (codec.validate d).isSome := by
    intro d hd
    obtain ⟨p, -, rfl⟩ := List.mem_map.mp hd
    rw [codec.validate_dump]
    rfl
  have hread := (mem_moveCommands hdec (groupDueTasks_dump codec payloads []) 0 d).mp
    ⟨q, data, List.mem_append_left _ h, hd⟩
  obtain ⟨p, hp, rfl⟩ := List.mem_map.mp hread
  exact ⟨p, hp, rfl⟩

/-- The payloads of a submission carry what was submitted. -/
lemma Submission.submittedAs {sub : Submission} (hsub : sub ∈ subs) {p : QueuePayload}
    (hp : p ∈ queuePayloads sub.scanId sub.tasks sub.draws) : ∃ t, SubmittedAs subs t p := by
  obtain ⟨⟨t, i⟩, hmem, rfl⟩ := List.mem_map.mp hp
  exact ⟨t, sub, hsub, i, 0, List.mem_zipIdx_iff_getElem?.mp hmem, rfl⟩

lemma keeps_submitTasks {sub : Submission} (hsub : sub ∈ subs) :
    (submittedOnly codec subs).Keeps (submitTasks codec sub.scanId sub.tasks sub.draws)
      fun _ => True := by
  refine submitTasks_of Discipline.compositional (keeps_call trivial) (fun _ => resumeScan_of
    Discipline.compositional (keeps_call trivial) (keeps_call trivial) fun _ => keeps_call trivial)
    (keeps_call trivial) (keeps_call fun q data hmem d hd => ?_)
  obtain ⟨p, hp, rfl⟩ := mem_batchCommands hmem hd
  obtain ⟨t, ht⟩ := Submission.submittedAs hsub hp
  exact ⟨t, p, ht, rfl⟩

end submission

section system

variable [DecidableEq δ] (codec : Codec δ) (settings : Settings) (subs : List Submission)

/-- Any number of engines with the route `submit_tasks`, where every call may raise that does
not go to the event loop. -/
def servingSystem : System (Cmd δ) Reply String (Store δ) (Fate Answer String) :=
  (workerSystem codec settings).raising fun c => !c.slotted

def Submission.thread (sub : Submission) : Thread (Cmd δ) Reply String :=
  ⟨do let _ ← submitTasks codec sub.scanId sub.tasks sub.draws, none⟩

/-- Engines and submissions over an empty queue. -/
def Serving (p : Pool (Cmd δ) Reply String (Store δ)) : Prop :=
  p.store.redis.stored = [] ∧
    ∀ t ∈ p.threads, (∃ w, t = engineThread codec w) ∨ ∃ sub ∈ subs, t = sub.thread codec

variable {codec settings subs}

/-- The queue stores what the discipline lets through, and gives nothing else back. -/
lemma submittedOnly_effect {c : Cmd δ} {a : Answer} {s s' : Store δ} {r : Except String (Reply c)}
    (hs : ∀ d ∈ s.redis.stored, StoredAs codec subs d) (hc : (submittedOnly codec subs).sends c)
    (he : s.effect codec c a = some (r, s')) :
    (∀ a, r = .ok a → (submittedOnly codec subs).answers c a) ∧
      ∀ d ∈ s'.redis.stored, StoredAs codec subs d := by
  cases c with
  | multi ws =>
    cases a <;> cases he
    refine ⟨fun _ _ => trivial, fun d hd => ?_⟩
    rcases mem_stored_multi hd with hd | ⟨q, data, hmem, hd⟩
    · exact hs d hd
    · exact hc q data hmem d hd
  | zadd data score =>
    cases a <;> cases he
    refine ⟨fun _ _ => trivial, fun d hd => ?_⟩
    rcases (mem_stored_zadd codec s.redis data d score).mp hd with rfl | hd
    · exact hc
    · exact hs d hd
  | zrangebyscore lo hi start num =>
    cases a <;> cases he
    refine ⟨fun ds hds d hd => hs d ?_, hs⟩
    have hread : d ∈ s.redis.delayed.zrangebyscore lo hi start num := Except.ok.inj hds ▸ hd
    have hmem := (s.redis.delayed.members_perm_zremrangebyscore lo hi).mem_iff.mpr
      (List.mem_append_left _ ((s.redis.delayed.zrangebyscore_sublist lo hi start num).subset hread))
    exact Redis.mem_stored.mpr (Or.inr hmem)
  | blpop qs =>
    cases a <;> cases he
    rcases hpop : (s.redis.blpop qs).1 with _ | ⟨q, d⟩
    · refine ⟨?_, fun d hd => hs d (blpop_eq_none hpop ▸ hd)⟩
      rintro _ h
      cases h
      trivial
    · have hperm := stored_blpop hpop
      refine ⟨?_, fun d' hd' => hs d' (hperm.mem_iff.mpr (List.mem_cons_of_mem _ hd'))⟩
      rintro _ h
      cases h
      exact hs d (hperm.mem_iff.mpr List.mem_cons_self)
  | commit ws =>
    cases a <;> simp only [Store.effect, reduceCtorEq] at he
    split at he <;> cases he <;> exact ⟨fun _ _ => trivial, hs⟩
  | random | semaphoreAcquire w =>
    cases a <;> simp only [Store.effect, reduceCtorEq] at he
    split at he <;> cases he
    exact ⟨fun _ _ => trivial, hs⟩
  | _ =>
    cases a <;> cases he
    exact ⟨fun _ _ => trivial, hs⟩

/-- In every run of engines and submissions the queue stores submitted payloads only, and the
threads work on nothing else. -/
lemma serving_submittedOnly {p : Pool (Cmd δ) Reply String (Store δ)}
    (h : Reachable (servingSystem codec settings) (fun _ _ => True) (Serving codec subs) p) :
    (∀ d ∈ p.store.redis.stored, StoredAs codec subs d) ∧
      ∀ t ∈ p.threads, (submittedOnly codec subs).Thread t := by
  refine h.disciplined (J := fun s => ∀ d ∈ s.redis.stored, StoredAs codec subs d) ?_ ?_ ?_
  · rintro p ⟨hempty, hthreads⟩
    refine ⟨by simp [hempty], fun t ht => ?_⟩
    rcases hthreads t ht with ⟨w, rfl⟩ | ⟨sub, hsub, rfl⟩
    · exact ⟨keeps_engineRound w, fun l hl => Option.some.inj hl ▸ keeps_engineRound w⟩
    · exact ⟨(keeps_submitTasks hsub).bind fun _ _ => trivial, nofun⟩
  · intro c r q hc hq
    cases c with
    | createTask w p =>
      obtain ⟨t, ht⟩ := hc
      exact Option.some.inj hq ▸ keeps_processPayload settings w ht
    | _ => cases hq
  · intro c fate s r s' hs hc he
    rcases System.raising_effect he with ⟨a, he⟩ | ⟨-, ⟨e, rfl⟩, hstate⟩
    · exact submittedOnly_effect hs hc he
    · refine ⟨nofun, ?_⟩
      rcases hstate with rfl | ⟨a, r', he⟩
      · exact hs
      · exact (submittedOnly_effect hs hc he).2

/-- The request of an attempt at a submitted task, the first one or a retry, has the body that
the payload should have exactly if the payload is `null`, a text or an object with a field. -/
theorem payload_reaches_wire_iff {p : Pool (Cmd δ) Reply String (Store δ)}
    (h : Reachable (servingSystem codec settings) (fun _ _ => True) (Serving codec subs) p)
    {t : Thread (Cmd δ) Reply String} (ht : t ∈ p.threads) {w : WorkerId} {q : QueuePayload}
    (hstart : t.body.head? = some (.createTask w q)) :
    ∃ task, SubmittedAs subs task q ∧ ∀ r,
      (processPayload codec settings w q).MayCall (· = .request r) →
        (r.body = wireBody task.payload ↔ ReachesWire task.payload) := by
  obtain ⟨task, htask⟩ := ((serving_submittedOnly h).2 t ht).head hstart
  refine ⟨task, htask, fun r hr => ?_⟩
  have hpayload : q.payload = task.payload := by
    obtain ⟨sub, -, i, attempt, -, rfl⟩ := htask
    rfl
  rw [(mayRequest_iff codec settings w q r).mp hr, QueuePayload.request, hpayload]
  exact requestBody_eq_wireBody_iff task.payload

end system

section examples

/-- A submission of one task with the payload `v`. -/
def submitOne (v : Json) : Submission where
  scanId := 0
  tasks := [{ method := "POST", url := "http://target.example/items", payload := v }]
  draws := { uuid := id, enqueuedAt := fun _ => "" }

/-- An engine and the submission, for a scan that is running. -/
def serveOne (v : Json) : Pool (Cmd QueuePayload) Reply String (Store QueuePayload) where
  store := { db := { scans := .single ⟨0, "scan", "target.example", .running, none⟩ } }
  threads := [engineThread Codec.payloads 0, (submitOne v).thread Codec.payloads]

/-- The payloads whose tasks are about to start. -/
def startingPayloads (p : Pool (Cmd QueuePayload) Reply String (Store QueuePayload)) :
    List QueuePayload :=
  p.threads.filterMap fun t => match t.body.head? with
    | some (.createTask _ q) => some q
    | _ => none

/-- The submission, and the round of the engine that takes its task up. -/
def serveToStart : List (Act (Fate Answer String)) :=
  [.run 1 (.answered .done), .run 1 (.answered .done), .run 1 (.answered .done),
    .run 0 (.answered .done), .run 0 (.answered (.clock 0)), .run 0 (.answered .done),
    .run 0 (.answered (.random 0)), .run 0 (.answered .done)]

lemma submitOne_starts {v : Json}
    (hrun : ((serveOne v).runActs (servingSystem Codec.payloads {}) (fun _ _ => True)
      serveToStart).map (fun p => (startingPayloads p).map QueuePayload.payload) = some [v]) :
    ∃ p, Reachable (servingSystem Codec.payloads {}) (fun _ _ => True)
        (Serving Codec.payloads [submitOne v]) p ∧
      ∃ t ∈ p.threads, ∃ w q, t.body.head? = some (.createTask w q) ∧ q.payload = v := by
  have hserving : Serving Codec.payloads [submitOne v] (serveOne v) := by
    refine ⟨rfl, fun t ht => ?_⟩
    simp only [serveOne, List.mem_cons, List.not_mem_nil, or_false] at ht
    rcases ht with rfl | rfl
    · exact Or.inl ⟨0, rfl⟩
    · exact Or.inr ⟨_, List.mem_cons_self, rfl⟩
  obtain ⟨p, hp, hstarting⟩ := Reachable.of_shown hserving hrun
  have hmem : v ∈ (startingPayloads p).map QueuePayload.payload := by simp [hstarting]
  obtain ⟨q, hq, rfl⟩ := List.mem_map.mp hmem
  obtain ⟨t, ht, hhead⟩ := List.mem_filterMap.mp hq
  refine ⟨p, hp, t, ht, ?_⟩
  split at hhead
  · next w q' hcall =>
    obtain rfl := Option.some.inj hhead
    exact ⟨w, q', hcall, rfl⟩
  · cases hhead

/-- A text is the body of its request as it is. -/
theorem payload_reaches_wire_iff_text :
    ∃ p, Reachable (servingSystem Codec.payloads {}) (fun _ _ => True)
        (Serving Codec.payloads [submitOne (.str "a=1")]) p ∧
      ∃ t ∈ p.threads, ∃ w q, t.body.head? = some (.createTask w q) ∧ ∀ r,
        (processPayload Codec.payloads {} w q).MayCall (· = .request r) →
          r.body = .data (.str "a=1") := by
  obtain ⟨p, hp, t, ht, w, q, hstart, hq⟩ := submitOne_starts (v := .str "a=1") (by decide +kernel)
  obtain ⟨task, htask, hrequest⟩ := payload_reaches_wire_iff hp ht hstart
  have hpayload : task.payload = .str "a=1" := by
    obtain ⟨sub, -, i, attempt, -, rfl⟩ := htask
    exact hq
  refine ⟨p, hp, t, ht, w, q, hstart, fun r hr => ?_⟩
  have hiff := hrequest r hr
  rw [hpayload] at hiff
  exact hiff.mpr trivial

/-- An array goes out as it is and not as JSON. -/
theorem array_is_sent_as_data :
    ∃ p, Reachable (servingSystem Codec.payloads {}) (fun _ _ => True)
        (Serving Codec.payloads [submitOne (.arr [.int 1])]) p ∧
      ∃ t ∈ p.threads, ∃ w q, t.body.head? = some (.createTask w q) ∧ q.payload = .arr [.int 1] ∧
        ∃ r, (processPayload Codec.payloads {} w q).MayCall (· = .request r) ∧
          r.body = .data (.arr [.int 1]) ∧ r.body ≠ wireBody (.arr [.int 1]) := by
  obtain ⟨p, hp, t, ht, w, q, hstart, hq⟩ := submitOne_starts (v := .arr [.int 1])
    (by decide +kernel)
  refine ⟨p, hp, t, ht, w, q, hstart, hq, q.request, ?_, ?_⟩
  · exact (mayRequest_iff Codec.payloads {} w q q.request).mpr rfl
  · have hbody : q.request.body = .data (.arr [.int 1]) := by
      rw [QueuePayload.request, hq]
      rfl
    exact ⟨hbody, by rw [hbody]; exact nofun⟩

end examples

end SecurityScanner

import SecurityScanner.Api.RequestBudget
import SecurityScanner.Executor.EngineProtocol

/-!
# What the calls of the workers rest on

In every run of engines and submissions, whatever raises, calls correspond to replies before
them, one to one: an event to a commit, a request to a permit of the limiter, a report to an
answer 429, and what becomes of a payload to its delivery.
-/

namespace SecurityScanner

open Storage Interleaving

deriving instance DecidableEq for Event

variable {δ : Type}

section parts

/-- A call that neither publishes nor sends nor reports. -/
def Cmd.plain : Cmd δ → Bool
  | .publish _ | .request _ | .report429 _ => false
  | _ => true

/-- The program makes plain calls only. -/
abbrev Plain {α : Type} (q : Coroutine δ α) : Prop := q.CallsOnly fun c => c.plain = true

lemma plain_await {c : Cmd δ} (h : c.plain = true) : Plain (await c) := Prog.callsOnly_perform h

variable {codec : Codec δ}

lemma polls_polling : HoldsOfPolling fun _ (q : Coroutine δ _) =>
    q.CallsOnly fun c => c.polls = true :=
  polling_callsOnly (moving_callsOnly rfl (fun _ _ _ _ => rfl) fun _ _ => rfl) rfl fun _ => rfl

/-- A call of a submission. -/
def Cmd.submits : Cmd δ → Bool
  | .time | .getScan _ | .commit _ | .multi _ => true
  | _ => false

lemma submits_await {c : Cmd δ} (h : c.submits = true) :
    (await c).CallsOnly fun c => c.submits = true := Prog.callsOnly_perform h

lemma submits_submission (sub : Submission) :
    (sub.thread codec).body.CallsOnly fun c => c.submits = true := by
  have hresume : ∀ scan, (resumeScan scan : Coroutine δ Unit).CallsOnly
      fun c => c.submits = true := fun _ => resumeScan_of (Prog.compositional_callsOnly _)
    (submits_await rfl) (submits_await rfl) fun _ => submits_await rfl
  have hsubmit : (submitTasks codec sub.scanId sub.tasks sub.draws).CallsOnly
      fun c => c.submits = true := submitTasks_of (Prog.compositional_callsOnly _)
    (submits_await rfl) hresume (submits_await rfl) (submits_await rfl)
  exact hsubmit.bind fun _ => trivial

lemma plain_engineRound (w : WorkerId) : Plain (engineRound codec w) := by
  have hconsume : Plain (consume codec) :=
    (polls_polling.consume codec).mono fun c hc => by cases c <;> first | rfl | cases hc
  exact engineRound_of (Prog.compositional_callsOnly _) (plain_await rfl) hconsume (plain_await rfl)
    fun _ => plain_await rfl

lemma plain_submission (sub : Submission) : Plain (sub.thread codec).body :=
  (submits_submission sub).mono fun c hc => by cases c <;> first | rfl | cases hc

variable {T : Tariff (Cmd δ) Reply String} (hplain : ∀ c : Cmd δ, c.plain = true → T.cost c = 0)

include hplain

lemma Plain.spends {α : Type} {q : Coroutine δ α} (h : Plain q) : T.Spends 0 q :=
  (h.mono hplain).free

lemma spends_sendToDlq (p : QueuePayload) (reason : String) :
    T.Spends 0 (sendToDlq p reason : Coroutine δ Bool) :=
  sendToDlq_of Tariff.compositional ((plain_await rfl).spends hplain)

lemma spends_handleRetry (hstatus : ∀ id st, T.Spends 0 (updateTaskStatus id st : Coroutine δ Unit))
    (settings : Settings) (p : QueuePayload) (e : String) :
    T.Spends 0 (handleRetry codec settings p e) :=
  handleRetry_of Tariff.compositional ((plain_await rfl).spends hplain) (hstatus _)
    (fun _ _ => scheduleDelayed_of Tariff.compositional ((plain_await rfl).spends hplain)
      fun _ => (plain_await rfl).spends hplain) (spends_sendToDlq hplain p)

/-- An attempt pays for its request, and an answer 429 for the report of it. -/
lemma spends_executeRequest_of_report (p : QueuePayload)
    (hreport : ∀ resp : HttpResponse, resp.statusCode = 429 →
      T.cost (.report429 p.url) ≤ T.income (.request p.request) (.ok resp)) :
    T.Spends (T.cost (.request p.request)) (executeRequest p) := by
  refine Tariff.Spends.tryCatch (m := 0) ?_ fun e =>
    requestFailed_of Tariff.compositional ((plain_await rfl).spends hplain) e
  refine Tariff.Spends.call (m := 0) (c := Cmd.request p.request) fun resp _ => ?_
  have hafter : ∀ c : Cmd δ, c.plain = true → T.Spends 0 (await c) :=
    fun c hc => (plain_await hc).spends hplain
  split
  · next h429 =>
    have hpaid := hreport resp h429
    refine Tariff.Spends.mono ((hafter _ rfl).bind fun _ => (Tariff.spends_perform _).bind
      (m := 0) fun _ => Plain.spends hplain (Prog.callsOnly_throw _)) ?_
    omega
  · refine Tariff.Spends.mono ((hafter _ rfl).bind fun _ => (hafter _ rfl).bind (m := 0) fun _ =>
      Plain.spends hplain (Prog.callsOnly_pure _)) (Nat.zero_le _)

/-- A payload is processed without cost if its request is paid for by the permit. -/
lemma spends_processPayload
    (hstatus : ∀ id st, T.Spends 0 (updateTaskStatus id st : Coroutine δ Unit))
    (hsave : ∀ id o, T.Spends 0 (saveResponse id o : Coroutine δ Unit)) (p : QueuePayload)
    (hrequest : T.Spends (T.income (.acquire p.url p.scanId) (.ok true)) (executeRequest p))
    (settings : Settings) (w : WorkerId) : T.Spends 0 (processPayload codec settings w p) := by
  have hattempt : T.Spends 0 (attemptPayload codec settings p) := by
    refine Tariff.Spends.bind (n := 0) (m := 0) (hstatus _ _) fun _ => ?_
    have hacquire : T.Spends (T.cost (.acquire p.url p.scanId) + 0) (do
        if ← await (.acquire p.url p.scanId) then
          let o ← executeRequest p
          saveResponse p.taskId o
          if o.taskStatus = .failed then
            handleRetry codec settings p (o.errorMessage.getD "")
        else throw "Rate limit timeout exceeded") := by
      refine Tariff.Spends.call fun granted _ => ?_
      cases granted with
      | true =>
        refine (hrequest.bind (m := 0) fun o => (hsave p.taskId o).bind (m := 0) fun _ => ?_).mono
          (by omega)
        split
        · exact spends_handleRetry hplain hstatus settings p _
        · exact Plain.spends hplain (Prog.callsOnly_pure _)
      | false => exact (Plain.spends hplain (Prog.callsOnly_throw _)).mono (Nat.zero_le _)
    rwa [hplain _ rfl] at hacquire
  exact processPayload_of Tariff.compositional hattempt (fun e => criticalError_of
    Tariff.compositional (hsave _) (spends_sendToDlq hplain p e)) ((plain_await rfl).spends hplain)

end parts

section runs

variable {X : Type} [DecidableEq X] {K : Correspondence (Cmd δ) Reply X}

lemma cost_eq_zero (huses : ∀ c : Cmd δ, c.plain = true → K.uses c = none)
    (hgives : ∀ c, K.gives c = none) (x : X) (c : Cmd δ) (h : c.plain = true) :
    (K.tariff x : Tariff (Cmd δ) Reply String).cost c = 0 := by
  simp [Correspondence.tariff, huses c h, hgives c]

variable [DecidableEq δ] {codec : Codec δ} {settings : Settings}
  {ok : LoggedPool δ → Act (Fate Answer String) → Prop}

/-- When every payload is processed without cost, runs use up what they were brought. -/
lemma used_subperm_brought (huses : ∀ c : Cmd δ, c.plain = true → K.uses c = none)
    (hgives : ∀ c, K.gives c = none)
    (hanswers : ∀ (c : Cmd δ) a s x s', Store.effect codec c a s = some (.ok x, s') →
      K.answers c x)
    (hprocess : ∀ x w p, (K.tariff x : Tariff (Cmd δ) Reply String).Spends 0
      (processPayload codec settings w p))
    {store : Store δ} {engines : List WorkerId} {subs : List Submission} {p : LoggedPool δ}
    (h : Reachable (loggedSystem codec settings) ok (· = serving codec store engines subs) p) :
    (K.used p.store.2).Subperm (K.brought p.store.2) := by
  have hsolvent : ∀ (x : X) {q : Coroutine δ Unit}, q.head? ≠ none →
      (K.tariff x : Tariff (Cmd δ) Reply String).Spends 0 q →
        Follows (K.tariff x).protocol 0 q fun _ g => g = 0 :=
    fun x q hq hspends => Tariff.follows_spent (hspends 0 (Nat.le_refl 0)) hq
  refine h.corresponds (fun c r hmay => ?_) hanswers (fun x c r q hq => ?_) ?_
  · cases c with
    | createTask w p => cases hmay
    | _ => rfl
  · have hshare : (K.tariff x : Tariff (Cmd δ) Reply String).share c = 0 := by
      simp [Correspondence.tariff, hgives c]
    rw [hshare]
    cases c with
    | createTask w p => exact Option.some.inj hq ▸ hsolvent x nofun (hprocess x w p)
    | _ => cases hq
  · rintro _ rfl
    refine ⟨rfl, fun x t ht => ?_⟩
    have hplain := cost_eq_zero huses hgives x
    rcases List.mem_append.mp ht with ht | ht
    · obtain ⟨w, -, rfl⟩ := List.mem_map.mp ht
      have hround := hsolvent x (q := engineRound codec w) nofun
        ((plain_engineRound w).spends hplain)
      exact ⟨hround, fun l hl => Option.some.inj hl ▸ hround⟩
    · obtain ⟨sub, -, rfl⟩ := List.mem_map.mp ht
      exact ⟨hsolvent x nofun ((plain_submission sub).spends hplain), nofun⟩

end runs

section permits

/-- The urls that the limiter let a request through to. -/
def CallLog.permits (log : CallLog δ) : List String :=
  log.filterMap fun e => match e with
    | ⟨.acquire url _, .ok true⟩ => some url
    | _ => none

/-- A request uses a permit for its url. -/
def permitted : Correspondence (Cmd δ) Reply String where
  uses
    | .request r => some r.url
    | _ => none
  brings
    | .acquire url _, true => some url
    | _, _ => none

/-- Coroutines that record use no permit. -/
lemma spends_of_records {K : Correspondence (Cmd δ) Reply String}
    (h : ∀ c : Cmd δ, c.records = true → K.uses c = none ∧ K.gives c = none) (x : String)
    {α : Type} {q : Coroutine δ α} (hq : Records q) :
    (K.tariff x : Tariff (Cmd δ) Reply String).Spends 0 q := by
  refine (hq.mono fun c hc => ?_).free
  simp [Correspondence.tariff, (h c hc).1, (h c hc).2]

variable [DecidableEq δ] {codec : Codec δ} {settings : Settings}
  {ok : LoggedPool δ → Act (Fate Answer String) → Prop}

/-- Every request of a run rests on a permit that the limiter granted for its url, and no two
requests rest on the same one. -/
theorem requests_have_permits {store : Store δ} {engines : List WorkerId} {subs : List Submission}
    {p : LoggedPool δ}
    (h : Reachable (loggedSystem codec settings) ok (· = serving codec store engines subs) p) :
    (p.store.2.requests.map HttpRequest.url).Subperm p.store.2.permits := by
  have huses : ∀ c : Cmd δ, c.plain = true → permitted.uses c = none := by
    intro c hc
    cases c <;> first | rfl | cases hc
  have hrecords := spends_of_records (K := permitted (δ := δ)) fun c hc => by
    cases c <;> first | exact ⟨rfl, rfl⟩ | cases hc
  have hsub := used_subperm_brought huses (fun _ => rfl) (fun _ _ _ _ _ _ => trivial)
    (fun url w q => ?_) h
  · have hused : permitted.used p.store.2 = p.store.2.requests.map HttpRequest.url := by
      rw [Correspondence.used, CallLog.requests, List.map_filterMap]
      refine List.filterMap_congr fun e _ => ?_
      obtain ⟨c, r⟩ := e
      cases c <;> rfl
    have hbrought : permitted.brought p.store.2 = p.store.2.permits := by
      refine List.filterMap_congr fun e _ => ?_
      obtain ⟨c, r⟩ := e
      cases c with
      | acquire url scan => rcases r with e | _ | _ <;> rfl
      | _ => cases r <;> rfl
    rwa [hused, hbrought] at hsub
  · have hplain := cost_eq_zero huses (fun _ => rfl) url
    refine spends_processPayload hplain (fun id st => hrecords url (records_updateTaskStatus id st))
      (fun id o => hrecords url (records_saveResponse id o)) q ?_ settings w
    exact spends_executeRequest_of_report hplain q fun _ _ => Nat.zero_le _

/-- The urls whose answers 429 were reported to the limiter. -/
def CallLog.reports (log : CallLog δ) : List String :=
  log.filterMap fun e => match e.1 with
    | .report429 url => some url
    | _ => none

/-- The urls that answered 429. -/
def CallLog.tooMany (log : CallLog δ) : List String :=
  log.filterMap fun e => match e with
    | ⟨.request r, .ok resp⟩ => if resp.statusCode = 429 then some r.url else none
    | _ => none

/-- A report to the limiter uses an answer 429. -/
def reported : Correspondence (Cmd δ) Reply String where
  uses
    | .report429 url => some url
    | _ => none
  brings
    | .request r, resp => if resp.statusCode = 429 then some r.url else none
    | _, _ => none

/-- The limiter hears of an answer 429 only when there was one, and of each at most once. -/
theorem reports_answer_429 {store : Store δ} {engines : List WorkerId} {subs : List Submission}
    {p : LoggedPool δ}
    (h : Reachable (loggedSystem codec settings) ok (· = serving codec store engines subs) p) :
    p.store.2.reports.Subperm p.store.2.tooMany := by
  have huses : ∀ c : Cmd δ, c.plain = true → reported.uses c = none := by
    intro c hc
    cases c <;> first | rfl | cases hc
  have hrecords := spends_of_records (K := reported (δ := δ)) fun c hc => by
    cases c <;> first | exact ⟨rfl, rfl⟩ | cases hc
  have hsub := used_subperm_brought huses (fun _ => rfl) (fun _ _ _ _ _ _ => trivial)
    (fun url w q => ?_) h
  · have hbrought : reported.brought p.store.2 = p.store.2.tooMany := by
      refine List.filterMap_congr fun e _ => ?_
      obtain ⟨c, r⟩ := e
      cases c <;> cases r <;> rfl
    rwa [hbrought] at hsub
  · have hplain := cost_eq_zero huses (fun _ => rfl) url
    refine spends_processPayload hplain (fun id st => hrecords url (records_updateTaskStatus id st))
      (fun id o => hrecords url (records_saveResponse id o)) q ?_ settings w
    refine (spends_executeRequest_of_report hplain q fun resp h429 => ?_).mono (Nat.zero_le _)
    simp [Correspondence.tariff, reported, h429, QueuePayload.request]

/-- The permit of the request that timed out. -/
theorem requests_have_permits_timeout :
    ∃ p, Reachable (loggedSystem Codec.payloads {}) MoversApart
        (· = serving Codec.payloads runningScan [0] [submitOnce]) p ∧
      p.store.2.permits = ["http://target.example/items"] ∧
      (p.store.2.requests.map HttpRequest.url).Subperm p.store.2.permits := by
  obtain ⟨p, hp, hpermits⟩ := submitOnce_shows timeoutOnce
    (f := fun p => p.store.2.permits) (v := ["http://target.example/items"]) (by decide +kernel)
  exact ⟨p, hp, hpermits, requests_have_permits hp⟩

/-- The request is answered 429, and the answer reported. -/
def reportOnce : List (Act (Fate Answer String)) :=
  timeoutOnce.take 13 ++ [.run 2 (.answered (.http (.ok ⟨429, 5, [], ""⟩))),
    .run 2 (.answered .done), .run 2 (.answered .done)]

theorem reports_answer_429_once :
    ∃ p, Reachable (loggedSystem Codec.payloads {}) MoversApart
        (· = serving Codec.payloads runningScan [0] [submitOnce]) p ∧
      p.store.2.reports = ["http://target.example/items"] ∧
      p.store.2.reports.Subperm p.store.2.tooMany := by
  obtain ⟨p, hp, hreports⟩ := submitOnce_shows reportOnce
    (f := fun p => p.store.2.reports) (v := ["http://target.example/items"]) (by decide +kernel)
  exact ⟨p, hp, hreports, reports_answer_429 hp⟩

end permits

section events

/-- The events that were published, in order. -/
def CallLog.published (log : CallLog δ) : List Event :=
  log.filterMap fun e => match e.1 with
    | .publish e => some e
    | _ => none

/-- The response that a session writes. -/
def Write.response? : Write → Option ScanResponse
  | .insertResponse r | .updateResponse _ r => some r
  | _ => none

/-- What there is to tell of a transaction. -/
def announcement : List Write → Option Event
  | [.updateTask loaded new] => some (.taskStatusUpdated loaded.id loaded.scanId new.status)
  | [.updateTask loaded new, w] => w.response?.map fun r =>
    .taskCompleted loaded.id loaded.scanId new.status r.statusCode r.latencyMs
  | [.updateScan loaded new] => some (.scanCompleted loaded.id new.status)
  | _ => none

/-- What there is to tell of the transactions that were committed. -/
def CallLog.announcements (log : CallLog δ) : List Event :=
  log.filterMap fun e => match e with
    | ⟨.commit ws, .ok _⟩ => announcement ws
    | _ => none

/-- An event uses a commit that it tells of. -/
def announced : Correspondence (Cmd δ) Reply Event where
  uses
    | .publish e => some e
    | _ => none
  brings
    | .commit ws, _ => announcement ws
    | _, _ => none
  answers
    | .getTask id, some t => t.id = id
    | .getScan id, some sc => sc.id = id
    | _, _ => True

variable {e : Event}

lemma announced_free {α : Type} {q : Coroutine δ α}
    (h : q.CallsOnly fun c => announced.uses c = none) :
    (announced.tariff e : Tariff (Cmd δ) Reply String).Spends 0 q := by
  refine (h.mono fun c hc => ?_).free
  have hgives : announced.gives c = none := rfl
  simp [Correspondence.tariff, hc, hgives]

lemma spends_publishEvent (e' : Event) :
    (announced.tariff e : Tariff (Cmd δ) Reply String).Spends (if e' = e then 1 else 0)
      (publishEvent e' : Coroutine δ Unit) := by
  have hcost : (announced.tariff e : Tariff (Cmd δ) Reply String).cost (.publish e') =
      if e' = e then 1 else 0 := by
    simp [Correspondence.tariff, announced]
  have hpublish := (announced.tariff e).spends_perform (ε := String) (.publish e' : Cmd δ)
  rw [hcost] at hpublish
  exact hpublish.tryCatch (m := 0) fun _ => announced_free trivial

/-- A commit pays for the event that tells of it. -/
lemma spends_announce {ws : List Write} {e' : Event} {q : Coroutine δ Unit}
    (hws : announcement ws = some e')
    (hq : (announced.tariff e : Tariff (Cmd δ) Reply String).Spends (if e' = e then 1 else 0) q) :
    (announced.tariff e : Tariff (Cmd δ) Reply String).Spends 0
      (await (.commit ws) >>= fun _ => q) := by
  refine Tariff.Spends.call (m := 0) (c := Cmd.commit ws) fun _ _ => ?_
  have hincome : (announced.tariff e : Tariff (Cmd δ) Reply String).income (.commit ws) (.ok ()) =
      if e' = e then 1 else 0 := by
    simp [Correspondence.tariff, announced, hws]
  rw [hincome, Nat.zero_add]
  exact hq

lemma spends_updateTaskStatus (id : TaskId) (st : TaskStatus) :
    (announced.tariff e : Tariff (Cmd δ) Reply String).Spends 0
      (updateTaskStatus id st : Coroutine δ Unit) := by
  refine Tariff.Spends.tryCatch (n := 0) (m := 0) ?_ fun _ => announced_free trivial
  refine Tariff.Spends.call (m := 0) (c := Cmd.getTask id) fun dbTask hid => ?_
  cases dbTask with
  | none => exact announced_free trivial
  | some task =>
    obtain rfl : task.id = id := hid
    exact spends_announce rfl (spends_publishEvent _)

lemma spends_evaluateScanCompletion (scan : ScanId) :
    (announced.tariff e : Tariff (Cmd δ) Reply String).Spends 0
      (evaluateScanCompletion scan : Coroutine δ Unit) := by
  refine Tariff.Spends.tryCatch (n := 0) (m := 0) ?_ fun _ => announced_free trivial
  refine Tariff.Spends.call (m := 0) (c := Cmd.getScan scan) fun dbScan hid => ?_
  cases dbScan with
  | none => exact announced_free trivial
  | some sc =>
    obtain rfl : sc.id = scan := hid
    refine Tariff.Spends.call (m := 0) (c := Cmd.selectStatuses sc.id) fun statuses _ => ?_
    split
    · exact announced_free trivial
    · split
      · exact announced_free trivial
      · exact spends_announce rfl (spends_publishEvent _)

lemma spends_saveResponse_announced (id : TaskId) (o : Outcome) :
    (announced.tariff e : Tariff (Cmd δ) Reply String).Spends 0
      (saveResponse id o : Coroutine δ Unit) := by
  refine Tariff.Spends.tryCatch (n := 0) (m := 0) ?_ fun _ => announced_free trivial
  refine Tariff.Spends.call (m := 0) (c := Cmd.getTask id) fun dbTask hid => ?_
  refine Tariff.Spends.call (m := 0) (c := Cmd.selectResponse id) fun response _ => ?_
  cases dbTask with
  | none =>
    refine Tariff.Spends.bind (n := 0) (m := 0) ?_ fun _ => announced_free trivial
    exact announced_free (Prog.callsOnly_perform rfl)
  | some t =>
    obtain rfl : t.id = id := hid
    have htells : announcement ([.updateTask t { t with status := o.taskStatus, attempts :=
        t.attempts + 1 }] ++ [responseWrite t.id o response]) =
          some (.taskCompleted t.id t.scanId o.taskStatus o.statusCode o.latencyMs) := by
      cases response <;> rfl
    exact spends_announce htells ((spends_publishEvent _).bind (m := 0) fun _ =>
      spends_evaluateScanCompletion _)

variable [DecidableEq δ] {codec : Codec δ} {settings : Settings}
  {ok : LoggedPool δ → Act (Fate Answer String) → Prop}

lemma announced_answers (c : Cmd δ) (a : Answer) (s : Store δ) (x : Reply c) (s' : Store δ)
    (h : Store.effect codec c a s = some (.ok x, s')) : announced.answers c x := by
  cases c with
  | getTask id =>
    cases a <;> cases h
    cases hrow : s.db.tasks.find? id with
    | none => trivial
    | some t => exact (Table.find?_eq_some_iff.mp hrow).2
  | getScan id =>
    cases a <;> cases h
    cases hrow : s.db.scans.find? id with
    | none => trivial
    | some sc => exact (Table.find?_eq_some_iff.mp hrow).2
  | _ => trivial

/-- Every event of a run tells of a transaction that was committed before, and no two events
tell of the same one. -/
theorem events_announce_commits {store : Store δ} {engines : List WorkerId}
    {subs : List Submission} {p : LoggedPool δ}
    (h : Reachable (loggedSystem codec settings) ok (· = serving codec store engines subs) p) :
    p.store.2.published.Subperm p.store.2.announcements := by
  have huses : ∀ c : Cmd δ, c.plain = true → announced.uses c = none := by
    intro c hc
    cases c <;> first | rfl | cases hc
  have hsub := used_subperm_brought huses (fun _ => rfl) announced_answers (fun e w q => ?_) h
  · have hbrought : announced.brought p.store.2 = p.store.2.announcements := by
      refine List.filterMap_congr fun e _ => ?_
      obtain ⟨c, r⟩ := e
      cases c <;> cases r <;> rfl
    rwa [hbrought] at hsub
  · have hplain := cost_eq_zero huses (fun _ => rfl) e
    refine spends_processPayload hplain spends_updateTaskStatus spends_saveResponse_announced q ?_
      settings w
    exact (spends_executeRequest_of_report hplain q fun _ _ => Nat.zero_le _).mono (Nat.zero_le _)

/-- The event of the saved response; that of the status was lost. -/
theorem events_announce_commits_timeout :
    ∃ p, Reachable (loggedSystem Codec.payloads {}) MoversApart
        (· = serving Codec.payloads runningScan [0] [submitOnce]) p ∧
      p.store.2.published = [.taskCompleted 0 0 .failed none none] ∧
      p.store.2.published.Subperm p.store.2.announcements := by
  obtain ⟨p, hp, hpublished⟩ := submitOnce_shows (timeoutOnce ++ [.run 2 (.answered .done)])
    (f := fun p => p.store.2.published) (v := [.taskCompleted 0 0 .failed none none])
    (by decide +kernel)
  exact ⟨p, hp, hpublished, events_announce_commits hp⟩

end events

section handing

variable (codec : Codec δ)

/-- The tasks whose payloads were popped from the queue. -/
def CallLog.taken (log : CallLog δ) : List TaskId :=
  log.filterMap fun e => match e with
    | ⟨.blpop _, .ok (some (_, d))⟩ => (codec.validate d).map QueuePayload.taskId
    | _ => none

/-- The tasks whose payloads were scheduled for a retry or sent to the dead letters. -/
def CallLog.handedOn (log : CallLog δ) : List TaskId :=
  log.filterMap fun e => match e.1 with
    | .zadd d _ => (codec.validate d).map QueuePayload.taskId
    | .rpushDlq p _ => some p.taskId
    | _ => none

/-- A payload that is handed on was taken; the loop gives it to the task that it starts. -/
def handing : Correspondence (Cmd δ) Reply TaskId where
  uses
    | .zadd d _ => (codec.validate d).map QueuePayload.taskId
    | .rpushDlq p _ => some p.taskId
    | _ => none
  brings
    | .blpop _, some (_, d) => (codec.validate d).map QueuePayload.taskId
    | _, _ => none
  gives
    | .createTask _ p => some p.taskId
    | _ => none

/-- A call that neither hands a payload on nor starts its task. -/
def Cmd.holds : Cmd δ → Bool
  | .zadd .. | .rpushDlq .. | .createTask .. => false
  | _ => true

abbrev Holds {α : Type} (q : Coroutine δ α) : Prop := q.CallsOnly fun c => c.holds = true

variable {codec} {t : TaskId}

/-- The credit of a payload of the task `t`. -/
def QueuePayload.credit (t : TaskId) (p : QueuePayload) : ℕ := if p.taskId = t then 1 else 0

lemma Holds.spends {α : Type} {q : Coroutine δ α} (h : Holds q) :
    ((handing codec).tariff t : Tariff (Cmd δ) Reply String).Spends 0 q := by
  refine (h.mono fun c hc => ?_).free
  cases c <;> first | rfl | cases hc

lemma holds_await {c : Cmd δ} (h : c.holds = true) : Holds (await c) := Prog.callsOnly_perform h

lemma holds_of_records {α : Type} {q : Coroutine δ α} (h : Records q) : Holds q :=
  h.mono fun c hc => by cases c <;> first | rfl | cases hc

lemma holds_reporting : HoldsOfReporting fun _ (q : Coroutine δ _) => Holds q :=
  reporting_callsOnly (fun _ => rfl) (fun _ _ => rfl) fun _ => rfl

lemma holds_polling : HoldsOfPolling fun _ (q : Coroutine δ _) => Holds q :=
  polling_callsOnly (moving_callsOnly rfl (fun _ _ _ _ => rfl) fun _ _ => rfl) rfl fun _ => rfl

/-- A call that hands on a payload of the task costs its credit. -/
lemma spends_handOn {c : Cmd δ} {p : QueuePayload} (huses : (handing codec).uses c = some p.taskId)
    (hgives : (handing codec).gives c = none) :
    ((handing codec).tariff t : Tariff (Cmd δ) Reply String).Spends (p.credit t) (await c) := by
  have hpay := ((handing codec).tariff t).spends_perform (ε := String) c
  have hcost : ((handing codec).tariff t : Tariff (Cmd δ) Reply String).cost c = p.credit t := by
    simp [Correspondence.tariff, huses, hgives, QueuePayload.credit]
  rwa [hcost] at hpay

lemma hands_sendToDlq (p : QueuePayload) (reason : String) {g : ℕ} (hg : p.credit t ≤ g) :
    Follows ((handing codec).tariff t).protocol g (sendToDlq p reason : Coroutine δ Bool)
      fun r g' => (∃ b, r = .ok b) ∧ g ≤ g' + p.credit t := by
  have hdlq : ((handing codec).tariff t : Tariff (Cmd δ) Reply String).Spends (p.credit t) (do
      await (.rpushDlq p reason)
      pure true : Coroutine δ Bool) :=
    Tariff.Spends.bind (m := 0) (spends_handOn rfl rfl) fun _ => Holds.spends (Prog.callsOnly_pure _)
  exact hdlq.recovers hg

/-- A retry or a dead letter uses the credit; an exception before it leaves the credit. -/
lemma hands_handleRetry (settings : Settings) (p : QueuePayload) (e : String) {g : ℕ}
    (hg : p.credit t ≤ g) :
    Follows ((handing codec).tariff t).protocol g (handleRetry codec settings p e) fun r g' =>
      ∀ e, r = .error e → p.credit t ≤ g' := by
  unfold handleRetry
  split
  · refine (holds_await rfl).spends.then (Nat.zero_le _) (fun _ g₁ h₁ => ?_)
      fun _ _ h₁ _ _ => hg.trans h₁
    refine follows_bind.mpr ((Tariff.Spends.recovers (holds_of_records
      (records_updateTaskStatus _ _).of_tryCatch).spends (Nat.zero_le g₁)).mono ?_)
    rintro _ g₂ ⟨⟨u, rfl⟩, h₂⟩
    have hschedule : ((handing codec).tariff t : Tariff (Cmd δ) Reply String).Spends
        (0 + p.credit t) (do
          let now ← await .time
          await (.zadd (codec.dump { p with attempt := p.attempt + 1 })
            (now + retryDelay settings (p.attempt + 1)))
          pure true : Coroutine δ Bool) := by
      refine (holds_await rfl).spends.bind fun now => Tariff.Spends.bind (m := 0)
        (spends_handOn ?_ rfl) fun _ => Holds.spends (Prog.callsOnly_pure _)
      exact congrArg (Option.map QueuePayload.taskId) (codec.validate_dump _)
    refine follows_bind.mpr ((hschedule.recovers (by omega)).mono ?_)
    rintro _ g₃ ⟨⟨b, rfl⟩, -⟩
    exact nofun
  · refine follows_bind.mpr ((Tariff.Spends.recovers (holds_of_records
      (records_updateTaskStatus _ _).of_tryCatch).spends (Nat.zero_le g)).mono ?_)
    rintro _ g₁ ⟨⟨u, rfl⟩, h₁⟩
    refine follows_bind.mpr ((hands_sendToDlq p _ (by omega)).mono ?_)
    rintro _ g₂ ⟨⟨b, rfl⟩, -⟩
    exact nofun

lemma hands_processPayload (settings : Settings) (w : WorkerId) (p : QueuePayload) :
    Follows ((handing codec).tariff t).protocol (p.credit t) (processPayload codec settings w p)
      fun _ g => g = 0 := by
  have hattempt : Follows ((handing codec).tariff t).protocol (p.credit t)
      (attemptPayload codec settings p) fun r g' => ∀ e, r = .error e → p.credit t ≤ g' := by
    refine (holds_of_records (records_updateTaskStatus _ _)).spends.then (Nat.zero_le _)
      (fun _ g₁ h₁ => ?_) fun _ _ h₁ _ _ => h₁
    refine (holds_await rfl).spends.then (Nat.zero_le _) (fun granted g₂ h₂ => ?_)
      fun _ _ h₂ _ _ => h₁.trans h₂
    split
    · have hrequest : Holds (executeRequest p : Coroutine δ Outcome) :=
        holds_reporting.executeRequest p (holds_await rfl)
      refine hrequest.spends.then (Nat.zero_le _) (fun o g₃ h₃ => ?_) fun _ _ h₃ _ _ => by omega
      refine (holds_of_records (records_saveResponse _ _)).spends.then (Nat.zero_le _)
        (fun _ g₄ h₄ => ?_) fun _ _ h₄ _ _ => by omega
      split
      · exact hands_handleRetry settings p _ (by omega)
      · exact nofun
    · intro _ _
      exact h₁.trans h₂
  refine Tariff.follows_spent (Q := fun _ _ => True) (follows_bind.mpr (Follows.mono
    (Q := fun r _ => ∃ u, r = .ok u) (follows_tryCatch.mpr (hattempt.mono ?_)) ?_)) nofun
  · rintro (e | u) g hg
    · have hcritical := hg e rfl
      refine follows_bind.mpr ((Tariff.Spends.recovers (holds_of_records
        (records_saveResponse _ _)).spends (Nat.zero_le g)).mono ?_)
      rintro _ g₁ ⟨⟨u, rfl⟩, h₁⟩
      refine follows_bind.mpr ((hands_sendToDlq p e (by omega)).mono ?_)
      rintro _ g₂ ⟨⟨b, rfl⟩, -⟩
      exact ⟨(), rfl⟩
    · exact ⟨u, rfl⟩
  · rintro _ g ⟨u, rfl⟩
    exact ((holds_await rfl).spends g (Nat.zero_le g)).mono fun _ _ _ => trivial

/-- A popped payload brings its credit. -/
lemma hands_consume :
    Follows ((handing codec).tariff t).protocol 0 (consume codec) fun r g =>
      ∃ q, r = .ok q ∧ ∀ p, q = some p → g = p.credit t := by
  refine follows_tryCatch.mpr (Follows.mono
    (Q := fun r g => ∀ q, r = .ok q → ∀ p, q = some p → g = p.credit t) ?_ ?_)
  · refine (holds_polling.processDelayedTasks codec).spends.then (Nat.zero_le _)
      (fun _ g₁ h₁ => ?_) nofun
    refine holds_polling.getPollQueues.spends.then (Nat.zero_le _) (fun qs g₂ h₂ => ?_) nofun
    refine follows_bind.mpr (follows_perform.mpr ⟨Nat.zero_le _, fun r _ => ?_⟩)
    refine ⟨((handing codec).tariff t).income (.blpop qs) r, Nat.le_add_left _ _, ?_⟩
    rcases r with e | _ | ⟨q, d⟩
    · exact nofun
    · rintro _ ⟨⟩ _ ⟨⟩
    · dsimp only
      split
      · next p hp =>
        rintro _ ⟨⟩ _ ⟨⟩
        simp [Correspondence.tariff, handing, hp, QueuePayload.credit]
      · exact nofun
  · rintro (e | q) g hg
    · exact ⟨none, rfl, nofun⟩
    · exact ⟨q, rfl, hg q rfl⟩

lemma hands_engineRound (w : WorkerId) :
    Follows ((handing codec).tariff t).protocol 0 (engineRound codec w) fun _ g => g = 0 := by
  refine Tariff.follows_spent (Q := fun _ _ => True) ?_ nofun
  refine follows_bind.mpr (follows_perform.mpr ⟨Nat.zero_le _, fun r _ => ⟨0, Nat.zero_le _, ?_⟩⟩)
  rcases r with e | u
  · trivial
  · refine follows_bind.mpr (hands_consume.mono ?_)
    rintro _ g ⟨q, rfl, hq⟩
    cases q with
    | none => exact ((holds_await rfl).spends g (Nat.zero_le g)).mono fun _ _ _ => trivial
    | some p =>
      have hcost : ((handing codec).tariff t : Tariff (Cmd δ) Reply String).cost (.createTask w p) ≤
          g := by
        rw [hq p rfl]
        simp [Correspondence.tariff, handing, QueuePayload.credit]
      exact (Tariff.spends_perform (Cmd.createTask w p) g hcost).mono fun _ _ _ => trivial

lemma holds_submission (sub : Submission) : Holds (sub.thread codec).body :=
  (submits_submission sub).mono fun c hc => by cases c <;> first | rfl | cases hc

/-- Each time a payload was taken from the queue it is handed on at most once: to a retry or to
the dead letters, never to both. -/
theorem payloads_handed_on_once [DecidableEq δ] {settings : Settings}
    {ok : LoggedPool δ → Act (Fate Answer String) → Prop} {store : Store δ}
    {engines : List WorkerId} {subs : List Submission} {p : LoggedPool δ}
    (h : Reachable (loggedSystem codec settings) ok (· = serving codec store engines subs) p) :
    (p.store.2.handedOn codec).Subperm (p.store.2.taken codec) := by
  have hsub := h.corresponds (K := handing codec) (fun c r hmay => ?_) (fun _ _ _ _ _ _ => trivial)
    (fun t c r q hq => ?_) ?_
  · have hbrought : (handing codec).brought p.store.2 = p.store.2.taken codec := by
      refine List.filterMap_congr fun e _ => ?_
      obtain ⟨c, r⟩ := e
      cases c with
      | blpop qs => rcases r with e | _ | ⟨q, d⟩ <;> rfl
      | _ => cases r <;> rfl
    rwa [hbrought] at hsub
  · cases c with
    | createTask w p => cases hmay
    | _ => rfl
  · cases c with
    | createTask w q' =>
      have hshare : ((handing codec).tariff t : Tariff (Cmd δ) Reply String).share
          (.createTask w q') = q'.credit t := by
        simp [Correspondence.tariff, handing, QueuePayload.credit]
      rw [hshare]
      exact Option.some.inj hq ▸ hands_processPayload settings w q'
    | _ => cases hq
  · rintro _ rfl
    refine ⟨rfl, fun t thread ht => ?_⟩
    rcases List.mem_append.mp ht with ht | ht
    · obtain ⟨w, -, rfl⟩ := List.mem_map.mp ht
      exact ⟨hands_engineRound w, fun l hl => Option.some.inj hl ▸ hands_engineRound w⟩
    · obtain ⟨sub, -, rfl⟩ := List.mem_map.mp ht
      exact ⟨Tariff.follows_spent ((holds_submission sub).spends 0 (Nat.le_refl 0)) nofun, nofun⟩

/-- The payload of the task that may not be retried goes to the dead letters. -/
theorem payloads_handed_on_once_dead :
    ∃ p, Reachable (loggedSystem Codec.payloads {}) MoversApart
        (· = serving Codec.payloads runningScan [0] [submitOnce]) p ∧
      p.store.2.handedOn Codec.payloads = [0] ∧
      (p.store.2.handedOn Codec.payloads).Subperm (p.store.2.taken Codec.payloads) := by
  obtain ⟨p, hp, hhanded⟩ := submitOnce_shows
    (timeoutOnce ++ List.replicate 9 (.run 2 (.answered .done)))
    (f := fun p => p.store.2.handedOn Codec.payloads) (v := [0]) (by decide +kernel)
  exact ⟨p, hp, hhanded, payloads_handed_on_once hp⟩

end handing

end SecurityScanner

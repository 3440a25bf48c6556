import SecurityScanner.Executor.Runtime
import SecurityScanner.Lib.Discipline
import SecurityScanner.Lib.EventStream
import SecurityScanner.Lib.JsonRoundTrip
import SecurityScanner.Lib.RelyGuarantee

/-!
# The event stream of a scan

The way of an event from the worker that publishes it, through `scan_event_generator` of
`executor/api/sse_routes.py`, to the `onMessage` of `subscribeScanStream` in
`frontend/src/lib/api.ts`. Whatever others publish is an answer of the environment to the calls
of the generator.
-/

namespace SecurityScanner

open Interleaving

section notices

def TaskStatus.value : TaskStatus → String
  | .queued => "QUEUED"
  | .processing => "PROCESSING"
  | .retrying => "RETRYING"
  | .success => "SUCCESS"
  | .failed => "FAILED"

def ScanStatus.value : ScanStatus → String
  | .pending => "PENDING"
  | .running => "RUNNING"
  | .paused => "PAUSED"
  | .completed => "COMPLETED"
  | .failed => "FAILED"
  | .cancelled => "CANCELLED"

def Event.latency : Event → Option ℚ
  | .taskCompleted _ _ _ _ latencyMs => latencyMs
  | _ => none

/-- An event as a worker publishes it. -/
structure Notice (F : Json.FloatFormat) where
  event : Event
  timestamp : String
  workerId : String
  isFloat : ∀ q ∈ event.latency, F.IsFloat q

variable {F : Json.FloatFormat} (uuid : ℕ → String)

/-- The `event` dictionaries of `WorkerEngine`, for the texts of the ids. -/
def Notice.json (n : Notice F) : Json :=
  match n.event with
  | .taskStatusUpdated task scan status =>
    .obj [("type", .str "task_status_updated"), ("task_id", .str (uuid task)),
      ("scan_id", .str (uuid scan)), ("status", .str status.value),
      ("timestamp", .str n.timestamp), ("worker_id", .str n.workerId)]
  | .taskCompleted task scan status statusCode latencyMs =>
    .obj [("type", .str "task_completed"), ("task_id", .str (uuid task)),
      ("scan_id", .str (uuid scan)), ("status", .str status.value),
      ("status_code", (statusCode.map .int).getD .null),
      ("latency_ms", (latencyMs.map .float).getD .null),
      ("timestamp", .str n.timestamp), ("worker_id", .str n.workerId)]
  | .scanCompleted scan status =>
    .obj [("type", .str "scan_completed"), ("scan_id", .str (uuid scan)),
      ("status", .str status.value), ("timestamp", .str n.timestamp)]

/-- `json.dumps(event)`. -/
def Notice.text (n : Notice F) : String := Json.dumps F .python (n.json uuid)

end notices

section generator

inductive StreamCmd where
  | subscribe
  | getMessage
  | send (chunk : List Char)
  | sleep
  | unsubscribe
  | close

abbrev StreamReply : StreamCmd → Type
  | .getMessage => Option String
  | _ => Unit

/-- `asyncio.CancelledError`, or an exception. -/
inductive Interrupt where
  | cancelled
  | exception (e : String)
  deriving DecidableEq

structure StreamState (F : Json.FloatFormat) where
  subscribed : Bool := false
  /-- What was published on the channel while it was subscribed. -/
  published : List (Notice F) := []
  /-- What of it waits for `get_message`. -/
  inbox : List (Notice F) := []
  sent : List Char := []

/-- What is published until a call, and whether `get_message` gets something in time. -/
structure StreamAnswer (F : Json.FloatFormat) where
  published : List (Notice F) := []
  arrived : Bool := true

variable {F : Json.FloatFormat} (uuid : ℕ → String)

def StreamState.hear (s : StreamState F) (notices : List (Notice F)) : StreamState F :=
  if s.subscribed then
    { s with published := s.published ++ notices, inbox := s.inbox ++ notices }
  else s

def StreamState.answer (c : StreamCmd) (arrived : Bool) (s : StreamState F) :
    Except Interrupt (StreamReply c) × StreamState F :=
  match c with
  | .subscribe => (.ok (), { s with subscribed := true })
  | .getMessage =>
    match arrived, s.inbox with
    | true, n :: inbox => (.ok (some (n.text uuid)), { s with inbox })
    | _, _ => (.ok none, s)
  | .send chunk => (.ok (), { s with sent := s.sent ++ chunk })
  | .sleep => (.ok (), s)
  | .unsubscribe => (.ok (), { s with subscribed := false })
  | .close => (.ok (), s)

/-- Every call can raise, and the generator can be cancelled in each of them. -/
def streamSystem :
    System StreamCmd StreamReply Interrupt (StreamState F) (Fate (StreamAnswer F) Interrupt) :=
  System.raising
    ⟨fun c a s => some ((s.hear a.published).answer uuid c a.arrived), fun _ _ => none⟩
    fun _ => true

abbrev StreamCoroutine (α : Type) := Prog StreamCmd StreamReply Interrupt α

/-- Makes one call. -/
abbrev stream (c : StreamCmd) : StreamCoroutine (StreamReply c) := Prog.perform c

/-- The handlers of `scan_event_generator` and its `finally`. It is not resumed afterwards. -/
def leave (e : Interrupt) : StreamCoroutine Unit := do
  try
    if e = .cancelled then stream .unsubscribe
  catch e' => do
    stream .close
    throw e'
  stream .close
  throw e

def chunk (data : String) : List Char := EventStream.frame data.toList

def connectedJson (scanId : String) : Json :=
  .obj [("type", .str "connected"), ("scan_id", .str scanId)]

def connectedText (F : Json.FloatFormat) (scanId : String) : String :=
  Json.dumps F .python (connectedJson scanId)

/-- `scan_event_generator` up to its loop. -/
def openStream (F : Json.FloatFormat) (scanId : String) : StreamCoroutine Unit := do
  stream .subscribe
  try stream (.send (chunk (connectedText F scanId)))
  catch e => leave e

/-- A round of its loop. -/
def streamRound : StreamCoroutine Unit := do
  try
    match ← stream .getMessage with
    | some data => stream (.send (chunk data))
    | none => pure ()
    stream .sleep
  catch e => leave e

def newStream (F : Json.FloatFormat) (scanId : String) :
    Pool StreamCmd StreamReply Interrupt (StreamState F) :=
  ⟨{}, [⟨openStream F scanId, some streamRound⟩]⟩

/-- What `onMessage` gets of a response that has come so far: an `EventSource` hands over the
messages without a type, and the handler drops what `JSON.parse` does not accept. -/
def shown (F : Json.FloatFormat) (received : List Char) : List Json :=
  (EventStream.messages received).filterMap fun m =>
    if m.event = ['m', 'e', 's', 's', 'a', 'g', 'e'] then Json.loads F (String.ofList m.data)
    else none

end generator

section texts

open EventStream

variable {F : Json.FloatFormat}

lemma dumpable_connected (scanId : String) : Json.Dumpable F (connectedJson scanId) := by
  simp [connectedJson, Json.Dumpable, Json.DumpableFields]

lemma dumpable_json (uuid : ℕ → String) (n : Notice F) : Json.Dumpable F (n.json uuid) := by
  obtain ⟨event, timestamp, workerId, isFloat⟩ := n
  cases event with
  | taskStatusUpdated task scan status =>
    simp [Notice.json, Json.Dumpable, Json.DumpableFields]
  | taskCompleted task scan status statusCode latencyMs =>
    have hlatency : ∀ q, latencyMs = some q → F.IsFloat q := isFloat
    cases statusCode <;> cases latencyMs <;>
      simp_all [Notice.json, Json.Dumpable, Json.DumpableFields]
  | scanCompleted scan status => simp [Notice.json, Json.Dumpable, Json.DumpableFields]

/-- `json.dumps` writes no line break. -/
lemma oneLine_dumps (v : Json) : OneLine (Json.dumps F .python v).toList := by
  intro c hc
  obtain ⟨hlow, -⟩ := Json.printable_dumps v c hc
  constructor <;> rintro rfl <;> revert hlow <;> decide

/-- A response of values, however far it has come, shows the first of them. -/
lemma shown_of_prefix {vs : List Json} (hvs : ∀ v ∈ vs, Json.Dumpable F v) {received : List Char}
    (h : received <+: vs.flatMap fun v => chunk (Json.dumps F .python v)) :
    ∃ k ≤ vs.length, shown F received = vs.take k ∧
      (received = (vs.flatMap fun v => chunk (Json.dumps F .python v)) → k = vs.length) := by
  have hframes : (vs.flatMap fun v => chunk (Json.dumps F .python v)) =
      (vs.map fun v => (Json.dumps F .python v).toList).flatMap frame := by
    rw [List.flatMap_map]
    rfl
  rw [hframes] at h
  obtain ⟨k, hk, hall⟩ := messages_of_prefix
    (List.forall_mem_map.mpr fun v _ => oneLine_dumps (F := F) v) h
  have hread : ∀ v ∈ vs, Json.loads F (String.ofList (Json.dumps F .python v).toList) = some v := by
    intro v hv
    rw [String.ofList_toList]
    exact Json.loads_dumps (hvs v hv)
  have hshown : ∀ ws : List Json, ws ⊆ vs →
      (ws.map fun v => message (Json.dumps F .python v).toList).filterMap (fun m =>
        if m.event = ['m', 'e', 's', 's', 'a', 'g', 'e'] then Json.loads F (String.ofList m.data)
        else none) = ws := by
    intro ws
    induction ws with
    | nil => exact fun _ => rfl
    | cons v ws ih =>
      intro hws
      obtain ⟨hv, hws⟩ := List.cons_subset.mp hws
      rw [List.map_cons, List.filterMap_cons_some (b := v), ih hws]
      exact (if_pos rfl).trans (hread v hv)
  refine ⟨min k vs.length, min_le_right _ _, ?_, fun heq => ?_⟩
  · unfold shown
    rw [hk, ← List.map_take, List.map_map, ← List.take_eq_take_min]
    exact hshown _ (List.take_subset _ _)
  · rw [hall (heq.trans hframes), List.length_map, min_self]

end texts

section delivery

variable {F : Json.FloatFormat} (uuid : ℕ → String) (scanId : String)

/-- What a response shows that has come to its end: the greeting and the notices. -/
def responseJson (notices : List (Notice F)) : List Json :=
  connectedJson scanId :: notices.map (Notice.json uuid)

def response (notices : List (Notice F)) : List Char :=
  (responseJson uuid scanId notices).flatMap fun v => chunk (Json.dumps F .python v)

/-- The greeting is sent and the notices up to those in `hand`, which are taken from the inbox. -/
def Carried (hand : List (Notice F)) (s : StreamState F) : Prop :=
  ∃ ns, s.sent = response uuid scanId ns ∧ s.published = ns ++ hand ++ s.inbox

def Opening (s : StreamState F) : Prop := s.sent = [] ∧ s.published = s.inbox

/-- In order, without a gap and without a repetition: at most one notice is lost, with the
response. -/
def StreamInv (s : StreamState F) : Prop :=
  Opening s ∨ ∃ hand, hand.length ≤ 1 ∧ Carried uuid scanId hand s

variable {uuid scanId}

lemma Opening.hear {s : StreamState F} (h : Opening s) (notices : List (Notice F)) :
    Opening (s.hear notices) := by
  unfold StreamState.hear
  split
  · exact ⟨h.1, congrArg (· ++ notices) h.2⟩
  · exact h

lemma Carried.hear {hand : List (Notice F)} {s : StreamState F} (h : Carried uuid scanId hand s)
    (notices : List (Notice F)) : Carried uuid scanId hand (s.hear notices) := by
  obtain ⟨ns, hsent, hpublished⟩ := h
  unfold StreamState.hear
  split
  · refine ⟨ns, hsent, ?_⟩
    change s.published ++ notices = _ ++ (s.inbox ++ notices)
    rw [hpublished, List.append_assoc]
  · exact ⟨ns, hsent, hpublished⟩

lemma StreamInv.hear {s : StreamState F} (h : StreamInv uuid scanId s)
    (notices : List (Notice F)) : StreamInv uuid scanId (s.hear notices) := by
  rcases h with h | ⟨hand, hlen, h⟩
  · exact Or.inl (h.hear notices)
  · exact Or.inr ⟨hand, hlen, h.hear notices⟩

lemma Opening.inv {s : StreamState F} (h : Opening s) : StreamInv uuid scanId s := Or.inl h

lemma Carried.inv {hand : List (Notice F)} {s : StreamState F} (h : Carried uuid scanId hand s)
    (hlen : hand.length ≤ 1) : StreamInv uuid scanId s := Or.inr ⟨hand, hlen, h⟩

lemma response_concat (ns : List (Notice F)) (n : Notice F) :
    response uuid scanId (ns ++ [n]) = response uuid scanId ns ++ chunk (n.text uuid) := by
  unfold response responseJson
  rw [List.map_append, List.map_singleton, ← List.cons_append, List.flatMap_append,
    List.flatMap_singleton]
  rfl

/-- The rule of a call: it has its effect or none, and what it returns is the reply. -/
lemma returns_stream {c : StreamCmd} {s : StreamState F} {Q : StreamReply c → StreamState F → Prop}
    (h : StreamInv uuid scanId s → ∀ notices arrived,
      StreamInv uuid scanId ((s.hear notices).answer uuid c arrived).2 ∧
        ∀ b, ((s.hear notices).answer uuid c arrived).1 = .ok b →
          Q b ((s.hear notices).answer uuid c arrived).2) :
    Returns (streamSystem uuid) (StreamInv uuid scanId) (stream c) s Q := by
  refine returns_perform (fun _ => rfl) fun fate r s' hinv he => ?_
  rcases System.raising_effect he with ⟨a, he⟩ | ⟨-, ⟨e, rfl⟩, rfl | ⟨a, r', he⟩⟩
  · have ha := h hinv a.published a.arrived
    rw [Option.some.inj he] at ha
    exact ha
  · exact ⟨hinv, by rintro b ⟨⟩⟩
  · have ha := h hinv a.published a.arrived
    rw [Option.some.inj he] at ha
    exact ⟨ha.1, by rintro b ⟨⟩⟩

lemma returns_aside {c : StreamCmd} (hc : c = .unsubscribe ∨ c = .close) (s : StreamState F) :
    Returns (streamSystem uuid) (StreamInv uuid scanId) (stream c) s fun _ _ => True := by
  refine returns_stream fun hinv notices arrived => ⟨?_, fun _ _ => trivial⟩
  rcases hc with rfl | rfl
  · exact hinv.hear notices
  · exact hinv.hear notices

/-- Whatever is left of the response when it is left, it sends no more. -/
lemma returns_leave (e : Interrupt) (s : StreamState F) {Q : Unit → StreamState F → Prop} :
    Returns (streamSystem uuid) (StreamInv uuid scanId) (leave e) s Q := by
  unfold leave
  refine Returns.bind (Q := fun _ _ => True) (Returns.tryCatch ?_ fun e' s' => ?_) fun _ s' _ => ?_
  · split
    · exact returns_aside (Or.inl rfl) s
    · exact returns_pure trivial
  · exact (returns_aside (Or.inr rfl) s').bind fun _ _ _ => returns_throw
  · exact (returns_aside (Or.inr rfl) s').bind fun _ _ _ => returns_throw

lemma returns_openStream :
    Returns (streamSystem uuid) (StreamInv uuid scanId) (openStream F scanId) ({} : StreamState F)
      fun _ => Carried uuid scanId [] := by
  unfold openStream
  refine Returns.bind (Q := fun _ => Opening) (returns_stream fun _ notices arrived => ?_)
    fun _ s hs => Returns.tryCatch (returns_stream fun _ notices arrived => ?_)
      fun e s => returns_leave e s
  · have hs : Opening (F := F) { subscribed := true } := ⟨rfl, rfl⟩
    exact ⟨hs.inv, fun _ _ => hs⟩
  · obtain ⟨hsent, hpublished⟩ := hs.hear notices
    have hs' : Carried uuid scanId []
        ((s.hear notices).answer uuid (.send (chunk (connectedText F scanId))) arrived).2 := by
      refine ⟨[], ?_, hpublished⟩
      change (s.hear notices).sent ++ _ = _
      rw [hsent]
      exact (List.append_nil _).symm
    exact ⟨hs'.inv (Nat.zero_le 1), fun _ _ => hs'⟩

/-- What `get_message` returns is the text of what it has taken from the inbox. -/
lemma carried_getMessage {s : StreamState F} (hs : Carried uuid scanId [] s) (arrived : Bool) :
    ∃ hand : Option (Notice F), (s.answer uuid .getMessage arrived).1 =
        .ok (hand.map (Notice.text uuid)) ∧
      Carried uuid scanId hand.toList (s.answer uuid .getMessage arrived).2 := by
  obtain ⟨ns, hsent, hpublished⟩ := hs
  rw [List.append_nil] at hpublished
  cases arrived with
  | false => exact ⟨none, rfl, ns, hsent, by rwa [Option.toList_none, List.append_nil]⟩
  | true =>
    cases hinbox : s.inbox with
    | nil =>
      simp only [StreamState.answer, hinbox]
      exact ⟨none, rfl, ns, hsent, by rwa [Option.toList_none, List.append_nil]⟩
    | cons n inbox =>
      simp only [StreamState.answer, hinbox]
      refine ⟨some n, rfl, ns, hsent, ?_⟩
      change s.published = ns ++ [n] ++ inbox
      rw [hpublished, hinbox, List.append_assoc, List.singleton_append]

lemma carried_send {s : StreamState F} {n : Notice F} (hs : Carried uuid scanId [n] s)
    (arrived : Bool) :
    Carried uuid scanId [] (s.answer uuid (.send (chunk (n.text uuid))) arrived).2 := by
  obtain ⟨ns, hsent, hpublished⟩ := hs
  refine ⟨ns ++ [n], ?_, ?_⟩
  · rw [response_concat, ← hsent]
    rfl
  · rw [List.append_nil]
    exact hpublished

lemma returns_streamRound {s : StreamState F} (hs : Carried uuid scanId [] s) :
    Returns (streamSystem uuid) (StreamInv uuid scanId) streamRound s
      fun _ => Carried uuid scanId [] := by
  have hsleep : ∀ s : StreamState F, Carried uuid scanId [] s →
      Returns (streamSystem uuid) (StreamInv uuid scanId) (stream .sleep) s
        fun _ => Carried uuid scanId [] := fun s hs =>
    returns_stream fun _ notices _ =>
      ⟨(hs.hear notices).inv (Nat.zero_le 1), fun _ _ => hs.hear notices⟩
  unfold streamRound
  refine Returns.tryCatch (Returns.bind
    (Q := fun message s => ∃ hand : Option (Notice F), message = hand.map (Notice.text uuid) ∧
      Carried uuid scanId hand.toList s)
    (returns_stream fun _ notices arrived => ?_) ?_) fun e s => returns_leave e s
  · obtain ⟨hand, hreply, hcarried⟩ := carried_getMessage (hs.hear notices) arrived
    refine ⟨hcarried.inv ?_, fun message hmessage => ⟨hand, ?_, hcarried⟩⟩
    · cases hand <;> simp
    · exact Except.ok.inj (hmessage.symm.trans hreply)
  · rintro _ s ⟨hand, rfl, hcarried⟩
    cases hand with
    | none => exact hsleep s hcarried
    | some n =>
      refine Returns.bind (returns_stream fun _ notices arrived => ?_) fun _ s hs => hsleep s hs
      have hsent := carried_send (hcarried.hear notices) arrived
      exact ⟨hsent.inv (Nat.zero_le 1), fun _ _ => hsent⟩

lemma streamInv_reachable {ok : Pool StreamCmd StreamReply Interrupt (StreamState F) →
      Act (Fate (StreamAnswer F) Interrupt) → Prop}
    {p : Pool StreamCmd StreamReply Interrupt (StreamState F)}
    (h : Reachable (streamSystem uuid) ok (· = newStream F scanId) p) :
    StreamInv uuid scanId p.store := by
  have hstart : StreamInv uuid scanId ({} : StreamState F) := Opening.inv ⟨rfl, rfl⟩
  refine Reachable.rounds hstart returns_openStream ?_ h
  intro round hround s _ hs
  obtain rfl := Option.some.inj hround
  exact returns_streamRound hs

/-- Wherever the generator is interrupted and the connection cut, the page has shown the greeting
and a first part of what was published, in order and each notice once. Of what the generator had
taken from the channel, all but one notice is in a response that came through. -/
theorem stream_shows_events {ok : Pool StreamCmd StreamReply Interrupt (StreamState F) →
      Act (Fate (StreamAnswer F) Interrupt) → Prop}
    {p : Pool StreamCmd StreamReply Interrupt (StreamState F)}
    (h : Reachable (streamSystem uuid) ok (· = newStream F scanId) p) {received : List Char}
    (hreceived : received <+: p.store.sent) :
    ∃ k, shown F received =
        (connectedJson scanId :: p.store.published.map (Notice.json uuid)).take k ∧
      (received = p.store.sent → received ≠ [] →
        p.store.published.length ≤ k + p.store.inbox.length) := by
  rcases streamInv_reachable h with ⟨hsent, -⟩ | ⟨hand, hlen, ns, hsent, hpublished⟩
  · rw [hsent, List.prefix_nil] at hreceived
    exact ⟨0, by rw [hreceived]; rfl, fun _ hne => absurd hreceived hne⟩
  · have hdumpable : ∀ v ∈ responseJson uuid scanId ns, Json.Dumpable F v :=
      List.forall_mem_cons.mpr ⟨dumpable_connected scanId,
        List.forall_mem_map.mpr fun n _ => dumpable_json uuid n⟩
    rw [hsent] at hreceived
    obtain ⟨k, hk, hshown, hall⟩ := shown_of_prefix hdumpable hreceived
    have hparts : connectedJson scanId :: p.store.published.map (Notice.json uuid) =
        responseJson uuid scanId ns ++ (hand ++ p.store.inbox).map (Notice.json uuid) := by
      rw [hpublished, List.append_assoc, List.map_append]
      rfl
    refine ⟨k, ?_, fun heq _ => ?_⟩
    · rw [hshown, hparts, List.take_append_of_le_length hk]
    · have hlength : k = ns.length + 1 := by
        rw [hall (heq.trans hsent), responseJson, List.length_cons, List.length_map]
      rw [hpublished, List.length_append, List.length_append]
      omega

def completedNotice : Notice Json.FloatFormat.whole :=
  ⟨.scanCompleted 7 .completed, "2025-01-01T00:00:00", "worker-1", by rintro _ ⟨⟩⟩

/-- The end of the scan 7 is published in the first round, and the generator goes on. -/
theorem stream_shows_events_completed :
    ∃ p, Reachable (streamSystem toString) (fun _ _ => True)
        (· = newStream Json.FloatFormat.whole "7") p ∧ p.store.published.length = 1 ∧
      ∃ k, shown Json.FloatFormat.whole p.store.sent =
          (connectedJson "7" :: p.store.published.map (Notice.json toString)).take k ∧
        (p.store.sent = p.store.sent → p.store.sent ≠ [] →
          p.store.published.length ≤ k + p.store.inbox.length) := by
  have hrun : ((newStream Json.FloatFormat.whole "7").runActs (streamSystem toString)
      (fun _ _ => True) [.run 0 (.answered {}), .run 0 (.answered {}), .again 0,
        .run 0 (.answered ⟨[completedNotice], true⟩), .run 0 (.answered {}),
        .run 0 (.answered {})]).map (fun p => p.store.published.length) = some 1 := rfl
  obtain ⟨p, hp, hlength⟩ : ∃ p, Reachable (streamSystem toString) (fun _ _ => True)
      (· = newStream Json.FloatFormat.whole "7") p ∧ p.store.published.length = 1 :=
    Reachable.of_shown (by rfl) hrun
  exact ⟨p, hp, hlength, stream_shows_events hp List.prefix_rfl⟩

end delivery

end SecurityScanner

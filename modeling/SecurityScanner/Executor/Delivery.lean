import SecurityScanner.Executor.DelayedQueue

/-!
# The delivery of payloads

Publishers and consumers of one queue, with any number of calls under way. The state keeps a log:
for each client, what Redis did with its commands and what its calls returned, in the order in
which it happened.
-/

namespace SecurityScanner

open Interleaving

variable {δ : Type}

/-- The calls of the publisher and the consumer to Redis, the clock and the random source. -/
inductive QueueCmd (δ : Type) where
  | call (c : Cmd δ)
  | rpush (q : PriorityQueue) (data : δ)

abbrev QueueReply : QueueCmd δ → Type
  | .call c => Reply c
  | .rpush .. => Unit

/-- A call of `QueuePublisher.publish`, `QueuePublisher.publish_batch` or
`QueueConsumer.consume`. -/
inductive ClientCall where
  | publish (p : QueuePayload)
  | publishBatch (payloads : List QueuePayload)
  | consume
  deriving DecidableEq

/-- What a call returns. -/
inductive CallReply where
  | published (ok : Bool)
  | publishedBatch (count : Nat)
  | consumed (p : Option QueuePayload)
  deriving DecidableEq

inductive QueueEvent (δ : Type) where
  /-- Redis executed an `RPUSH`. -/
  | pushed (q : PriorityQueue) (data : List δ)
  /-- Redis executed a `BLPOP`; whether some list was not empty then, and what it took. -/
  | polled (qs : List PriorityQueue) (waiting : Bool) (found : Option (PriorityQueue × δ))
  | returned (call : ClientCall) (reply : CallReply)
  deriving DecidableEq

/-- What a client does, and the end of one of its calls. -/
inductive ClientCmd (δ : Type) where
  | on (client : ℕ) (c : QueueCmd δ)
  | returned (client : ℕ) (call : ClientCall) (reply : CallReply)

abbrev ClientReply : ClientCmd δ → Type
  | .on _ c => QueueReply c
  | .returned .. => Unit

structure QueueState (δ : Type) where
  store : Store δ
  log : List (ℕ × QueueEvent δ) := []

/-- Some priority list is not empty. -/
def Redis.waiting (R : Redis δ) : Bool :=
  [PriorityQueue.critical, .high, .medium, .low].any fun q => !(R.lists q).isEmpty

def RedisWrite.event : RedisWrite δ → Option (QueueEvent δ)
  | .rpush q data => some (.pushed q data)
  | .zremrangebyscore .. => none

/-- What Redis does to the lists with a command. -/
def QueueCmd.events (R : Redis δ) : QueueCmd δ → List (QueueEvent δ)
  | .rpush q data => [.pushed q [data]]
  | .call (.multi ws) => ws.filterMap RedisWrite.event
  | .call (.blpop qs) => [.polled qs R.waiting (R.blpop qs).1]
  | .call _ => []

section programs

variable [DecidableEq δ] (codec : Codec δ)

def QueueCmd.effect (c : QueueCmd δ) (a : Answer) (s : Store δ) :
    Option (Except String (QueueReply c) × Store δ) :=
  match c, a with
  | .call c, a => s.effect codec c a
  | .rpush q data, .done => some (.ok (), { s with redis := s.redis.rpush q [data] })
  | _, _ => none

def QueueState.effect (c : ClientCmd δ) (a : Answer) (s : QueueState δ) :
    Option (Except String (ClientReply c) × QueueState δ) :=
  match c, a with
  | .on n c, a =>
    match c.effect codec a s.store with
    | some (r, store) =>
      some (r, { store, log := s.log ++ (c.events s.store.redis).map fun e => (n, e) })
    | none => none
  | .returned n call reply, .done =>
    some (.ok (), { s with log := s.log ++ [(n, .returned call reply)] })
  | _, _ => none

def queueSystem : System (ClientCmd δ) ClientReply String (QueueState δ) Answer where
  effect := QueueState.effect codec
  fork _ _ := none

abbrev QueueCoroutine (δ : Type) (α : Type) := Prog (QueueCmd δ) QueueReply String α

abbrev ClientCoroutine (δ : Type) (α : Type) := Prog (ClientCmd δ) ClientReply String α

/-- Makes one call. -/
abbrev send (c : QueueCmd δ) : QueueCoroutine δ (QueueReply c) := Prog.perform c

/-- Makes one call on behalf of a client. -/
abbrev serveClient (c : ClientCmd δ) : ClientCoroutine δ (ClientReply c) := Prog.perform c

def publish (p : QueuePayload) : QueueCoroutine δ Bool := do
  try
    let data := codec.dump p
    let targetQ := getPriorityQueue p.priorityLevel
    send (.rpush targetQ data)
    pure true
  catch _ => pure false

/-- A coroutine that a client runs. -/
def onClient {α : Type} (n : ℕ) (q : QueueCoroutine δ α) : ClientCoroutine δ α :=
  q.embed (ClientCmd.on n)

def onQueue {α : Type} (q : Coroutine δ α) : QueueCoroutine δ α := q.embed QueueCmd.call

def clientCall (n : ℕ) : ClientCall → ClientCoroutine δ CallReply
  | .publish p => do
    let ok ← onClient n (publish codec p)
    pure (.published ok)
  | .publishBatch payloads => do
    let count ← onClient n (onQueue (publishBatch codec payloads))
    pure (.publishedBatch count)
  | .consume => do
    let p ← onClient n (onQueue (consume codec))
    pure (.consumed p)

/-- A client makes its calls one after the other. -/
def client (n : ℕ) : List ClientCall → ClientCoroutine δ Unit
  | [] => pure ()
  | call :: calls => do
    let reply ← clientCall codec n call
    serveClient (.returned n call reply)
    client n calls

abbrev QueuePool (δ : Type) := Pool (ClientCmd δ) ClientReply String (QueueState δ)

/-- Clients with their calls, before the first of them. -/
def newClients (store : Store δ) (clients : List (List ClientCall)) : QueuePool δ :=
  ⟨{ store }, clients.mapIdx fun n calls => ⟨client codec n calls, none⟩⟩

end programs

/-- No entry of the delayed set is due when a `consume` looks for such entries. -/
def NothingDue (p : QueuePool δ) (act : Act Answer) : Prop :=
  ∀ n lo hi start num, p.call? act = some (.on n (.call (.zrangebyscore lo hi start num))) →
    p.store.store.redis.delayed.zrangebyscore lo hi start num = []

lemma nothingDue_of_empty {p : QueuePool δ} {act : Act Answer}
    (h : p.store.store.redis.delayed.entries = []) : NothingDue p act := by
  intro n lo hi start num _
  simp [Storage.SortedSet.zrangebyscore, Storage.SortedSet.inRange, h]

section events

def QueueEvent.pushes (q : PriorityQueue) : QueueEvent δ → List δ
  | .pushed q' data => if q' = q then data else []
  | _ => []

def QueueEvent.pops (q : PriorityQueue) : QueueEvent δ → List δ
  | .polled _ _ (some (q', d)) => if q' = q then [d] else []
  | _ => []

/-- The stored values that were pushed to a list, in order. -/
def pushedTo (es : List (QueueEvent δ)) (q : PriorityQueue) : List δ := es.flatMap (·.pushes q)

/-- The stored values that were popped from a list, in order. -/
def poppedFrom (es : List (QueueEvent δ)) (q : PriorityQueue) : List δ := es.flatMap (·.pops q)

def QueueState.events (s : QueueState δ) : List (QueueEvent δ) := s.log.map Prod.snd

/-- The part of the log that is about one client. -/
def QueueState.eventsOf (s : QueueState δ) (n : ℕ) : List (QueueEvent δ) :=
  (s.log.filter (·.1 = n)).map Prod.snd

variable (codec : Codec δ)

/-- What a call does and what it returns: a publication is pushed once to the list of its
priority, a batch payload by payload in its order, and `consume` polls all the lists and returns
the payload that it takes, or none if all of them are empty. -/
def CallOutcome : ClientCall → CallReply → List (QueueEvent δ) → Prop
  | .publish p, reply, es =>
    reply = .published true ∧ es = [.pushed (getPriorityQueue p.priorityLevel) [codec.dump p]]
  | .publishBatch payloads, reply, es =>
    reply = .publishedBatch payloads.length ∧ (∀ e ∈ es, ∃ q data, e = .pushed q data) ∧
      ∀ q, pushedTo es q =
        (payloads.filter (getPriorityQueue ·.priorityLevel = q)).map codec.dump
  | .consume, reply, es =>
    ∃ qs, (∀ q, q ∈ qs) ∧
      ((reply = .consumed none ∧ es = [.polled qs false none]) ∨
        ∃ q p, reply = .consumed (some p) ∧ es = [.polled qs true (some (q, codec.dump p))])

/-- What calls that have returned leave in the log, one call after the other. -/
inductive Made : List ClientCall → List (QueueEvent δ) → Prop
  | nothing : Made [] []
  | call {calls : List ClientCall} {es : List (QueueEvent δ)} (hcalls : Made calls es)
      {call : ClientCall} {reply : CallReply} {events : List (QueueEvent δ)}
      (hcall : CallOutcome codec call reply events) :
      Made (calls ++ [call]) (es ++ events ++ [.returned call reply])

end events

/-- How far a client has come: the calls that have not returned, and what the first of them has
done so far. -/
structure Progress (δ : Type) where
  client : ℕ
  calls : List ClientCall
  current : List (QueueEvent δ) := []

namespace Progress

/-- A client before the first of the calls; nothing is left to say of one that has none. -/
def start (n : ℕ) : List ClientCall → Option (Progress δ)
  | [] => none
  | call :: calls => some { client := n, calls := call :: calls }

def did (g : Progress δ) (es : List (QueueEvent δ)) : Progress δ :=
  { g with current := g.current ++ es }

end Progress

section protocol

variable (codec : Codec δ)

/-- The first call has done nothing, or all that it does before it returns. -/
def Progress.Sound (g : Progress δ) : Prop :=
  ∃ call calls, g.calls = call :: calls ∧
    (g.current = [] ∨ ∃ reply, CallOutcome codec call reply g.current)

/-- The commands that serve a call. -/
def commandAllowed (call : ClientCall) : QueueCmd δ → Prop
  | .rpush q data =>
    ∃ p, call = .publish p ∧ q = getPriorityQueue p.priorityLevel ∧ data = codec.dump p
  | .call (.multi ws) =>
    ∃ payloads, call = .publishBatch payloads ∧ ws = batchCommands codec payloads
  | .call (.blpop qs) => call = .consume ∧ ∀ q, q ∈ qs
  | .call .time | .call .random | .call (.zrangebyscore ..) => True
  | .call _ => False

def deliveryAllowed : Option (Progress δ) → ClientCmd δ → Prop
  | some g, .on n c => n = g.client ∧ g.current = [] ∧
    ∃ call calls, g.calls = call :: calls ∧ commandAllowed codec call c
  | some g, .returned n call reply => n = g.client ∧
    ∃ calls, g.calls = call :: calls ∧ CallOutcome codec call reply g.current
  | none, _ => False

def deliveryReply : (c : ClientCmd δ) → Except String (ClientReply c) → Prop
  | .on _ (.call (.zrangebyscore ..)), r => r = .ok []
  | .on _ (.call (.blpop _)), r => r = .ok none ∨ ∃ q p, r = .ok (some (q, codec.dump p))
  | _, r => ∃ a, r = .ok a

/-- What the reply to a command tells of the events. -/
def eventsTold : (c : QueueCmd δ) → Except String (QueueReply c) → List (QueueEvent δ)
  | .rpush q data, _ => [.pushed q [data]]
  | .call (.multi ws), _ => ws.filterMap RedisWrite.event
  | .call (.blpop qs), .ok found => [.polled qs found.isSome found]
  | _, _ => []

def deliveryNext (g : Option (Progress δ)) (c : ClientCmd δ) (r : Except String (ClientReply c))
    (g' : Option (Progress δ)) : Prop :=
  match c, r with
  | .on _ c, r => g' = g.map (·.did (eventsTold c r))
  | .returned n _ _, _ => ∃ x, g = some x ∧ g' = Progress.start n x.calls.tail

def deliveryProtocol :
    Protocol (ClientCmd δ) ClientReply String (Option (Progress δ)) where
  allowed := deliveryAllowed codec
  reply _ := deliveryReply codec
  next := deliveryNext
  child g _ := g
  looping _ := True
  looping_next _ _ _ _ _ _ _ := trivial

end protocol

section follows

variable {codec : Codec δ} {n : ℕ} {calls : List ClientCall}

lemma multi_lists (R : Redis δ) (ws : List (RedisWrite δ)) (q : PriorityQueue) :
    (R.multi ws).lists q = R.lists q ++ pushedTo (ws.filterMap RedisWrite.event) q := by
  induction ws generalizing R with
  | nil => exact (List.append_nil _).symm
  | cons w ws ih =>
    change ((R.write w).multi ws).lists q = _
    rw [ih]
    cases w with
    | rpush q' data =>
      change Function.update R.lists q' (R.lists q' ++ data) q ++ _ = _
      by_cases hq : q' = q
      · subst hq
        simp [RedisWrite.event, pushedTo, QueueEvent.pushes]
      · simp [RedisWrite.event, pushedTo, QueueEvent.pushes, hq,
          Function.update_of_ne (Ne.symm hq)]
    | zremrangebyscore lo hi => rfl

lemma filter_route_dump (payloads : List QueuePayload) (q : PriorityQueue) :
    (payloads.map codec.dump).filter (route codec · = q) =
      (payloads.filter (getPriorityQueue ·.priorityLevel = q)).map codec.dump := by
  rw [List.filter_map]
  refine congrArg (List.map codec.dump) (List.filter_congr fun p _ => ?_)
  simp [route, codec.validate_dump]

/-- A batch pushes to each list the payloads that belong there, in their order. -/
lemma pushedTo_batchCommands (payloads : List QueuePayload) (q : PriorityQueue) :
    pushedTo ((batchCommands codec payloads).filterMap RedisWrite.event) q =
      (payloads.filter (getPriorityQueue ·.priorityLevel = q)).map codec.dump := by
  have hlists := multi_lists ({} : Redis δ) (batchCommands codec payloads) q
  rw [multi_batchCommands] at hlists
  rw [← filter_route_dump]
  exact hlists.symm

lemma outcome_publishBatch (payloads : List QueuePayload) :
    CallOutcome codec (.publishBatch payloads) (.publishedBatch payloads.length)
      ((batchCommands codec payloads).filterMap RedisWrite.event) := by
  refine ⟨rfl, ?_, pushedTo_batchCommands payloads⟩
  intro e he
  obtain ⟨w, -, hw⟩ := List.mem_filterMap.mp he
  cases w with
  | rpush q data => exact ⟨q, data, (Option.some.inj hw).symm⟩
  | zremrangebyscore lo hi => cases hw

/-- The call has come to its end: the client is to return the reply. -/
def Finishing (codec : Codec δ) (n : ℕ) (call : ClientCall) (calls : List ClientCall)
    (reply : CallReply) (g : Option (Progress δ)) : Prop :=
  ∃ es, g = some ⟨n, call :: calls, es⟩ ∧ CallOutcome codec call reply es

/-- A publication makes one call, and does not fail. -/
lemma delivers_publish (p : QueuePayload) :
    Follows (deliveryProtocol codec) (some ⟨n, .publish p :: calls, []⟩)
      (onClient n (publish codec p)) fun r g =>
        ∃ ok, r = .ok ok ∧ Finishing codec n (.publish p) calls (.published ok) g := by
  refine follows_embed.mpr (follows_tryCatch.mpr (follows_bind.mpr (follows_perform.mpr ?_)))
  refine ⟨⟨rfl, rfl, _, _, rfl, p, rfl, rfl, rfl⟩, fun r hr => ⟨_, rfl, ?_⟩⟩
  obtain ⟨u, rfl⟩ := hr
  exact ⟨true, rfl, _, rfl, rfl, rfl⟩

lemma delivers_publishBatch (payloads : List QueuePayload) :
    Follows (deliveryProtocol codec) (some ⟨n, .publishBatch payloads :: calls, []⟩)
      (onClient n (onQueue (publishBatch codec payloads))) fun r g => ∃ count, r = .ok count ∧
        Finishing codec n (.publishBatch payloads) calls (.publishedBatch count) g := by
  refine follows_embed.mpr (follows_embed.mpr ?_)
  unfold publishBatch
  split
  · rename_i hempty
    obtain rfl := List.isEmpty_iff.mp hempty
    exact ⟨0, rfl, [], rfl, outcome_publishBatch []⟩
  · refine follows_tryCatch.mpr (follows_bind.mpr (follows_perform.mpr ?_))
    refine ⟨⟨rfl, rfl, _, _, rfl, payloads, rfl, rfl⟩, fun r hr => ⟨_, rfl, ?_⟩⟩
    obtain ⟨u, rfl⟩ := hr
    exact ⟨_, rfl, _, rfl, outcome_publishBatch payloads⟩

/-- Whatever the draw, all four lists are polled. -/
lemma mem_getPollQueues (r : ℚ) (q : PriorityQueue) : q ∈
    if r < 60 / 100 then [PriorityQueue.critical, .high, .medium, .low]
    else if r < 85 / 100 then [.high, .critical, .medium, .low]
    else if r < 95 / 100 then [.medium, .critical, .high, .low]
    else [.low, .critical, .high, .medium] := by
  split_ifs <;> cases q <;> simp

/-- `consume` returns what its poll found. -/
lemma delivers_consume :
    Follows (deliveryProtocol codec) (some ⟨n, .consume :: calls, []⟩)
      (onClient n (onQueue (consume codec))) fun r g =>
        ∃ p, r = .ok p ∧ Finishing codec n .consume calls (.consumed p) g := by
  have hmove : Follows (((deliveryProtocol codec).comap (ClientCmd.on n)).comap QueueCmd.call)
      (some ⟨n, .consume :: calls, []⟩) (processDelayedTasks codec)
      fun r g => (∃ u, r = .ok u) ∧ g = some ⟨n, .consume :: calls, []⟩ := by
    refine follows_tryCatch_pure (J := (· = some (⟨n, .consume :: calls, []⟩ : Progress δ))) ?_
    refine follows_bind.mpr (follows_perform.mpr
      ⟨⟨rfl, rfl, _, _, rfl, trivial⟩, fun r hr => ⟨_, rfl, ?_⟩⟩)
    obtain ⟨now, rfl⟩ := hr
    refine follows_bind.mpr (follows_perform.mpr
      ⟨⟨rfl, rfl, _, _, rfl, trivial⟩, fun r hr => ⟨_, rfl, ?_⟩⟩)
    obtain rfl : r = .ok [] := hr
    rfl
  refine follows_embed.mpr (follows_embed.mpr (follows_tryCatch.mpr ?_))
  refine follows_bind.mpr (hmove.mono ?_)
  rintro r g ⟨⟨u, rfl⟩, rfl⟩
  refine follows_bind.mpr (follows_bind.mpr (follows_perform.mpr
    ⟨⟨rfl, rfl, _, _, rfl, trivial⟩, fun r hr => ⟨_, rfl, ?_⟩⟩))
  obtain ⟨draw, rfl⟩ := hr
  refine follows_bind.mpr (follows_perform.mpr
    ⟨⟨rfl, rfl, _, _, rfl, rfl, mem_getPollQueues draw⟩, fun r hr => ⟨_, rfl, ?_⟩⟩)
  rcases hr with rfl | ⟨q, p, rfl⟩
  · exact ⟨none, rfl, _, rfl, _, mem_getPollQueues draw, Or.inl ⟨rfl, rfl⟩⟩
  · dsimp only
    rw [codec.validate_dump]
    exact ⟨some p, rfl, _, rfl, _, mem_getPollQueues draw, Or.inr ⟨q, p, rfl, rfl⟩⟩

lemma delivers_clientCall (call : ClientCall) :
    Follows (deliveryProtocol codec) (some ⟨n, call :: calls, []⟩) (clientCall codec n call)
      fun r g => ∃ reply, r = .ok reply ∧ Finishing codec n call calls reply g := by
  cases call with
  | publish p =>
    refine follows_bind.mpr ((delivers_publish p).mono ?_)
    rintro r g ⟨ok, rfl, hg⟩
    exact ⟨_, rfl, hg⟩
  | publishBatch payloads =>
    refine follows_bind.mpr ((delivers_publishBatch payloads).mono ?_)
    rintro r g ⟨count, rfl, hg⟩
    exact ⟨_, rfl, hg⟩
  | consume =>
    refine follows_bind.mpr (delivers_consume.mono ?_)
    rintro r g ⟨p, rfl, hg⟩
    exact ⟨_, rfl, hg⟩

lemma delivers_client (n : ℕ) (calls : List ClientCall) :
    Follows (deliveryProtocol codec) (Progress.start n calls) (client codec n calls)
      fun _ g => g = none := by
  induction calls with
  | nil => rfl
  | cons call calls ih =>
    refine follows_bind.mpr ((delivers_clientCall call).mono ?_)
    rintro r g ⟨reply, rfl, es, rfl, hes⟩
    refine follows_bind.mpr (follows_perform.mpr ⟨⟨rfl, _, rfl, hes⟩, fun r hr => ?_⟩)
    obtain ⟨u, rfl⟩ := hr
    exact ⟨_, ⟨_, rfl, rfl⟩, ih⟩

end follows

section invariant

variable (codec : Codec δ)

/-- What was popped from a list and what is left in it was pushed to it, in this order, and what
is left are payloads. -/
structure ListsInv (s : QueueState δ) : Prop where
  fifo : ∀ q, poppedFrom s.events q ++ s.store.redis.lists q = pushedTo s.events q
  payloads : ∀ q, ∀ d ∈ s.store.redis.lists q, ∃ p, d = codec.dump p

/-- The log of a client tells of the calls that have returned and of the one under way. -/
structure ClientInv (s : QueueState δ) (n : ℕ) (calls : List ClientCall)
    (g : Option (Progress δ)) : Prop where
  active : ∀ x ∈ g, x.client = n ∧ x.Sound codec
  reported : ∃ made es, calls = made ++ g.elim [] Progress.calls ∧ Made codec made es ∧
    s.eventsOf n = es ++ g.elim [] Progress.current

structure DeliveryInv (clients : List (List ClientCall)) (s : QueueState δ)
    (gs : List (Option (Progress δ))) : Prop where
  lists : ListsInv codec s
  threads : gs.length = clients.length
  known : ∀ e ∈ s.log, e.1 < clients.length
  clients : ∀ n calls g, clients[n]? = some calls → gs[n]? = some g →
    ClientInv codec s n calls g

variable {codec} {s : QueueState δ} {store : Store δ} {es : List (QueueEvent δ)} {n : ℕ}

/-- The state after a command that a client made. -/
abbrev QueueState.logged (s : QueueState δ) (store : Store δ) (n : ℕ)
    (es : List (QueueEvent δ)) : QueueState δ :=
  { store, log := s.log ++ es.map fun e => (n, e) }

lemma events_logged : (s.logged store n es).events = s.events ++ es := by
  simp [QueueState.events, Function.comp_def]

lemma eventsOf_logged (m : ℕ) :
    (s.logged store n es).eventsOf m = s.eventsOf m ++ if n = m then es else [] := by
  unfold QueueState.eventsOf QueueState.logged
  rw [List.filter_append, List.map_append]
  by_cases h : n = m
  · simp [h, List.filter_map, Function.comp_def]
  · simp [h, List.filter_map, Function.comp_def]

/-- Commands that pop nothing. -/
lemma ListsInv.push (h : ListsInv codec s)
    (hlists : ∀ q, store.redis.lists q = s.store.redis.lists q ++ pushedTo es q)
    (hpops : ∀ q, poppedFrom es q = [])
    (hpayloads : ∀ q, ∀ d ∈ pushedTo es q, ∃ p, d = codec.dump p) :
    ListsInv codec (s.logged store n es) where
  fifo q := by
    have hpopped : poppedFrom (s.events ++ es) q = poppedFrom s.events q := by
      have hnone := hpops q
      unfold poppedFrom at hnone ⊢
      rw [List.flatMap_append, hnone, List.append_nil]
    have hpushed : pushedTo (s.events ++ es) q = pushedTo s.events q ++ pushedTo es q :=
      List.flatMap_append
    rw [events_logged, hpopped, hpushed, ← h.fifo q, List.append_assoc, ← hlists]
  payloads q d hd := by
    have hmem : d ∈ s.store.redis.lists q ++ pushedTo es q := hlists q ▸ hd
    rcases List.mem_append.mp hmem with hd | hd
    · exact h.payloads q d hd
    · exact hpayloads q d hd

lemma ListsInv.quiet (h : ListsInv codec s) (hredis : store.redis = s.store.redis) :
    ListsInv codec (s.logged store n []) :=
  h.push (fun q => by rw [hredis]; exact (List.append_nil _).symm) (fun _ => rfl)
    (fun _ _ hd => by cases hd)

/-- A pop takes the oldest value of its list. -/
lemma ListsInv.pop (h : ListsInv codec s) {q : PriorityQueue} {d : δ} {ds : List δ}
    (hq : s.store.redis.lists q = d :: ds) {qs : List PriorityQueue} {waiting : Bool} :
    ListsInv codec (s.logged { s.store with redis := { s.store.redis with
      lists := Function.update s.store.redis.lists q ds } } n
        [.polled qs waiting (some (q, d))]) where
  fifo q' := by
    have hfifo := h.fifo q'
    rw [events_logged]
    unfold poppedFrom pushedTo at hfifo ⊢
    rw [List.flatMap_append, List.flatMap_append, ← hfifo]
    by_cases hqq : q = q'
    · subst hqq
      simp [hq, QueueEvent.pops, QueueEvent.pushes]
    · simp [hqq, QueueEvent.pops, QueueEvent.pushes, Function.update_of_ne (Ne.symm hqq)]
  payloads q' d' hd' := by
    by_cases hqq : q' = q
    · subst hqq
      refine h.payloads q' d' ?_
      rw [hq]
      exact List.mem_cons_of_mem d (by simpa using hd')
    · exact h.payloads q' d' (by simpa [Function.update_of_ne hqq] using hd')

/-- Whether a poll of all the lists brings something. -/
lemma waiting_eq {qs : List PriorityQueue} (hqs : ∀ q, q ∈ qs) (R : Redis δ) :
    R.waiting = (R.blpop qs).1.isSome := by
  unfold Redis.waiting
  rcases R.blpop_cases qs with ⟨hpop, hnil⟩ | ⟨q, d, ds, hq, hpop⟩
  · simp [hpop, hnil _ (hqs _)]
  · rw [hpop]
    have hany : ∃ q' ∈ [PriorityQueue.critical, .high, .medium, .low],
        (!(R.lists q').isEmpty) = true := ⟨q, by cases q <;> simp, by simp [hq]⟩
    exact List.any_eq_true.mpr hany

variable {clients : List (List ClientCall)} {gs : List (Option (Progress δ))}
  {g g' : Option (Progress δ)}

/-- A step of one client leaves the logs of the others alone. -/
lemma DeliveryInv.step (h : DeliveryInv codec clients s gs) (hg : gs[n]? = some g)
    (hlists : ListsInv codec (s.logged store n es))
    (hclient : ∀ calls, ClientInv codec s n calls g →
      ClientInv codec (s.logged store n es) n calls g') :
    DeliveryInv codec clients (s.logged store n es) (gs.set n g') where
  lists := hlists
  threads := by rw [List.length_set, h.threads]
  known e he := by
    rcases List.mem_append.mp he with he | he
    · exact h.known e he
    · obtain ⟨e', -, rfl⟩ := List.mem_map.mp he
      exact h.threads ▸ (List.getElem?_eq_some_iff.mp hg).1
  clients m calls x hcalls hx := by
    by_cases hm : n = m
    · subst hm
      rw [List.getElem?_set_self (List.getElem?_eq_some_iff.mp hg).1] at hx
      obtain rfl := Option.some.inj hx
      exact hclient calls (h.clients n calls g hcalls hg)
    · rw [List.getElem?_set_ne hm] at hx
      have hold := h.clients m calls x hcalls hx
      refine ⟨hold.active, ?_⟩
      rw [eventsOf_logged, if_neg hm, List.append_nil]
      exact hold.reported

lemma ClientInv.did {calls : List ClientCall} {x : Progress δ}
    (h : ClientInv codec s n calls (some x)) (hsound : (x.did es).Sound codec) :
    ClientInv codec (s.logged store n es) n calls (some (x.did es)) where
  active y hy := by
    obtain rfl := Option.some.inj hy
    exact ⟨(h.active x rfl).1, hsound⟩
  reported := by
    obtain ⟨made, past, hcalls, hmade, hlog⟩ := h.reported
    refine ⟨made, past, hcalls, hmade, ?_⟩
    rw [eventsOf_logged, if_pos rfl, hlog, List.append_assoc]
    rfl

/-- The call under way returns. -/
lemma ClientInv.returned {calls rest : List ClientCall} {x : Progress δ}
    (h : ClientInv codec s n calls (some x)) {call : ClientCall} {reply : CallReply}
    (hcalls : x.calls = call :: rest) (hcall : CallOutcome codec call reply x.current) :
    ClientInv codec (s.logged store n [.returned call reply]) n calls
      (Progress.start n rest) where
  active y hy := by
    cases rest with
    | nil => cases hy
    | cons next rest =>
      obtain rfl := Option.some.inj hy
      exact ⟨rfl, next, rest, rfl, Or.inl rfl⟩
  reported := by
    obtain ⟨made, past, hmadeRest, hmade, hlog⟩ := h.reported
    have hstart : (Progress.start n rest : Option (Progress δ)).elim [] Progress.calls = rest ∧
        (Progress.start n rest : Option (Progress δ)).elim [] Progress.current = [] := by
      cases rest <;> exact ⟨rfl, rfl⟩
    refine ⟨made ++ [call], past ++ x.current ++ [.returned call reply], ?_, hmade.call hcall, ?_⟩
    · rw [hstart.1, hmadeRest]
      simp [hcalls]
    · rw [hstart.2, eventsOf_logged, if_pos rfl, hlog, List.append_nil]
      rfl

variable [DecidableEq δ]

/-- What one command of a client does to the lists, and what the client learns of it. -/
lemma command_step (h : ListsInv codec s) {call : ClientCall} {c : QueueCmd δ} {a : Answer}
    {r : Except String (QueueReply c)} (hc : commandAllowed codec call c)
    (hdue : ∀ lo hi start num, c = .call (.zrangebyscore lo hi start num) →
      s.store.redis.delayed.zrangebyscore lo hi start num = [])
    (he : c.effect codec a s.store = some (r, store)) :
    deliveryReply codec (.on n c) r ∧ c.events s.store.redis = eventsTold c r ∧
      ListsInv codec (s.logged store n (eventsTold c r)) ∧
      (eventsTold c r = [] ∨ ∃ reply, CallOutcome codec call reply (eventsTold c r)) := by
  cases c with
  | rpush q data =>
    cases a with
    | done =>
      cases he
      obtain ⟨p, rfl, rfl, rfl⟩ := hc
      refine ⟨⟨_, rfl⟩, rfl, h.push (fun q => ?_) (fun _ => rfl) (fun q d hd => ⟨p, ?_⟩),
        Or.inr ⟨_, rfl, rfl⟩⟩
      · by_cases hq : getPriorityQueue p.priorityLevel = q
        · subst hq
          simp [Redis.rpush, eventsTold, pushedTo, QueueEvent.pushes]
        · simp [Redis.rpush, eventsTold, pushedTo, QueueEvent.pushes, hq,
            Function.update_of_ne (Ne.symm hq)]
      · have hd' : d ∈ if getPriorityQueue p.priorityLevel = q then [codec.dump p] else [] := by
          simpa [eventsTold, pushedTo, QueueEvent.pushes] using hd
        split at hd'
        · exact List.mem_singleton.mp hd'
        · cases hd'
    | _ => cases he
  | call c =>
    cases c with
    | time =>
      cases a <;> cases he
      exact ⟨⟨_, rfl⟩, rfl, h.quiet rfl, Or.inl rfl⟩
    | random =>
      cases a <;>
        simp only [QueueCmd.effect, Store.effect, Option.ite_none_right_eq_some, reduceCtorEq] at he
      obtain ⟨-, he⟩ := he
      cases he
      exact ⟨⟨_, rfl⟩, rfl, h.quiet rfl, Or.inl rfl⟩
    | zrangebyscore lo hi start num =>
      cases a <;> cases he
      exact ⟨congrArg _ (hdue lo hi start num rfl), rfl, h.quiet rfl, Or.inl rfl⟩
    | multi ws =>
      cases a <;> cases he
      obtain ⟨payloads, rfl, rfl⟩ := hc
      refine ⟨⟨_, rfl⟩, rfl, h.push (multi_lists _ _) (fun q => ?_) (fun q d hd => ?_),
        Or.inr ⟨_, outcome_publishBatch payloads⟩⟩
      · refine List.flatMap_eq_nil_iff.mpr fun e he => ?_
        have houtcome : CallOutcome codec _ _ _ := outcome_publishBatch payloads
        obtain ⟨q', data, rfl⟩ := houtcome.2.1 e he
        rfl
      · have hmem : d ∈ (payloads.filter (getPriorityQueue ·.priorityLevel = q)).map codec.dump :=
          pushedTo_batchCommands payloads q ▸ hd
        obtain ⟨p, -, rfl⟩ := List.mem_map.mp hmem
        exact ⟨p, rfl⟩
    | blpop qs =>
      cases a <;> cases he
      obtain ⟨rfl, hqs⟩ := hc
      have hwaiting := waiting_eq hqs s.store.redis
      rcases s.store.redis.blpop_cases qs with ⟨hpop, -⟩ | ⟨q, d, ds, hq, hpop⟩
      · rw [hpop] at hwaiting ⊢
        refine ⟨Or.inl rfl, by simp [QueueCmd.events, eventsTold, hpop, hwaiting], ?_,
          Or.inr ⟨_, qs, hqs, Or.inl ⟨rfl, rfl⟩⟩⟩
        exact h.push (fun q => (List.append_nil _).symm) (fun _ => rfl) (fun _ _ hd => by cases hd)
      · obtain ⟨p, rfl⟩ := h.payloads q d (hq ▸ List.mem_cons_self)
        rw [hpop] at hwaiting ⊢
        exact ⟨Or.inr ⟨q, p, rfl⟩, by simp [QueueCmd.events, eventsTold, hpop, hwaiting],
          h.pop hq, Or.inr ⟨_, qs, hqs, Or.inr ⟨q, p, rfl, rfl⟩⟩⟩
    | _ => exact hc.elim

/-- A step of a client keeps the invariant and is answered as the protocol says. -/
lemma delivery_step {s' : QueueState δ} {c : ClientCmd δ} {a : Answer}
    {r : Except String (ClientReply c)} (h : DeliveryInv codec clients s gs)
    (hg : gs[n]? = some g) (hc : deliveryAllowed codec g c)
    (hdue : ∀ m lo hi start num, c = .on m (.call (.zrangebyscore lo hi start num)) →
      s.store.redis.delayed.zrangebyscore lo hi start num = [])
    (he : s.effect codec c a = some (r, s')) :
    deliveryReply codec c r ∧ ∀ g', deliveryNext g c r g' →
      DeliveryInv codec clients s' (gs.set n g') := by
  cases g with
  | none => exact hc.elim
  | some x =>
    have hn : n < clients.length := h.threads ▸ (List.getElem?_eq_some_iff.mp hg).1
    have hclient := h.clients n _ _ (List.getElem?_eq_getElem hn) hg
    obtain ⟨hx, hsound⟩ := hclient.active x rfl
    cases c with
    | returned m call reply =>
      cases a with
      | done =>
        cases he
        obtain ⟨rfl, rest, hcalls, hcall⟩ := hc
        refine ⟨⟨_, rfl⟩, ?_⟩
        rintro g' ⟨y, hy, rfl⟩
        obtain rfl := Option.some.inj hy
        rw [hx, hcalls]
        exact h.step hg (h.lists.push (fun q => (List.append_nil _).symm) (fun _ => rfl)
          fun _ _ hd => by cases hd) fun calls hc => hc.returned hcalls hcall
      | _ => cases he
    | on m c =>
      obtain ⟨rfl, hcurrent, call, rest, hcalls, hc⟩ := hc
      simp only [QueueState.effect] at he
      split at he
      · rename_i r' store hstore
        cases he
        obtain ⟨hreply, hevents, hlists, hdone⟩ := command_step (n := x.client) h.lists hc
          (fun lo hi start num hz => hdue x.client lo hi start num (by rw [hz])) hstore
        refine ⟨hreply, ?_⟩
        rintro g' rfl
        rw [hevents, hx] at *
        refine h.step hg hlists fun calls hc' => hc'.did ?_
        refine ⟨call, rest, hcalls, ?_⟩
        change x.current ++ _ = [] ∨ ∃ reply, CallOutcome codec call reply (x.current ++ _)
        rw [hcurrent, List.nil_append]
        exact hdone
      · cases he

end invariant

section runs

variable {codec : Codec δ} {store : Store δ} {clients : List (List ClientCall)}

/-- Before any step nothing was reported. -/
lemma deliveryInv_new (hempty : ∀ q, store.redis.lists q = []) :
    DeliveryInv codec clients { store } (clients.mapIdx Progress.start) where
  lists := by
    refine ⟨fun q => hempty q, fun q d hd => ?_⟩
    rw [hempty q] at hd
    cases hd
  threads := List.length_mapIdx
  known e he := by cases he
  clients n calls g hcalls hg := by
    rw [List.getElem?_mapIdx, hcalls] at hg
    obtain rfl := Option.some.inj hg
    cases calls with
    | nil =>
      refine ⟨?_, [], [], rfl, .nothing, rfl⟩
      intro x hx
      cases hx
    | cons call calls =>
      refine ⟨?_, [], [], rfl, .nothing, rfl⟩
      intro x hx
      obtain rfl := Option.some.inj hx
      exact ⟨rfl, call, calls, rfl, Or.inl rfl⟩

variable [DecidableEq δ] {p : QueuePool δ}

lemma delivery_of_reachable (hempty : ∀ q, store.redis.lists q = [])
    (h : Reachable (queueSystem codec) NothingDue (· = newClients codec store clients) p) :
    ∃ gs, Typed (deliveryProtocol codec) none gs p.threads ∧
      DeliveryInv codec clients p.store gs := by
  refine h.ghost (J := DeliveryInv codec clients) ?_ (fun _ _ _ _ _ _ hq => by cases hq) ?_
  · rintro p rfl
    refine ⟨clients.mapIdx Progress.start, ⟨by simp [newClients], ?_⟩, deliveryInv_new hempty⟩
    intro i g t hg ht
    simp only [newClients, List.getElem?_mapIdx] at hg ht
    obtain ⟨calls, hcalls, rfl⟩ := Option.map_eq_some_iff.mp hg
    rw [hcalls] at ht
    obtain rfl := Option.some.inj ht
    exact ⟨delivers_client i calls, fun l hl => by cases hl⟩
  · intro p gs i g c k l a r s' _ hJ hg ht hc hok he
    obtain ⟨hreply, hnext⟩ := delivery_step hJ hg hc (fun m lo hi start num hz =>
      hok m lo hi start num (hz ▸ Pool.call?_run ht)) he
    refine ⟨hreply, fun g' hg' => ?_⟩
    have hstep := hnext g' hg'
    simpa [queueSystem] using hstep

/-- A client that has not made all of its calls can go on. -/
lemma client_goes_on {i : ℕ} {t : Thread (ClientCmd δ) ClientReply String} {x : Progress δ}
    (ht : p.threads[i]? = some t) (htyped : t.Typed (deliveryProtocol codec) none (some x)) :
    ∃ a p', p.step (queueSystem codec) (.run i a) = some p' := by
  obtain ⟨body, l⟩ := t
  cases body with
  | pure u => exact absurd htyped.1 (by simp [Follows])
  | raise e => exact absurd htyped.1 (by simp [Follows])
  | call c k =>
    have hallowed : deliveryAllowed codec (some x) c := htyped.1.1
    have heffect : ∃ a r s', p.store.effect codec c a = some (r, s') := by
      cases c with
      | returned m call reply => exact ⟨.done, _, _, rfl⟩
      | on m c =>
        obtain ⟨-, -, call, calls, -, hc⟩ := hallowed
        cases c with
        | rpush q data => exact ⟨.done, _, _, rfl⟩
        | call c =>
          cases c with
          | time => exact ⟨.clock 0, _, _, rfl⟩
          | random => exact ⟨.random 0, _, _, rfl⟩
          | zrangebyscore lo hi start num => exact ⟨.done, _, _, rfl⟩
          | multi ws => exact ⟨.done, _, _, rfl⟩
          | blpop qs => exact ⟨.done, _, _, rfl⟩
          | _ => exact hc.elim
    obtain ⟨a, r, s', he⟩ := heffect
    exact ⟨a, _, Pool.step_of_effect (S := queueSystem codec) ht he⟩

/-- The queues deliver once and in order: what was popped from a list is a prefix of what was
pushed to it and the rest waits in the list. The log of each client tells of its calls one after
the other, each with what it has to do and to return, and then of the next one, which has done
nothing yet or all that it has to do; a client with a call to make can go on. -/
theorem queues_deliver_in_order (hempty : ∀ q, store.redis.lists q = [])
    (h : Reachable (queueSystem codec) NothingDue (· = newClients codec store clients) p) :
    (∀ q, poppedFrom p.store.events q ++ p.store.store.redis.lists q =
        pushedTo p.store.events q) ∧
      (∀ e ∈ p.store.log, e.1 < clients.length) ∧
      ∀ n calls, clients[n]? = some calls → ∃ made rest es current, calls = made ++ rest ∧
        Made codec made es ∧ p.store.eventsOf n = es ++ current ∧
        (current = [] ∨ ∃ call reply, rest.head? = some call ∧
          CallOutcome codec call reply current) ∧
        (rest ≠ [] → ∃ a p', p.step (queueSystem codec) (.run n a) = some p') := by
  obtain ⟨gs, htyped, hinv⟩ := delivery_of_reachable hempty h
  refine ⟨hinv.lists.fifo, hinv.known, fun n calls hcalls => ?_⟩
  have hn : n < gs.length := hinv.threads ▸ (List.getElem?_eq_some_iff.mp hcalls).1
  have hg : gs[n]? = some gs[n] := List.getElem?_eq_getElem hn
  have hthread : n < p.threads.length := htyped.1 ▸ hn
  have ht : p.threads[n]? = some p.threads[n] := List.getElem?_eq_getElem hthread
  obtain ⟨hactive, made, es, hmadeRest, hmade, hlog⟩ := hinv.clients n calls _ hcalls hg
  generalize gs[n] = g at *
  refine ⟨made, _, es, _, hmadeRest, hmade, hlog, ?_, ?_⟩
  · cases g with
    | none => exact Or.inl rfl
    | some x =>
      obtain ⟨-, call, rest, hrest, hcurrent⟩ := hactive x rfl
      refine hcurrent.imp_right ?_
      rintro ⟨reply, hcall⟩
      refine ⟨call, reply, ?_, hcall⟩
      change x.calls.head? = _
      rw [hrest]
      rfl
  · intro hrest
    cases g with
    | none => exact absurd rfl hrest
    | some x => exact client_goes_on ht (htyped.2 n _ _ hg ht)

/-- A priority that is not known goes to the list of the middle one. -/
def urgentPayload : QueuePayload := { retryPayload 1 with priorityLevel := "urgent" }

def criticalPayload : QueuePayload := { retryPayload 2 with priorityLevel := "p1" }

/-- A publisher with a single payload and a batch, and a consumer. -/
def publications : List (List ClientCall) :=
  [[.publish urgentPayload, .publishBatch [criticalPayload, retryPayload 3]],
    [.consume, .consume]]

def publishAndConsume : List (Act Answer) :=
  [.run 1 (.clock 0), .run 0 .done, .run 1 .done, .run 1 (.random (97 / 100)), .run 0 .done,
    .run 0 .done, .run 1 .done, .run 1 .done, .run 0 .done, .run 1 (.clock 1), .run 1 .done,
    .run 1 (.random (3 / 10)), .run 1 .done]

def publishedAndConsumed : List (QueueEvent QueuePayload) :=
  [.pushed .medium [urgentPayload],
    .returned (.publish urgentPayload) (.published true),
    .pushed .critical [criticalPayload],
    .pushed .medium [retryPayload 3],
    .polled [.low, .critical, .high, .medium] true (some (.critical, criticalPayload)),
    .returned .consume (.consumed (some criticalPayload)),
    .returned (.publishBatch [criticalPayload, retryPayload 3]) (.publishedBatch 2),
    .polled [.critical, .high, .medium, .low] true (some (.medium, urgentPayload))]

theorem queues_deliver_in_order_consumed :
    ∃ p, Reachable (queueSystem Codec.payloads) NothingDue
        (· = newClients Codec.payloads {} publications) p ∧
      p.store.events = publishedAndConsumed ∧
      poppedFrom p.store.events .medium ++ p.store.store.redis.lists .medium =
        pushedTo p.store.events .medium := by
  have hrun : ((newClients Codec.payloads {} publications).runActs (queueSystem Codec.payloads)
      (fun p _ => p.store.store.redis.delayed.entries = []) publishAndConsume).map
        (fun p => p.store.events) = some publishedAndConsumed := by
    decide +kernel
  obtain ⟨p, hp, hshown⟩ : ∃ p, Reachable (queueSystem Codec.payloads)
      (fun p _ => p.store.store.redis.delayed.entries = [])
      (· = newClients Codec.payloads {} publications) p ∧
        p.store.events = publishedAndConsumed :=
    Reachable.of_shown (by rfl) hrun
  have hreach := hp.mono (fun _ _ => nothingDue_of_empty : ∀ p act, _ → NothingDue p act)
  exact ⟨p, hreach, hshown, (queues_deliver_in_order (fun _ => rfl) hreach).1 .medium⟩

end runs

end SecurityScanner

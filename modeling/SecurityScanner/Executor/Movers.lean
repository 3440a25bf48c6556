import SecurityScanner.Executor.DelayedQueue

/-!
# Movers on one queue

Any number of consumers run `_process_delayed_tasks` on the same queue. What a mover read may
be stale when its transaction runs: a second mover can have taken the same entries. As long
as no page is too short, this is the only way in which a run fails to conserve the tasks.
-/

namespace SecurityScanner

open Storage Interleaving

variable {δ : Type} (codec : Codec δ)

section protocol

/-- Where a mover stands between its calls. -/
inductive Mover (δ : Type) where
  | idle
  | timed (now : ℚ)
  | due (now : ℚ) (read : List δ)

/-- The calls of a mover in order. -/
def moverProtocol : Protocol (Cmd δ) Reply String (Mover δ) where
  allowed
    | .idle, .time => True
    | .timed now, .zrangebyscore lo hi start num => lo = 0 ∧ hi = now ∧ start = 0 ∧ num = 50
    | .due now read, .multi ws =>
      ∃ grouped, groupDueTasks codec read [] = .ok grouped ∧ ws = moveCommands grouped now
    | _, _ => False
  reply
    | _, .zrangebyscore .., r => ∃ read, r = .ok read ∧ ∀ d ∈ read, (codec.validate d).isSome
    | _, _, r => ∃ a, r = .ok a
  next
    | .idle, .time, .ok now, g => g = .timed now
    | .timed now, .zrangebyscore .., .ok read, g =>
      g = if read = [] then .idle else .due now read
    | .due _ _, .multi _, _, g => g = .idle
    | _, _, _, _ => False
  child g _ := g
  looping _ := True
  looping_next _ _ _ _ _ _ _ := trivial

lemma follows_processDelayedTasks :
    Follows (moverProtocol codec) .idle (processDelayedTasks codec)
      (fun _ g => g = Mover.idle) := by
  simp only [processDelayedTasks, follows_tryCatch, follows_bind, await, follows_perform]
  refine ⟨trivial, ?_⟩
  rintro - ⟨now, rfl⟩
  refine ⟨.timed now, rfl, ⟨rfl, rfl, rfl, rfl⟩, ?_⟩
  rintro - ⟨read, rfl, hdec⟩
  by_cases hread : read = []
  · subst hread
    exact ⟨.idle, rfl, rfl⟩
  · refine ⟨.due now read, by simp [moverProtocol, hread], ?_⟩
    obtain ⟨grouped, hok, -, -⟩ := groupDueTasks_spec codec hdec [] List.nodup_nil
    simp only [List.isEmpty_iff, hread, ↓reduceIte, hok, follows_perform]
    refine ⟨⟨grouped, hok, rfl⟩, ?_⟩
    rintro - ⟨-, rfl⟩
    exact ⟨.idle, rfl, rfl⟩

end protocol

section conditions

/-- No page is too short for what is due when it is read. -/
def PageSuffices (p : Pool (Cmd δ) Reply String (Store δ)) (act : Act Answer) : Prop :=
  match p.call? act with
  | some (.zrangebyscore lo hi _ num) => (p.store.redis.delayed.inRange lo hi).length ≤ num
  | _ => True

instance (p : Pool (Cmd δ) Reply String (Store δ)) (act : Act Answer) :
    Decidable (PageSuffices p act) := by
  unfold PageSuffices
  split <;> infer_instance

/-- What a transaction appends to the priority lists is still in the delayed set. -/
def PushesDelayed (p : Pool (Cmd δ) Reply String (Store δ)) (act : Act Answer) : Prop :=
  ∀ ws, p.call? act = some (.multi ws) →
    ∀ q data, RedisWrite.rpush q data ∈ ws → data ⊆ p.store.redis.delayed.members

lemma pushesDelayed_iff {p : Pool (Cmd δ) Reply String (Store δ)} {act : Act Answer} :
    PushesDelayed p act ↔ ∀ d ∈ pushed (transaction p act), d ∈ p.store.redis.delayed.members := by
  refine Iff.trans ?_ (forall_transaction (P := fun ws =>
    ∀ d ∈ pushed ws, d ∈ p.store.redis.delayed.members) nofun)
  refine forall_congr' fun ws => imp_congr_right fun _ => ?_
  constructor
  · intro h d hd
    obtain ⟨q, data, hw, hd⟩ := mem_pushed.mp hd
    exact h q data hw hd
  · exact fun h q data hw d hd => h d (mem_pushed.mpr ⟨q, data, hw, hd⟩)

instance [DecidableEq δ] (p : Pool (Cmd δ) Reply String (Store δ)) (act : Act Answer) :
    Decidable (PushesDelayed p act) := decidable_of_iff _ pushesDelayed_iff.symm

/-- A transaction leaves nothing of the range it removes. -/
def Drains (p p' : Pool (Cmd δ) Reply String (Store δ)) (act : Act Answer) : Prop :=
  ∀ ws lo hi, p.call? act = some (.multi ws) → RedisWrite.zremrangebyscore lo hi ∈ ws →
    p'.store.redis.delayed.inRange lo hi = []

/-- Consumers that only move, on a queue with the content `R₀`. -/
structure MoversOn (R₀ : Redis δ) (p : Pool (Cmd δ) Reply String (Store δ)) : Prop where
  redis : p.store.redis = R₀
  decodable : ∀ d ∈ R₀.delayed.members, (codec.validate d).isSome
  threads : ∀ t ∈ p.threads, t = ⟨processDelayedTasks codec, some (processDelayedTasks codec)⟩

end conditions

section invariant

/-- A mover between its read and its transaction: of the entries that are in the delayed
set, it read those that are due. -/
structure HoldsDue (R₀ R : Redis δ) (now : ℚ) (read : List δ) : Prop where
  nodup : read.Nodup
  subset : read ⊆ R₀.delayed.members
  decodable : ∀ d ∈ read, (codec.validate d).isSome
  due : ∀ e ∈ R.delayed.entries, e.1 ∈ read ↔ 0 ≤ e.2 ∧ e.2 ≤ now

variable {codec}

lemma HoldsDue.of_subset {R₀ R R' : Redis δ} {now : ℚ} {read : List δ}
    (h : HoldsDue codec R₀ R now read) (hsub : R'.delayed.entries ⊆ R.delayed.entries) :
    HoldsDue codec R₀ R' now read :=
  { h with due := fun e he => h.due e (hsub he) }

/-- The entries a mover holds are the entries due at its transaction exactly when all of
them are still in the delayed set. -/
lemma HoldsDue.read_iff {R₀ R : Redis δ} {now : ℚ} {read : List δ}
    (h : HoldsDue codec R₀ R now read) :
    (∀ d, d ∈ read ↔ d ∈ R.delayed.inRange 0 now) ↔ read ⊆ R.delayed.members := by
  constructor
  · intro hiff d hd
    exact (R.delayed.inRange_sublist 0 now).mem ((hiff d).mp hd)
  · intro hsub d
    constructor
    · intro hd
      obtain ⟨e, he, rfl⟩ := List.mem_map.mp (hsub hd)
      exact (SortedSet.mem_inRange_iff_of_mem he).mpr ((h.due e he).mp hd)
    · intro hd
      obtain ⟨e, he, rfl⟩ := List.mem_map.mp ((R.delayed.inRange_sublist 0 now).mem hd)
      exact (h.due e he).mpr ((SortedSet.mem_inRange_iff_of_mem he).mp hd)

variable [DecidableEq δ]

/-- A page that suffices is what its mover holds afterwards. -/
lemma HoldsDue.of_read {R₀ R : Redis δ} (h : Conserves codec R₀ R)
    (hdec : ∀ d ∈ R₀.delayed.members, (codec.validate d).isSome) {now : ℚ}
    (hlen : (R.delayed.inRange 0 now).length ≤ 50) :
    HoldsDue codec R₀ R now (R.delayed.zrangebyscore 0 now 0 50) := by
  rw [SortedSet.zrangebyscore_eq_inRange hlen]
  have hsub : R.delayed.inRange 0 now ⊆ R₀.delayed.members := fun d hd =>
    h.members_subset ((R.delayed.inRange_sublist 0 now).mem hd)
  exact ⟨R.delayed.nodup_inRange 0 now, hsub, fun d hd => hdec d (hsub hd),
    fun e he => SortedSet.mem_inRange_iff_of_mem he⟩

/-- The transaction of a mover, judged by the entries it appends. -/
lemma HoldsDue.conserves_iff {R₀ R : Redis δ} (hc : Conserves codec R₀ R) {now : ℚ}
    {read : List δ} (h : HoldsDue codec R₀ R now read)
    {grouped : List (PriorityQueue × List δ)} (hg : groupDueTasks codec read [] = .ok grouped) :
    Conserves codec R₀ (R.multi (moveCommands grouped now)) ↔
      ∀ q data, RedisWrite.rpush q data ∈ moveCommands grouped now →
        data ⊆ R.delayed.members := by
  rw [conserves_move_iff hc h.nodup h.subset h.decodable hg, h.read_iff]
  constructor
  · intro hsub q data hmem d hd
    exact hsub ((mem_moveCommands h.decodable hg now d).mp ⟨q, data, hmem, hd⟩)
  · intro hsub d hd
    obtain ⟨q, data, hmem, hd'⟩ := (mem_moveCommands h.decodable hg now d).mpr hd
    exact hsub q data hmem hd'

variable (codec) in
structure MoversInv (R₀ : Redis δ) (s : Store δ) (gs : List (Mover δ)) : Prop where
  decodable : ∀ d ∈ R₀.delayed.members, (codec.validate d).isSome
  conserves : Conserves codec R₀ s.redis
  holds : ∀ now read, Mover.due now read ∈ gs → HoldsDue codec R₀ s.redis now read

/-- A step changes one mover's place; entries only leave the delayed set. -/
lemma MoversInv.set {R₀ : Redis δ} {s s' : Store δ} {gs : List (Mover δ)}
    (h : MoversInv codec R₀ s gs) (hc : Conserves codec R₀ s'.redis)
    (hsub : s'.redis.delayed.entries ⊆ s.redis.delayed.entries) {i : Nat} {g : Mover δ}
    (hg : ∀ now read, g = .due now read → HoldsDue codec R₀ s'.redis now read) :
    MoversInv codec R₀ s' (gs.set i g) where
  decodable := h.decodable
  conserves := hc
  holds now read hmem := by
    rcases List.mem_or_eq_of_mem_set hmem with hold | hnew
    · exact (h.holds now read hold).of_subset hsub
    · exact hg now read hnew.symm

variable (codec) in
/-- The calls of the movers keep the invariant. -/
lemma MoversInv.effect {R₀ : Redis δ} {s s' : Store δ} {gs : List (Mover δ)}
    (h : MoversInv codec R₀ s gs) {i : Nat} {g : Mover δ} (hi : gs[i]? = some g) {c : Cmd δ}
    (hc : (moverProtocol codec).allowed g c)
    (hpage : ∀ lo hi start num, c = .zrangebyscore lo hi start num →
      (s.redis.delayed.inRange lo hi).length ≤ num)
    (hpush : ∀ ws, c = .multi ws → ∀ q data, RedisWrite.rpush q data ∈ ws →
      data ⊆ s.redis.delayed.members)
    {a : Answer} {r : Except String (Reply c)} (he : Store.effect codec c a s = some (r, s')) :
    (moverProtocol codec).reply g c r ∧
      ∀ g', (moverProtocol codec).next g c r g' → MoversInv codec R₀ s' (gs.set i g') := by
  cases g with
  | idle =>
    cases c <;> try exact hc.elim
    cases a <;> simp only [Store.effect, reduceCtorEq, Option.some.injEq, Prod.mk.injEq] at he
    obtain ⟨rfl, rfl⟩ := he
    refine ⟨⟨_, rfl⟩, fun g' hn => h.set h.conserves (List.Subset.refl _) ?_⟩
    rintro now read rfl
    cases hn
  | timed now =>
    cases c <;> try exact hc.elim
    obtain ⟨rfl, rfl, rfl, rfl⟩ := hc
    cases a <;> simp only [Store.effect, reduceCtorEq, Option.some.injEq, Prod.mk.injEq] at he
    obtain ⟨rfl, rfl⟩ := he
    have hread := HoldsDue.of_read h.conserves h.decodable (hpage _ _ _ _ rfl)
    refine ⟨⟨_, rfl, hread.decodable⟩, fun g' hn => h.set h.conserves (List.Subset.refl _) ?_⟩
    rintro now' read rfl
    dsimp only [moverProtocol] at hn
    split at hn
    · cases hn
    · cases hn
      exact hread
  | due now read =>
    cases c <;> try exact hc.elim
    obtain ⟨grouped, hok, rfl⟩ := hc
    cases a <;> simp only [Store.effect, reduceCtorEq, Option.some.injEq, Prod.mk.injEq] at he
    obtain ⟨rfl, rfl⟩ := he
    have hread := h.holds now read (List.mem_of_getElem? hi)
    have hcons := (hread.conserves_iff h.conserves hok).mpr (hpush _ rfl)
    refine ⟨⟨_, rfl⟩, fun g' hn => h.set hcons ?_ ?_⟩
    · intro e he
      rw [multi_moveCommands] at he
      exact (SortedSet.mem_entries_zremrangebyscore.mp he).1
    · rintro now' read' rfl
      cases hn

end invariant

section runs

variable [DecidableEq δ] {codec} (settings : Settings)

/-- Every state of a run in which pages suffice and transactions append what is still
delayed carries the invariant. -/
lemma movers_invariant {R₀ : Redis δ} {p : Pool (Cmd δ) Reply String (Store δ)}
    (h : Reachable (workerSystem codec settings)
      (fun p act => PageSuffices p act ∧ PushesDelayed p act) (MoversOn codec R₀) p) :
    ∃ gs, Typed (moverProtocol codec) .idle gs p.threads ∧ MoversInv codec R₀ p.store gs := by
  refine h.ghost ?_ ?_ ?_
  · intro p hp
    have hthread : ∀ t ∈ p.threads, t.Typed (moverProtocol codec) .idle .idle := by
      intro t ht
      rw [hp.threads t ht]
      refine ⟨follows_processDelayedTasks codec, fun l hl => ?_⟩
      rw [← Option.some.inj hl]
      exact ⟨trivial, follows_processDelayedTasks codec⟩
    refine ⟨List.replicate p.threads.length .idle, ⟨by simp, ?_⟩, hp.decodable, ?_, ?_⟩
    · intro i g t hg ht
      have hgi : g = .idle := List.eq_of_mem_replicate (List.mem_of_getElem? hg)
      exact hgi ▸ hthread t (List.mem_of_getElem? ht)
    · exact hp.redis ▸ Conserves.refl _
    · intro now read hmem
      cases List.eq_of_mem_replicate hmem
  · intro g c r q hc _ hq
    cases g <;> cases c <;> first | exact hc.elim | cases hq
  · intro p gs i g c k l a r s' _ hinv hi ht hc hok he
    have hcall : p.call? (.run i a) = some c := Pool.call?_run ht
    have hfork : (workerSystem codec settings).fork c r = none := by
      cases g <;> cases c <;> first | exact hc.elim | rfl
    rw [hfork]
    have hpage : ∀ lo hi start num, c = .zrangebyscore lo hi start num →
        (p.store.redis.delayed.inRange lo hi).length ≤ num := by
      rintro lo hi start num rfl
      have hp := hok.1
      rwa [PageSuffices, hcall] at hp
    simpa using hinv.effect codec hi hc hpage (fun ws hcw => hok.2 ws (hcw ▸ hcall)) he

/-- Movers append every due retry exactly once as long as each transaction appends what is
still delayed, and the first transaction that does not breaks it. -/
theorem movers_append_once {R₀ : Redis δ} {p : Pool (Cmd δ) Reply String (Store δ)}
    (h : Reachable (workerSystem codec settings)
      (fun p act => PageSuffices p act ∧ PushesDelayed p act) (MoversOn codec R₀) p) :
    Conserves codec R₀ p.store.redis ∧
      ∀ act p', PageSuffices p act → p.step (workerSystem codec settings) act = some p' →
        (Conserves codec R₀ p'.store.redis ↔ PushesDelayed p act) ∧ Drains p p' act := by
  obtain ⟨gs, hty, hinv⟩ := movers_invariant settings h
  refine ⟨hinv.conserves, fun act p' _ hs => ?_⟩
  cases act with
  | again i =>
    obtain ⟨u, l, -, rfl⟩ := Pool.step_again hs
    refine ⟨iff_of_true hinv.conserves fun ws hws => ?_, fun ws lo hi hws => ?_⟩
    · cases hws
    · cases hws
  | run i a =>
    obtain ⟨c, k, l, r, s', ht, he, rfl⟩ := Pool.step_run hs
    obtain ⟨g, hg, hb, -⟩ := hty.get ht
    have hc := hb.1
    have hcall : p.call? (.run i a) = some c := Pool.call?_run ht
    change Store.effect codec c a p.store = some (r, s') at he
    cases g with
    | idle =>
      cases c <;> try exact hc.elim
      cases a <;> simp only [Store.effect, reduceCtorEq, Option.some.injEq, Prod.mk.injEq] at he
      obtain ⟨rfl, rfl⟩ := he
      simp [PushesDelayed, Drains, hcall, hinv.conserves]
    | timed now =>
      cases c <;> try exact hc.elim
      cases a <;> simp only [Store.effect, reduceCtorEq, Option.some.injEq, Prod.mk.injEq] at he
      obtain ⟨rfl, rfl⟩ := he
      simp [PushesDelayed, Drains, hcall, hinv.conserves]
    | due now read =>
      cases c <;> try exact hc.elim
      obtain ⟨grouped, hok, rfl⟩ := hc
      cases a <;> simp only [Store.effect, reduceCtorEq, Option.some.injEq, Prod.mk.injEq] at he
      obtain ⟨rfl, rfl⟩ := he
      have hread := hinv.holds now read (List.mem_of_getElem? hg)
      refine ⟨?_, fun ws lo hi hws hrem => ?_⟩
      · rw [hread.conserves_iff hinv.conserves hok]
        simp [PushesDelayed, hcall]
      · have hws' : ws = moveCommands grouped now := by simpa [hcall] using hws.symm
        have hrange : lo = 0 ∧ hi = now := by simpa [hws', moveCommands] using hrem
        obtain ⟨rfl, rfl⟩ := hrange
        rw [multi_moveCommands]
        exact SortedSet.inRange_zremrangebyscore_self _ _ _

end runs

section race

/-- Two consumers on a queue with `n` retries, one for each second. -/
def twoMovers (n : Nat) : Pool (Cmd QueuePayload) Reply String (Store QueuePayload) where
  store := { redis := { delayed := backlog n } }
  threads := List.replicate 2
    ⟨processDelayedTasks Codec.payloads, some (processDelayedTasks Codec.payloads)⟩

lemma twoMovers_moversOn (n : Nat) :
    MoversOn Codec.payloads { delayed := backlog n } (twoMovers n) where
  redis := rfl
  decodable _ _ := rfl
  threads _ ht := List.eq_of_mem_replicate ht

/-- Two movers share a backlog: one takes the retry that is due at the second 0, the other the
one that is due a second later. -/
theorem movers_append_once_two :
    ∃ p, Reachable (workerSystem Codec.payloads {})
        (fun p act => PageSuffices p act ∧ PushesDelayed p act)
        (MoversOn Codec.payloads { delayed := backlog 2 }) p ∧
      p.store.redis.lists .medium = [retryPayload 0, retryPayload 1] ∧
      p.store.redis.delayed.members = [] ∧
      Conserves Codec.payloads { delayed := backlog 2 } p.store.redis ∧
      ∀ act p', PageSuffices p act → p.step (workerSystem Codec.payloads {}) act = some p' →
        (Conserves Codec.payloads { delayed := backlog 2 } p'.store.redis ↔
          PushesDelayed p act) ∧ Drains p p' act := by
  have hrun : ((twoMovers 2).runActs (workerSystem Codec.payloads {})
      (fun p act => PageSuffices p act ∧ PushesDelayed p act)
      [.run 0 (.clock 0), .run 1 (.clock 1), .run 0 .done, .run 0 .done, .run 1 .done,
        .run 1 .done]).map
      (fun p => (p.store.redis.lists .medium, p.store.redis.delayed.members)) =
        some ([retryPayload 0, retryPayload 1], []) := by
    decide +kernel
  obtain ⟨p, hp, hmoved⟩ := Reachable.of_shown (twoMovers_moversOn 2) hrun
  obtain ⟨hlist, hdelayed⟩ := Prod.mk.inj hmoved
  exact ⟨p, hp, hlist, hdelayed, movers_append_once {} hp⟩

/-- Both movers read the retry before either transaction, and it is queued twice. -/
theorem movers_append_twice :
    ∃ p, Reachable (workerSystem Codec.payloads {}) PageSuffices
        (MoversOn Codec.payloads { delayed := backlog 1 }) p ∧
      (p.store.redis.lists .medium).count (retryPayload 0) = 2 ∧
      ¬Conserves Codec.payloads { delayed := backlog 1 } p.store.redis := by
  have hrun : (((twoMovers 1).runActs (workerSystem Codec.payloads {}) PageSuffices
      [.run 0 (.clock 1), .run 1 (.clock 1), .run 0 .done, .run 1 .done, .run 0 .done,
        .run 1 .done]).map
      fun p => (p.store.redis.lists .medium).count (retryPayload 0)) = some 2 := by
    decide +kernel
  obtain ⟨p, hp, hcount⟩ := Reachable.of_shown (twoMovers_moversOn 1) hrun
  refine ⟨p, hp, hcount, fun hc => ?_⟩
  have happ := hc.appended .medium (retryPayload 0)
  rw [hcount] at happ
  split at happ
  · cases happ
  · cases happ

end race

end SecurityScanner

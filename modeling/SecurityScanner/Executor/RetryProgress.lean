import SecurityScanner.Executor.RetryLoop
import SecurityScanner.Executor.Semaphore
import Mathlib.Tactic.NormNum

/-!
# The retries come to an end

Nothing blocks the coroutines for good: the loop waits for a place of the semaphore only
while a task holds it, and a due payload is popped.
-/

namespace SecurityScanner

open Storage Interleaving

variable {δ : Type}

lemma lists_of_blpop_none {R : Redis δ} {qs : List PriorityQueue} (h : (R.blpop qs).1 = none)
    {q : PriorityQueue} (hq : q ∈ qs) : R.lists q = [] := by
  rcases R.blpop_cases qs with ⟨-, hempty⟩ | ⟨q', d, ds, -, hpop⟩
  · exact hempty q hq
  · rw [hpop] at h
    cases h

namespace RetryCase

variable [DecidableEq δ] {X : RetryCase δ} {s s₀ : RetryState δ} {p : Runs δ}
  {ok : Runs δ → Act Tick → Prop}

/-- A call at the time of the clock. -/
lemma exists_effect {c : Cmd δ} (h : ∀ w, c = .semaphoreAcquire w → s.store.slots w ≠ 0) :
    ∃ t r s', X.effect c t s = some (r, s') := by
  have hstore : ∃ r store, s.store.effect X.codec c (X.answer ⟨s.clock, 0⟩ s c) =
      some (r, store) := by
    cases c with
    | random =>
      have hdraw : (0 : ℚ) ≤ 0 ∧ (0 : ℚ) < 1 := ⟨le_refl 0, zero_lt_one⟩
      simp only [answer, Store.effect, if_pos hdraw]
      exact ⟨_, _, rfl⟩
    | semaphoreAcquire w =>
      simp only [answer, Store.effect, if_neg (h w rfl)]
      exact ⟨_, _, rfl⟩
    | commit ws =>
      simp only [answer, Store.effect]
      split
      · exact ⟨_, _, rfl⟩
      · exact ⟨_, _, rfl⟩
    | _ => exact ⟨_, _, rfl⟩
  obtain ⟨r, store, hstore⟩ := hstore
  exact ⟨⟨s.clock, 0⟩, r, _, effect_of (le_refl _) hstore⟩

section slots

variable {s' : RetryState δ} {t : Tick}

lemma slots_of_unslotted {c : Cmd δ} {r : Except String (Reply c)} (hc : c.slotted = false)
    (h : X.effect c t s = some (r, s')) : s'.store.slots = s.store.slots := by
  obtain ⟨-, store, he, rfl⟩ := effect_cases h
  exact SecurityScanner.slots_of_unslotted hc he

/-- A call keeps the number of places. -/
lemma slots_step {c : Cmd δ} {r : Except String (Reply c)} {g : Slot} (rest : List Slot)
    (hc : slotAllowed X.worker g c) (h : X.effect c t s = some (r, s')) :
    slotReply c r ∧ s'.store.slots X.worker + (slotAfter g c ::
        ((X.system.fork c r).toList.map (fun _ => Slot.held) ++ rest)).count .held =
      s.store.slots X.worker + (g :: rest).count .held := by
  by_cases hslotted : c.slotted = true
  · obtain ⟨-, store, he, rfl⟩ := effect_cases h
    cases c with
    | semaphoreAcquire w =>
      obtain ⟨rfl, rfl⟩ := hc
      simp only [answer, Store.effect] at he
      split at he <;> cases he
      rename_i hfree
      refine ⟨fun _ => ⟨_, rfl⟩, ?_⟩
      simp only [Function.update_self, slotAfter, system, Option.toList_none, List.map_nil,
        List.nil_append, List.count_cons_self, ne_eq, reduceCtorEq, not_false_eq_true,
        List.count_cons_of_ne]
      omega
    | semaphoreRelease w =>
      obtain ⟨rfl, rfl⟩ := hc
      cases he
      refine ⟨fun _ => ⟨_, rfl⟩, ?_⟩
      simp only [Function.update_self, slotAfter, system, Option.toList_none, List.map_nil,
        List.nil_append, List.count_cons_self, ne_eq, reduceCtorEq, not_false_eq_true,
        List.count_cons_of_ne]
      omega
    | createTask w p =>
      obtain ⟨rfl, rfl⟩ := hc
      cases he
      refine ⟨fun _ => ⟨_, rfl⟩, ?_⟩
      simp [slotAfter, system]
    | _ => cases hslotted
  · have hunslotted : c.slotted = false := by simpa using hslotted
    rw [slots_of_unslotted hunslotted h]
    refine ⟨fun h => absurd h hslotted, ?_⟩
    cases c <;> first | rfl | cases hunslotted

/-- The free places and the coroutines that hold one. -/
lemma slots_balanced (h : Reachable X.system ok (· = X.pool s₀) p) :
    ∃ gs, Typed (slotProtocol X.worker) .free gs p.threads ∧
      p.store.store.slots X.worker + gs.count Slot.held = s₀.store.slots X.worker := by
  refine h.ghost_perm (J := fun s gs =>
    s.store.slots X.worker + gs.count Slot.held = s₀.store.slots X.worker) ?_ ?_ ?_ ?_
  · intro s gs gs' hp hJ
    rwa [← hp.count_eq]
  · rintro p rfl
    refine ⟨[.free], Typed.single ⟨follows_engineRound_slots X.codec, fun l hl => ?_⟩, rfl⟩
    exact ⟨trivial, Option.some.inj hl ▸ follows_engineRound_slots X.codec⟩
  · intro g c r q hc _ hq
    cases c <;> first | cases hq
    obtain ⟨rfl, -⟩ := hc
    exact follows_processPayload_slots X.codec X.settings _
  · intro p g rest i c k l a r s' _ hJ _ hc _ he
    obtain ⟨hr, hcount⟩ := slots_step rest hc he
    refine ⟨hr, ?_⟩
    rintro g' rfl
    exact hcount.trans hJ

/-- When the tasks have ended, the loop finds a free place. -/
lemma slots_of_ended (h : Reachable X.system ok (· = X.pool s₀) p)
    (hfree : 0 < s₀.store.slots X.worker)
    (hended : ∀ i t, 1 ≤ i → p.threads[i]? = some t → t.Ended) {c : Cmd δ}
    {k : Except String (Reply c) → Coroutine δ Unit} {l : Option (Coroutine δ Unit)}
    (ht : p.threads[0]? = some ⟨.call c k, l⟩) {w : WorkerId} (hc : c = .semaphoreAcquire w) :
    p.store.store.slots w ≠ 0 := by
  obtain ⟨gs, htyped, hcount⟩ := slots_balanced h
  obtain ⟨g, hg, hloop, -⟩ := htyped.get ht
  obtain ⟨rfl, hgfree⟩ : w = X.worker ∧ g = .free := by
    have hallowed : slotAllowed X.worker g c := hloop.1
    rwa [hc] at hallowed
  have hnone : Slot.held ∉ gs := by
    intro hmem
    obtain ⟨i, hi⟩ := List.mem_iff_getElem?.mp hmem
    rcases Nat.eq_zero_or_pos i with rfl | hpos
    · rw [hg, hgfree] at hi
      cases hi
    · have hlt := (List.getElem?_eq_some_iff.mp hi).1
      have hthread := List.getElem?_eq_getElem (htyped.1 ▸ hlt)
      obtain ⟨-, hend⟩ := (htyped.2 i .held _ hi hthread).1.ended (hended i _ hpos hthread)
      cases hend
  rw [List.count_eq_zero.mpr hnone] at hcount
  omega

end slots

section schedule

lemma exists_step {c : Cmd δ} {k : Except String (Reply c) → Coroutine δ Unit}
    {l : Option (Coroutine δ Unit)} {i : ℕ} (ht : p.threads[i]? = some ⟨.call c k, l⟩)
    (h : ∀ w, c = .semaphoreAcquire w → p.store.store.slots w ≠ 0) :
    ∃ t p', p.step X.system (.run i t) = some p' := by
  obtain ⟨t, r, s', he⟩ := exists_effect (X := X) h
  exact ⟨t, _, Pool.step_of_effect ht he⟩

/-- The tasks can be run to their ends while the loop waits. -/
lemma leads_tasks_ended (h : X.Run s₀ p) :
    ∃ p', Pool.Leads X.system p p' ∧ X.Run s₀ p' ∧
      (∀ i t, 1 ≤ i → p'.threads[i]? = some t → t.Ended) ∧ p'.threads[0]? = p.threads[0]? := by
  have hgood : ∀ (p : Runs δ) i c k l, X.Run s₀ p → 1 ≤ i →
      p.threads[i]? = some ⟨.call c k, l⟩ → ∃ t p', p.step X.system (.run i t) = some p' ∧
        (∀ r, X.system.fork c r = none) ∧ X.Run s₀ p' := by
    intro p i c k l hp hi ht
    have hcalls : ∀ c r q, X.system.fork c r = some q → q.CallsOnly fun c => c.enters = false := by
      intro c r q hq
      cases c <;> cases hq
      exact callsOnly_processPayload X.codec X.settings _
    obtain ⟨-, hstarted⟩ := hp.started_callsOnly (n := 1) (fun p hp => hp ▸ rfl) hcalls
    have hc : c.enters = false := (hstarted i _ hi ht).1.1
    obtain ⟨t, p', hs⟩ := exists_step (X := X) ht fun w hw => by
      rw [hw] at hc
      cases hc
    refine ⟨t, p', hs, fun r => ?_, .step _ hp trivial hs⟩
    cases c <;> first | rfl | cases hc
  obtain ⟨p', hleads, hp', hended, hsame⟩ := Pool.leads_all_ended hgood h
  exact ⟨p', hleads, hp', hended, hsame 0 (Nat.not_succ_le_zero 0)⟩

/-- All coroutines can be run to the ends of their rounds. -/
lemma leads_all_rest (h : X.Run s₀ p) (hfree : 0 < s₀.store.slots X.worker) :
    ∃ p', Pool.Leads X.system p p' ∧ X.Run s₀ p' ∧ ∀ t ∈ p'.threads, t.Ended := by
  have hgood : ∀ (p : Runs δ) c k l, X.Run s₀ p → p.threads[0]? = some ⟨.call c k, l⟩ →
      ∃ p₁ t p', Pool.Leads X.system p p₁ ∧ p₁.threads[0]? = p.threads[0]? ∧
        p₁.step X.system (.run 0 t) = some p' ∧ X.Run s₀ p' := by
    intro p c k l hp ht
    obtain ⟨p₁, hleads, hp₁, hended, hsame⟩ := leads_tasks_ended hp
    have ht₁ := hsame.trans ht
    obtain ⟨t, p', hs⟩ := exists_step (X := X) ht₁ fun w hw =>
      slots_of_ended hp₁ hfree hended ht₁ hw
    exact ⟨p₁, t, p', hleads, hsame, hs, .step _ hp₁ trivial hs⟩
  obtain ⟨q, ht⟩ := h.loops (i := 0) (l := some (engineRound X.codec X.worker))
    fun p hp => ⟨engineRound X.codec X.worker, by rw [hp]; rfl⟩
  obtain ⟨p₁, t₁, hleads₁, hp₁, ht₁, hend₁⟩ := Pool.leads_ended hgood ht h
  obtain ⟨p₂, hleads₂, hp₂, hended, hsame⟩ := leads_tasks_ended hp₁
  refine ⟨p₂, hleads₁.trans hleads₂, hp₂, fun t hmem => ?_⟩
  obtain ⟨i, hi⟩ := List.mem_iff_getElem?.mp hmem
  rcases Nat.eq_zero_or_pos i with rfl | hpos
  · obtain rfl := Option.some.inj (ht₁.symm.trans (hsame.symm.trans hi))
    exact hend₁
  · exact hended i t hpos hi

end schedule

section round

variable {dlq : List (QueuePayload × String)} {j : ℕ} {now : ℚ}

/-- Late enough, the mover leaves the payload in its list. -/
lemma runs_processDelayedTasks (h : X.Waits dlq j s) (hnow : s.clock ≤ now)
    (hdue : ∀ e ∈ s.store.redis.delayed.entries, e.2 ≤ now) :
    ∃ s', (processDelayedTasks X.codec).Runs X.effect s (.ok ()) s' ∧ X.Waits dlq j s' ∧
      s'.store.redis.delayed.entries = [] ∧ s'.clock = now ∧ s'.log = s.log := by
  have htime : X.effect .time ⟨now, 0⟩ s = some (.ok now, ⟨s.store, now, s.log⟩) :=
    effect_of hnow rfl
  have hread : X.effect (.zrangebyscore 0 now 0 50) ⟨now, 0⟩ ⟨s.store, now, s.log⟩ =
      some (.ok (s.store.redis.delayed.zrangebyscore 0 now 0 50), ⟨s.store, now, s.log⟩) :=
    effect_of (le_refl now) rfl
  have hlater : X.Waits dlq j ⟨s.store, now, s.log⟩ :=
    h.later hnow rfl rfl rfl (List.Subset.refl _) fun e he => Or.inr he
  by_cases hnil : s.store.redis.delayed.zrangebyscore 0 now 0 50 = []
  · have hempty : s.store.redis.delayed.entries = [] := by
      refine List.eq_nil_iff_forall_not_mem.mpr fun e he => ?_
      have hmem := (SortedSet.mem_inRange_iff_of_mem he).mpr ⟨h.nonneg e he, hdue e he⟩
      have hrange : s.store.redis.delayed.inRange 0 now = [] := by
        simpa [SortedSet.zrangebyscore] using hnil
      rw [hrange] at hmem
      cases hmem
    refine ⟨_, .tryCatch (.bind (.perform htime) (.bind (.perform hread) ?_)), hlater, hempty, rfl,
      rfl⟩
    rw [hnil]
    exact ⟨rfl, rfl⟩
  · obtain ⟨grouped, hok, hmoved⟩ := hlater.move (le_refl now) (le_refl now) hnil
    have hmulti : X.effect (.multi (moveCommands grouped now)) ⟨now, 0⟩ ⟨s.store, now, s.log⟩ =
        some (.ok (), ⟨{ s.store with redis := s.store.redis.multi (moveCommands grouped now) },
          now, s.log⟩) :=
      effect_of (le_refl now) rfl
    refine ⟨_, .tryCatch (.bind (.perform htime) (.bind (.perform hread) ?_)), hmoved, ?_, rfl,
      rfl⟩
    · have hne : (s.store.redis.delayed.zrangebyscore 0 now 0 50).isEmpty = false := by
        simpa using hnil
      simp only [hne, Bool.false_eq_true, ↓reduceIte, hok]
      exact .perform hmulti
    · rw [multi_moveCommands]
      refine List.eq_nil_iff_forall_not_mem.mpr fun e he => ?_
      obtain ⟨he, hout⟩ := SortedSet.mem_entries_zremrangebyscore.mp he
      exact hout ⟨h.nonneg e he, hdue e he⟩

omit [DecidableEq δ] in
/-- When it is in no delayed set, the payload can be popped. -/
lemma exists_blpop (h : X.Waits dlq j s) (hempty : s.store.redis.delayed.entries = []) :
    ∃ qd, (s.store.redis.blpop [.critical, .high, .medium, .low]).1 = some qd := by
  cases hpop : (s.store.redis.blpop [.critical, .high, .medium, .low]).1 with
  | some qd => exact ⟨qd, rfl⟩
  | none =>
    have hlists : ∀ q, s.store.redis.lists q = [] := fun q =>
      lists_of_blpop_none hpop (by cases q <;> simp)
    obtain ⟨d, hstored, -⟩ := h.stored
    simp [Redis.stored, SortedSet.members, hlists, hempty] at hstored

lemma runs_getPollQueues (hclock : s.clock = now) :
    (getPollQueues : Coroutine δ (List PriorityQueue)).Runs X.effect s
      (.ok [.critical, .high, .medium, .low]) ⟨s.store, now, s.log⟩ := by
  have hdraw : (0 : ℚ) ≤ 0 ∧ (0 : ℚ) < 1 := ⟨le_refl 0, zero_lt_one⟩
  have hrandom : X.effect .random ⟨now, 0⟩ s = some (.ok 0, ⟨s.store, now, s.log⟩) := by
    refine effect_of hclock.le ?_
    simp only [answer, Store.effect, if_pos hdraw]
  refine .bind (.perform hrandom) ⟨?_, rfl⟩
  have hlt : (0 : ℚ) < 60 / 100 := by norm_num
  rw [if_pos hlt]

/-- Late enough, the loop pops the payload. -/
lemma runs_consume (h : X.Waits dlq j s) (hnow : s.clock ≤ now)
    (hdue : ∀ e ∈ s.store.redis.delayed.entries, e.2 ≤ now) :
    ∃ s', (consume X.codec).Runs X.effect s (.ok (some (X.payloadAt j))) s' ∧ s'.clock = now ∧
      s'.log.popped.length = s.log.popped.length + 1 := by
  obtain ⟨s₁, hmove, h₁, hempty, hclock, hlog⟩ := runs_processDelayedTasks h hnow hdue
  obtain ⟨⟨q, d⟩, hpop⟩ := exists_blpop h₁ hempty
  obtain ⟨hd, -⟩ := h₁.of_blpop hpop
  obtain ⟨s₂, hblpop, hclock₂, hpopped⟩ : ∃ s₂, X.effect (.blpop [.critical, .high, .medium, .low])
      ⟨now, 0⟩ ⟨s₁.store, now, s₁.log⟩ = some (.ok (some (q, d)), s₂) ∧ s₂.clock = now ∧
      s₂.log.popped = s₁.log.popped ++ [(now, X.payloadAt j)] := by
    refine ⟨_, effect_of (le_refl now) (by rw [← hpop]; rfl), rfl, ?_⟩
    simp only [RetryLog.record, hd]
  refine ⟨s₂, .tryCatch (.bind hmove (.bind (runs_getPollQueues hclock)
    (.bind (.perform hblpop) ?_))), hclock₂, ?_⟩
  · dsimp only
    rw [hd]
    exact ⟨rfl, rfl⟩
  · rw [hpopped, hlog, List.length_append, List.length_singleton]

/-- Late enough, a round of the loop pops the payload. -/
lemma runs_engineRound (h : X.Waits dlq j s) (hfree : s.store.slots X.worker ≠ 0)
    (hnow : s.clock ≤ now) (hdue : ∀ e ∈ s.store.redis.delayed.entries, e.2 ≤ now) :
    ∃ s', (engineRound X.codec X.worker).Runs X.effect s (.ok ()) s' ∧
      s'.log.popped.length = s.log.popped.length + 1 := by
  obtain ⟨s₁, hacquire, h₁, hclock₁, hredis, hlog⟩ : ∃ s₁,
      X.effect (.semaphoreAcquire X.worker) ⟨now, 0⟩ s = some (.ok (), s₁) ∧ X.Waits dlq j s₁ ∧
        s₁.clock = now ∧ s₁.store.redis = s.store.redis ∧ s₁.log = s.log :=
    ⟨_, effect_of hnow (if_neg hfree),
      h.later hnow rfl rfl rfl (List.Subset.refl _) fun e he => Or.inr he, rfl, rfl, rfl⟩
  obtain ⟨s₂, hconsume, hclock₂, hpopped⟩ := runs_consume h₁ hclock₁.le (hredis ▸ hdue)
  have hcreate : X.effect (.createTask X.worker (X.payloadAt j)) ⟨now, 0⟩ s₂ =
      some (.ok (), ⟨s₂.store, now, { s₂.log with created := s₂.log.created + 1 }⟩) :=
    effect_of hclock₂.le rfl
  exact ⟨_, .bind (.perform hacquire) (.bind hconsume (.perform hcreate)), hlog ▸ hpopped⟩

end round

end RetryCase

end SecurityScanner

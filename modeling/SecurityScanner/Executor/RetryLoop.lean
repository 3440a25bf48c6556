import SecurityScanner.Executor.RetryTask

/-!
# The loop of the worker

What a round of the loop does while the payload waits, and while a task has it.
-/

namespace SecurityScanner

open Storage Interleaving

variable {δ : Type}

lemma blpop_delayed (R : Redis δ) (qs : List PriorityQueue) :
    (R.blpop qs).2.delayed = R.delayed ∧ (R.blpop qs).2.dlq = R.dlq := by
  rcases R.blpop_cases qs with ⟨hpop, -⟩ | ⟨q, d, ds, -, hpop⟩ <;> rw [hpop] <;> exact ⟨rfl, rfl⟩

namespace RetryCase

variable {X : RetryCase δ} {dlq : List (QueuePayload × String)} {s s' : RetryState δ} {j : ℕ}

/-- Between its rounds the loop holds nothing. -/
def Free (s : RetryState δ) : Prop := s.log.created = s.log.popped.length

lemma Free.rely (h : Free s) (hs : s.Rely 0 s') : Free s' := by
  obtain ⟨hpopped, hcreated⟩ := hs.counts rfl
  unfold Free
  rw [hpopped, hcreated]
  exact h

lemma Free.same (h : Free s) (hs : s.Same s') : Free s' := by
  unfold Free
  rw [hs.log]
  exact h

/-- What the queue holds belongs to a payload that waits. -/
lemma Inv.waits (h : X.Inv dlq s) (hstored : s.store.redis.stored ≠ []) :
    ∃ j, X.Waits dlq j s := by
  obtain ⟨j, hwaits | hholds | hworks⟩ := h.phase
  · exact ⟨j, hwaits⟩
  · exact absurd hholds.empty hstored
  · exact absurd hworks.empty hstored

namespace Waits

lemma owns (h : X.Waits dlq j s) : s.Owns 0 := by
  obtain ⟨d, hstored, -⟩ := h.stored
  exact Or.inl (by rw [hstored]; exact List.cons_ne_nil _ _)

/-- The only entry of the delayed set, if there is one. -/
lemma due_of_mem (h : X.Waits dlq j s) {now : ℚ}
    (hread : s.store.redis.delayed.inRange 0 now ≠ []) {e : δ × ℚ}
    (he : e ∈ s.store.redis.delayed.entries) : e.2 ≤ now := by
  obtain ⟨d, hstored, -⟩ := h.stored
  have hmem : ∀ x ∈ s.store.redis.delayed.members, x = d := by
    intro x hx
    have hx' := Redis.mem_stored.mpr (Or.inr hx)
    rw [hstored] at hx'
    exact List.mem_singleton.mp hx'
  obtain ⟨x, hx⟩ := List.exists_mem_of_ne_nil _ hread
  have hxd := hmem x ((s.store.redis.delayed.inRange_sublist 0 now).subset hx)
  have hed := hmem e.1 (List.mem_map_of_mem he)
  exact ((SortedSet.mem_inRange_iff_of_mem he).mp (by rw [hed, ← hxd]; exact hx)).2

/-- The payload waits at another time. -/
lemma later (h : X.Waits dlq j s) {store : Store δ} {now : ℚ} (hnow : s.clock ≤ now)
    (hdb : store.db = s.store.db) (hdlq : store.redis.dlq = s.store.redis.dlq)
    (hstored : store.redis.stored = s.store.redis.stored)
    (hsub : store.redis.delayed.entries ⊆ s.store.redis.delayed.entries)
    (hkept : ∀ e ∈ s.store.redis.delayed.entries,
      e.2 ≤ now ∨ e ∈ store.redis.delayed.entries) : X.Waits dlq j ⟨store, now, s.log⟩ := by
  refine ⟨h.lt, ?_, fun e he => h.nonneg e (hsub he), fun i z hi hz => ?_, h.popped, h.created,
    h.scheduled, h.sent, ?_, hdlq.trans h.dlq⟩
  · rw [hstored]
    exact h.stored
  · rcases h.due i z hi hz with hle | ⟨e, he, hez⟩
    · exact Or.inl (hle.trans hnow)
    · rcases hkept e he with hle | he'
      · exact Or.inl (hez ▸ hle)
      · exact Or.inr ⟨e, he', hez⟩
  · rw [hdb]
    exact h.row

variable [DecidableEq δ]

/-- The mover moves the payload when it is due. -/
lemma move (h : X.Waits dlq j s) {now time : ℚ} (hnow : now ≤ time) (htime : s.clock ≤ time)
    (hread : s.store.redis.delayed.zrangebyscore 0 now 0 50 ≠ []) :
    ∃ grouped, groupDueTasks X.codec (s.store.redis.delayed.zrangebyscore 0 now 0 50) [] =
        .ok grouped ∧
      X.Waits dlq j ⟨{ s.store with redis := s.store.redis.multi (moveCommands grouped now) },
        time, s.log⟩ := by
  obtain ⟨d, hstored, hd⟩ := h.stored
  have hlen : (s.store.redis.delayed.inRange 0 now).length ≤ 50 := by
    have hle : s.store.redis.delayed.members.length ≤ s.store.redis.stored.length := by
      simp only [Redis.stored, List.length_append]
      omega
    have hsub := (s.store.redis.delayed.inRange_sublist 0 now).length_le
    rw [hstored, List.length_singleton] at hle
    omega
  have hrange := SortedSet.zrangebyscore_eq_inRange hlen
  have hdec : ∀ x ∈ s.store.redis.delayed.zrangebyscore 0 now 0 50,
      (X.codec.validate x).isSome := by
    intro x hx
    rw [hrange] at hx
    have hx' := Redis.mem_stored.mpr
      (Or.inr ((s.store.redis.delayed.inRange_sublist 0 now).subset hx))
    rw [hstored] at hx'
    rw [List.mem_singleton.mp hx', hd]
    rfl
  obtain ⟨grouped, hok, -, -⟩ := groupDueTasks_spec X.codec hdec [] List.nodup_nil
  have hdue : (s.store.redis.delayed.inRange 0 now).Perm
      (s.store.redis.delayed.zrangebyscore 0 now 0 50 ++ []) := by
    rw [hrange, List.append_nil]
  have hperm := stored_move hdue hdec hok
  rw [List.append_nil, hstored] at hperm
  have hmulti := multi_moveCommands s.store.redis grouped now
  refine ⟨grouped, hok, h.later htime rfl ?_ ?_ ?_ ?_⟩
  · rw [hmulti]
  · rw [hstored]
    exact List.perm_singleton.mp hperm.symm
  · rw [hmulti]
    exact fun e he => (SortedSet.mem_entries_zremrangebyscore.mp he).1
  · exact fun e he => Or.inl ((h.due_of_mem (hrange ▸ hread) he).trans hnow)

omit [DecidableEq δ] in
/-- What the loop pops is the payload. -/
lemma of_blpop (h : X.Waits dlq j s) {qs : List PriorityQueue} {q : PriorityQueue} {d : δ}
    (hpop : (s.store.redis.blpop qs).1 = some (q, d)) :
    X.codec.validate d = some (X.payloadAt j) ∧ (s.store.redis.blpop qs).2.stored = [] := by
  obtain ⟨d', hstored, hd⟩ := h.stored
  have hperm := stored_blpop hpop
  rw [hstored] at hperm
  obtain ⟨rfl, hempty⟩ := List.cons.inj (List.perm_singleton.mp hperm.symm)
  exact ⟨hd, hempty⟩

omit [DecidableEq δ] in
/-- The loop pops the payload of the next attempt. -/
lemma pop (h : X.Waits dlq j s) (hledger : X.Ledger s) {now : ℚ} (hnow : s.clock ≤ now)
    {qs : List PriorityQueue} {q : PriorityQueue} {d : δ}
    (hpop : (s.store.redis.blpop qs).1 = some (q, d)) :
    X.Holds dlq j ⟨{ s.store with redis := (s.store.redis.blpop qs).2 }, now,
        { s.log with popped := s.log.popped ++ [(now, X.payloadAt j)] }⟩ ∧
      X.Ledger ⟨{ s.store with redis := (s.store.redis.blpop qs).2 }, now,
        { s.log with popped := s.log.popped ++ [(now, X.payloadAt j)] }⟩ := by
  obtain ⟨-, hempty⟩ := h.of_blpop hpop
  obtain ⟨hdelayed, hdlq⟩ := blpop_delayed s.store.redis qs
  have hlen : (s.log.popped ++ [(now, X.payloadAt j)]).length = j + 1 := by simp [h.popped]
  refine ⟨⟨h.lt, hempty, hlen, h.created, h.scheduled, h.sent, h.row, hdlq.trans h.dlq⟩,
    fun u hu => (hledger.past u hu).trans hnow, fun i e he => ?_, hledger.schedules,
    fun i e he => ?_⟩
  · by_cases hi : i < j
    · exact hledger.popped i e ((List.getElem?_append_left (h.popped.symm ▸ hi)).symm.trans he)
    · obtain ⟨rfl, rfl⟩ := last_of_not_lt h.popped hi he
      rfl
  · by_cases hi : i + 1 < j
    · exact hledger.due i e ((List.getElem?_append_left (h.popped.symm ▸ hi)).symm.trans he)
    · obtain ⟨hij, rfl⟩ := last_of_not_lt h.popped hi he
      obtain ⟨z, hz⟩ : ∃ z, s.log.scheduled[i]? = some z :=
        ⟨_, List.getElem?_eq_getElem (by rw [h.scheduled]; omega)⟩
      refine ⟨z, hz, ?_⟩
      rcases h.due i z hij.symm hz with hle | ⟨x, hx, -⟩
      · exact hle.trans hnow
      · -- the payload was in a list
        have hmem : x.1 ∈ (s.store.redis.blpop qs).2.stored := by
          refine Redis.mem_stored.mpr (Or.inr ?_)
          rw [hdelayed]
          exact List.mem_map_of_mem hx
        rw [hempty] at hmem
        cases hmem

end Waits

section round

variable [DecidableEq δ]

/-- The loop looks around. -/
lemma Free.looks (h : Free s) {c : Cmd δ} (hc : c.looks = true)
    {Q : Except String (Reply c) → RetryState δ → Prop}
    (hQ : ∀ s₁ t r s', X.Inv dlq s' → Free s' → s.clock ≤ s'.clock →
      X.effect c t s₁ = some (r, s') → Q r s') :
    Ensures (X.sharing dlq) 0 (await c) Q s :=
  ensures_looks hc fun s₁ t r s' hinv hrely he hsame hclock =>
    hQ s₁ t r s' (hinv.same hsame hclock) ((h.rely hrely).same hsame)
      (hrely.clock.trans hclock) he

lemma Free.processDelayedTasks (h : Free s) {Q : Except String Unit → RetryState δ → Prop}
    (hQ : ∀ s', Free s' → Q (.ok ()) s') :
    Ensures (X.sharing dlq) 0 (processDelayedTasks X.codec) Q s := by
  refine ensures_tryCatch.mpr (ensures_bind.mpr (h.looks rfl fun s₀ t r s₁ _ h₁ _ he => ?_))
  obtain ⟨-, store, hstore, hs₁⟩ := effect_cases he
  cases hstore
  have hclock₁ : s₁.clock = t.now := by rw [hs₁]
  generalize t.now = now at hclock₁
  refine ensures_bind.mpr (h₁.looks rfl fun s₂ t r s₃ hinv₃ h₃ hclock₃ he => ?_)
  obtain ⟨-, store, hstore, hs₃⟩ := effect_cases he
  cases hstore
  have hread : s₂.store.redis.delayed = s₃.store.redis.delayed := by rw [hs₃]
  rw [hread]
  dsimp only
  split
  · exact hQ s₃ h₃
  · rename_i hne
    have hread₃ : s₃.store.redis.delayed.zrangebyscore 0 now 0 50 ≠ [] := by simpa using hne
    have hstored : s₃.store.redis.stored ≠ [] := by
      obtain ⟨x, hx⟩ := List.exists_mem_of_ne_nil _ hread₃
      have hx' := ((s₃.store.redis.delayed.zrangebyscore_sublist 0 now 0 50).trans
        (s₃.store.redis.delayed.inRange_sublist 0 now)).subset hx
      exact List.ne_nil_of_mem (Redis.mem_stored.mpr (Or.inr hx'))
    obtain ⟨j, hw⟩ := hinv₃.waits hstored
    have hnow₃ : now ≤ s₃.clock := hclock₁ ▸ hclock₃
    obtain ⟨grouped, hok, -⟩ := hw.move hnow₃ (le_refl _) hread₃
    rw [hok]
    refine ensures_call (fun _ => rfl) fun s₄ t r s₅ hinv₄ hrely he => ?_
    have hsame := hrely.same hw.owns
    obtain ⟨hnow, store, hstore, rfl⟩ := effect_cases he
    cases hstore
    obtain ⟨j', hw₄⟩ := hinv₄.waits (hsame.redis ▸ hstored)
    obtain ⟨grouped', hok', hw₅⟩ := hw₄.move ((hnow₃.trans hrely.clock).trans hnow) hnow
      (hsame.redis ▸ hread₃)
    rw [hsame.redis, hok] at hok'
    obtain rfl := Except.ok.inj hok'
    have h₄ : Free s₄ := h₃.rely hrely
    exact ⟨⟨hinv₄.clock.trans hnow, hinv₄.ledger.later hnow rfl rfl rfl, j', Or.inl hw₅⟩,
      ⟨hnow, le_refl _, fun hown => absurd hw₄.owns hown, fun h0 => absurd rfl h0⟩, rfl,
      hQ _ h₄⟩

lemma Free.blpop (h : Free s) (qs : List PriorityQueue)
    {Q : Except String (Option (PriorityQueue × δ)) → RetryState δ → Prop}
    (hnone : ∀ s', Free s' → Q (.ok none) s')
    (hsome : ∀ j q d s', X.codec.validate d = some (X.payloadAt j) → X.Holds dlq j s' →
      Q (.ok (some (q, d))) s') :
    Ensures (X.sharing dlq) 0 (await (.blpop qs)) Q s := by
  refine ensures_call (fun _ => rfl) fun s₁ t r s₂ hinv hrely he => ?_
  have h₁ : Free s₁ := h.rely hrely
  obtain ⟨hnow, store, hstore, rfl⟩ := effect_cases he
  cases hstore
  cases hpop : (s₁.store.redis.blpop qs).1 with
  | none =>
    have hsame : s₁.Same ⟨{ s₁.store with redis := (s₁.store.redis.blpop qs).2 }, t.now, s₁.log⟩ :=
      ⟨rfl, blpop_eq_none hpop, rfl⟩
    exact ⟨hinv.same hsame hnow, hsame.guar hnow 0, rfl, hnone _ (h₁.same hsame)⟩
  | some qd =>
    obtain ⟨q, d⟩ := qd
    have hstored : s₁.store.redis.stored ≠ [] :=
      List.ne_nil_of_mem ((stored_blpop hpop).mem_iff.mpr List.mem_cons_self)
    obtain ⟨j, hw⟩ := hinv.waits hstored
    obtain ⟨hd, -⟩ := hw.of_blpop hpop
    obtain ⟨hholds, hledger⟩ := hw.pop hinv.ledger hnow hpop
    simp only [RetryLog.record, hd]
    exact ⟨⟨hinv.clock.trans hnow, hledger, j, Or.inr (Or.inl hholds)⟩,
      ⟨hnow, le_refl _, fun hown => absurd hw.owns hown, fun h0 => absurd rfl h0⟩, trivial,
      hsome j q d _ hd hholds⟩

/-- `consume` brings the payload of the next attempt or nothing. -/
lemma Free.consume (h : Free s) {Q : Except String (Option QueuePayload) → RetryState δ → Prop}
    (hnone : ∀ s', Free s' → Q (.ok none) s')
    (hsome : ∀ j s', X.Holds dlq j s' → Q (.ok (some (X.payloadAt j))) s') :
    Ensures (X.sharing dlq) 0 (consume X.codec) Q s := by
  refine ensures_tryCatch.mpr (ensures_bind.mpr (h.processDelayedTasks fun s₁ h₁ => ?_))
  refine ensures_bind.mpr (ensures_bind.mpr (h₁.looks rfl fun _ t r s₂ _ h₂ _ he => ?_))
  obtain ⟨-, -, x, rfl⟩ := looks_cases rfl he
  refine ensures_bind.mpr (h₂.blpop _ (fun s₃ h₃ => hnone s₃ h₃) fun j q d s₃ hd hholds => ?_)
  dsimp only
  rw [hd]
  exact hsome j s₃ hholds

/-- The loop hands the payload to a task. -/
lemma Holds.createTask (h : X.Holds dlq j s) :
    Ensures (X.sharing dlq) 0 (await (.createTask X.worker (X.payloadAt j))) (X.Done dlq 0) s := by
  refine ensures_perform.mpr fun s₁ hinv hrely t r s₂ he => ?_
  have hown : s.Owns 0 := Or.inr (by rw [h.created, h.popped]; omega)
  have hsame : s.Same s₁ := hrely.same hown
  have h₁ := h.same hsame
  have hinv₁ : X.Inv dlq s₁ := hinv
  change X.effect (.createTask X.worker (X.payloadAt j)) t s₁ = some (r, s₂) at he
  obtain ⟨hnow, store, hstore, rfl⟩ := effect_cases he
  cases hstore
  have hcreated : s₁.log.created + 1 = j + 1 := by rw [h₁.created]
  have htrying : X.Trying j j (fun _ => True) j dlq
      ⟨s₁.store, t.now, { s₁.log with created := s₁.log.created + 1 }⟩ :=
    ⟨h₁.lt, h₁.empty, h₁.popped, hcreated, h₁.scheduled, h₁.sent, h₁.row, h₁.dlq⟩
  have hinv₂ : X.Inv dlq ⟨s₁.store, t.now, { s₁.log with created := s₁.log.created + 1 }⟩ :=
    ⟨hinv₁.clock.trans hnow, hinv₁.ledger.later hnow rfl rfl rfl, j,
      Or.inr (Or.inr (htrying.works (Nat.le_succ j)))⟩
  refine ⟨hinv₂, ⟨hnow, le_refl _, fun hnot => absurd (hown.same hsame) hnot,
    fun h0 => absurd rfl h0⟩, ⟨rfl, j, hcreated, rfl, htrying⟩, ⟨_, rfl⟩, ?_⟩
  exact hcreated.trans h₁.popped.symm

/-- A round of the loop. -/
theorem Free.engineRound (h : Free s) :
    Ensures (X.sharing dlq) 0 (engineRound X.codec X.worker) (X.Done dlq 0) s := by
  refine ensures_bind.mpr (h.looks rfl fun _ t r s₁ _ h₁ _ he => ?_)
  obtain ⟨-, -, x, rfl⟩ := looks_cases rfl he
  refine ensures_bind.mpr (h₁.consume (fun s₂ h₂ => ?_) fun j s₂ hholds => ?_)
  · refine h₂.looks rfl fun _ t r s₃ _ h₃ _ he => ?_
    obtain ⟨-, -, x, rfl⟩ := looks_cases rfl he
    exact ⟨⟨_, rfl⟩, h₃⟩
  · exact hholds.createTask

end round

section kept

variable [DecidableEq δ] {s₀ : RetryState δ} {p : Runs δ}

omit [DecidableEq δ] in
lemma Alone.inv (h : X.Alone s₀) (hfirst : X.payload.attempt = 0) :
    X.Inv s₀.store.redis.dlq s₀ := by
  have hpayload : X.payloadAt 0 = X.payload := by
    unfold payloadAt
    rw [Nat.cast_zero, ← hfirst]
  obtain ⟨d, hstored, hd⟩ := h.waits
  obtain ⟨row, hrow, hattempts⟩ := h.row
  have hlt : 0 < X.attempts :=
    lt_attempts_iff.mpr ⟨Nat.succ_pos _, fun i hi => absurd hi (Nat.not_lt_zero i)⟩
  refine ⟨h.clock, ⟨?_, ?_, ?_, ?_⟩, 0, Or.inl ⟨hlt, ⟨d, hstored, hpayload ▸ hd⟩, ?_, ?_, ?_, ?_,
    ?_, ?_, ⟨row, hrow, trivial, hattempts⟩, rfl⟩⟩
  · simp [h.log]
  · simp [h.log]
  · simp [h.log]
  · simp [h.log]
  · simp [h.undelayed]
  · simp
  · simp [h.log]
  · simp [h.log]
  · simp [h.log]
  · simp [h.log]

/-- The worker keeps the rules of sharing. -/
theorem Alone.kept (h : X.Alone s₀) (hbackoff : 0 ≤ X.settings.defaultRetryBackoff)
    (hfirst : X.payload.attempt = 0) (hp : X.Run s₀ p) :
    (X.sharing s₀.store.redis.dlq).Kept p := by
  refine hp.kept ?_ ?_
  · rintro p rfl
    have hfree : Free s₀ := by simp [Free, h.log]
    have hinv := h.inv hfirst
    refine ⟨hinv, by simp [sharing, pool, h.log], fun i t ht => ?_⟩
    obtain ⟨rfl, rfl⟩ : i = 0 ∧ t = engineThread X.codec X.worker := by
      simpa [pool, List.getElem?_singleton, eq_comm] using ht
    refine ⟨hfree.engineRound, fun l hl u s hinv hdone => ?_⟩
    rw [← Option.some.inj hl]
    exact Free.engineRound hdone.2
  · rintro n q s hinv ⟨j, rfl, rfl, htrying⟩
    exact htrying.processPayload hbackoff

end kept

end RetryCase

end SecurityScanner

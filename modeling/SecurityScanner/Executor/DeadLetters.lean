import SecurityScanner.Executor.Recording
import SecurityScanner.Executor.TransientFaults

/-!
# The attempts of a task

The attempts of a task when neither the database nor Redis fails. An attempt whose request
fails schedules the next one or, with the retries used up, appends the payload to the dead
letter queue; an attempt that the limiter refuses appends it at once.
-/

namespace SecurityScanner

open Interleaving

variable {δ : Type} [DecidableEq δ] (codec : Codec δ) (settings : Settings)

section attempts

/-- The calls of `_process_payload` in a run without failures. -/
def attemptCalls (env : Surroundings) (w : WorkerId) (p : QueuePayload) (s : Store δ) :
    List (Cmd δ) :=
  (processPayload codec settings w p).calls (env.handle codec) ⟨s, none⟩

/-- A call that leaves the payload somewhere. -/
def Cmd.leaves : Cmd δ → Bool
  | .zadd .. => true
  | .rpushDlq .. => true
  | _ => false

/-- The attempt appends the payload to the dead letter queue. -/
def DeadLetters (env : Surroundings) (w : WorkerId) (p : QueuePayload) (s : Store δ) : Prop :=
  ∃ reason, .rpushDlq p reason ∈ attemptCalls codec settings env w p s

/-- The payload that the attempt schedules for a retry. -/
def Schedules (env : Surroundings) (w : WorkerId) (p : QueuePayload) (s : Store δ)
    (p' : QueuePayload) : Prop :=
  ∃ d score, .zadd d score ∈ attemptCalls codec settings env w p s ∧ codec.validate d = some p'

/-- `p` is the payload of the attempt `i` of a task; other clients may have changed the
stores between the attempts. -/
inductive Attempt (envs : ℕ → Surroundings) (p₀ : QueuePayload) : ℕ → QueuePayload → Prop
  | first : Attempt envs p₀ 0 p₀
  | retry {i p p'} (w : WorkerId) (s : Store δ) : Attempt envs p₀ i p →
      Schedules codec settings (envs i) w p s p' → Attempt envs p₀ (i + 1) p'

/-- The processing fails: the limiter refuses it, or the request fails. -/
def Surroundings.fails (env : Surroundings) : Bool := !env.granted || env.httpFails

/-- How often the processing has failed after `n` attempts. -/
def failures (envs : ℕ → Surroundings) (n : ℕ) : ℕ := (List.range n).countP fun i => (envs i).fails

end attempts

section calls

variable {codec settings} {env : Surroundings}

/-- The program does not raise, and these of its calls leave a payload somewhere. -/
structure Leaving {α : Type} (codec : Codec δ) (env : Surroundings) (q : Coroutine δ α)
    (s : Trial δ) (left : List (Cmd δ)) : Prop where
  returns : ∃ a s', q.run (env.handle codec) s = (.ok a, s')
  left : (q.calls (env.handle codec) s).filter Cmd.leaves = left

lemma Leaving.pure {α : Type} (a : α) (s : Trial δ) :
    Leaving codec env (Pure.pure a : Coroutine δ α) s [] :=
  ⟨⟨a, s, rfl⟩, rfl⟩

lemma Leaving.bind {α β : Type} {q : Coroutine δ α} {f : α → Coroutine δ β} {s : Trial δ}
    {left left' : List (Cmd δ)} (hq : Leaving codec env q s left)
    (hf : ∀ a s', q.run (env.handle codec) s = (.ok a, s') → Leaving codec env (f a) s' left') :
    Leaving codec env (q >>= f) s (left ++ left') := by
  obtain ⟨a, s', hrun⟩ := hq.returns
  obtain ⟨hreturns, hleft⟩ := hf a s' hrun
  refine ⟨by rwa [Prog.run_bind, hrun], ?_⟩
  rw [Prog.calls_bind, hrun, List.filter_append, hq.left, hleft]

/-- A program that makes no call of the kind. -/
lemma Leaving.silent {α : Type} {q : Coroutine δ α} {s : Trial δ}
    (hreturns : ∃ a s', q.run (env.handle codec) s = (.ok a, s'))
    (h : q.CallsOnly fun c => c.leaves = false) : Leaving codec env q s [] :=
  ⟨hreturns, List.filter_eq_nil_iff.mpr fun _ hc => by simp [h.of_mem_calls hc]⟩

omit [DecidableEq δ] in
lemma callsOnly_await {c : Cmd δ} (h : c.leaves = false) :
    (await c : Coroutine δ (Reply c)).CallsOnly fun c => c.leaves = false :=
  Prog.callsOnly_perform h

omit [DecidableEq δ] in
lemma leaves_of_records {c : Cmd δ} (h : c.records = true) : c.leaves = false := by
  cases c <;> first | rfl | cases h

lemma leaving_updateTaskStatus (id : TaskId) (st : TaskStatus) (s : Trial δ) :
    Leaving codec env (updateTaskStatus id st) s [] :=
  Leaving.silent (Prog.run_tryCatch_pure _ _)
    ((records_updateTaskStatus id st).mono fun _ => leaves_of_records)

lemma leaving_saveResponse (id : TaskId) (o : Outcome) (s : Trial δ) :
    Leaving codec env (saveResponse id o) s [] :=
  Leaving.silent (Prog.run_tryCatch_pure _ _)
    ((records_saveResponse id o).mono fun _ => leaves_of_records)

lemma leaving_executeRequest (p : QueuePayload) (s : Trial δ) :
    Leaving codec env (executeRequest p) s [] := by
  obtain ⟨o, s', hrun, -⟩ := executeRequest_run codec env s.store s.fault p
  have hreporting : HoldsOfReporting fun _ (q : Coroutine δ _) =>
      q.CallsOnly fun c => c.leaves = false :=
    reporting_callsOnly (fun _ => rfl) (fun _ _ => rfl) fun _ => rfl
  exact Leaving.silent ⟨o, _, hrun⟩ (hreporting.executeRequest p (callsOnly_await rfl))

lemma leaving_sendToDlq (p : QueuePayload) (reason : String) (s : Trial δ) :
    Leaving codec env (sendToDlq p reason) s [.rpushDlq p reason] := by
  obtain ⟨b, s', hrun, -⟩ := sendToDlq_run codec env s.store s.fault p reason
  refine ⟨⟨b, _, hrun⟩, ?_⟩
  unfold sendToDlq
  rw [Prog.calls_tryCatch, Prog.calls_bind, Prog.run_bind, Prog.calls_perform, Prog.run_perform]
  rcases env.handle codec (.rpushDlq p reason) s with ⟨e | a, s'⟩ <;> rfl

lemma leaving_scheduleDelayed (p : QueuePayload) (delay : ℚ) (s : Trial δ) :
    Leaving codec env (scheduleDelayed codec p delay) s
      [.zadd (codec.dump p) (env.clock + delay)] := by
  obtain ⟨b, s', hrun, -⟩ := scheduleDelayed_run codec env s.store s.fault p delay
  refine ⟨⟨b, _, hrun⟩, ?_⟩
  have htime : env.handle codec .time s = (.ok env.clock, s) := handle_of_none rfl
  unfold scheduleDelayed
  rw [Prog.calls_tryCatch, Prog.run_bind, Prog.calls_bind, Prog.run_perform, Prog.calls_perform,
    htime]
  dsimp only
  rw [Prog.run_bind, Prog.calls_bind, Prog.run_perform, Prog.calls_perform]
  rcases env.handle codec (.zadd (codec.dump p) (env.clock + delay)) s with ⟨e | a, s'⟩ <;> rfl

/-- `_handle_retry` schedules the next attempt, or gives the payload up. -/
lemma leaving_handleRetry (p : QueuePayload) (e : String) (s : Trial δ) :
    Leaving codec env (handleRetry codec settings p e) s
      (if p.attempt < p.maxRetries then
        [.zadd (codec.dump { p with attempt := p.attempt + 1 })
          (env.clock + retryDelay settings (p.attempt + 1))]
      else [.rpushDlq p ("Max retries exceeded. Last error: " ++ e)]) := by
  unfold handleRetry
  by_cases hp : p.attempt < p.maxRetries
  · simp only [hp, ↓reduceIte]
    have hinc : Leaving codec env (await .incRetries) s [] :=
      Leaving.silent ⟨(), _, by rw [Prog.run_perform, handle_of_none rfl]; rfl⟩ (callsOnly_await rfl)
    refine hinc.bind fun _ s₁ _ => (leaving_updateTaskStatus _ _ s₁).bind fun _ s₂ _ => ?_
    exact (leaving_scheduleDelayed _ _ s₂).bind fun _ s₃ _ => Leaving.pure _ s₃
  · simp only [hp, ↓reduceIte]
    refine (leaving_updateTaskStatus _ _ s).bind fun _ s₁ _ => ?_
    exact (leaving_sendToDlq _ _ s₁).bind fun _ s₂ _ => Leaving.pure _ s₂

/-- The body of an attempt whose request is sent. -/
lemma leaving_attemptPayload (p : QueuePayload) (hg : env.granted = true) (s : Trial δ) :
    ∃ reason, Leaving codec env (attemptPayload codec settings p) s
      (if env.httpFails then
        if p.attempt < p.maxRetries then
          [.zadd (codec.dump { p with attempt := p.attempt + 1 })
            (env.clock + retryDelay settings (p.attempt + 1))]
        else [.rpushDlq p reason]
      else []) := by
  obtain ⟨u, s₁, hmark⟩ := (@leaving_updateTaskStatus δ _ codec env p.taskId .processing s).returns
  obtain ⟨o, s₂, hexec, -, -, ho⟩ := executeRequest_run codec env s₁.store s₁.fault p
  have hacquire : env.handle codec (.acquire p.url p.scanId) s₁ = (.ok true, s₁) := by
    rw [← granted_limiter hg]
    exact handle_of_none rfl
  refine ⟨"Max retries exceeded. Last error: " ++ o.errorMessage.getD "", ?_⟩
  unfold attemptPayload markTaskProcessing
  refine (leaving_updateTaskStatus _ _ s).bind fun _ s' hrun => ?_
  obtain ⟨-, rfl⟩ := Prod.mk.inj (hmark.symm.trans hrun)
  have hgrant : Leaving codec env (await (.acquire p.url p.scanId)) s₁ [] :=
    Leaving.silent ⟨true, s₁, by rw [Prog.run_perform, hacquire]⟩ (callsOnly_await rfl)
  refine hgrant.bind fun b s' hrun => ?_
  rw [Prog.run_perform, hacquire] at hrun
  obtain ⟨hb, rfl⟩ := Prod.mk.inj hrun
  obtain rfl := Except.ok.inj hb
  simp only [↓reduceIte]
  refine (leaving_executeRequest p s₁).bind fun o' s' hrun => ?_
  obtain ⟨ho', rfl⟩ := Prod.mk.inj (hexec.symm.trans hrun)
  obtain rfl := Except.ok.inj ho'
  refine (leaving_saveResponse _ _ _).bind fun _ s₃ _ => ?_
  rw [ho]
  cases env.httpFails with
  | true => exact leaving_handleRetry p _ s₃
  | false => exact Leaving.pure () s₃

/-- An attempt that the limiter refuses raises. -/
lemma attemptPayload_raises (p : QueuePayload) (hg : env.granted = false) (s : Trial δ) :
    ∃ e s', (attemptPayload codec settings p).run (env.handle codec) s = (.error e, s') ∧
      ((attemptPayload codec settings p).calls (env.handle codec) s).filter Cmd.leaves = [] := by
  obtain ⟨⟨u, s₁, hmark⟩, hleft⟩ :=
    @leaving_updateTaskStatus δ _ codec env p.taskId .processing s
  have hacquire : env.handle codec (.acquire p.url p.scanId) s₁ = (env.limiter, s₁) :=
    handle_of_none rfl
  unfold attemptPayload markTaskProcessing
  rw [Prog.run_bind, Prog.calls_bind, hmark]
  dsimp only
  rw [Prog.run_bind, Prog.calls_bind, Prog.run_perform, Prog.calls_perform, hacquire]
  cases hlim : env.limiter with
  | error e => exact ⟨e, s₁, rfl, by rw [List.filter_append, hleft]; rfl⟩
  | ok b =>
    obtain rfl : b = false := by simpa [Surroundings.granted, hlim] using hg
    exact ⟨_, s₁, rfl, by rw [List.filter_append, hleft]; rfl⟩

lemma leaving_criticalError (p : QueuePayload) (e : String) (s : Trial δ) :
    Leaving codec env (criticalError p e) s [.rpushDlq p e] := by
  unfold criticalError
  have hsave : ∀ o, Leaving codec env
      (tryCatch (saveResponse p.taskId o) fun _ => pure ()) s [] := by
    intro o
    obtain ⟨⟨a, s', hrun⟩, hleft⟩ := @leaving_saveResponse δ _ codec env p.taskId o s
    exact ⟨⟨a, s', by rw [Prog.run_tryCatch, hrun]⟩,
      by rw [Prog.calls_tryCatch, hrun, List.filter_append, hleft]; rfl⟩
  exact (hsave _).bind fun _ s₁ _ => (leaving_sendToDlq p e s₁).bind fun _ s₂ _ => Leaving.pure _ s₂

/-- What an attempt leaves: the next one, a dead letter, or nothing. -/
lemma attemptCalls_leaves (env : Surroundings) (w : WorkerId) (p : QueuePayload) (s : Store δ) :
    ∃ reason score, (attemptCalls codec settings env w p s).filter Cmd.leaves =
      if env.granted && env.httpFails && p.attempt < p.maxRetries then
        [.zadd (codec.dump { p with attempt := p.attempt + 1 }) score]
      else if env.fails then [.rpushDlq p reason]
      else [] := by
  have hrelease : ∀ s : Trial δ, ((await (.semaphoreRelease w) : Coroutine δ Unit).calls
      (env.handle codec) s).filter Cmd.leaves = [] := by
    intro s
    rw [Prog.calls_perform]
    rfl
  unfold attemptCalls processPayload
  rw [Prog.calls_bind, Prog.run_tryCatch, Prog.calls_tryCatch, List.filter_append,
    List.filter_append]
  by_cases hg : env.granted = true
  · obtain ⟨reason, ⟨u, s', hrun⟩, hleft⟩ :=
      @leaving_attemptPayload δ _ codec settings env p hg ⟨s, none⟩
    refine ⟨reason, env.clock + retryDelay settings (p.attempt + 1), ?_⟩
    rw [hrun, hleft, hrelease]
    cases hfails : env.httpFails with
    | true => by_cases hp : p.attempt < p.maxRetries <;> simp [hg, hp, hfails, Surroundings.fails]
    | false => simp [hg, hfails, Surroundings.fails]
  · rw [Bool.not_eq_true] at hg
    obtain ⟨e, s', hrun, hleft⟩ :=
      @attemptPayload_raises δ _ codec settings env p hg ⟨s, none⟩
    obtain ⟨⟨u, s₂, hrun₂⟩, hleft₂⟩ := @leaving_criticalError δ _ codec env p e s'
    refine ⟨e, 0, ?_⟩
    rw [hrun, hleft]
    dsimp only
    rw [hrun₂, hleft₂, hrelease]
    simp [hg, Surroundings.fails]

end calls

section chains

variable {codec settings} {env : Surroundings} {envs : ℕ → Surroundings} {p₀ p p' : QueuePayload}

lemma deadLetters_iff (w : WorkerId) (s : Store δ) :
    DeadLetters codec settings env w p s ↔
      env.fails = true ∧ (env.granted = true → ¬p.attempt < p.maxRetries) := by
  obtain ⟨reason, score, h⟩ := @attemptCalls_leaves δ _ codec settings env w p s
  have hmem : ∀ r, (.rpushDlq p r ∈ attemptCalls codec settings env w p s ↔
      .rpushDlq p r ∈ (attemptCalls codec settings env w p s).filter Cmd.leaves) := by
    intro r
    simp [List.mem_filter, Cmd.leaves]
  unfold DeadLetters
  simp only [hmem, h]
  cases hg : env.granted <;> cases hf : env.httpFails <;> by_cases hp : p.attempt < p.maxRetries <;>
    simp [hg, hf, hp, Surroundings.fails]

/-- Only a request that fails before the last retry is tried again, one attempt later. -/
lemma schedules_iff (w : WorkerId) (s : Store δ) :
    Schedules codec settings env w p s p' ↔
      (env.granted = true ∧ env.httpFails = true ∧ p.attempt < p.maxRetries) ∧
        p' = { p with attempt := p.attempt + 1 } := by
  obtain ⟨reason, score, h⟩ := @attemptCalls_leaves δ _ codec settings env w p s
  have hmem : ∀ d sc, (.zadd d sc ∈ attemptCalls codec settings env w p s ↔
      .zadd d sc ∈ (attemptCalls codec settings env w p s).filter Cmd.leaves) := by
    intro d sc
    simp [List.mem_filter, Cmd.leaves]
  unfold Schedules
  simp only [hmem, h]
  cases hg : env.granted <;> cases hf : env.httpFails <;> by_cases hp : p.attempt < p.maxRetries <;>
    simp [hg, hf, hp, Surroundings.fails, codec.validate_dump, eq_comm]

/-- The request of the attempt fails, having been granted. -/
def Surroundings.plainFailure (env : Surroundings) : Bool := env.granted && env.httpFails

/-- The attempt `i` takes place exactly after `i` requests that failed. -/
lemma attempt_iff {m : ℕ} (h0 : p₀.attempt = 0) (hm : p₀.maxRetries = m) {i : ℕ} :
    Attempt codec settings envs p₀ i p ↔
      (i ≤ m ∧ ∀ j < i, (envs j).plainFailure = true) ∧ p = { p₀ with attempt := i } := by
  constructor
  · intro h
    induction h with
    | first => exact ⟨⟨Nat.zero_le m, by simp⟩, by rw [Nat.cast_zero, ← h0]⟩
    | @retry i p p' w s _ hs ih =>
      obtain ⟨⟨-, hall⟩, rfl⟩ := ih
      obtain ⟨⟨hg, hf, hlt⟩, rfl⟩ := (schedules_iff w s).mp hs
      have hlt' : (i : ℤ) < p₀.maxRetries := hlt
      have hi : i < m := by
        rw [hm] at hlt'
        exact_mod_cast hlt'
      refine ⟨⟨hi, fun j hj => ?_⟩, by simp⟩
      rcases Nat.lt_succ_iff_lt_or_eq.mp hj with hj | rfl
      · exact hall j hj
      · simp [Surroundings.plainFailure, hg, hf]
  · rintro ⟨⟨hi, hall⟩, rfl⟩
    induction i with
    | zero =>
      have hp : { p₀ with attempt := ((0 : ℕ) : ℤ) } = p₀ := by rw [Nat.cast_zero, ← h0]
      exact hp ▸ .first
    | succ i ih =>
      have hprev := ih (by omega) fun j hj => hall j (by omega)
      have hplain := hall i (Nat.lt_succ_self i)
      rw [Surroundings.plainFailure, Bool.and_eq_true] at hplain
      refine .retry 0 {} hprev ((schedules_iff 0 {}).mpr ⟨⟨hplain.1, hplain.2, ?_⟩, by simp⟩)
      change (i : ℤ) < p₀.maxRetries
      rw [hm]
      exact_mod_cast hi

lemma failures_eq {n : ℕ} (h : ∀ i < n, (envs i).fails = true) : failures envs n = n := by
  unfold failures
  rw [List.countP_eq_length.mpr fun i hi => h i (List.mem_range.mp hi), List.length_range]

lemma fails_of_plainFailure (h : env.plainFailure = true) : env.fails = true := by
  simp only [Surroundings.plainFailure, Bool.and_eq_true] at h
  simp [Surroundings.fails, h.2]

end chains

/-- A task is dead-lettered only when its processing has failed `m + 1` times exactly if the
limiter refuses no attempt before the last one that follows failed requests only. -/
theorem dead_letter_after_retries_iff (codec : Codec δ) (settings : Settings) {m : ℕ}
    {p₀ : QueuePayload} (h0 : p₀.attempt = 0) (hm : p₀.maxRetries = m) (envs : ℕ → Surroundings) :
    (∀ i p w s, Attempt codec settings envs p₀ i p → DeadLetters codec settings (envs i) w p s →
      failures envs (i + 1) = m + 1) ↔
    ∀ i < m, (∀ j < i, (envs j).granted = true ∧ (envs j).httpFails = true) →
      (envs i).granted = true := by
  have hplain : ∀ j, (envs j).plainFailure = true ↔
      (envs j).granted = true ∧ (envs j).httpFails = true := by
    simp [Surroundings.plainFailure]
  constructor
  · intro h i hi hall
    by_contra hg
    rw [Bool.not_eq_true] at hg
    have hfails : (envs i).fails = true := by simp [Surroundings.fails, hg]
    have hattempt : Attempt codec settings envs p₀ i { p₀ with attempt := i } :=
      (attempt_iff h0 hm).mpr ⟨⟨hi.le, fun j hj => (hplain j).mpr (hall j hj)⟩, rfl⟩
    have hdead := h i _ 0 {} hattempt ((deadLetters_iff 0 {}).mpr ⟨hfails, by simp [hg]⟩)
    rw [failures_eq] at hdead
    · omega
    · intro j hj
      rcases Nat.lt_succ_iff_lt_or_eq.mp hj with hj | rfl
      · exact fails_of_plainFailure ((hplain j).mpr (hall j hj))
      · exact hfails
  · intro h i p w s hattempt hdead
    obtain ⟨⟨hi, hall⟩, rfl⟩ := (attempt_iff h0 hm).mp hattempt
    obtain ⟨hfails, hlast⟩ := (deadLetters_iff w s).mp hdead
    have him : i = m := by
      rcases Nat.lt_or_eq_of_le hi with hlt | heq
      · have hg := h i hlt fun j hj => (hplain j).mp (hall j hj)
        refine absurd ?_ (hlast hg)
        change (i : ℤ) < p₀.maxRetries
        rw [hm]
        exact_mod_cast hlt
      · exact heq
    subst him
    refine failures_eq fun j hj => ?_
    rcases Nat.lt_succ_iff_lt_or_eq.mp hj with hj | rfl
    · exact fails_of_plainFailure (hall j hj)
    · exact hfails

section examples

/-- The first request times out, the second is answered with 429. -/
def twoFailures : ℕ → Surroundings
  | 0 => ⟨.ok true, .ok (), .error "timeout", 0⟩
  | _ => ⟨.ok true, .ok (), .ok ⟨429, 1, [], ""⟩, 5⟩

/-- The payload of a task that may be tried twice. -/
def triedTwice : QueuePayload := { retryPayload 0 with attempt := 0, maxRetries := 1 }

theorem dead_letter_after_retries_iff_two : failures twoFailures (1 + 1) = 1 + 1 := by
  have hattempt : Attempt Codec.payloads {} twoFailures triedTwice 1
      { triedTwice with attempt := 1 } :=
    (@attempt_iff _ _ _ _ _ triedTwice _ 1 rfl rfl 1).mpr ⟨⟨le_rfl, by decide +kernel⟩, rfl⟩
  have hdead : DeadLetters Codec.payloads {} (twoFailures 1) 0 { triedTwice with attempt := 1 } {} :=
    (deadLetters_iff 0 {}).mpr (by decide +kernel)
  refine (@dead_letter_after_retries_iff _ _ Codec.payloads {} 1 triedTwice rfl rfl
    twoFailures).mpr ?_ 1 _ 0 {} hattempt hdead
  intro i hi _
  obtain rfl : i = 0 := by omega
  rfl

/-- The limiter refuses the first attempt of a task that has three retries. -/
theorem dead_letter_at_first_refusal :
    ¬∀ i p w s, Attempt Codec.payloads {} (fun _ => ⟨.ok false, .ok (), .error "timeout", 0⟩)
        { retryPayload 0 with attempt := 0 } i p →
      DeadLetters Codec.payloads {} ⟨.ok false, .ok (), .error "timeout", 0⟩ w p s →
      failures (fun _ => ⟨.ok false, .ok (), .error "timeout", 0⟩) (i + 1) = 3 + 1 := by
  intro h
  have hdead := h 0 _ 0 {} .first ((deadLetters_iff 0 {}).mpr (by decide +kernel))
  revert hdead
  decide

end examples

end SecurityScanner

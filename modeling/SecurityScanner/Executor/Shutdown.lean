import SecurityScanner.Executor.EngineProtocol

/-!
# Graceful shutdown

`stop` clears the flag, closes the client and waits for the tasks it finds. The loop looks
at the flag only before it polls, so a payload that it pops after that is lost to the
shutdown. Nothing is lost when the client is closed between two rounds of the loop and
after the requests of all tasks.
-/

namespace SecurityScanner

open Interleaving

variable {δ : Type}

section invariant

/-- What holds of the engine when its coroutines are at the stages `gs`. -/
structure EngineInv (s : EngineState δ) (gs : List Stage) : Prop where
  sent : s.lateRequests = 0
  returned : ∀ r ∈ s.atReturn, r.2 = r.1
  tasks : s.tasks.Perm (gs.filterMap Stage.task?)
  popped : s.popped = s.finished + gs.countP Stage.carries
  unstarted : .unstarted ∈ gs → s.running = false ∧ s.clientOpen = true ∧
    (gs.Perm [.unstarted, .stopCalled] ∨ gs.Perm [.unstarted, .gate])
  called : .stopCalled ∈ gs → gs.count .stopCalled = 1 ∧ (.unstarted ∈ gs ∨ s.running = true)
  flagged : .flagged ∈ gs → s.running = false
  closed : s.clientOpen = false → s.running = false ∧ ∀ g ∈ gs, ¬g.Pending
  gathers : .closed ∈ gs → s.clientOpen = false
  waiting : ∀ ids, .waiting ids ∈ gs → s.clientOpen = false ∧ s.tasks ⊆ ids

namespace EngineInv

variable {s : EngineState δ} {g : Stage} {gs rest : List Stage}

lemma perm {gs' : List Stage} (hp : gs.Perm gs') (h : EngineInv s gs) : EngineInv s gs' where
  sent := h.sent
  returned := h.returned
  tasks := h.tasks.trans (hp.filterMap _)
  popped := by rw [h.popped, hp.countP_eq]
  unstarted hu := by
    obtain ⟨hrun, hopen, htwo⟩ := h.unstarted (hp.mem_iff.mpr hu)
    exact ⟨hrun, hopen, htwo.imp hp.symm.trans hp.symm.trans⟩
  called hc := by
    obtain ⟨hone, hrun⟩ := h.called (hp.mem_iff.mpr hc)
    exact ⟨(hp.count_eq _).symm.trans hone, hrun.imp_left hp.mem_iff.mp⟩
  flagged hf := h.flagged (hp.mem_iff.mpr hf)
  closed hc := ⟨(h.closed hc).1, fun g hg => (h.closed hc).2 g (hp.mem_iff.mpr hg)⟩
  gathers hc := h.gathers (hp.mem_iff.mpr hc)
  waiting ids hw := h.waiting ids (hp.mem_iff.mpr hw)

lemma store (h : EngineInv s gs) (store : Store δ) : EngineInv { s with store } gs :=
  ⟨h.sent, h.returned, h.tasks, h.popped, h.unstarted, h.called, h.flagged, h.closed, h.gathers,
    h.waiting⟩

/-- Before the start there is nothing but the two calls. -/
lemma started (h : EngineInv s gs) (hg : g ∈ gs) (hu : g ≠ .unstarted) (hc : g ≠ .stopCalled)
    (hgate : g ≠ .gate) : .unstarted ∉ gs := by
  intro hmem
  rcases (h.unstarted hmem).2.2 with hp | hp
  · simpa [hu, hc] using hp.mem_iff.mp hg
  · simpa [hu, hgate] using hp.mem_iff.mp hg

lemma started_inner (h : EngineInv s (g :: rest)) (hg : g.Inner) (hgate : g ≠ .gate) :
    .unstarted ∉ g :: rest := by
  refine h.started List.mem_cons_self ?_ ?_ hgate
  · rintro rfl
    exact hg
  · rintro rfl
    exact hg

lemma open_of_pending (h : EngineInv s gs) (hg : g ∈ gs) (hp : g.Pending) :
    s.clientOpen = true := by
  cases hopen : s.clientOpen with
  | true => rfl
  | false => exact absurd hp ((h.closed hopen).2 g hg)

/-- With the client closed and no task left, everything is finished. -/
lemma settled (h : EngineInv s gs) (hopen : s.clientOpen = false) (htasks : s.tasks = []) :
    s.finished = s.popped := by
  have hnone : gs.filterMap Stage.task? = [] := by
    have := h.tasks
    rw [htasks] at this
    exact this.symm.eq_nil
  have hzero : gs.countP Stage.carries = 0 := by
    refine List.countP_eq_zero.mpr fun g hg => ?_
    have hpend := (h.closed hopen).2 g hg
    have htask : g.task? = none := List.filterMap_eq_nil_iff.mp hnone g hg
    cases g <;> first | exact Bool.false_ne_true | exact absurd trivial hpend | cases htask
  rw [h.popped, hzero, Nat.add_zero]

lemma mem_append_inner {new : List Stage} (hnew : ∀ x ∈ new, x.Inner) {x : Stage}
    (hx : ¬x.Inner) : x ∈ new ++ rest ↔ x ∈ rest := by
  rw [List.mem_append, or_iff_right]
  exact fun hmem => hx (hnew x hmem)

/-- A step of the loop or of a task. -/
lemma advance (h : EngineInv s (g :: rest)) (hu : .unstarted ∉ g :: rest) (hg : g.Inner)
    (new : List Stage) (hnew : ∀ x ∈ new, x.Inner) {s' : EngineState δ}
    (hrunning : s'.running = s.running) (hopen : s'.clientOpen = s.clientOpen)
    (hsent : s'.lateRequests = 0) (hreturned : s'.atReturn = s.atReturn)
    (htasks : s'.tasks.Perm ((new ++ rest).filterMap Stage.task?))
    (hpopped : s'.popped = s'.finished + (new ++ rest).countP Stage.carries)
    (hclosed : s.clientOpen = false → s'.tasks ⊆ s.tasks ∧ ∀ x ∈ new, ¬x.Pending) :
    EngineInv s' (new ++ rest) := by
  have hmem : ∀ {x : Stage}, ¬x.Inner → (x ∈ new ++ rest ↔ x ∈ g :: rest) := by
    intro x hx
    rw [mem_append_inner hnew hx, ← List.singleton_append,
      mem_append_inner (fun y hy => List.mem_singleton.mp hy ▸ hg) hx]
  have hcount : (new ++ rest).count .stopCalled = (g :: rest).count .stopCalled := by
    have hne : g ≠ .stopCalled := by
      rintro rfl
      exact hg
    have hnone : new.count .stopCalled = 0 := List.count_eq_zero.mpr fun hc => hnew _ hc
    rw [List.count_append, hnone, Nat.zero_add, List.count_cons_of_ne hne]
  refine ⟨hsent, by rw [hreturned]; exact h.returned, htasks, hpopped,
    fun hmem' => absurd ((hmem id).mp hmem') hu, fun hc => ?_, fun hf => ?_, fun hc => ?_,
    fun hc => ?_, fun ids hw => ?_⟩
  · obtain ⟨hone, hrun⟩ := h.called ((hmem id).mp hc)
    exact ⟨hcount.trans hone, hrun.imp (fun hmem' => absurd hmem' hu) hrunning.trans⟩
  · exact hrunning.trans (h.flagged ((hmem id).mp hf))
  · have hc' := hopen.symm.trans hc
    obtain ⟨hrun, hall⟩ := h.closed hc'
    refine ⟨hrunning.trans hrun, fun x hx => ?_⟩
    rcases List.mem_append.mp hx with hx | hx
    · exact (hclosed hc').2 x hx
    · exact hall x (List.mem_cons_of_mem _ hx)
  · exact hopen.trans (h.gathers ((hmem id).mp hc))
  · obtain ⟨hc, hsub⟩ := h.waiting ids ((hmem id).mp hw)
    exact ⟨hopen.trans hc, fun id hid => hsub ((hclosed hc).1 hid)⟩

/-- A task or the loop goes on with what it has. -/
lemma move (h : EngineInv s (g :: rest)) (hu : .unstarted ∉ g :: rest) {g' : Stage}
    (hg : g.Inner) (hg' : g'.Inner) (htask : g'.task? = g.task?)
    (hcarries : g'.carries = g.carries) (hpend : s.clientOpen = false → ¬g'.Pending) :
    EngineInv s (g' :: rest) := by
  refine h.advance hu hg [g'] (by simpa using hg') rfl rfl h.sent rfl ?_ ?_ fun hc => ?_
  · simpa [List.filterMap_cons, htask] using h.tasks
  · simpa [List.countP_cons, hcarries] using h.popped
  · exact ⟨fun _ hid => hid, by simpa using hpend hc⟩

lemma setRunning (h : EngineInv s (.unstarted :: rest)) :
    EngineInv { s with running := true } (.gate :: rest) := by
  obtain ⟨hrun, hopen, htwo⟩ := h.unstarted List.mem_cons_self
  have htasks := h.tasks
  have hpopped := h.popped
  have hrest : rest = [.stopCalled] ∨ rest = [.gate] :=
    htwo.imp (fun hp => List.perm_singleton.mp hp.cons_inv)
      (fun hp => List.perm_singleton.mp hp.cons_inv)
  rcases hrest with rfl | rfl
  · exact ⟨h.sent, h.returned, htasks, hpopped, by simp, by simp, by simp, by simp [hopen],
      by simp, by simp⟩
  · exact ⟨h.sent, h.returned, htasks, hpopped, by simp, by simp, by simp, by simp [hopen],
      by simp, by simp⟩

/-- The loop looks at the flag and starts a round. -/
lemma polls (h : EngineInv s (.gate :: rest)) (hrun : s.running = true) :
    EngineInv s (.polling :: rest) := by
  refine h.move (fun hu => ?_) trivial trivial rfl rfl fun hc => ?_
  · rw [(h.unstarted hu).1] at hrun
    cases hrun
  · rw [(h.closed hc).1] at hrun
    cases hrun

lemma pops (h : EngineInv s (.polling :: rest)) (store : Store δ) :
    EngineInv { s with store, popped := s.popped + 1 } (.holding :: rest) := by
  have hu := h.started_inner trivial (by simp)
  have hopen := h.open_of_pending List.mem_cons_self trivial
  refine h.advance hu trivial [.holding] (by simp [Stage.Inner]) rfl rfl h.sent rfl
    h.tasks ?_ fun hc => ?_
  · have := h.popped
    simp only [Stage.carries, List.singleton_append, List.countP_cons] at this ⊢
    simp at this ⊢
    omega
  · simp [hopen] at hc

lemma createTask (h : EngineInv s (.holding :: rest)) :
    EngineInv { s with tasks := s.created :: s.tasks, created := s.created + 1 }
      (.created s.created :: rest) := by
  have hu := h.started_inner trivial (by simp)
  have hopen := h.open_of_pending List.mem_cons_self trivial
  refine h.advance hu trivial [.created s.created] (by simp [Stage.Inner]) rfl rfl
    h.sent rfl (h.tasks.cons _) h.popped fun hc => ?_
  simp [hopen] at hc

lemma spawn {id : ℕ} (h : EngineInv s (.created id :: rest)) :
    EngineInv s (.gate :: .working id true :: rest) := by
  have hu := h.started_inner trivial (by simp)
  have hopen := h.open_of_pending List.mem_cons_self trivial
  refine h.advance hu trivial [.gate, .working id true] (by simp [Stage.Inner]) rfl rfl
    h.sent rfl h.tasks h.popped fun hc => ?_
  simp [hopen] at hc

lemma taskDone {id : ℕ} {unsent : Bool} (h : EngineInv s (.working id unsent :: rest)) :
    EngineInv { s with tasks := s.tasks.erase id, finished := s.finished + 1 }
      (.gate :: rest) := by
  have hu := h.started_inner trivial (by simp)
  refine h.advance hu trivial [.gate] (by simp [Stage.Inner]) rfl rfl h.sent rfl ?_ ?_
    fun _ => ⟨List.erase_subset, by simp [Stage.Pending]⟩
  · have := h.tasks.erase id
    simpa [List.filterMap_cons, Stage.task?] using this
  · have := h.popped
    simp [List.countP_cons, Stage.carries] at this ⊢
    omega

/-- `stop` comes to a running engine. -/
lemma beginStop (h : EngineInv s (.stopCalled :: rest)) (hrun : s.running = true) :
    EngineInv { s with running := false } (.flagged :: rest) where
  sent := h.sent
  returned := h.returned
  tasks := h.tasks
  popped := h.popped
  unstarted hu := by
    have hfalse := (h.unstarted (by simpa using hu)).1
    simp [hrun] at hfalse
  called hc := by
    have hone := (h.called List.mem_cons_self).1
    rw [List.count_cons_self] at hone
    have hnone : .stopCalled ∉ rest := List.count_eq_zero.mp (by omega)
    exact absurd (by simpa using hc) hnone
  flagged _ := rfl
  closed hc := by
    have hfalse := (h.closed hc).1
    simp [hrun] at hfalse
  gathers hc := h.gathers (by simpa using hc)
  waiting ids hw := h.waiting ids (by simpa using hw)

/-- `stop` comes before the start of the engine. -/
lemma stopEarly (h : EngineInv s (.stopCalled :: rest)) (hrun : s.running = false) :
    EngineInv s.stopReturns (.gate :: rest) := by
  have hu : .unstarted ∈ .stopCalled :: rest := by
    rcases (h.called List.mem_cons_self).2 with hu | htrue
    · exact hu
    · simp [hrun] at htrue
  obtain ⟨-, hopen, htwo⟩ := h.unstarted hu
  have hrest : rest = [.unstarted] := by
    rcases htwo with hp | hp
    · exact List.perm_singleton.mp (hp.trans (List.Perm.swap _ _ _)).cons_inv
    · simpa using hp.mem_iff.mp List.mem_cons_self
  subst hrest
  have hpopped : s.popped = s.finished := h.popped
  refine ⟨h.sent, ?_, h.tasks, h.popped, fun _ => ⟨hrun, hopen, ?_⟩, by simp, by simp, ?_,
    by simp, by simp⟩
  · rintro r hr
    obtain rfl := Option.mem_some_iff.mp hr
    exact hpopped.symm
  · exact Or.inr (List.Perm.swap _ _ _)
  · intro hc
    exact absurd (hopen.symm.trans hc) (by simp)

/-- A step of `stop` after it has cleared the flag. -/
lemma stopStep (h : EngineInv s (g :: rest)) (hg : g.Stopping) {g' : Stage}
    (hg' : g' = .gate ∨ g'.Stopping) {s' : EngineState δ} (hrunning : s'.running = s.running)
    (hsent : s'.lateRequests = s.lateRequests) (hreturned : ∀ r ∈ s'.atReturn, r.2 = r.1)
    (htasks : s'.tasks = s.tasks) (hpopped : s'.popped = s.popped)
    (hfinished : s'.finished = s.finished)
    (hopen : s.clientOpen = false → s'.clientOpen = false)
    (hclosed : s'.clientOpen = false → s.running = false ∧ ∀ x ∈ rest, ¬x.Pending)
    (hflagged : g' = .flagged → s.running = false)
    (hgathers : g' = .closed → s'.clientOpen = false)
    (hwaiting : ∀ ids, g' = .waiting ids → s'.clientOpen = false ∧ s.tasks ⊆ ids) :
    EngineInv s' (g' :: rest) := by
  have hu : .unstarted ∉ g :: rest := by
    refine h.started List.mem_cons_self ?_ ?_ ?_ <;> rintro rfl <;> exact hg
  have hnew := Stage.idle_of_stopping hg'
  have hold := Stage.idle_of_stopping (Or.inr hg)
  refine ⟨hsent.trans h.sent, hreturned, ?_, ?_, fun hmem => ?_, fun hmem => ?_, fun hmem => ?_,
    fun hc => ⟨hrunning.trans (hclosed hc).1, fun x hx => ?_⟩, fun hmem => ?_, fun ids hmem => ?_⟩
  · simpa [htasks, List.filterMap_cons, hnew.1, hold.1] using h.tasks
  · simpa [hpopped, hfinished, List.countP_cons, hnew.2.1, hold.2.1] using h.popped
  · rcases List.mem_cons.mp hmem with he | hmem
    · exact absurd he.symm hnew.2.2.2.1
    · exact absurd (List.mem_cons_of_mem _ hmem) hu
  · rcases List.mem_cons.mp hmem with he | hmem
    · exact absurd he.symm hnew.2.2.2.2
    · obtain ⟨hone, hrun⟩ := h.called (List.mem_cons_of_mem _ hmem)
      rw [List.count_cons_of_ne hold.2.2.2.2] at hone
      rw [List.count_cons_of_ne hnew.2.2.2.2]
      exact ⟨hone, Or.inr (hrunning.trans (hrun.resolve_left hu))⟩
  · rcases List.mem_cons.mp hmem with he | hmem
    · exact hrunning.trans (hflagged he.symm)
    · exact hrunning.trans (h.flagged (List.mem_cons_of_mem _ hmem))
  · rcases List.mem_cons.mp hx with rfl | hx
    · exact hnew.2.2.1
    · exact (hclosed hc).2 x hx
  · rcases List.mem_cons.mp hmem with he | hmem
    · exact hgathers he.symm
    · exact hopen (h.gathers (List.mem_cons_of_mem _ hmem))
  · rw [htasks]
    rcases List.mem_cons.mp hmem with he | hmem
    · exact hwaiting ids he.symm
    · obtain ⟨hc, hsub⟩ := h.waiting ids (List.mem_cons_of_mem _ hmem)
      exact ⟨hopen hc, hsub⟩

lemma closed_rest (h : EngineInv s (g :: rest)) (hc : s.clientOpen = false) :
    s.running = false ∧ ∀ x ∈ rest, ¬x.Pending :=
  ⟨(h.closed hc).1, fun x hx => (h.closed hc).2 x (List.mem_cons_of_mem _ hx)⟩

lemma heartbeatFails (h : EngineInv s (.flagged :: rest)) : EngineInv s (.gate :: rest) :=
  h.stopStep trivial (Or.inl rfl) rfl rfl h.returned rfl rfl rfl id h.closed_rest
    (fun hf => by cases hf) (fun hf => by cases hf) (fun _ hf => by cases hf)

/-- The step the condition is about. -/
lemma closeClient (h : EngineInv s (.flagged :: rest)) (hrest : ∀ x ∈ rest, ¬x.Pending) :
    EngineInv { s with clientOpen := false } (.closed :: rest) :=
  have hnew : Stage.closed.Stopping := trivial
  h.stopStep trivial (Or.inr hnew) rfl rfl h.returned rfl rfl rfl (fun _ => rfl)
    (fun _ => ⟨h.flagged List.mem_cons_self, hrest⟩) (fun hf => by cases hf) (fun _ => rfl)
    (fun _ hf => by cases hf)

lemma activeTasks (h : EngineInv s (.closed :: rest)) :
    EngineInv s (.waiting s.tasks :: rest) :=
  have hc := h.gathers List.mem_cons_self
  have hnew : (Stage.waiting s.tasks).Stopping := trivial
  h.stopStep trivial (Or.inr hnew) rfl rfl h.returned rfl rfl rfl id h.closed_rest
    (fun hf => by cases hf) (fun hf => by cases hf)
    (fun ids hf => by cases hf; exact ⟨hc, fun _ hid => hid⟩)

/-- `stop` returns when it finds no task, or none is left of those it found. -/
lemma stopReturns (h : EngineInv s (g :: rest)) (hg : g.Stopping) (hc : s.clientOpen = false)
    (htasks : s.tasks = []) : EngineInv s.stopReturns (.gate :: rest) := by
  refine h.stopStep hg (Or.inl rfl) rfl rfl ?_ rfl rfl rfl id h.closed_rest
    (fun hf => by cases hf) (fun hf => by cases hf) (fun _ hf => by cases hf)
  intro r hr
  obtain rfl := Option.mem_some_iff.mp hr
  exact h.settled hc htasks

end EngineInv

end invariant

section runs

variable {codec : Codec δ}

/-- Where the condition holds, no coroutine is on the way to a request. -/
lemma not_pending_of_closes {p : EnginePool δ} {act : Act EngineAnswer}
    (hok : ClosesBetweenRequests p act) (hcall : p.call? act = some .closeClient) {g : Stage}
    (hg : ∃ t ∈ p.threads, t.Typed (engineProtocol codec) .gate g) : ¬g.Pending := by
  intro hpend
  obtain ⟨t, ht, hty⟩ := hg
  rcases hok hcall _ ht with hstop | ⟨c, hc, hgate⟩ | hnone
  · cases g <;> first | exact hpend.elim | exact allowed_of_head? hty hstop
  · obtain rfl := gate_of_atGate (allowed_of_head? hty hc) hgate
    exact hpend
  · exact hnone (mayCall_of_pending hty.1 hpend)

variable [DecidableEq δ] {settings : Settings}

/-- What a call of the executor does on the engine. -/
lemma call_cases {s s' : EngineState δ} {c : Cmd δ} {a : Answer} {r : Except String (Reply c)}
    (h : s.call codec c a = some (r, s')) :
    (s.clientOpen = false ∧ (∃ q, c = .request q) ∧
      s' = { s with lateRequests := s.lateRequests + 1 }) ∨
    ∃ store, s.store.effect codec c a = some (r, store) ∧
      s' = { s with store, popped := s.popped + arrivals codec c r } := by
  have hserve : s.serve codec c a = some (r, s') →
      ∃ store, s.store.effect codec c a = some (r, store) ∧
        s' = { s with store, popped := s.popped + arrivals codec c r } := by
    intro h
    unfold EngineState.serve at h
    split at h
    · rename_i r' store he
      cases h
      exact ⟨store, he, rfl⟩
    · cases h
  cases c with
  | request q =>
    by_cases hopen : s.clientOpen = true
    · exact Or.inr (hserve ((if_pos hopen).symm.trans h))
    · cases (if_neg hopen).symm.trans h
      exact Or.inl ⟨Bool.eq_false_iff.mpr hopen, ⟨q, rfl⟩, rfl⟩
  | _ => exact Or.inr (hserve h)

/-- A call that stays in the process does not raise. -/
lemma effect_ok {s s' : Store δ} {c : Cmd δ} {a : Answer} {r : Except String (Reply c)}
    (h : s.effect codec c a = some (r, s')) (hc : c.remote = false) (hreq : ∀ q, c ≠ .request q) :
    ∃ x, r = .ok x := by
  cases c with
  | request q => exact absurd rfl (hreq q)
  | random =>
    cases a with
    | random x =>
      simp only [Store.effect] at h
      split at h <;> cases h
      exact ⟨_, rfl⟩
    | _ => cases h
  | semaphoreAcquire w =>
    cases a with
    | done =>
      simp only [Store.effect] at h
      split at h <;> cases h
      exact ⟨_, rfl⟩
    | _ => cases h
  | time | semaphoreRelease w | createTask w p | incRequests l | observeLatency m t | incRetries =>
    cases a <;> cases h
    exact ⟨_, rfl⟩
  | _ => cases hc

lemma engineReply_of_effect {s s' : EngineState δ} (g : Stage) {c : EngineCmd δ}
    {a : EngineAnswer} {r : Except String (EngineReply c)}
    (h : s.effect codec c a = some (r, s')) : engineReply g c r := by
  cases c with
  | call c =>
    by_cases hreq : ∃ q, c = .request q
    · obtain ⟨q, rfl⟩ := hreq
      trivial
    have hreply : c.remote = true ∨ ∃ x, r = .ok x := by
      cases hremote : c.remote with
      | true => exact Or.inl rfl
      | false =>
        cases a with
        | answer a =>
          rcases call_cases h with ⟨-, hq, -⟩ | ⟨store, he, -⟩
          · exact absurd hq hreq
          · exact Or.inr (effect_ok he hremote fun q hq => hreq ⟨q, hq⟩)
        | fault e => simp [EngineState.effect, hremote] at h
        | done => cases h
    cases c <;> first | exact hreply | trivial
  | heartbeatStop => trivial
  | beginStop =>
    cases a with
    | done =>
      simp only [EngineState.effect] at h
      split at h <;> cases h <;> exact ⟨_, rfl⟩
    | _ => cases h
  | gather ids =>
    cases a with
    | done =>
      simp only [EngineState.effect] at h
      split at h <;> cases h
      exact ⟨_, rfl⟩
    | _ => cases h
  | _ =>
    cases a <;> cases h
    exact ⟨_, rfl⟩

omit [DecidableEq δ] in
lemma unsentAfter_of_not_sends {unsent : Bool} {c : Cmd δ} (hc : c.sends = false)
    (r : Except String (Reply c)) : unsentAfter unsent c r = unsent := by
  cases c <;> first | rfl | cases hc

omit [DecidableEq δ] in
lemma arrivals_of_not_takes {c : Cmd δ} (hc : c.takes = false) (r : Except String (Reply c)) :
    arrivals codec c r = 0 := by
  cases c <;> first | rfl | cases hc

omit [DecidableEq δ] in
@[simp] lemma arrivals_error (c : Cmd δ) (e : String) : arrivals codec c (.error e) = 0 := by
  cases c <;> rfl

/-- What a step at a call of the executor does on the engine; a call that fails leaves it as
it is. -/
lemma engineCall_cases {s s' : EngineState δ} {c : Cmd δ} {a : EngineAnswer}
    {r : Except String (Reply c)} (h : EngineState.effect codec (.call c) a s = some (r, s')) :
    (s.clientOpen = false ∧ ∃ q, c = .request q) ∨
      ∃ store, s' = { s with store, popped := s.popped + arrivals codec c r } := by
  cases a with
  | answer a =>
    rcases call_cases h with ⟨hc, hq, -⟩ | ⟨store, -, hs⟩
    · exact Or.inl ⟨hc, hq⟩
    · exact Or.inr ⟨store, hs⟩
  | fault e =>
    simp only [EngineState.effect] at h
    split at h <;> cases h
    exact Or.inr ⟨s.store, by rw [arrivals_error, Nat.add_zero]⟩
  | done => cases h

/-- A step of a task at a call of the executor. -/
lemma EngineInv.work {s s' : EngineState δ} {id : ℕ} {unsent : Bool} {rest : List Stage}
    (h : EngineInv s (.working id unsent :: rest)) {c : Cmd δ} {a : EngineAnswer}
    {r : Except String (Reply c)} (htakes : c.takes = false)
    (hsends : c.sends = true → unsent = true)
    (he : EngineState.effect codec (.call c) a s = some (r, s')) :
    EngineInv s' (.working id (unsentAfter unsent c r) :: rest) := by
  have hunsent : s.clientOpen = false → unsent = false := by
    intro hc
    cases unsent with
    | false => rfl
    | true => exact absurd trivial ((h.closed hc).2 _ List.mem_cons_self)
  have hmove : EngineInv s (.working id (unsentAfter unsent c r) :: rest) := by
    refine h.move (h.started_inner trivial (by simp)) trivial trivial rfl rfl fun hc => ?_
    have hquiet : c.sends = false := by
      by_contra hs
      simp [hunsent hc] at hsends
      exact hs hsends
    rw [unsentAfter_of_not_sends hquiet, hunsent hc]
    exact fun hf => hf
  rcases engineCall_cases he with ⟨hc, q, rfl⟩ | ⟨store, rfl⟩
  · rw [hsends rfl] at hunsent
    cases hunsent hc
  · rw [arrivals_of_not_takes htakes]
    exact hmove.store store

/-- A step of the loop inside `consume`. -/
lemma EngineInv.poll {s s' : EngineState δ} {rest : List Stage}
    (h : EngineInv s (.polling :: rest)) {c : Cmd δ} {a : EngineAnswer}
    {r : Except String (Reply c)} (hpolls : c.polls = true) {g' : Stage}
    (hn : engineNext codec .polling (.call c) r g')
    (he : EngineState.effect codec (.call c) a s = some (r, s')) : EngineInv s' (g' :: rest) := by
  have hgate : EngineInv s (.gate :: rest) :=
    h.move (h.started_inner trivial (by simp)) trivial trivial rfl rfl fun _ => id
  have hnext : (arrivals codec c r = 0 ∧ EngineInv s (g' :: rest)) ∨
      (arrivals codec c r = 1 ∧ g' = .holding) := by
    cases c with
    | blpop qs =>
      by_cases hzero : arrivals codec (.blpop qs) r = 0
      · exact Or.inl ⟨hzero, by rwa [show g' = .gate from (hn : g' = _).trans (if_pos hzero)]⟩
      · refine Or.inr ⟨?_, (hn : g' = _).trans (if_neg hzero)⟩
        rcases r with e | none | ⟨q, d⟩
        · exact absurd rfl hzero
        · exact absurd rfl hzero
        · by_cases hd : (codec.validate d).isSome = true
          · exact if_pos hd
          · exact absurd (if_neg hd) hzero
    | time | random | zrangebyscore lo hi b n | multi ws =>
      exact Or.inl ⟨rfl, (hn : g' = .polling) ▸ h⟩
    | _ => cases hpolls
  rcases engineCall_cases he with ⟨-, q, rfl⟩ | ⟨store, rfl⟩
  · cases hpolls
  · rcases hnext with ⟨hzero, hinv⟩ | ⟨hone, rfl⟩
    · rw [hzero]
      exact hinv.store store
    · rw [hone]
      exact h.pops store

/-- What a step of any coroutine preserves, where the client is closed under the condition. -/
lemma EngineInv.step {s s' : EngineState δ} {g g' : Stage} {rest : List Stage}
    (h : EngineInv s (g :: rest)) {c : EngineCmd δ} {a : EngineAnswer}
    {r : Except String (EngineReply c)} (hc : engineAllowed g c)
    (hclose : c = .closeClient → ∀ x ∈ rest, ¬x.Pending)
    (he : EngineState.effect codec c a s = some (r, s')) (hn : engineNext codec g c r g') :
    EngineInv s' (g' :: (((engineSystem codec settings).fork c r).toList.map
      (fun _ => (engineProtocol codec).child g c) ++ rest)) := by
  cases g with
  | unstarted =>
    cases c <;> first | exact hc.elim | skip
    cases a <;> cases he
    exact (hn : g' = .gate) ▸ h.setRunning
  | gate =>
    cases c with
    | heartbeatStart =>
      cases a <;> cases he
      exact (hn : g' = .gate) ▸ h
    | running =>
      cases a <;> cases he
      by_cases hrun : s.running = true
      · rw [hrun] at hn
        rcases hn with rfl | rfl
        · exact h
        · exact h.polls hrun
      · rw [Bool.eq_false_iff.mpr hrun] at hn
        exact (hn : g' = .gate) ▸ h
    | call c =>
      have hgate : g' = .gate := by cases c <;> first | exact hc.elim | exact hn
      have htakes : arrivals codec c r = 0 ∧ ∀ q, c ≠ .request q := by
        cases c <;> first | exact hc.elim | exact ⟨rfl, fun _ hq => by cases hq⟩
      subst hgate
      rcases engineCall_cases he with ⟨-, q, hq⟩ | ⟨store, rfl⟩
      · exact absurd hq (htakes.2 q)
      · rw [htakes.1]
        exact h.store store
    | _ => exact hc.elim
  | polling =>
    cases c <;> first | exact hc.elim | skip
    exact h.poll hc hn he
  | holding =>
    cases c <;> first | exact hc.elim | skip
    cases a <;> cases he
    exact (hn : g' = .created s.created) ▸ h.createTask
  | created id =>
    cases c <;> first | exact hc.elim | skip
    cases a <;> cases he
    exact (hn : g' = .gate) ▸ h.spawn
  | working id unsent =>
    cases c with
    | call c => exact (hn : g' = .working id (unsentAfter unsent c r)) ▸ h.work hc.1 hc.2 he
    | taskDone id' =>
      cases unsent with
      | true => exact hc.elim
      | false =>
        obtain rfl : id' = id := hc
        cases a <;> cases he
        exact (hn : g' = .gate) ▸ h.taskDone
    | _ => cases unsent <;> exact hc.elim
  | stopCalled =>
    cases c <;> first | exact hc.elim | skip
    cases a <;> first | cases he | skip
    by_cases hrun : s.running = true
    · cases (if_pos hrun).symm.trans he
      exact (hn : g' = .flagged) ▸ h.beginStop hrun
    · cases (if_neg hrun).symm.trans he
      exact (hn : g' = .gate) ▸ h.stopEarly (Bool.eq_false_iff.mpr hrun)
  | flagged =>
    cases c with
    | heartbeatStop =>
      cases a with
      | done =>
        cases he
        exact (hn : g' = .flagged) ▸ h
      | fault e =>
        cases he
        exact (hn : g' = .gate) ▸ h.heartbeatFails
      | answer a => cases he
    | closeClient =>
      cases a <;> cases he
      exact (hn : g' = .closed) ▸ h.closeClient (hclose rfl)
    | _ => exact hc.elim
  | closed =>
    cases c <;> first | exact hc.elim | skip
    cases a <;> cases he
    by_cases htasks : s.tasks = []
    · obtain rfl : g' = .gate := (hn : g' = _).trans (if_pos htasks)
      rw [if_pos htasks]
      exact h.stopReturns trivial (h.gathers List.mem_cons_self) htasks
    · obtain rfl : g' = .waiting s.tasks := (hn : g' = _).trans (if_neg htasks)
      rw [if_neg htasks]
      exact h.activeTasks
  | waiting ids =>
    cases c <;> first | exact hc.elim | skip
    rename_i ids'
    obtain rfl : ids' = ids := hc
    cases a <;> first | cases he | skip
    by_cases hnone : ∀ id ∈ ids', id ∉ s.tasks
    · cases (if_pos hnone).symm.trans he
      obtain ⟨hopen, hsub⟩ := h.waiting ids' List.mem_cons_self
      have htasks : s.tasks = [] :=
        List.eq_nil_iff_forall_not_mem.mpr fun id hid => hnone id (hsub hid) hid
      exact (hn : g' = .gate) ▸ h.stopReturns trivial hopen htasks
    · cases (if_neg hnone).symm.trans he

omit [DecidableEq δ] in
/-- The stages of a new engine. -/
lemma typed_newEngine (store : Store δ) : Typed (engineProtocol codec) .gate
    [.unstarted, .stopCalled] (newEngine codec store).threads := by
  have hstart : Thread.Typed (engineProtocol codec) .gate .unstarted
      ⟨engineStart, some (engineLoop codec)⟩ := by
    refine ⟨follows_engineStart codec, fun l hl => ?_⟩
    obtain rfl := Option.some.inj hl
    exact ⟨trivial, follows_engineLoop codec⟩
  have hstop : Thread.Typed (engineProtocol codec) .gate .stopCalled ⟨engineStop, none⟩ :=
    ⟨follows_engineStop codec, fun l hl => by cases hl⟩
  exact (Typed.single hstart).append (Typed.single hstop)

omit [DecidableEq δ] in
lemma inv_newEngine (store : Store δ) :
    EngineInv (newEngine codec store).store [.unstarted, .stopCalled] where
  sent := rfl
  returned := by simp [newEngine]
  tasks := .nil
  popped := rfl
  unstarted _ := ⟨rfl, rfl, Or.inl (.refl _)⟩
  called _ := ⟨rfl, Or.inl List.mem_cons_self⟩
  flagged _ := rfl
  closed hc := by cases hc
  gathers hc := by simp at hc
  waiting ids hw := by simp at hw

theorem graceful_shutdown {store : Store δ} {p : EnginePool δ}
    (h : Reachable (engineSystem codec settings) ClosesBetweenRequests
      (fun p => p = newEngine codec store) p) : ShutsDownGracefully p.store := by
  have hghost : ∃ gs, Typed (engineProtocol codec) .gate gs p.threads ∧ EngineInv p.store gs := by
    refine h.ghost_perm (J := EngineInv) (fun s gs gs' hp hinv => hinv.perm hp) ?_ ?_ ?_
    · rintro p rfl
      exact ⟨_, typed_newEngine store, inv_newEngine store⟩
    · intro g c r q hc _ hq
      cases c <;> cases hq
      cases g with
      | created id =>
        obtain rfl := hc
        exact follows_engineTask settings _
      | working id unsent => cases unsent <;> exact hc.elim
      | _ => exact hc.elim
    · intro p g rest i c k l a r s' hthreads hinv ht hc hok he
      refine ⟨engineReply_of_effect g he, fun g' hn => hinv.step hc ?_ he hn⟩
      rintro rfl x hx
      exact not_pending_of_closes hok (Pool.call?_run ht) (hthreads x (List.mem_cons_of_mem _ hx))
  obtain ⟨gs, -, hinv⟩ := hghost
  exact ⟨hinv.sent, hinv.returned⟩

end runs

section examples

/-- One payload waits in the queue. -/
def onePayload : Store QueuePayload where
  redis := { lists := fun q => if q = .medium then [retryPayload 1] else [] }

/-- The loop of the engine goes as far as its `BLPOP`. -/
def loopToPop : List (Act EngineAnswer) :=
  [.run 0 .done, .run 0 .done, .again 0, .run 0 .done, .run 0 (.answer .done), .run 0 .done,
    .run 0 (.answer (.clock 0)), .run 0 (.answer .done), .run 0 (.answer (.random 0))]

/-- `stop` clears the flag while the loop waits in `BLPOP`. The payload that comes is
processed to its end before `stop` goes on. -/
def stopAfterTask : List (Act EngineAnswer) :=
  loopToPop ++ [.run 1 .done, .run 1 .done, .run 0 (.answer .done), .run 0 .done, .run 0 .done,
    .run 2 (.answer .done), .run 2 (.answer (.granted true)),
    .run 2 (.answer (.http (.ok ⟨200, 5, [], "ok"⟩))), .run 2 (.answer .done),
    .run 2 (.answer .done), .run 2 (.answer .done), .run 2 (.answer .done),
    .run 2 (.answer .done), .run 2 (.answer .done), .run 2 .done]

/-- The coroutine has ended, or is `stop` at the closing of the client. -/
def settledOrClosing (t : Thread (EngineCmd QueuePayload) EngineReply String) : Bool :=
  match t.body.head? with
  | none | some .closeClient => true
  | _ => false

/-- A step that closes the client finds the other coroutines ended. -/
def ClosesLast (p : EnginePool QueuePayload) (act : Act EngineAnswer) : Prop :=
  (match p.call? act with
    | some .closeClient => p.threads.all settledOrClosing
    | _ => true) = true

instance (p : EnginePool QueuePayload) (act : Act EngineAnswer) : Decidable (ClosesLast p act) :=
  inferInstanceAs (Decidable (_ = true))

lemma closesBetweenRequests_of_closesLast {p : EnginePool QueuePayload} {act : Act EngineAnswer}
    (h : ClosesLast p act) : ClosesBetweenRequests p act := by
  intro hcall t ht
  unfold ClosesLast at h
  rw [hcall] at h
  have hsettled := List.all_eq_true.mp h t ht
  obtain ⟨q, l⟩ := t
  cases q with
  | pure u => exact Or.inr (Or.inr id)
  | raise e => exact Or.inr (Or.inr id)
  | call c k => cases c <;> first | exact Or.inl rfl | cases hsettled

theorem graceful_shutdown_after_task :
    ∃ p, Reachable (engineSystem Codec.payloads {}) ClosesBetweenRequests
        (fun p => p = newEngine Codec.payloads onePayload) p ∧
      p.store.atReturn = some (1, 1) ∧ ShutsDownGracefully p.store := by
  have hrun : ((newEngine Codec.payloads onePayload).runActs (engineSystem Codec.payloads {})
      ClosesLast (stopAfterTask ++ [.run 1 .done, .run 1 .done])).map
        (fun p => p.store.atReturn) = some (some (1, 1)) := by
    decide +kernel
  obtain ⟨p, hp, hreturn⟩ : ∃ p, Reachable (engineSystem Codec.payloads {}) ClosesLast
      (fun p => p = newEngine Codec.payloads onePayload) p ∧ p.store.atReturn = some (1, 1) :=
    Reachable.of_shown (by rfl) hrun
  have hreach := hp.mono fun _ _ => closesBetweenRequests_of_closesLast
  exact ⟨p, hreach, hreturn, graceful_shutdown hreach⟩

/-- `stop` closes the client while the loop waits in `BLPOP`, and returns while the loop
holds the payload that comes: its request finds the client closed. -/
theorem shutdown_loses_popped_payload :
    ∃ p, Reachable (engineSystem Codec.payloads {}) (fun _ _ => True)
        (fun p => p = newEngine Codec.payloads onePayload) p ∧
      p.store.lateRequests = 1 ∧ p.store.atReturn = some (1, 0) ∧
      ¬ShutsDownGracefully p.store := by
  have hrun : ((newEngine Codec.payloads onePayload).runActs (engineSystem Codec.payloads {})
      (fun _ _ => True) (loopToPop ++ [.run 1 .done, .run 1 .done, .run 1 .done,
        .run 0 (.answer .done), .run 1 .done, .run 0 .done, .run 0 .done,
        .run 2 (.answer .done), .run 2 (.answer (.granted true)), .run 2 (.answer .done)])).map
      (fun p => (p.store.lateRequests, p.store.atReturn)) = some (1, some (1, 0)) := by
    decide +kernel
  obtain ⟨p, hp, hlost⟩ : ∃ p, Reachable (engineSystem Codec.payloads {}) (fun _ _ => True)
      (fun p => p = newEngine Codec.payloads onePayload) p ∧
        (p.store.lateRequests, p.store.atReturn) = (1, some (1, 0)) :=
    Reachable.of_shown (by rfl) hrun
  obtain ⟨hlate, hreturn⟩ := Prod.mk.inj hlost
  refine ⟨p, hp, hlate, hreturn, fun h => ?_⟩
  have := h.sent
  omega

end examples

end SecurityScanner

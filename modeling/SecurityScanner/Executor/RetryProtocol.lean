import SecurityScanner.Executor.RetryProgress
import Mathlib.Data.Finset.Dedup
import Mathlib.Data.Finset.Insert
import Mathlib.Data.Finset.Order

/-!
# The retry protocol

A payload that is alone with its worker: the requests that are sent, the delays of the
retries, the dead letter and the attempts of the task's row, in every run of the loop and
the background tasks.
-/

namespace SecurityScanner

open Storage Interleaving

variable {δ : Type}

namespace RetryCase

variable {X : RetryCase δ} {dlq : List (QueuePayload × String)} {s : RetryState δ}

/-- The invariant bounds the requests and the times of the retries. -/
lemma Inv.soFar (h : X.Inv dlq s) : X.SoFar s where
  sent := by
    obtain ⟨j, hwaits | hholds | hworks⟩ := h.phase
    · exact hwaits.sent ▸ hwaits.lt.le
    · exact hholds.sent ▸ hholds.lt.le
    · exact hworks.sent.trans hworks.lt
  popped := h.ledger.popped
  delayed j e he := by
    obtain ⟨z, hz, hle⟩ := h.ledger.due j e he
    obtain ⟨sentAt, now, hsentAt, hsent, hnow, hscore⟩ := h.ledger.schedules j z hz
    refine ⟨sentAt, now, z.1, hsentAt, hsent, hnow, ?_, hscore ▸ hle⟩
    rw [hz, ← hscore]

lemma Last.over {j : ℕ} (h : X.Last dlq j s) : X.Over dlq s := by
  obtain ⟨hattempts, h⟩ := h
  have hlast : X.attempts - 1 = j := by omega
  have hcast : ((X.attempts : ℕ) : ℤ) = j + 1 := by
    rw [hattempts]
    push_cast
    rfl
  split at h
  · rename_i hsucc
    obtain ⟨row, hrow, hstatus, hn⟩ := h.row
    refine ⟨h.sent.trans hattempts.symm, row, hrow, hn.trans hcast.symm, ?_⟩
    rw [hlast, if_pos hsucc]
    exact ⟨hstatus, h.dlq⟩
  · rename_i hsucc
    obtain ⟨reason, h⟩ := h
    obtain ⟨row, hrow, hstatus, hn⟩ := h.row
    refine ⟨h.sent.trans hattempts.symm, row, hrow, hn.trans hcast.symm, ?_⟩
    rw [hlast, if_neg hsucc]
    exact ⟨hstatus, reason, h.dlq⟩

variable [DecidableEq δ] {s₀ : RetryState δ} {p p' : Runs δ}

/-- At rest the last task has ended for good. -/
lemma AtRest.over (hrest : AtRest p) (h : (X.sharing dlq).Kept p) : X.Over dlq p.store := by
  have hdone : ∀ i t, p.threads[i]? = some t → ∃ r, X.Done dlq i r p.store := fun i t ht =>
    (h.threads i t ht).1.ended (hrest.ended t (List.mem_of_getElem? ht))
  have hsize : p.store.log.created + 1 = p.threads.length := h.size
  have hinv : X.Inv dlq p.store := h.inv
  obtain ⟨j, hwaits | hholds | hworks⟩ := hinv.phase
  · obtain ⟨d, hstored, -⟩ := hwaits.stored
    rw [hrest.empty] at hstored
    cases hstored
  · obtain ⟨r, -, hfree⟩ := hdone 0 _ (List.getElem?_eq_getElem (by omega))
    rw [hholds.created, hholds.popped] at hfree
    omega
  · have hlt : j + 1 < p.threads.length := by
      rw [← hsize, hworks.created]
      omega
    obtain ⟨r, -, hlast | hscheduled⟩ := hdone (j + 1) _ (List.getElem?_eq_getElem hlt)
    · exact hlast.over
    · rw [hworks.scheduled] at hscheduled
      omega

omit [DecidableEq δ] in
lemma popped_le_record (codec : Codec δ) (now : ℚ) (h : RetryLog) (c : Cmd δ)
    (r : Except String (Reply c)) :
    h.popped.length ≤ (h.record codec now c r).popped.length := by
  unfold RetryLog.record
  split
  · exact le_refl _
  · exact le_refl _
  · split
    · simp
    · exact le_refl _
  · exact le_refl _
  · exact le_refl _

lemma popped_le_of_leads (h : Pool.Leads X.system p p') :
    p.store.log.popped.length ≤ p'.store.log.popped.length := by
  induction h with
  | refl => exact le_refl _
  | tail _ hs ih =>
    refine ih.trans ?_
    obtain ⟨act, hs⟩ := hs
    cases act with
    | run i t =>
      obtain ⟨c, k, l, r, s', -, he, rfl⟩ := Pool.step_run hs
      obtain ⟨-, store, -, rfl⟩ := effect_cases he
      exact popped_le_record X.codec t.now _ c r
    | again i =>
      obtain ⟨u, l, -, rfl⟩ := Pool.step_again hs
      exact le_refl _

/-- A payload that waits while everything rests is popped in a round of the loop. -/
lemma leads_popped (h : X.Run s₀ p) (hkept : (X.sharing dlq).Kept p)
    (hfree : 0 < s₀.store.slots X.worker) (hended : ∀ t ∈ p.threads, t.Ended)
    (hstored : p.store.store.redis.stored ≠ []) :
    ∃ p', Pool.Leads X.system p p' ∧
      p'.store.log.popped.length = p.store.log.popped.length + 1 := by
  have hinv : X.Inv dlq p.store := hkept.inv
  obtain ⟨j, hwaits⟩ := hinv.waits hstored
  obtain ⟨q, ht⟩ := h.loops (i := 0) (l := some (engineRound X.codec X.worker))
    fun p hp => ⟨engineRound X.codec X.worker, by rw [hp]; rfl⟩
  obtain ⟨u, rfl⟩ : ∃ u, q = .pure u := by
    have hdone := (hkept.threads 0 _ ht).1
    have hend := hended _ (List.mem_of_getElem? ht)
    cases q with
    | pure u => exact ⟨u, rfl⟩
    | raise e =>
      obtain ⟨⟨u, hu⟩, -⟩ := hdone
      cases hu
    | call c k => cases hend
  obtain ⟨p₁, hagain, hstore, ht₁, hothers⟩ : ∃ p₁, p.step X.system (.again 0) = some p₁ ∧
      p₁.store = p.store ∧ p₁.threads[0]? =
        some ⟨engineRound X.codec X.worker, some (engineRound X.codec X.worker)⟩ ∧
      ∀ i, 1 ≤ i → p₁.threads[i]? = p.threads[i]? := by
    refine ⟨_, Pool.step_of_loop ht, rfl, ?_, fun i hi => ?_⟩
    · exact List.getElem?_set_self (List.getElem?_eq_some_iff.mp ht).1
    · exact List.getElem?_set_ne (by omega)
  have hslots : p.store.store.slots X.worker ≠ 0 := by
    have hp₁ : X.Run s₀ p₁ := .step _ h trivial hagain
    rw [← hstore]
    refine slots_of_ended hp₁ hfree (fun i t hi ht => ?_) ht₁ rfl
    exact hended t (List.mem_of_getElem? ((hothers i hi).symm.trans ht))
  obtain ⟨now, hnow⟩ := Finset.exists_le
    (insert p.store.clock (p.store.store.redis.delayed.entries.map Prod.snd).toFinset)
  have hdue : ∀ e ∈ p.store.store.redis.delayed.entries, e.2 ≤ now := fun e he =>
    hnow _ (Finset.mem_insert_of_mem (List.mem_toFinset.mpr (List.mem_map_of_mem he)))
  obtain ⟨s', hruns, hpopped⟩ :=
    runs_engineRound hwaits hslots (hnow _ (Finset.mem_insert_self _ _)) hdue
  have hruns₁ : (engineRound X.codec X.worker).Runs X.system.effect p₁.store (.ok ()) s' :=
    hstore ▸ hruns
  obtain ⟨p₂, hleads, hp₂⟩ := Pool.leads_runs ht₁ hruns₁
  exact ⟨p₂, .head ⟨_, hagain⟩ hleads, by rw [hp₂, hpopped]⟩

/-- From every pool of a run some schedule leads to rest. -/
theorem leads_atRest (h : X.Run s₀ p) (hfree : 0 < s₀.store.slots X.worker)
    (hkept : ∀ p, X.Run s₀ p → (X.sharing dlq).Kept p) :
    ∃ p', Pool.Leads X.system p p' ∧ AtRest p' := by
  -- the induction is on the attempts that are left
  have hmain : ∀ n p, X.Run s₀ p → X.attempts ≤ p.store.log.popped.length + n →
      ∃ p', Pool.Leads X.system p p' ∧ AtRest p' := by
    intro n
    induction n with
    | zero =>
      intro p hp hn
      obtain ⟨p₁, hleads, hp₁, hended⟩ := leads_all_rest hp hfree
      refine ⟨p₁, hleads, ⟨?_, hended⟩⟩
      by_contra hstored
      have hinv : X.Inv dlq p₁.store := (hkept p₁ hp₁).inv
      obtain ⟨j, hwaits⟩ := hinv.waits hstored
      have hle := popped_le_of_leads hleads
      have hlt := hwaits.lt
      rw [hwaits.popped] at hle
      omega
    | succ n ih =>
      intro p hp hn
      obtain ⟨p₁, hleads₁, hp₁, hended⟩ := leads_all_rest hp hfree
      by_cases hstored : p₁.store.store.redis.stored = []
      · exact ⟨p₁, hleads₁, hstored, hended⟩
      · obtain ⟨p₂, hleads₂, hpopped⟩ := leads_popped hp₁ (hkept p₁ hp₁) hfree hended hstored
        have hle := popped_le_of_leads hleads₁
        obtain ⟨p₃, hleads₃, hrest⟩ := ih p₂ (hleads₂.reachable hp₁) (by omega)
        exact ⟨p₃, (hleads₁.trans hleads₂).trans hleads₃, hrest⟩
  exact hmain X.attempts p h (Nat.le_add_left _ _)

/-- The retry protocol. At any time the requests and the pops are as the retries allow; at
rest the attempts have been made, recorded and counted; and the worker can always come to
rest. -/
theorem retry_protocol (X : RetryCase δ) (hbackoff : 0 ≤ X.settings.defaultRetryBackoff)
    (hfirst : X.payload.attempt = 0) {s₀ : RetryState δ} (halone : X.Alone s₀) {p : Runs δ}
    (h : X.Run s₀ p) :
    X.SoFar p.store ∧ (AtRest p → X.Over s₀.store.redis.dlq p.store) ∧
      ∃ p', Pool.Leads X.system p p' ∧ AtRest p' := by
  have hkept : ∀ p, X.Run s₀ p → (X.sharing s₀.store.redis.dlq).Kept p := fun p hp =>
    halone.kept hbackoff hfirst hp
  have hinv : X.Inv s₀.store.redis.dlq p.store := (hkept p h).inv
  exact ⟨hinv.soFar, fun hrest => hrest.over (hkept p h), leads_atRest h halone.free hkept⟩

end RetryCase

section flaky

/-- One retry is allowed; the first request is lost, the second is answered. -/
def flaky : RetryCase QueuePayload where
  codec := .payloads
  settings := {}
  worker := 0
  payload :=
    { taskId := 1, scanId := 1, method := "GET", url := "http://target.example/", maxRetries := 1 }
  outcomes i := if i = 0 then .error "connection reset" else .ok ⟨200, 5, [], "ok"⟩

def flakyStart : RetryState QueuePayload where
  store :=
    { db.tasks := .single
        { id := 1, scanId := 1, method := "GET", url := "http://target.example/" }
      redis.lists := fun q => if q = .medium then [flaky.payload] else [] }
  clock := 0

lemma flaky_alone : flaky.Alone flakyStart where
  waits := ⟨flaky.payload, rfl, rfl⟩
  undelayed := rfl
  row := ⟨_, rfl, rfl⟩
  free := by decide
  clock := le_refl 0
  log := rfl

/-- Some run sends two requests and leaves no dead letter. -/
theorem retry_protocol_flaky :
    ∃ p', flaky.Run flakyStart p' ∧ p'.store.log.sent.length = 2 ∧ p'.store.store.redis.dlq = [] := by
  have hstart : flaky.Run flakyStart (flaky.pool flakyStart) := .start rfl
  obtain ⟨-, -, p', hleads, hrest⟩ :=
    RetryCase.retry_protocol flaky zero_le_two rfl flaky_alone hstart
  have hp' : flaky.Run flakyStart p' := hleads.reachable hstart
  obtain ⟨-, hover, -⟩ := RetryCase.retry_protocol flaky zero_le_two rfl flaky_alone hp'
  obtain ⟨hsent, row, -, -, hend⟩ := hover hrest
  exact ⟨p', hp', hsent, hend.2⟩

end flaky

end SecurityScanner

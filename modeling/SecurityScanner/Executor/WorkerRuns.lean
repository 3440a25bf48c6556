import SecurityScanner.Executor.WorkerInvariant

/-!
# Runs of the workers

Any number of engines start on a queue that holds one payload for each task. The rule
`workers_run` proves an invariant of their runs from what a transition preserves.
-/

namespace SecurityScanner

open Storage Interleaving

variable {δ : Type} (codec : Codec δ)

/-- The engines with their background tasks over one database and one queue. -/
abbrev Workers (δ : Type) := Pool (Cmd δ) Reply String (Store δ)

/-- Engines at the start of their loops; every task is queued and has one payload. -/
structure Started (p : Workers δ) : Prop where
  engines : ∀ t ∈ p.threads, ∃ w, t = engineThread codec w
  decodable : ∀ d ∈ p.store.redis.stored, (codec.validate d).isSome
  payloads : (owners codec p.store.redis.stored).Perm (p.store.db.tasks.rows.map Task.id)
  queued : ∀ row ∈ p.store.db.tasks.rows, row.status = .queued
  scans : ∀ row ∈ p.store.db.tasks.rows, (p.store.db.scans.find? row.scanId).isSome
  running : ∀ sc ∈ p.store.db.scans.rows, sc.status ≠ .completed ∧ sc.status ≠ .failed

/-- The transactions of the movers append nothing that they do not remove. -/
def PushesDue (p : Workers δ) (act : Act Answer) : Prop :=
  ∀ c, p.call? act = some c → c.PushesDue p.store

lemma pushesDue_iff {p : Workers δ} {act : Act Answer} :
    PushesDue p act ↔
      ∀ d ∈ pushed (transaction p act), d ∈ removed p.store.redis (transaction p act) := by
  refine Iff.trans ?_ (forall_transaction (P := fun ws =>
    ∀ d ∈ pushed ws, d ∈ removed p.store.redis ws) nofun)
  constructor
  · intro h ws hws d hd
    obtain ⟨q, data, hw, hd⟩ := mem_pushed.mp hd
    exact mem_removed.mpr (h _ hws ws rfl q data hw d hd)
  · rintro h c hc ws rfl q data hw d hd
    exact mem_removed.mp (h ws hc d (mem_pushed.mpr ⟨q, data, hw, hd⟩))

instance [DecidableEq δ] (p : Workers δ) (act : Act Answer) : Decidable (PushesDue p act) :=
  decidable_of_iff _ pushesDue_iff.symm

variable {codec}

lemma Started.typed {p : Workers δ} (h : Started codec p) :
    Typed (workerProtocol codec) .idle (List.replicate p.threads.length .idle) p.threads := by
  refine ⟨by simp, fun i g t hg ht => ?_⟩
  obtain rfl : g = .idle := List.eq_of_mem_replicate (List.mem_of_getElem? hg)
  obtain ⟨w, rfl⟩ := h.engines t (List.mem_of_getElem? ht)
  refine ⟨follows_engineRound codec w, fun l hl => ?_⟩
  rw [← Option.some.inj hl]
  exact ⟨trivial, follows_engineRound codec w⟩

lemma Started.inv {p : Workers δ} (h : Started codec p) :
    WorkersInv codec p.store (List.replicate p.threads.length .idle) where
  decodable := h.decodable
  nodup := by
    have hnone : (List.replicate p.threads.length (Worker.idle : Worker δ)).filterMap
        Worker.task? = [] := by
      simp [List.filterMap_replicate, Worker.task?]
    rw [claims, hnone, List.append_nil, h.payloads.nodup_iff]
    exact p.store.db.tasks.nodup
  waiting t ht := by
    obtain ⟨row, hrow, rfl⟩ := List.mem_map.mp (h.payloads.mem_iff.mp ht)
    exact ⟨row, Table.find?_key_of_mem hrow, Or.inl (h.queued row hrow)⟩
  places g hg := by
    rw [List.eq_of_mem_replicate hg]
    exact .idle _
  scans t row hrow := h.scans row (Table.find?_eq_some_iff.mp hrow).1

/-- A program that follows the protocol outside of `idle` has not ended. -/
lemma head?_of_follows {g : Worker δ} {q : Coroutine δ Unit}
    (h : Follows (workerProtocol codec) g q (fun _ g' => g' = .idle)) (hg : g ≠ .idle) :
    ∃ c, q.head? = some c ∧ workerAllowed codec g c := by
  cases q with
  | pure a => exact absurd h hg
  | raise e => exact absurd h hg
  | call c k => exact ⟨c, rfl, h.1⟩

variable [DecidableEq δ] {settings : Settings}

/-- The run rule: an invariant that every transition of every thread keeps, given what the
run guarantees about the step, holds along the run. -/
theorem workers_run {ok : Workers δ → Act Answer → Prop} (hpush : ∀ p act, ok p act → PushesDue p act)
    {X : Store δ → List (Worker δ) → Prop}
    (hperm : ∀ s gs gs', gs.Perm gs' → X s gs → X s gs')
    (hinit : ∀ p : Workers δ, Started codec p →
      X p.store (List.replicate p.threads.length .idle))
    (hstep : ∀ (p : Workers δ) act g rest c r g' s' new,
      (∀ x ∈ g :: rest, ∃ t ∈ p.threads, t.Typed (workerProtocol codec) .idle x) →
      WorkersInv codec p.store (g :: rest) → X p.store (g :: rest) → ok p act →
      p.call? act = some c → workerAllowed codec g c → workerNext codec g c r g' →
      Transition codec p.store g s' (g' :: new) → X s' (g' :: new ++ rest))
    {p : Workers δ} (h : Reachable (workerSystem codec settings) ok (Started codec) p) :
    ∃ gs, Typed (workerProtocol codec) .idle gs p.threads ∧ WorkersInv codec p.store gs ∧
      X p.store gs := by
  refine h.ghost_perm (J := fun s gs => WorkersInv codec s gs ∧ X s gs) ?_ ?_ ?_ ?_
  · rintro s gs gs' hp ⟨hinv, hx⟩
    exact ⟨hinv.perm hp, hperm s gs gs' hp hx⟩
  · intro p hp
    exact ⟨_, hp.typed, hp.inv, hinit p hp⟩
  · intro g c r q hc _ hq
    cases g <;> cases c <;> first | exact hc.elim | cases hq
    · obtain rfl := hc
      exact follows_processPayload settings _ _
    · rename_i eval _ _ _
      cases eval <;> exact hc.elim
  · intro p g rest i c k l a r s' hthreads hJ ht hc hok he
    obtain ⟨hinv, hx⟩ := hJ
    have hcall : p.call? (.run i a) = some c := Pool.call?_run ht
    have hans : Answered codec settings p.store g c r s' :=
      hinv.answered hc (hpush p _ hok c hcall) he
    obtain ⟨hr, hnext⟩ := hans
    refine ⟨hr, fun g' hn => ?_⟩
    have htrans := hnext g' hn
    exact ⟨hinv.step htrans,
      hstep p _ g rest c r g' s' _ hthreads hinv hx hok hcall hc hn htrans⟩

end SecurityScanner

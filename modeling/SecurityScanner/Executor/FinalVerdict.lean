import SecurityScanner.Executor.ScanSafety

/-!
# The final verdict on a scan

When the movers move exactly what is due and no task is put back to RETRYING under an
uncommitted verdict, a verdict that is held is still the verdict on the current statuses.
Then the last commit is right, in whatever order the workers read and commit.
-/

namespace SecurityScanner

open Storage Interleaving

variable {δ : Type} (codec : Codec δ)

/-- The thread has the verdict on `scan` ahead of it. -/
def Worker.Owes (g : Worker δ) (scan : ScanId) : Prop :=
  ∃ retry eval, g.evaluation? = some (scan, retry, eval) ∧ eval ≠ .none

lemma verdict_eq_completed_iff {statuses : List TaskStatus} :
    verdict statuses = .completed ↔ ∀ st ∈ statuses, st = .success := by
  simp [verdict]

lemma verdict_eq_or (statuses : List TaskStatus) :
    verdict statuses = .completed ∨ verdict statuses = .failed := by
  unfold verdict
  split
  · exact Or.inl rfl
  · exact Or.inr rfl

/-- What a thread's scan object says about the row. -/
structure Trace (db : Database) (scan : ScanId) (sc : Scan) : Prop where
  completed : ∀ cur, db.scans.find? scan = some cur → sc.status = .completed →
    cur.status = .completed
  changed : ∀ cur, db.scans.find? scan = some cur → cur.status ≠ sc.status →
    cur.status = .completed ∨ cur.status = .failed

structure VerdictInv (s : Store δ) (gs : List (Worker δ)) : Prop where
  claimed : ∀ t row, s.db.tasks.find? t = some row → ¬row.status.Terminal → t ∈ claims codec s gs
  fresh : ∀ g ∈ gs, ∀ scan retry sc statuses,
    g.evaluation? = some (scan, retry, .verdict sc statuses) →
      (∀ st ∈ s.db.statuses scan, st.Terminal) ∧ s.db.statuses scan = statuses
  traced : ∀ g ∈ gs, ∀ scan retry eval sc, g.evaluation? = some (scan, retry, eval) →
    eval.scan? = some sc → Trace s.db scan sc
  completed : ∀ scan cur, s.db.scans.find? scan = some cur → cur.status = .completed →
    ∀ st ∈ s.db.statuses scan, st = .success
  judged : ∀ scan cur, s.db.scans.find? scan = some cur → s.db.statuses scan ≠ [] →
    (∀ st ∈ s.db.statuses scan, st.Terminal) →
      cur.status = verdict (s.db.statuses scan) ∨ ∃ g ∈ gs, g.Owes scan

variable {codec}

lemma VerdictInv.perm {s : Store δ} {gs gs' : List (Worker δ)} (hp : gs.Perm gs')
    (h : VerdictInv codec s gs) : VerdictInv codec s gs' where
  claimed t row hrow hopen := by
    have hclaims : (claims codec s gs).Perm (claims codec s gs') :=
      (hp.filterMap Worker.task?).append_left _
    exact hclaims.mem_iff.mp (h.claimed t row hrow hopen)
  fresh g hg := h.fresh g (hp.mem_iff.mpr hg)
  traced g hg := h.traced g (hp.mem_iff.mpr hg)
  completed := h.completed
  judged scan cur hcur hne hterm :=
    (h.judged scan cur hcur hne hterm).imp_right fun ⟨g, hg, ho⟩ => ⟨g, hp.mem_iff.mp hg, ho⟩

section step

variable {s s' : Store δ} {g : Worker δ} {rest new : List (Worker δ)}

/-- A scan all of whose tasks succeeded, or one with a held verdict, sees no update. -/
lemma Transition.statuses_eq (hinv : WorkersInv codec s (g :: rest))
    (ht : Transition codec s g s' new) {scan : ScanId}
    (hterm : ∀ st ∈ s.db.statuses scan, st.Terminal)
    (hretry : (∃ p, new = [.requeue p]) → g.Retries scan →
      ∀ st ∈ s.db.statuses scan, st ≠ .failed) :
    s'.db.statuses scan = s.db.statuses scan := by
  rcases ht.statuses hinv with hsame | ⟨row, st, hupd, hrow⟩
  · exact hsame scan
  · by_cases heq : scan = row.scanId
    · subst heq
      have hmem : row.status ∈ s.db.statuses row.scanId :=
        mem_statuses.mpr ⟨_, row, hupd.found, rfl, rfl⟩
      rcases hrow with hopen | ⟨hfailed, hret, hnew⟩
      · exact absurd (hterm _ hmem) hopen
      · exact absurd hfailed (hretry hnew hret _ hmem)
    · exact hupd.statuses scan heq

/-- The verdict that a commit leaves behind. -/
lemma VerdictInv.settled (hinv : WorkersInv codec s (g :: rest))
    (h : VerdictInv codec s (g :: rest)) {scan : ScanId} {retry : Bool} {sc : Scan}
    {statuses : List TaskStatus} (hg : g.evaluation? = some (scan, retry, .verdict sc statuses))
    (hupd : ScanUpdate s.db s'.db sc (verdict statuses)) {cur : Scan}
    (hcur : s'.db.scans.find? scan = some cur) :
    cur.status = verdict (s.db.statuses scan) := by
  have hid := (hinv.places g List.mem_cons_self).loaded _ _ _ _ hg rfl
  obtain ⟨-, hfresh⟩ := h.fresh g List.mem_cons_self _ _ _ _ hg
  obtain ⟨htrace, hchanged⟩ := h.traced g List.mem_cons_self _ _ _ _ hg rfl
  obtain ⟨old, hold, hnew⟩ := hupd.updated
  rw [hid] at hold hnew
  rw [hnew, Option.some.injEq] at hcur
  subst hcur
  rw [hfresh]
  by_cases hsame : verdict statuses = sc.status
  · -- nothing is sent, and the row is what the thread loaded or a later verdict
    simp only [dirty, hsame, ↓reduceIte]
    by_contra hne
    rcases verdict_eq_or statuses with hv | hv
    · exact hne ((htrace old hold (hsame ▸ hv)).trans (hv.symm.trans hsame))
    · rcases hchanged old hold hne with hc | hf
      · have hall := h.completed scan old hold hc
        rw [hfresh, ← verdict_eq_completed_iff, hv] at hall
        cases hall
      · exact hne (hf.trans (hv.symm.trans hsame))
  · exact dirty_of_ne hsame _

/-- An updated row is the row of the thread's task; it is open afterwards, or the thread has
a verdict ahead. -/
lemma Transition.tasks (ht : Transition codec s g s' new) :
    (s'.db.tasks = s.db.tasks) ∨ ∃ row st, TaskUpdate s.db s'.db row st ∧
      g.task? = some row.id ∧ (¬st.Terminal ∨ ∃ x ∈ new, x.Owes row.scanId) := by
  cases ht with
  | mark hstored hid hupd =>
    exact Or.inr ⟨_, _, hupd, by rw [hid]; rfl, Or.inl (by decide)⟩
  | save hstored hid hupd =>
    exact Or.inr ⟨_, _, hupd, by rw [hid]; rfl,
      Or.inr ⟨_, List.mem_singleton_self _, _, _, rfl, fun h => by cases h⟩⟩
  | retry hstored hid hupd =>
    exact Or.inr ⟨_, _, hupd, by rw [hid]; rfl, Or.inl (by decide)⟩
  | settle hstored hupd => exact Or.inl hupd.tasks
  | quiet hdb | pop hdb | move hdb | dispatch hdb | evaluate hdb | push hdb | finish hdb =>
    exact Or.inl (by rw [hdb])

/-- A thread that owes a verdict finds an open task, commits, or still owes it. -/
lemma Transition.owes (ht : Transition codec s g s' new) {scan : ScanId} (hg : g.Owes scan) :
    (∃ x ∈ new, x.Owes scan) ∨ (∃ st ∈ s.db.statuses scan, ¬st.Terminal) ∨
      ∃ retry sc statuses, g.evaluation? = some (scan, retry, .verdict sc statuses) ∧
        ScanUpdate s.db s'.db sc (verdict statuses) := by
  obtain ⟨retry, eval, he, hne⟩ := hg
  cases ht with
  | quiet hdb hstored htask heval hok =>
    exact Or.inl ⟨_, List.mem_singleton_self _, retry, eval, heval.trans he, hne⟩
  | evaluate hdb hstored heval =>
    cases he
    cases heval with
    | load => exact Or.inl ⟨_, List.mem_singleton_self _, _, _, rfl, fun h => by cases h⟩
    | leave hmem hst => exact Or.inr (Or.inl ⟨_, hmem, hst⟩)
    | conclude => exact Or.inl ⟨_, List.mem_singleton_self _, _, _, rfl, fun h => by cases h⟩
  | settle hstored hupd =>
    cases he
    exact Or.inr (Or.inr ⟨_, _, _, rfl, hupd⟩)
  | retry | finish =>
    cases he
    exact absurd rfl hne
  | _ => cases he

lemma mem_claims {s : Store δ} {gs : List (Worker δ)} {t : TaskId} :
    t ∈ claims codec s gs ↔ t ∈ owners codec s.redis.stored ∨ ∃ g ∈ gs, g.task? = some t := by
  rw [claims, List.mem_append, List.mem_filterMap]

/-- A claim is handed on, unless the task has a final status. -/
lemma Transition.keeps_claim (hinv : WorkersInv codec s (g :: rest))
    (ht : Transition codec s g s' new)
    (hexact : ∀ now read, g = .due now read → ∀ d ∈ s.redis.delayed.inRange 0 now, d ∈ read)
    {t : TaskId} (hmem : t ∈ claims codec s (g :: rest)) :
    t ∈ claims codec s' (new ++ rest) ∨
      ∃ row, s'.db.tasks.find? t = some row ∧ row.status.Terminal := by
  have hg := hinv.places g List.mem_cons_self
  rw [mem_claims] at hmem
  have hsame : s'.redis.stored = s.redis.stored →
      (∀ t, g.task? = some t → ∃ x ∈ new, x.task? = some t) →
        t ∈ claims codec s' (new ++ rest) := by
    intro hstored htask
    rw [mem_claims, hstored]
    rcases hmem with hmem | ⟨x, hx, hxt⟩
    · exact Or.inl hmem
    · rcases List.mem_cons.mp hx with rfl | hx
      · obtain ⟨y, hy, hyt⟩ := htask t hxt
        exact Or.inr ⟨y, List.mem_append_left _ hy, hyt⟩
      · exact Or.inr ⟨x, List.mem_append_right _ hx, hxt⟩
  have hrest : ∀ {x : Worker δ}, x ∈ g :: rest → x.task? = some t → g.task? = none →
      ∃ y ∈ new ++ rest, y.task? = some t := by
    intro x hx hxt hnone
    rcases List.mem_cons.mp hx with rfl | hx
    · rw [hnone] at hxt
      cases hxt
    · exact ⟨x, List.mem_append_right _ hx, hxt⟩
  cases ht with
  | quiet hdb hstored htask =>
    exact Or.inl (hsame hstored fun t ht => ⟨_, List.mem_singleton_self _, htask.trans ht⟩)
  | dispatch hdb hstored =>
    exact Or.inl (hsame hstored fun t ht => ⟨.taken _, List.mem_pair.mpr (Or.inr rfl), ht⟩)
  | mark hstored | save hstored | evaluate _ hstored | settle hstored | retry hstored =>
    exact Or.inl (hsame hstored fun t ht => ⟨_, List.mem_singleton_self _, ht⟩)
  | @pop p d s' hdb hd hstored =>
    refine Or.inl (mem_claims.mpr ?_)
    have howners := owners_perm codec hstored
    rw [owners_cons hd] at howners
    rcases hmem with hmem | ⟨x, hx, hxt⟩
    · rcases List.mem_cons.mp (howners.mem_iff.mp hmem) with rfl | hmem
      · exact Or.inr ⟨.popped p, by simp, rfl⟩
      · exact Or.inl hmem
    · exact Or.inr (hrest hx hxt rfl)
  | @move now read lost s' hdb hstored hlost =>
    refine Or.inl (mem_claims.mpr ?_)
    have hnil : lost = [] := List.eq_nil_iff_forall_not_mem.mpr fun d hd =>
      (hlost d hd).2 (hexact now read rfl d (hlost d hd).1)
    rw [hnil, List.append_nil] at hstored
    rcases hmem with hmem | ⟨x, hx, hxt⟩
    · exact Or.inl ((owners_perm codec hstored).mem_iff.mp hmem)
    · exact Or.inr (hrest hx hxt rfl)
  | @push p d s' hdb hd hstored =>
    refine Or.inl (mem_claims.mpr ?_)
    have howners := owners_perm codec hstored
    rw [owners_cons hd] at howners
    rcases hmem with hmem | ⟨x, hx, hxt⟩
    · exact Or.inl (howners.mem_iff.mpr (List.mem_cons_of_mem _ hmem))
    · rcases List.mem_cons.mp hx with rfl | hx
      · cases hxt
        exact Or.inl (howners.mem_iff.mpr List.mem_cons_self)
      · exact Or.inr ⟨x, List.mem_append_right _ hx, hxt⟩
  | @finish p scan st s' hdb hstored =>
    rcases hmem with hmem | ⟨x, hx, hxt⟩
    · exact Or.inl (mem_claims.mpr (Or.inl (hstored ▸ hmem)))
    · rcases List.mem_cons.mp hx with rfl | hx
      · obtain ⟨row, hrow, -, hst, -⟩ := hg.getTask hxt
        exact Or.inr ⟨row, hdb ▸ hrow, hst.1 ▸ hst.2.1⟩
      · exact Or.inl (mem_claims.mpr
          (Or.inr ⟨x, List.mem_append_right _ hx, hxt⟩))

lemma Trace.step (hinv : WorkersInv codec s (g :: rest)) (h : VerdictInv codec s (g :: rest))
    (ht : Transition codec s g s' new) {scan : ScanId} {sc : Scan} (htr : Trace s.db scan sc) :
    Trace s'.db scan sc := by
  have hg := hinv.places g List.mem_cons_self
  rcases ht.scans with hsame | ⟨scan', retry, sc', statuses, hev, hupd⟩
  · exact ⟨hsame ▸ htr.completed, hsame ▸ htr.changed⟩
  · have hid := hg.loaded _ _ _ _ hev rfl
    by_cases heq : scan = scan'
    · subst heq
      obtain ⟨old, hold, -⟩ := hupd.updated
      rw [hid] at hold
      refine ⟨fun cur hcur hst => ?_, fun cur hcur _ => ?_⟩
      · rw [h.settled hinv hev hupd hcur, verdict_eq_completed_iff]
        exact h.completed scan old hold (htr.completed old hold hst)
      · rw [h.settled hinv hev hupd hcur]
        exact verdict_eq_or _
    · have hsame := hupd.scans scan (hid ▸ heq)
      exact ⟨hsame ▸ htr.completed, hsame ▸ htr.changed⟩

/-- The row of a scan after a step: as before, or with the verdict on the statuses. -/
lemma VerdictInv.scan_row (hinv : WorkersInv codec s (g :: rest))
    (h : VerdictInv codec s (g :: rest)) (ht : Transition codec s g s' new) {scan : ScanId}
    {cur : Scan} (hcur : s'.db.scans.find? scan = some cur) :
    s.db.scans.find? scan = some cur ∨ cur.status = verdict (s.db.statuses scan) := by
  have hg := hinv.places g List.mem_cons_self
  rcases ht.scans with hsame | ⟨scan', retry, sc', statuses, hev, hupd⟩
  · exact Or.inl (hsame ▸ hcur)
  · by_cases heq : scan = scan'
    · subst heq
      exact Or.inr (h.settled hinv hev hupd hcur)
    · exact Or.inl (hupd.scans scan (hg.loaded _ _ _ _ hev rfl ▸ heq) ▸ hcur)

/-- An open row is claimed: its own thread holds the claim, or it was claimed before. -/
lemma VerdictInv.step_claimed (hinv : WorkersInv codec s (g :: rest))
    (h : VerdictInv codec s (g :: rest)) (ht : Transition codec s g s' new)
    (hexact : ∀ now read, g = .due now read → ∀ d ∈ s.redis.delayed.inRange 0 now, d ∈ read)
    {t : TaskId} {row : Task} (hrow : s'.db.tasks.find? t = some row)
    (hopen : ¬row.status.Terminal) : t ∈ claims codec s' (new ++ rest) := by
  have hmem : t ∈ claims codec s (g :: rest) := by
    rcases ht.tasks with hsame | ⟨row', st, hupd, htask, -⟩
    · exact h.claimed t row (hsame ▸ hrow) hopen
    · by_cases heq : t = row'.id
      · exact mem_claims.mpr (Or.inr ⟨g, List.mem_cons_self, heq ▸ htask⟩)
      · exact h.claimed t row (hupd.tasks t heq ▸ hrow) hopen
  rcases ht.keeps_claim hinv hexact hmem with hclaim | ⟨row', hrow', hterm⟩
  · exact hclaim
  · rw [hrow, Option.some.injEq] at hrow'
    exact absurd (hrow' ▸ hterm) hopen

/-- A thread with a verdict is not one that puts a task back. -/
lemma evaluation_ne_requeue {x : Worker δ} (hx : x ∈ new) {scan : ScanId} {retry : Bool}
    {eval : Evaluation} (he : x.evaluation? = some (scan, retry, eval)) :
    ¬∃ p, new = [.requeue p] := by
  rintro ⟨p, rfl⟩
  rw [List.mem_singleton.mp hx] at he
  cases he

/-- The statuses a thread has read are final and still those of its scan. -/
lemma VerdictInv.step_fresh (hinv : WorkersInv codec s (g :: rest))
    (h : VerdictInv codec s (g :: rest)) (ht : Transition codec s g s' new)
    (hfree : (∃ p, new = [.requeue p]) → ∀ scan, g.Retries scan → ∀ x ∈ rest, ¬x.Holds scan)
    {x : Worker δ} (hx : x ∈ new ++ rest) {scan : ScanId} {retry : Bool} {sc : Scan}
    {statuses : List TaskStatus}
    (he : x.evaluation? = some (scan, retry, .verdict sc statuses)) :
    (∀ st ∈ s'.db.statuses scan, st.Terminal) ∧ s'.db.statuses scan = statuses := by
  rcases List.mem_append.mp hx with hx | hx
  · have hkeep : ∀ sc₀, g.evaluation? = some (scan, retry, .verdict sc₀ statuses) →
        (∀ st ∈ s'.db.statuses scan, st.Terminal) ∧ s'.db.statuses scan = statuses := by
      intro sc₀ hev
      obtain ⟨hterm, hfresh⟩ := h.fresh g List.mem_cons_self _ _ _ _ hev
      have hsame := ht.statuses_eq hinv hterm fun hq => absurd hq (evaluation_ne_requeue hx he)
      exact ⟨hsame ▸ hterm, hsame.trans hfresh⟩
    rcases ht.evaluation hinv hx he with hsame | ⟨hp, -⟩ | ⟨e, hev, hstep, hdb⟩ | ⟨hn, -⟩
    · exact hkeep sc hsame
    · cases hp
    · cases hstep with
      | conclude hall => exact ⟨hdb ▸ hall, by rw [hdb]⟩
    · cases hn
  · obtain ⟨hterm, hfresh⟩ := h.fresh x (List.mem_cons_of_mem _ hx) _ _ _ _ he
    have hsame := ht.statuses_eq hinv hterm fun hq hret =>
      absurd ⟨retry, sc, statuses, he⟩ (hfree hq scan hret x hx)
    exact ⟨hsame ▸ hterm, hsame.trans hfresh⟩

lemma VerdictInv.step_traced (hinv : WorkersInv codec s (g :: rest))
    (h : VerdictInv codec s (g :: rest)) (ht : Transition codec s g s' new) {x : Worker δ}
    (hx : x ∈ new ++ rest) {scan : ScanId} {retry : Bool} {eval : Evaluation} {sc : Scan}
    (he : x.evaluation? = some (scan, retry, eval)) (hsc : eval.scan? = some sc) :
    Trace s'.db scan sc := by
  apply Trace.step hinv h ht
  rcases List.mem_append.mp hx with hx | hx
  · rcases ht.evaluation hinv hx he with hsame | ⟨hp, -⟩ | ⟨e, hev, hstep, -⟩ | ⟨hn, -⟩
    · exact h.traced g List.mem_cons_self _ _ _ _ hsame hsc
    · rw [hp] at hsc
      cases hsc
    · cases hstep with
      | load hload =>
        cases hsc
        refine ⟨fun cur hcur hst => ?_, fun cur hcur hne => ?_⟩
        · rw [hload, Option.some.injEq] at hcur
          exact hcur ▸ hst
        · rw [hload, Option.some.injEq] at hcur
          exact absurd (congrArg Scan.status hcur.symm) hne
      | leave => cases hsc
      | conclude =>
        cases hsc
        exact h.traced g List.mem_cons_self _ _ _ _ hev rfl
    · rw [hn] at hsc
      cases hsc
  · exact h.traced x (List.mem_cons_of_mem _ hx) _ _ _ _ he hsc

lemma VerdictInv.step_completed (hinv : WorkersInv codec s (g :: rest))
    (h : VerdictInv codec s (g :: rest)) (ht : Transition codec s g s' new) {scan : ScanId}
    {cur : Scan} (hcur : s'.db.scans.find? scan = some cur) (hst : cur.status = .completed) :
    ∀ st ∈ s'.db.statuses scan, st = .success := by
  have hall : ∀ st ∈ s.db.statuses scan, st = .success := by
    rcases h.scan_row hinv ht hcur with hold | hv
    · exact h.completed scan cur hold hst
    · exact verdict_eq_completed_iff.mp (hv ▸ hst)
  have hsame := ht.statuses_eq hinv (fun st hst => Or.inl (hall st hst)) fun _ _ st hst => by
    rw [hall st hst]
    decide
  exact hsame ▸ hall

/-- A scan whose tasks are final has its verdict, or a thread owes it. -/
lemma VerdictInv.step_judged (hinv : WorkersInv codec s (g :: rest))
    (h : VerdictInv codec s (g :: rest)) (ht : Transition codec s g s' new) {scan : ScanId}
    {cur : Scan} (hcur : s'.db.scans.find? scan = some cur) (hne : s'.db.statuses scan ≠ [])
    (hterm : ∀ st ∈ s'.db.statuses scan, st.Terminal) :
    cur.status = verdict (s'.db.statuses scan) ∨ ∃ x ∈ new ++ rest, x.Owes scan := by
  have hsame : s'.db.statuses scan = s.db.statuses scan →
      cur.status = verdict (s'.db.statuses scan) ∨ ∃ x ∈ new ++ rest, x.Owes scan := by
    intro hstat
    rw [hstat] at hne hterm ⊢
    rcases h.scan_row hinv ht hcur with hold | hv
    · rcases h.judged scan cur hold hne hterm with hj | ⟨x, hx, howes⟩
      · exact Or.inl hj
      · rcases List.mem_cons.mp hx with rfl | hx
        · rcases ht.owes howes with ⟨y, hy, hyo⟩ | ⟨st, hst, hopen⟩ |
            ⟨retry, sc, statuses, hev, hupd⟩
          · exact Or.inr ⟨y, List.mem_append_left _ hy, hyo⟩
          · exact absurd (hterm st hst) hopen
          · exact Or.inl (h.settled hinv hev hupd hcur)
        · exact Or.inr ⟨x, List.mem_append_right _ hx, howes⟩
    · exact Or.inl hv
  rcases ht.tasks with htasks | ⟨row, st, hupd, -, hst⟩
  · exact hsame (by rw [Database.statuses, Database.statuses, htasks])
  · by_cases heq : scan = row.scanId
    · rcases hst with hopen | ⟨x, hx, howes⟩
      · obtain ⟨row', hrow', hst', hscan'⟩ := hupd.updated
        subst hst'
        exact absurd (hterm _ (mem_statuses.mpr ⟨_, row', hrow', hscan'.trans heq.symm, rfl⟩)) hopen
      · exact Or.inr ⟨x, List.mem_append_left _ hx, heq ▸ howes⟩
    · exact hsame (hupd.statuses scan heq)

/-- The invariant is kept when the movers move exactly what is due and a task is put back
under no verdict. -/
theorem VerdictInv.step (hinv : WorkersInv codec s (g :: rest))
    (h : VerdictInv codec s (g :: rest)) (ht : Transition codec s g s' new)
    (hexact : ∀ now read, g = .due now read → ∀ d ∈ s.redis.delayed.inRange 0 now, d ∈ read)
    (hfree : (∃ p, new = [.requeue p]) → ∀ scan, g.Retries scan →
      ∀ x ∈ rest, ¬x.Holds scan) : VerdictInv codec s' (new ++ rest) where
  claimed _ _ hrow hopen := h.step_claimed hinv ht hexact hrow hopen
  fresh _ hx _ _ _ _ he := h.step_fresh hinv ht hfree hx he
  traced _ hx _ _ _ _ he hsc := h.step_traced hinv ht hx he hsc
  completed _ _ hcur hst := h.step_completed hinv ht hcur hst
  judged _ _ hcur hne hterm := h.step_judged hinv ht hcur hne hterm

end step

section runs

/-- The transactions of the movers append exactly what they remove. -/
def MovesDue (p : Workers δ) (act : Act Answer) : Prop :=
  ∀ ws, p.call? act = some (.multi ws) → ∀ d,
    (∃ q data, RedisWrite.rpush q data ∈ ws ∧ d ∈ data) ↔
      ∃ lo hi, RedisWrite.zremrangebyscore lo hi ∈ ws ∧ d ∈ p.store.redis.delayed.inRange lo hi

/-- A task is set to RETRYING when no thread is about to commit a verdict on its scan. -/
def NoVerdictHeld (p : Workers δ) (act : Act Answer) : Prop :=
  ∀ loaded new, p.call? act = some (.commit [.updateTask loaded new]) → new.status = .retrying →
    ∀ t ∈ p.threads, ∀ sc sc', t.body.head? = some (.commit [.updateScan sc sc']) →
      sc.id ≠ loaded.scanId

lemma movesDue_iff {p : Workers δ} {act : Act Answer} :
    MovesDue p act ↔
      (∀ d ∈ pushed (transaction p act), d ∈ removed p.store.redis (transaction p act)) ∧
        ∀ d ∈ removed p.store.redis (transaction p act), d ∈ pushed (transaction p act) := by
  refine Iff.trans ?_ (forall_transaction (P := fun ws =>
    (∀ d ∈ pushed ws, d ∈ removed p.store.redis ws) ∧
      ∀ d ∈ removed p.store.redis ws, d ∈ pushed ws) ⟨nofun, nofun⟩)
  refine forall_congr' fun ws => imp_congr_right fun _ => ?_
  simp only [← mem_pushed, ← mem_removed]
  exact ⟨fun h => ⟨fun d => (h d).mp, fun d => (h d).mpr⟩, fun h d => ⟨h.1 d, h.2 d⟩⟩

instance [DecidableEq δ] (p : Workers δ) (act : Act Answer) : Decidable (MovesDue p act) :=
  decidable_of_iff _ movesDue_iff.symm

/-- The scan whose verdict a thread is about to commit. -/
def heldVerdict? (t : Thread (Cmd δ) Reply String) : Option ScanId :=
  match t.body.head? with
  | some (.commit [.updateScan sc _]) => some sc.id
  | _ => none

/-- The scan of the task that an action sets to RETRYING. -/
def retried? (p : Workers δ) (act : Act Answer) : Option ScanId :=
  match p.call? act with
  | some (.commit [.updateTask loaded new]) =>
    if new.status = .retrying then some loaded.scanId else none
  | _ => none

lemma heldVerdict?_eq_some {t : Thread (Cmd δ) Reply String} {scan : ScanId} :
    heldVerdict? t = some scan ↔
      ∃ sc sc', t.body.head? = some (.commit [.updateScan sc sc']) ∧ sc.id = scan := by
  unfold heldVerdict?
  constructor
  · intro h
    split at h
    · next sc sc' hhead => exact ⟨sc, sc', hhead, Option.some.inj h⟩
    · cases h
  · rintro ⟨sc, sc', hhead, rfl⟩
    rw [hhead]

lemma retried?_eq_some {p : Workers δ} {act : Act Answer} {scan : ScanId} :
    retried? p act = some scan ↔ ∃ loaded new,
      p.call? act = some (.commit [.updateTask loaded new]) ∧ new.status = .retrying ∧
        loaded.scanId = scan := by
  unfold retried?
  constructor
  · intro h
    split at h
    · next loaded new hcall =>
      obtain ⟨hst, hscan⟩ := Option.ite_none_right_eq_some.mp h
      exact ⟨loaded, new, hcall, hst, Option.some.inj hscan⟩
    · cases h
  · rintro ⟨loaded, new, hcall, hst, rfl⟩
    rw [hcall]
    exact if_pos hst

lemma noVerdictHeld_iff {p : Workers δ} {act : Act Answer} :
    NoVerdictHeld p act ↔
      ∀ scan ∈ retried? p act, ∀ t ∈ p.threads, heldVerdict? t ≠ some scan := by
  constructor
  · intro h scan hscan t ht hheld
    obtain ⟨loaded, new, hcall, hst, rfl⟩ := retried?_eq_some.mp hscan
    obtain ⟨sc, sc', hhead, hid⟩ := heldVerdict?_eq_some.mp hheld
    exact h loaded new hcall hst t ht sc sc' hhead hid
  · intro h loaded new hcall hst t ht sc sc' hhead hid
    exact h loaded.scanId (retried?_eq_some.mpr ⟨loaded, new, hcall, hst, rfl⟩) t ht
      (heldVerdict?_eq_some.mpr ⟨sc, sc', hhead, hid⟩)

instance (p : Workers δ) (act : Act Answer) : Decidable (NoVerdictHeld p act) :=
  decidable_of_iff _ noVerdictHeld_iff.symm

/-- No payload is queued, delayed or in flight: the background tasks have ended and no engine
is about to start one. -/
structure Quiescent (p : Workers δ) : Prop where
  lists : ∀ q, p.store.redis.lists q = []
  delayed : p.store.redis.delayed.members = []
  tasks : ∀ t ∈ p.threads, t.loop = none → t.body.head? = none
  engines : ∀ t ∈ p.threads, ∀ w q, t.body.head? ≠ some (.createTask w q)

/-- COMPLETED if every task succeeded and FAILED otherwise. -/
def VerdictRight (s : Store δ) : Prop :=
  ∀ sc ∈ s.db.scans.rows, (∃ row ∈ s.db.tasks.rows, row.scanId = sc.id) →
    sc.status = if ∀ row ∈ s.db.tasks.rows, row.scanId = sc.id → row.status = .success
      then .completed else .failed

lemma MovesDue.pushesDue {p : Workers δ} {act : Act Answer} (h : MovesDue p act) :
    PushesDue p act := by
  rintro c hcall ws rfl q data hmem d hd
  exact (h ws hcall d).mp ⟨q, data, hmem, hd⟩

/-- At rest no thread has a task or owes a verdict. -/
lemma Quiescent.rests {p : Workers δ} (h : Quiescent p) {g : Worker δ}
    (hg : ∃ t ∈ p.threads, t.Typed (workerProtocol codec) .idle g) :
    g.task? = none ∧ g.evaluation? = none := by
  obtain ⟨t, ht, hb, hl⟩ := hg
  by_cases hidle : g = .idle
  · subst hidle
    exact ⟨rfl, rfl⟩
  obtain ⟨c, hhead, hc⟩ := head?_of_follows hb hidle
  cases hloop : t.loop with
  | none =>
    rw [h.tasks t ht hloop] at hhead
    cases hhead
  | some l =>
    have hpoll : g.Polling := (hl l hloop).1
    cases g with
    | idle => exact ⟨rfl, rfl⟩
    | timed now => exact ⟨rfl, rfl⟩
    | due now read => exact ⟨rfl, rfl⟩
    | popped q =>
      cases c <;> try exact hc.elim
      exact absurd hhead (h.engines t ht _ _)
    | _ => exact hpoll.elim

lemma Quiescent.stored {p : Workers δ} (h : Quiescent p) : p.store.redis.stored = [] := by
  simp [Redis.stored, h.lists, h.delayed]

/-- At rest every scan with tasks has the verdict on them. -/
lemma VerdictInv.verdictRight {p : Workers δ} {gs : List (Worker δ)}
    (h : VerdictInv codec p.store gs)
    (hrest : ∀ g ∈ gs, g.task? = none ∧ g.evaluation? = none) (hq : Quiescent p) :
    VerdictRight p.store := by
  intro sc hsc hrow
  have hmemrow : ∀ row ∈ p.store.db.tasks.rows, p.store.db.tasks.find? row.id = some row :=
    fun row hrow => Table.find?_key_of_mem hrow
  have hclaims : claims codec p.store gs = [] := by
    rw [claims, hq.stored, List.filterMap_eq_nil_iff.mpr fun g hg => (hrest g hg).1]
    rfl
  have hterm : ∀ st ∈ p.store.db.statuses sc.id, st.Terminal := by
    intro st hst
    obtain ⟨t, row, hfind, -, rfl⟩ := mem_statuses.mp hst
    by_contra hopen
    have hmem := h.claimed t row hfind hopen
    rw [hclaims] at hmem
    cases hmem
  have hne : p.store.db.statuses sc.id ≠ [] := by
    obtain ⟨row, hrow, hscan⟩ := hrow
    exact List.ne_nil_of_mem (mem_statuses.mpr ⟨row.id, row, hmemrow row hrow, hscan, rfl⟩)
  have hjudged : sc.status = verdict (p.store.db.statuses sc.id) := by
    rcases h.judged sc.id sc (Table.find?_key_of_mem hsc) hne hterm with
      hj | ⟨g, hg, retry, eval, he, -⟩
    · exact hj
    · rw [(hrest g hg).2] at he
      cases he
  rw [hjudged, verdict]
  refine if_congr ?_ rfl rfl
  rw [List.all_eq_true]
  constructor
  · intro hall row hrow hscan
    exact of_decide_eq_true
      (hall _ (mem_statuses.mpr ⟨row.id, row, hmemrow row hrow, hscan, rfl⟩))
  · intro hall st hst
    obtain ⟨t, row, hfind, hscan, rfl⟩ := mem_statuses.mp hst
    exact decide_eq_true (hall row (Table.find?_eq_some_iff.mp hfind).1 hscan)

lemma Started.verdictInv {p : Workers δ} (h : Started codec p) :
    VerdictInv codec p.store (List.replicate p.threads.length .idle) where
  claimed t row hrow _ := by
    obtain ⟨hmem, hid⟩ := Table.find?_eq_some_iff.mp hrow
    refine mem_claims.mpr (Or.inl (h.payloads.mem_iff.mpr ?_))
    exact hid ▸ List.mem_map_of_mem hmem
  fresh g hg _ _ _ _ he := by
    rw [List.eq_of_mem_replicate hg] at he
    cases he
  traced g hg _ _ _ _ he := by
    rw [List.eq_of_mem_replicate hg] at he
    cases he
  completed scan cur hcur hst :=
    absurd hst (h.running cur (Table.find?_eq_some_iff.mp hcur).1).1
  judged scan cur hcur hne hterm := by
    obtain ⟨st, hst⟩ := List.exists_mem_of_ne_nil _ hne
    have hopen := hterm st hst
    obtain ⟨t, row, hrow, -, rfl⟩ := mem_statuses.mp hst
    rw [h.queued row (Table.find?_eq_some_iff.mp hrow).1] at hopen
    exact absurd hopen (by decide)

/-- The commit of a retry, seen from the condition on it. -/
lemma NoVerdictHeld.free {p : Workers δ} {act : Act Answer} (h : NoVerdictHeld p act)
    {g x : Worker δ} {c : Cmd δ} {r : Except String (Reply c)} {q : QueuePayload}
    (hcall : p.call? act = some c) (hc : workerAllowed codec g c)
    (hn : workerNext codec g c r (.requeue q)) {scan : ScanId} (hg : g.Retries scan)
    (hx : x.Ok codec p.store.db)
    (hthread : ∃ t ∈ p.threads, t.Typed (workerProtocol codec) .idle x) : ¬x.Holds scan := by
  rintro ⟨retry, sc, statuses, he⟩
  obtain ⟨eval, hev⟩ := hg
  obtain ⟨t, ht, hb, -⟩ := hthread
  have hid := hx.loaded _ _ _ _ he rfl
  cases x <;> cases he
  obtain ⟨c', hhead, hc'⟩ := head?_of_follows hb (fun h => by cases h)
  cases c' <;> try exact hc'.elim
  obtain rfl := hc'
  cases g <;> cases hev
  have hcommit : ∃ loaded new, c = .commit [.updateTask loaded new] ∧ new.status = .retrying ∧
      loaded.scanId = scan := by
    cases eval <;> cases c <;> first | exact hc.elim | skip
    case none.commit ws =>
      obtain ⟨row, -, hscan, -, -, rfl⟩ := hc
      exact ⟨row, _, rfl, rfl, hscan⟩
    case pending.getScan => rcases r with e | none | sc <;> cases hn
    case loaded.selectStatuses => cases r <;> cases hn
    all_goals cases hn
  obtain ⟨loaded, new, rfl, hst, hscan⟩ := hcommit
  exact h loaded new hcall hst t ht sc _ hhead (hid.trans hscan.symm)

variable [DecidableEq δ]

/-- The final verdict of every run whose steps meet the conditions. -/
theorem final_verdict_right (settings : Settings) {p : Workers δ}
    (h : Reachable (workerSystem codec settings)
      (fun p act => NoVerdictHeld p act ∧ MovesDue p act) (Started codec) p)
    (hq : Quiescent p) : VerdictRight p.store := by
  have hrun := workers_run (X := VerdictInv codec) (fun p act hok => hok.2.pushesDue)
    (fun s gs gs' hp hx => hx.perm hp) (fun p hp => hp.verdictInv) ?_ h
  · obtain ⟨gs, hty, -, hverdict⟩ := hrun
    exact hverdict.verdictRight (fun g hg => hq.rests (hty.thread hg)) hq
  · intro p act g rest c r g' s' new hthreads hinv hx hok hcall hc hn ht
    refine hx.step hinv ht ?_ ?_
    · rintro now read rfl d hd
      cases c <;> try exact hc.elim
      obtain ⟨grouped, hgroup, rfl⟩ := hc
      have hdec := ((hinv.places _ List.mem_cons_self).read now read rfl).2
      have hrem : RedisWrite.zremrangebyscore 0 now ∈ moveCommands grouped now := by
        simp [moveCommands]
      exact (mem_moveCommands hdec hgroup now d).mp ((hok.2 _ hcall d).mpr ⟨0, now, hrem, hd⟩)
    · rintro ⟨q, hq⟩ scan hretry x hxmem
      obtain ⟨rfl, -⟩ := List.cons_eq_cons.mp hq
      exact hok.1.free hcall hc hn hretry (hinv.places x (List.mem_cons_of_mem _ hxmem))
        (hthreads x (List.mem_cons_of_mem _ hxmem))

end runs

section schedules

/-- The queue is empty and every thread is between two rounds. -/
def AtRest (p : Workers δ) : Prop :=
  p.store.redis.stored = [] ∧ ∀ t ∈ p.threads, t.body.head?.isNone

instance [DecidableEq δ] (p : Workers δ) : Decidable (AtRest p) := by
  unfold AtRest
  infer_instance

lemma AtRest.quiescent {p : Workers δ} (h : AtRest p) : Quiescent p where
  lists q := List.eq_nil_iff_forall_not_mem.mpr fun d hd => by
    have hmem := Redis.mem_stored.mpr (Or.inl ⟨q, hd⟩)
    rw [h.1] at hmem
    cases hmem
  delayed := List.eq_nil_iff_forall_not_mem.mpr fun d hd => by
    have hmem := Redis.mem_stored.mpr (Or.inr hd)
    rw [h.1] at hmem
    cases hmem
  tasks t ht _ := Option.isNone_iff_eq_none.mp (h.2 t ht)
  engines t ht w q := by
    rw [Option.isNone_iff_eq_none.mp (h.2 t ht)]
    exact fun he => by cases he

/-- A run in which a task fails, is retried and moved, and both tasks succeed. -/
theorem final_verdict_right_success :
    ∃ p, Reachable (workerSystem Codec.payloads {})
        (fun p act => NoVerdictHeld p act ∧ MovesDue p act) (Started Codec.payloads) p ∧
      Quiescent p ∧ p.store.db.scans.rows.map Scan.status = [.completed] ∧
      p.store.db.tasks.rows.map (fun row => (row.status, row.attempts)) =
        [(.success, 2), (.success, 1)] ∧ VerdictRight p.store := by
  have hrun : (retriedScan.runActs (workerSystem Codec.payloads {})
      (fun p act => NoVerdictHeld p act ∧ MovesDue p act) (untilScheduled ++ untilCompleted)).map
      (fun p => (decide (AtRest p), p.store.db.scans.rows.map Scan.status,
        p.store.db.tasks.rows.map fun row => (row.status, row.attempts))) =
        some (true, [.completed], [(.success, 2), (.success, 1)]) := by
    decide +kernel
  obtain ⟨p, hreach, hall⟩ := Reachable.of_shown retriedScan_started hrun
  obtain ⟨hrest, hrows⟩ := Prod.mk.inj hall
  obtain ⟨hscans, htasks⟩ := Prod.mk.inj hrows
  have hquiet := (of_decide_eq_true hrest).quiescent
  exact ⟨p, hreach, hquiet, hscans, htasks, final_verdict_right {} hreach hquiet⟩

/-- The response of task 1 is saved and judged while task 0 is FAILED for a moment; the
verdict is committed after the retry of task 0 has succeeded. -/
def staleVerdict : List (Act Answer) :=
  popRound 0 false ++ [.again 0] ++ popRound 0 false ++ requestUntilSaved 1 (.error "timeout") ++
    requestUntilSaved 2 (.ok ⟨200, 1, [], ""⟩) ++ List.replicate 3 (.run 2 .done) ++
    List.replicate 9 (.run 1 .done) ++ [.run 1 (.clock 0)] ++ List.replicate 2 (.run 1 .done) ++
    [.again 0] ++ popRound 10 true ++ requestUntilSaved 3 (.ok ⟨200, 1, [], ""⟩) ++
    List.replicate 6 (.run 3 .done) ++ List.replicate 3 (.run 2 .done)

theorem final_verdict_stale :
    ∃ p, Reachable (workerSystem Codec.payloads {}) (fun _ _ => True) (Started Codec.payloads) p ∧
      Quiescent p ∧ ¬VerdictRight p.store := by
  have hrun : ((freshScan 2 1).runActs (workerSystem Codec.payloads {}) (fun _ _ => True)
      staleVerdict).map (fun p => (decide (AtRest p),
        p.store.db.scans.rows.map fun sc => (sc.id, sc.status),
        p.store.db.tasks.rows.map fun row => (row.scanId, row.status))) =
          some (true, [(0, .failed)], [(0, .success), (0, .success)]) := by
    decide +kernel
  obtain ⟨p, hp, hall⟩ := Reachable.of_shown (freshScan_started 2 1) hrun
  obtain ⟨hrest, hrows⟩ := Prod.mk.inj hall
  obtain ⟨hscans, htasks⟩ := Prod.mk.inj hrows
  refine ⟨p, hp, (of_decide_eq_true hrest).quiescent, fun hright => ?_⟩
  have hscan : ((0 : ScanId), ScanStatus.failed) ∈
      p.store.db.scans.rows.map fun sc => (sc.id, sc.status) := by
    rw [hscans]
    exact List.mem_singleton_self _
  obtain ⟨sc, hsc, hsc'⟩ := List.mem_map.mp hscan
  obtain ⟨hid, hst⟩ := Prod.mk.inj hsc'
  have hsuccess : ∀ row ∈ p.store.db.tasks.rows, row.scanId = 0 ∧ row.status = .success := by
    intro row hrow
    have hmem : (row.scanId, row.status) ∈
        p.store.db.tasks.rows.map fun row => (row.scanId, row.status) := List.mem_map_of_mem hrow
    rw [htasks] at hmem
    simpa using hmem
  have hne : p.store.db.tasks.rows ≠ [] := by
    intro hnil
    rw [hnil] at htasks
    cases htasks
  obtain ⟨row, hrow⟩ := List.exists_mem_of_ne_nil _ hne
  have hverdict := hright sc hsc ⟨row, hrow, (hsuccess row hrow).1.trans hid.symm⟩
  rw [if_pos fun row hrow _ => (hsuccess row hrow).2, hst] at hverdict
  cases hverdict

end schedules

end SecurityScanner

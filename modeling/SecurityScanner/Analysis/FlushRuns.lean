import Mathlib.Algebra.Order.BigOperators.Group.List
import SecurityScanner.Analysis.ArrivalOrder

/-!
# Flushes in a run of calls

A pass over the buffer appends its diffs to those of the earlier passes, and `flush` makes a pass
only while no issue is held. So the calls since the last reset decide what a flush reports: the
first pass that finds a pair to compare has to be the only one, and has to be about every pair
that there is.
-/

namespace SecurityScanner

open Python

variable (I : Interpreter) (cfg : CollectorSettings)

/-- The responses since the last reset, and those that had come when a `process_buffered` or a
`flush` first found a pair to compare. -/
structure CollectorLog where
  received : List CapturedResponse := []
  compared : Option (List CapturedResponse) := none

namespace CollectorLog

def pass (l : CollectorLog) : CollectorLog :=
  if l.compared = none ∧ pairsOf I cfg l.received ≠ [] then
    { l with compared := some l.received }
  else l

def call (l : CollectorLog) : CollectorCall → CollectorLog
  | .onResult r => { l with received := l.received ++ [r] }
  | .onResultsBatch rs => { l with received := l.received ++ rs }
  | .processBuffered => l.pass I cfg
  | .flush => l.pass I cfg
  | .reset => {}

def after (calls : List CollectorCall) : CollectorLog := calls.foldl (CollectorLog.call I cfg) {}

/-- Once there was something to compare, the buffer is not processed again, and a flush comes
only if the comparison found an issue and no other pair has formed since. -/
def Allows (l : CollectorLog) : CollectorCall → Prop
  | .processBuffered => l.compared = none
  | .flush => ∀ earlier ∈ l.compared,
      issuesOf I cfg earlier ≠ [] ∧ pairsOf I cfg l.received = pairsOf I cfg earlier
  | _ => True

instance (l : CollectorLog) (c : CollectorCall) : Decidable (l.Allows I cfg c) := by
  cases c <;> unfold Allows <;> infer_instance

end CollectorLog

/-- Every call since the last reset is allowed when it comes. -/
inductive Careful : List CollectorCall → Prop
  | fresh : Careful []
  | reset (calls : List CollectorCall) : Careful (calls ++ [.reset])
  | call {calls : List CollectorCall} {c : CollectorCall} (hcalls : Careful calls)
      (hc : (CollectorLog.after I cfg calls).Allows I cfg c) : Careful (calls ++ [c])

/-- A flush after the calls reports the responses since the last reset. -/
def FlushReports (calls : List CollectorCall) : Prop :=
  ReportsOn I cfg (CollectorLog.after I cfg calls).received
    ((Collector.after I cfg calls).flush I cfg).1

section growth

variable {I cfg}

lemma sublist_pairings {refs refs' others others' : List CapturedResponse}
    (hr : refs.Sublist refs') (ho : others.Sublist others') :
    (pairings refs others).Sublist (pairings refs' others') := by
  unfold pairings
  apply List.Sublist.filter
  induction hr with
  | slnil => exact List.Sublist.refl _
  | cons ref _ ih => exact ih.trans (List.sublist_append_right _ _)
  | cons_cons ref _ ih => exact (ho.map _).append ih

/-- A response of the reference role differs in the role from each of another role. -/
lemma pairings_reference {ref : CapturedResponse} {others : List CapturedResponse}
    (hr : IsReference I cfg ref) (ho : ∀ r ∈ others, ¬IsReference I cfg r) :
    pairings [ref] others = others.map fun other => (ref, other) := by
  unfold pairings
  rw [List.flatMap_singleton]
  apply List.filter_eq_self.mpr
  intro p hp
  obtain ⟨other, hother, rfl⟩ := List.mem_map.mp hp
  have hrole : ref.role ≠ other.role := by
    intro heq
    apply ho other hother
    unfold IsReference
    rw [← heq]
    exact hr
  simpa using Or.inr hrole

lemma length_pairings_le (first : CapturedResponse) (rest : List CapturedResponse) :
    (pairings [first] rest).length ≤ rest.length := by
  unfold pairings
  rw [List.flatMap_singleton]
  exact (List.length_filter_le _ _).trans (List.length_map _).le

/-- An endpoint gains pairs with each response, or keeps those it had. Where the first response
was the reference and one of the reference role comes, there are more pairs than before. -/
lemma buildPairs_grows (group : List CapturedResponse) (r : CapturedResponse) :
    Grows (buildPairs I cfg group) (buildPairs I cfg (group ++ [r])) := by
  rw [buildPairs_eq, buildPairs_eq]
  dsimp only
  by_cases hrefs : group.filter (IsReference I cfg ·) = []
  · rw [if_pos hrefs]
    have hnone : ∀ x ∈ group, ¬IsReference I cfg x := by
      intro x hx
      simpa using List.filter_eq_nil_iff.mp hrefs x hx
    by_cases hr : IsReference I cfg r
    · have hone : (group ++ [r]).filter (IsReference I cfg ·) = [r] := by
        rw [List.filter_append, hrefs]
        simp [hr]
      have hothers : (group ++ [r]).filter (· ∉ [r]) = group := by
        rw [List.filter_append]
        have hkeep : group.filter (· ∉ [r]) = group := by
          apply List.filter_eq_self.mpr
          intro x hx
          have hne : x ≠ r := by
            rintro rfl
            exact hnone x hx hr
          simpa using hne
        rw [hkeep]
        simp
      rw [hone, if_neg (by simp), hothers, pairings_reference hr hnone]
      cases group with
      | nil => exact Or.inl rfl
      | cons first rest =>
        refine Or.inr ?_
        have hle := length_pairings_le first rest
        simp only [List.head?_cons, Option.toList_some, List.tail_cons, List.length_map,
          List.length_cons]
        omega
    · have hnil : (group ++ [r]).filter (IsReference I cfg ·) = [] := by
        rw [List.filter_append, hrefs]
        simp [hr]
      rw [if_pos hnil]
      cases group with
      | nil => exact Or.inl rfl
      | cons first rest =>
        exact Grows.of_sublist (sublist_pairings (List.Sublist.refl _)
          (List.sublist_append_left _ _))
  · have hrefs' : (group ++ [r]).filter (IsReference I cfg ·) ≠ [] := by
      rw [List.filter_append]
      simp [hrefs]
    rw [if_neg hrefs, if_neg hrefs']
    apply Grows.of_sublist
    have hsub : (group.filter (IsReference I cfg ·)).Sublist
        ((group ++ [r]).filter (IsReference I cfg ·)) :=
      (List.sublist_append_left _ _).filter _
    apply sublist_pairings hsub
    have hothers : group.filter (· ∉ group.filter (IsReference I cfg ·)) =
        group.filter (· ∉ (group ++ [r]).filter (IsReference I cfg ·)) := by
      apply List.filter_congr
      intro x hx
      simpa [hx] using fun hx' => Or.inr hx'
    rw [hothers]
    exact (List.sublist_append_left _ _).filter _

/-- Later responses leave the pairs as they were, or there are more of them. -/
lemma pairsOf_grows {earlier received : List CapturedResponse} (h : earlier <+: received) :
    Grows (pairsOf I cfg earlier) (pairsOf I cfg received) := by
  obtain ⟨later, rfl⟩ := h
  have hshort : ∀ responses, pairsOf I cfg responses =
      (groupBy endpointKey responses).values.flatMap (buildPairs I cfg) := by
    intro responses
    rw [pairsOf_eq]
    congr 1
    funext group
    split
    · rfl
    · rename_i hlen
      match group, hlen with
      | [], _ => rfl
      | [r], _ =>
        rw [buildPairs_eq]
        by_cases hr : IsReference I cfg r
        · simp [hr, pairings]
        · simp [hr, pairings]
      | _ :: _ :: _, hlen => exact absurd (by simp) hlen
  rw [hshort, hshort]
  exact flatMap_groupBy_grows buildPairs_grows earlier later

end growth

section runs

/-- The passes of a careful run: none of them compared a pair but the last one. -/
structure FollowsLog (h : History) (l : CollectorLog) : Prop where
  received : h.received = l.received
  idle : l.compared = none → ∀ r ∈ h.passes, pairsOf I cfg r = []
  once : ∀ earlier, l.compared = some earlier → pairsOf I cfg earlier ≠ [] ∧
    earlier <+: l.received ∧
    ∃ older, h.passes = earlier :: older ∧ ∀ r ∈ older, pairsOf I cfg r = []

variable {I cfg} {s : Collector} {h : History} {l : CollectorLog}

lemma FollowsLog.fresh : FollowsLog I cfg {} {} where
  received := rfl
  idle := by
    intro _ r hr
    cases hr
  once := by
    intro _ he
    cases he

lemma issuesOf_of_pairsOf {received : List CapturedResponse} (h : pairsOf I cfg received = []) :
    issuesOf I cfg received = [] := by
  simp [issuesOf, anomaliesOf, batchCompare, classifyAll, h]

lemma anomaliesOf_congr {received earlier : List CapturedResponse}
    (h : pairsOf I cfg received = pairsOf I cfg earlier) :
    anomaliesOf I cfg received = anomaliesOf I cfg earlier := by
  unfold anomaliesOf
  rw [h]

/-- Without a pass that found a pair no issue is held. -/
lemma History.held_of_idle (hidle : ∀ r ∈ h.passes, pairsOf I cfg r = []) :
    h.held I cfg = [] := by
  unfold History.held
  cases hp : h.passes with
  | nil => rfl
  | cons last older =>
    rw [hp] at hidle
    exact issuesOf_of_pairsOf (hidle last (by simp))

lemma FollowsLog.ingest (hf : FollowsLog I cfg h l)
    (responses : List CapturedResponse) :
    FollowsLog I cfg { h with received := h.received ++ responses }
      { l with received := l.received ++ responses } where
  received := by rw [hf.received]
  idle := hf.idle
  once := by
    intro earlier he
    obtain ⟨hpairs, hprefix, holder⟩ := hf.once earlier he
    exact ⟨hpairs, hprefix.trans (List.prefix_append _ _), holder⟩

/-- A pass while nothing was compared. -/
lemma FollowsLog.pass (hf : FollowsLog I cfg h l) (hn : l.compared = none) :
    FollowsLog I cfg h.pass (l.pass I cfg) := by
  have hidle := hf.idle hn
  unfold CollectorLog.pass
  by_cases hpairs : pairsOf I cfg l.received = []
  · rw [if_neg (by simp [hpairs])]
    refine ⟨hf.received, ?_, fun earlier he => ?_⟩
    · intro _ r hr
      rcases List.mem_cons.mp hr with rfl | hr
      · rw [hf.received]
        exact hpairs
      · exact hidle r hr
    · rw [hn] at he
      cases he
  · rw [if_pos ⟨hn, hpairs⟩]
    refine ⟨hf.received, fun he => ?_, fun earlier he => ?_⟩
    · cases he
    · obtain rfl : l.received = earlier := Option.some.inj he
      refine ⟨hpairs, List.prefix_rfl, h.passes, ?_, hidle⟩
      rw [← hf.received]
      rfl

/-- A flush that is allowed is the first pass that can find a pair, or makes none. -/
lemma FollowsLog.flush (hf : FollowsLog I cfg h l) (ha : l.Allows I cfg .flush) :
    FollowsLog I cfg (h.flush I cfg) (l.pass I cfg) := by
  cases hc : l.compared with
  | none =>
    have hflush : h.flush I cfg = h.pass := if_pos (History.held_of_idle (hf.idle hc))
    rw [hflush]
    exact hf.pass hc
  | some earlier =>
    obtain ⟨_, _, older, hp, _⟩ := hf.once earlier hc
    have hheld : h.held I cfg = issuesOf I cfg earlier := by
      unfold History.held
      rw [hp]
    have hflush : h.flush I cfg = h := if_neg (hheld ▸ (ha earlier hc).1)
    have hpass : l.pass I cfg = l := if_neg (by simp [hc])
    rw [hflush, hpass]
    exact hf

lemma CollectorLog.after_concat (calls : List CollectorCall) (c : CollectorCall) :
    CollectorLog.after I cfg (calls ++ [c]) = (CollectorLog.after I cfg calls).call I cfg c := by
  simp [CollectorLog.after]

lemma History.after_concat (calls : List CollectorCall) (c : CollectorCall) :
    History.after I cfg (calls ++ [c]) = (History.after I cfg calls).call I cfg c := by
  simp [History.after]

/-- One allowed call. -/
lemma FollowsLog.call (hf : FollowsLog I cfg h l) {c : CollectorCall}
    (hc : l.Allows I cfg c) :
    FollowsLog I cfg (h.call I cfg c) (l.call I cfg c) := by
  cases c with
  | onResult r => exact hf.ingest [r]
  | onResultsBatch rs => exact hf.ingest rs
  | processBuffered => exact hf.pass hc
  | flush => exact hf.flush hc
  | reset => exact FollowsLog.fresh

lemma Careful.follows {calls : List CollectorCall} (h : Careful I cfg calls) :
    FollowsLog I cfg (History.after I cfg calls) (CollectorLog.after I cfg calls) := by
  induction h with
  | fresh => exact FollowsLog.fresh
  | reset calls =>
    rw [History.after_concat, CollectorLog.after_concat]
    exact FollowsLog.fresh
  | call _ hc ih =>
    rw [History.after_concat, CollectorLog.after_concat]
    exact ih.call hc

/-- A flush that makes a pass after another one that found a pair counts too many. -/
lemma not_reportsOn_of_twice (hs : Refines I cfg s h) {earlier : List CapturedResponse}
    {older : List (List CapturedResponse)} (hp : (h.flush I cfg).passes = h.received :: older)
    (he : earlier ∈ older) (hpairs : pairsOf I cfg earlier ≠ []) :
    ¬ReportsOn I cfg h.received (s.flush I cfg).1 := by
  rw [reportsOn_flush_iff hs hp]
  rintro ⟨-, htotal, -⟩
  have hle : (pairsOf I cfg earlier).length ≤
      (older.map fun r => (pairsOf I cfg r).length).sum :=
    List.le_sum_of_mem (List.mem_map_of_mem (f := fun r => (pairsOf I cfg r).length) he)
  have hpos := List.length_pos_of_ne_nil hpairs
  omega

lemma sum_pairs_eq_zero {older : List (List CapturedResponse)}
    (h : ∀ r ∈ older, pairsOf I cfg r = []) :
    (older.map fun r => (pairsOf I cfg r).length).sum = 0 ∧
      (older.map fun r => (anomaliesOf I cfg r).length).sum = 0 := by
  constructor
  · apply List.sum_eq_zero
    intro n hn
    obtain ⟨r, hr, rfl⟩ := List.mem_map.mp hn
    rw [h r hr]
    rfl
  · apply List.sum_eq_zero
    intro n hn
    obtain ⟨r, hr, rfl⟩ := List.mem_map.mp hn
    simp [anomaliesOf, batchCompare, h r hr]

/-- In a careful run a flush reports the buffer exactly when it is allowed. -/
lemma FollowsLog.reportsOn_iff (hs : Refines I cfg s h) (hf : FollowsLog I cfg h l) :
    ReportsOn I cfg h.received (s.flush I cfg).1 ↔ l.Allows I cfg .flush := by
  cases hc : l.compared with
  | none =>
    have hidle := hf.idle hc
    have hpasses : (h.flush I cfg).passes = h.received :: h.passes := by
      rw [History.flush, if_pos (History.held_of_idle hidle)]
      rfl
    obtain ⟨hpairs, hanomalies⟩ := sum_pairs_eq_zero hidle
    have hreport : ReportsOn I cfg h.received (s.flush I cfg).1 := by
      rw [reportsOn_flush_iff hs hpasses, hpairs, hanomalies]
      exact ⟨List.Perm.refl _, Nat.zero_add _, Nat.zero_add _⟩
    have hallows : l.Allows I cfg .flush := by
      intro earlier he
      rw [hc] at he
      cases he
    exact iff_of_true hreport hallows
  | some earlier =>
    obtain ⟨hpairs, hprefix, older, hp, holder⟩ := hf.once earlier hc
    have hheld : h.held I cfg = issuesOf I cfg earlier := by
      unfold History.held
      rw [hp]
    have hallows : l.Allows I cfg .flush ↔ issuesOf I cfg earlier ≠ [] ∧
        pairsOf I cfg h.received = pairsOf I cfg earlier := by
      rw [hf.received]
      constructor
      · exact fun ha => ha earlier hc
      · intro ha earlier' he
        rw [hc] at he
        obtain rfl := Option.some.inj he
        exact ha
    rw [hallows]
    by_cases hissues : issuesOf I cfg earlier = []
    · have hpasses : (h.flush I cfg).passes = h.received :: earlier :: older := by
        rw [History.flush, if_pos (hheld.trans hissues), ← hp]
        rfl
      exact iff_of_false (not_reportsOn_of_twice hs hpasses (by simp) hpairs)
        fun ha => ha.1 hissues
    · have hpasses : (h.flush I cfg).passes = earlier :: older := by
        rw [History.flush, if_neg (hheld ▸ hissues), hp]
      obtain ⟨hzero, hzero'⟩ := sum_pairs_eq_zero holder
      rw [reportsOn_flush_iff hs hpasses, hzero, hzero', Nat.zero_add, Nat.zero_add]
      constructor
      · rintro ⟨-, hlength, -⟩
        rw [← hf.received] at hprefix
        exact ⟨hissues, ((pairsOf_grows hprefix).eq_of_length hlength).symm⟩
      · rintro ⟨-, heq⟩
        have hanomalies := anomaliesOf_congr heq
        refine ⟨?_, by rw [heq], by rw [hanomalies]⟩
        unfold issuesOf
        rw [hanomalies]

lemma Careful.flushReports_iff {calls : List CollectorCall} (h : Careful I cfg calls) :
    FlushReports I cfg calls ↔ (CollectorLog.after I cfg calls).Allows I cfg .flush := by
  unfold FlushReports
  rw [← h.follows.received]
  exact h.follows.reportsOn_iff (refines_after calls)

/-- Where the buffer is processed a second time, the next flush counts too many. -/
lemma Careful.not_flushReports {calls : List CollectorCall} (h : Careful I cfg calls)
    (hc : ¬(CollectorLog.after I cfg calls).Allows I cfg .processBuffered) :
    ¬FlushReports I cfg (calls ++ [.processBuffered]) := by
  obtain ⟨earlier, he⟩ := Option.ne_none_iff_exists'.mp hc
  obtain ⟨hpairs, _, older, hp, _⟩ := h.follows.once earlier he
  have hs : Refines I cfg _ _ := refines_after (calls ++ [.processBuffered])
  have hpass : History.after I cfg (calls ++ [.processBuffered]) =
      (History.after I cfg calls).pass := History.after_concat _ _
  have hreceived : (CollectorLog.after I cfg (calls ++ [.processBuffered])).received =
      (History.after I cfg (calls ++ [.processBuffered])).received := by
    rw [hpass, CollectorLog.after_concat]
    have hsame : (CollectorLog.after I cfg calls).pass I cfg = CollectorLog.after I cfg calls :=
      if_neg (by simp [he])
    exact (congrArg CollectorLog.received hsame).trans h.follows.received.symm
  unfold FlushReports
  rw [hreceived]
  rw [hpass] at hs ⊢
  by_cases hheld : (History.after I cfg calls).pass.held I cfg = []
  · have hpasses : ((History.after I cfg calls).pass.flush I cfg).passes =
        (History.after I cfg calls).pass.received ::
          (History.after I cfg calls).received :: earlier :: older := by
      rw [History.flush, if_pos hheld, ← hp]
      rfl
    exact not_reportsOn_of_twice hs hpasses (by simp) hpairs
  · have hpasses : ((History.after I cfg calls).pass.flush I cfg).passes =
        (History.after I cfg calls).pass.received :: earlier :: older := by
      rw [History.flush, if_neg hheld, ← hp]
      rfl
    exact not_reportsOn_of_twice hs hpasses (by simp) hpairs

lemma Careful.append {calls : List CollectorCall} (h : Careful I cfg calls)
    (more : List CollectorCall) (hmore : ∀ k : Fin more.length,
      (CollectorLog.after I cfg (calls ++ more.take k)).Allows I cfg more[k]) :
    Careful I cfg (calls ++ more) := by
  induction more using List.reverseRecOn with
  | nil =>
    rw [List.append_nil]
    exact h
  | append_singleton more c ih =>
    rw [← List.append_assoc]
    refine .call (ih fun k => ?_) ?_
    · have hk := hmore ⟨k, by rw [List.length_append]; omega⟩
      simpa [List.take_append_of_le_length k.isLt.le, List.getElem_append_left k.isLt] using hk
    · have hk := hmore ⟨more.length, by simp⟩
      simpa using hk

/-- The calls before a flush that is part of a careful run. -/
lemma Careful.of_flush {calls : List CollectorCall} (h : Careful I cfg (calls ++ [.flush])) :
    Careful I cfg calls ∧ (CollectorLog.after I cfg calls).Allows I cfg .flush := by
  generalize hrun : calls ++ [CollectorCall.flush] = run at h
  cases h with
  | fresh => simp at hrun
  | reset calls' => simp at hrun
  | call hcalls hc =>
    obtain ⟨rfl, hflush⟩ := List.append_inj' hrun rfl
    obtain rfl : CollectorCall.flush = _ := List.head_eq_of_cons_eq hflush
    exact ⟨hcalls, hc⟩

/-- A run is careful if a flush at each of its moments would report the buffer. -/
lemma careful_of_flushReports {calls : List CollectorCall}
    (h : ∀ run, run <+: calls → FlushReports I cfg run) : Careful I cfg calls := by
  induction calls using List.reverseRecOn with
  | nil => exact .fresh
  | append_singleton calls c ih =>
    have hcalls : Careful I cfg calls :=
      ih fun run hrun => h run (hrun.trans (List.prefix_append _ _))
    cases c with
    | onResult r => exact hcalls.call trivial
    | onResultsBatch rs => exact hcalls.call trivial
    | reset => exact .reset calls
    | flush => exact hcalls.call (hcalls.flushReports_iff.mp (h calls (List.prefix_append _ _)))
    | processBuffered =>
      by_contra hnot
      refine hcalls.not_flushReports (fun hc => hnot (hcalls.call hc)) ?_
      exact h _ List.prefix_rfl

end runs

/-- A flush reports the buffer in every careful run, and in a run that is not careful there is a
moment at which it does not. -/
theorem flush_reports_buffer (calls : List CollectorCall) :
    (Careful I cfg (calls ++ [.flush]) → FlushReports I cfg calls) ∧
      ((∀ run, run <+: calls → FlushReports I cfg run) →
        Careful I cfg (calls ++ [.flush])) := by
  constructor
  · intro h
    obtain ⟨hcalls, hflush⟩ := h.of_flush
    exact hcalls.flushReports_iff.mpr hflush
  · intro h
    have hcalls := careful_of_flushReports h
    exact hcalls.call (hcalls.flushReports_iff.mp (h calls List.prefix_rfl))

def deniedAdmin : CapturedResponse :=
  { endpoint := "/users", method := "GET", url := "https://target.example/users"
    statusCode := 403, userId := some "1", role := some "admin" }

def deniedUser : CapturedResponse := { deniedAdmin with userId := some "2", role := some "user" }

def servedUser : CapturedResponse := { deniedUser with statusCode := 200 }

def otherEndpoint : CapturedResponse := { deniedUser with endpoint := "/orders" }

/-- The buffer is processed, and a later response has none to compare it with. -/
def carefulCalls : List CollectorCall :=
  [.onResult deniedAdmin, .processBuffered, .onResult servedUser, .processBuffered,
    .onResult otherEndpoint, .flush]

theorem flush_reports_buffer_twice :
    Careful ascii { targetUrl := "https://target.example" } (carefulCalls ++ [.flush]) ∧
      FlushReports ascii { targetUrl := "https://target.example" } carefulCalls := by
  have hrun : Careful ascii { targetUrl := "https://target.example" }
      (carefulCalls ++ [.flush]) :=
    Careful.append .fresh (carefulCalls ++ [.flush]) (by decide +kernel)
  exact ⟨hrun, (flush_reports_buffer _ _ carefulCalls).1 hrun⟩

/-- A pass that finds no issue is made again by the flush, which counts the pair twice. -/
theorem flush_counts_twice :
    ¬ReportsOn ascii { targetUrl := "https://target.example" } [deniedAdmin, deniedUser]
      ((Collector.after ascii { targetUrl := "https://target.example" }
        [.onResultsBatch [deniedAdmin, deniedUser], .processBuffered]).flush ascii
          { targetUrl := "https://target.example" }).1 := by
  intro h
  have htotal := h.totalDiffs
  revert htotal
  decide +kernel

end SecurityScanner

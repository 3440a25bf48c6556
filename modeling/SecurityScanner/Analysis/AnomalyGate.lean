import SecurityScanner.Analysis.IssueClassifier

/-!
# Which findings pass the anomaly gate

`classify_diff` runs the checkers on anomalies only, and each checker has a trigger of its
own. A trigger tells how much of the gate is left to test.
-/

namespace SecurityScanner

open Python

variable {I : Interpreter} {a b : CapturedResponse} {t : Float} {issue : Issue}

/-- The default of `similarity_threshold`. -/
def defaultThreshold : Float := 0.65

/-- The users differ, and one of the branches of `compare_responses` is taken. -/
def GateOpen (I : Interpreter) (a b : CapturedResponse) (t : Float) : Prop :=
  a.userId ≠ b.userId ∧
    ((a.statusCode = 200 ∧ b.statusCode = 200 ∧ t ≤ bodySimilarity a.body b.body) ∨
      (foreignIds I a b ≠ [] ∧ (a.statusCode = 200 ∨ b.statusCode = 200)) ∨
      ((a.statusCode = 403 ∨ a.statusCode = 401) ∧ b.statusCode = 200))

instance : Decidable (GateOpen I a b t) := by unfold GateOpen; infer_instance

lemma isAnomaly_iff_gateOpen :
    (compareResponses I a b t).isAnomaly = true ↔ GateOpen I a b t := by
  rw [isAnomaly_compareResponses]
  unfold GateOpen SameData SharedIds OnlyChallenger
  tauto

lemma reported_iff {checker : DiffResult → Option Issue} (hc : checker ∈ checkers I)
    (hi : checker (compareResponses I a b t) = some issue) :
    issue ∈ classifyDiff I (compareResponses I a b t) ↔ GateOpen I a b t := by
  rw [mem_classifyDiff_iff hc hi, isAnomaly_iff_gateOpen]

section triggers

/-- The trigger of `_check_bfla` is a branch of the gate. -/
lemma checkBfla_trigger (h : checkBfla I (compareResponses I a b t) = some issue) :
    (a.statusCode = 403 ∨ a.statusCode = 401) ∧ b.statusCode = 200 :=
  (Option.ite_none_right_eq_some.mp h).1

lemma checkTenantLeak_trigger
    (h : checkTenantLeak (compareResponses I a b t) = some issue) : foreignIds I a b ≠ [] := by
  intro hn
  have hnone : checkTenantLeak (compareResponses I a b t) = none := if_pos hn
  rw [hnone] at h
  cases h

lemma checkBola_trigger (h : checkBola I (compareResponses I a b t) = some issue) :
    a.statusCode = 200 ∧ b.statusCode = 200 ∧ a.userId ≠ b.userId := by
  obtain ⟨ha, hb, -, hu⟩ := (Option.ite_none_right_eq_some.mp h).1
  exact ⟨ha, hb, hu⟩

lemma checkPrivilegeEscalation_trigger
    (h : checkPrivilegeEscalation I (compareResponses I a b t) = some issue) :
    a.statusCode = 200 ∧ b.statusCode = 200 := by
  obtain ⟨ha, hb, -⟩ := (Option.ite_none_right_eq_some.mp h).1
  exact ⟨ha, hb⟩

lemma checkJwtBypass_trigger (h : checkJwtBypass (compareResponses I a b t) = some issue) :
    b.statusCode = 200 :=
  (Option.ite_none_right_eq_some.mp h).1.1

end triggers

section gate

lemma gateOpen_of_bfla (hu : a.userId ≠ b.userId)
    (h : (a.statusCode = 403 ∨ a.statusCode = 401) ∧ b.statusCode = 200) : GateOpen I a b t :=
  ⟨hu, Or.inr (Or.inr h)⟩

/-- Between different users with shared ids the gate asks for one success. -/
lemma gateOpen_iff_of_foreignIds (hu : a.userId ≠ b.userId) (hf : foreignIds I a b ≠ []) :
    GateOpen I a b t ↔ a.statusCode = 200 ∨ b.statusCode = 200 := by
  unfold GateOpen
  tauto

/-- Between two successes of different users it asks for the same data or shared ids. -/
lemma gateOpen_iff_of_success (hu : a.userId ≠ b.userId) (ha : a.statusCode = 200)
    (hb : b.statusCode = 200) :
    GateOpen I a b t ↔ t ≤ bodySimilarity a.body b.body ∨ foreignIds I a b ≠ [] := by
  unfold GateOpen
  simp [hu, ha, hb]

/-- Where the challenger succeeds it asks what the reference got. -/
lemma gateOpen_iff_of_challenger (hb : b.statusCode = 200) :
    GateOpen I a b t ↔ a.userId ≠ b.userId ∧
      ((a.statusCode = 200 ∧ t ≤ bodySimilarity a.body b.body) ∨ foreignIds I a b ≠ [] ∨
        a.statusCode = 403 ∨ a.statusCode = 401) := by
  unfold GateOpen
  simp [hb]

end gate

/-- What the gate lets through, checker by checker. -/
theorem anomaly_gate (I : Interpreter) (a b : CapturedResponse) :
    let d := compareResponses I a b defaultThreshold
    (∀ checker ∈ checkers I, ∀ issue, checker d = some issue →
      GateOpen I a b defaultThreshold → issue ∈ classifyDiff I d) ∧
    (∀ issue, checkJwtBypass d = some issue →
      (issue ∈ classifyDiff I d ↔ a.userId ≠ b.userId ∧
        ((a.statusCode = 200 ∧ defaultThreshold ≤ bodySimilarity a.body b.body) ∨
          foreignIds I a b ≠ [] ∨ a.statusCode = 403 ∨ a.statusCode = 401))) ∧
    (a.userId ≠ b.userId → ∀ issue,
      (checkBfla I d = some issue → issue ∈ classifyDiff I d) ∧
      (checkTenantLeak d = some issue →
        (issue ∈ classifyDiff I d ↔ a.statusCode = 200 ∨ b.statusCode = 200)) ∧
      (checkBola I d = some issue → defaultThreshold ≤ bodySimilarity a.body b.body →
        issue ∈ classifyDiff I d) ∧
      (checkPrivilegeEscalation I d = some issue →
        (issue ∈ classifyDiff I d ↔
          defaultThreshold ≤ bodySimilarity a.body b.body ∨ foreignIds I a b ≠ [])) ∧
      (checkInfoDisclosure I d = some issue →
        (issue ∈ classifyDiff I d ↔ GateOpen I a b defaultThreshold))) := by
  intro d
  refine ⟨fun checker hc issue hi hopen => (reported_iff hc hi).mpr hopen, fun issue hi => ?_,
    fun hu issue => ⟨fun hi => ?_, fun hi => ?_, fun hi hsim => ?_, fun hi => ?_, fun hi => ?_⟩⟩
  · rw [reported_iff (by simp [checkers]) hi]
    exact gateOpen_iff_of_challenger (checkJwtBypass_trigger hi)
  · rw [reported_iff (by simp [checkers]) hi]
    exact gateOpen_of_bfla hu (checkBfla_trigger hi)
  · rw [reported_iff (by simp [checkers]) hi]
    exact gateOpen_iff_of_foreignIds hu (checkTenantLeak_trigger hi)
  · obtain ⟨ha, hb, -⟩ := checkBola_trigger hi
    rw [reported_iff (by simp [checkers]) hi, gateOpen_iff_of_success hu ha hb]
    exact Or.inl hsim
  · obtain ⟨ha, hb⟩ := checkPrivilegeEscalation_trigger hi
    rw [reported_iff (by simp [checkers]) hi]
    exact gateOpen_iff_of_success hu ha hb
  · exact reported_iff (by simp [checkers]) hi

section hidden

def adminResponse : CapturedResponse :=
  { endpoint := "/users", method := "GET", url := "https://target.example/users"
    statusCode := 200, body := some "abcd", userId := some "1", role := some "admin" }

def guestResponse : CapturedResponse :=
  { endpoint := "/users", method := "GET", url := "https://target.example/users"
    statusCode := 200, body := some "bcdefg", userId := some "2", role := some "guest" }

/-- The same user again with a token that names no algorithm. -/
def tamperedResponse : CapturedResponse :=
  { adminResponse with token := some "alg=none" }

/-- Bodies that are alike to six tenths make a privilege escalation of two users that is
not reported, and a tampered token of the same user is not reported either. -/
theorem anomaly_gate_hides :
    (∃ issue, checkPrivilegeEscalation ascii
        (compareResponses ascii adminResponse guestResponse defaultThreshold) = some issue ∧
      adminResponse.userId ≠ guestResponse.userId ∧
      issue ∉ classifyDiff ascii
        (compareResponses ascii adminResponse guestResponse defaultThreshold)) ∧
    ∃ issue, checkJwtBypass
        (compareResponses ascii adminResponse tamperedResponse defaultThreshold) = some issue ∧
      issue ∉ classifyDiff ascii
        (compareResponses ascii adminResponse tamperedResponse defaultThreshold) := by
  have hescalation : (checkPrivilegeEscalation ascii
      (compareResponses ascii adminResponse guestResponse defaultThreshold)).isSome := by
    decide +kernel
  have hclosed : ¬GateOpen ascii adminResponse guestResponse defaultThreshold := by
    decide +kernel
  have htampered : (checkJwtBypass
      (compareResponses ascii adminResponse tamperedResponse defaultThreshold)).isSome := by
    decide +kernel
  have hclosed' : ¬GateOpen ascii adminResponse tamperedResponse defaultThreshold := by
    decide +kernel
  obtain ⟨i, hi⟩ := Option.isSome_iff_exists.mp hescalation
  obtain ⟨j, hj⟩ := Option.isSome_iff_exists.mp htampered
  refine ⟨⟨i, hi, by decide, fun hmem => ?_⟩, j, hj, fun hmem => ?_⟩
  · exact hclosed ((reported_iff (by simp [checkers]) hi).mp hmem)
  · exact hclosed' ((reported_iff (by simp [checkers]) hj).mp hmem)

end hidden

end SecurityScanner

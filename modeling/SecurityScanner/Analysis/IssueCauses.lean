import SecurityScanner.Analysis.AnomalyGate

/-!
# What lies behind an issue of a type

`classify_diff` reports a type when the gate of the diff is open and the checker of the type
fires. A tenant leak is reported for tenants that are not known, and a BOLA by a threshold that
is not the caller's.
-/

namespace SecurityScanner

open Python

section types

/-- The checker of a type. -/
def checkerOf (I : Interpreter) : IssueType → DiffResult → Option Issue
  | .bola => checkBola I
  | .bfla => checkBfla I
  | .tenantLeak => checkTenantLeak
  | .jwtBypass => checkJwtBypass
  | .privEscalation => checkPrivilegeEscalation I
  | .infoDisclosure => checkInfoDisclosure I

/-- The pair has an issue of the type. -/
def Reports (I : Interpreter) (a b : CapturedResponse) (t : Float) (type : IssueType) : Prop :=
  ∃ issue ∈ classifyDiff I (compareResponses I a b t), issue.issueType = type

variable {I : Interpreter} {diff : DiffResult} {type : IssueType} {issue : Issue}

lemma checkerOf_mem (I : Interpreter) (type : IssueType) : checkerOf I type ∈ checkers I := by
  cases type <;> simp [checkerOf, checkers]

lemma exists_checkerOf {checker : DiffResult → Option Issue} (h : checker ∈ checkers I) :
    ∃ type, checker = checkerOf I type := by
  simp only [checkers, List.mem_cons, List.not_mem_nil, or_false] at h
  rcases h with rfl | rfl | rfl | rfl | rfl | rfl
  · exact ⟨.jwtBypass, rfl⟩
  · exact ⟨.tenantLeak, rfl⟩
  · exact ⟨.bola, rfl⟩
  · exact ⟨.bfla, rfl⟩
  · exact ⟨.privEscalation, rfl⟩
  · exact ⟨.infoDisclosure, rfl⟩

/-- A checker reports nothing but its own type. -/
lemma checkerOf_type (h : checkerOf I type diff = some issue) : issue.issueType = type := by
  cases type with
  | tenantLeak =>
    unfold checkerOf checkTenantLeak at h
    dsimp only at h
    split at h
    · cases h
    · split at h
      · cases h
      · exact Option.some.inj h ▸ rfl
  | _ =>
    obtain rfl := Option.some.inj (Option.ite_none_right_eq_some.mp h).2
    rfl

/-- A type is reported exactly if the gate is open and its checker fires. -/
lemma reports_iff {a b : CapturedResponse} {t : Float} :
    Reports I a b t type ↔
      GateOpen I a b t ∧ (checkerOf I type (compareResponses I a b t)).isSome := by
  unfold Reports
  constructor
  · rintro ⟨issue, hmem, rfl⟩
    obtain ⟨checker, hchecker, hissue⟩ : ∃ checker ∈ checkers I,
        checker (compareResponses I a b t) = some issue := by
      unfold classifyDiff at hmem
      split at hmem
      · exact List.mem_filterMap.mp hmem
      · cases hmem
    obtain ⟨type, rfl⟩ := exists_checkerOf hchecker
    rw [checkerOf_type hissue]
    exact ⟨(reported_iff hchecker hissue).mp hmem, Option.isSome_iff_exists.mpr ⟨issue, hissue⟩⟩
  · rintro ⟨hopen, hfires⟩
    obtain ⟨issue, hissue⟩ := Option.isSome_iff_exists.mp hfires
    exact ⟨issue, (reported_iff (checkerOf_mem I type) hissue).mpr hopen, checkerOf_type hissue⟩

end types

section tenants

variable {I : Interpreter} {a b : CapturedResponse} {t : Float}

/-- Some extracted id occurs in both bodies. -/
def ShareId (I : Interpreter) (a b : CapturedResponse) : Prop :=
  ∃ id ∈ extractIds I a.bodyJson, id ∈ extractIds I b.bodyJson

/-- Both tenants are known, and they are not the same. -/
def TwoTenants (a b : CapturedResponse) : Prop :=
  truthy a.tenantId = true ∧ truthy b.tenantId = true ∧ a.tenantId ≠ b.tenantId

/-- Ids are foreign between two tenants or two users. -/
lemma foreignIds_ne_nil_iff :
    foreignIds I a b ≠ [] ↔ (TwoTenants a b ∨ a.userId ≠ b.userId) ∧ ShareId I a b := by
  have htwo : differentTenant a b = true ↔ TwoTenants a b := by
    simp [differentTenant, TwoTenants, and_assoc]
  have hshared : I.setOrder ((extractIds I a.bodyJson).filter (· ∈ extractIds I b.bodyJson)) ≠ [] ↔
      ShareId I a b := by
    rw [ne_eq, I.setOrder_eq_nil_iff, List.filter_eq_nil_iff]
    simp [ShareId]
  have hnonempty : ShareId I a b → extractIds I a.bodyJson ≠ [] ∧ extractIds I b.bodyJson ≠ [] :=
    fun ⟨id, ha, hb⟩ => ⟨List.ne_nil_of_mem ha, List.ne_nil_of_mem hb⟩
  unfold foreignIds
  dsimp only
  split
  · next h =>
    simp only [Bool.and_eq_true, Bool.or_eq_true, decide_eq_true_eq, htwo] at h
    rw [hshared]
    exact ⟨fun hs => ⟨h.2, hs⟩, And.right⟩
  · next h =>
    simp only [Bool.and_eq_true, Bool.or_eq_true, decide_eq_true_eq, htwo] at h
    exact ⟨fun hne => absurd rfl hne, fun ⟨hwho, hs⟩ => absurd ⟨hnonempty hs, hwho⟩ h⟩

/-- The checker spares only tenants that are known to be the same. -/
lemma checkTenantLeak_isSome_iff :
    (checkTenantLeak (compareResponses I a b t)).isSome ↔
      foreignIds I a b ≠ [] ∧
        ¬(truthy a.tenantId = true ∧ truthy b.tenantId = true ∧ a.tenantId = b.tenantId) := by
  unfold checkTenantLeak compareResponses
  dsimp only
  by_cases hf : foreignIds I a b = []
  · simp [hf]
  · by_cases hsame : truthy a.tenantId ∧ truthy b.tenantId ∧ a.tenantId = b.tenantId
    · simp [hf, hsame]
    · rw [if_neg hf, if_neg hsame]
      simp only [Option.isSome_some, true_iff]
      exact ⟨hf, hsame⟩

/-- A reported tenant leak is one between two known tenants, if both tenants are known where
different users share an id and one of them is served. -/
theorem tenant_leak_two_tenants_iff (I : Interpreter) (a b : CapturedResponse) (t : Float) :
    (Reports I a b t .tenantLeak → TwoTenants a b ∧ ShareId I a b) ↔
      (truthy a.tenantId = true ∧ truthy b.tenantId = true) ∨ a.userId = b.userId ∨
        ¬ShareId I a b ∨ (a.statusCode ≠ 200 ∧ b.statusCode ≠ 200) := by
  have hreports : Reports I a b t .tenantLeak ↔
      a.userId ≠ b.userId ∧ (a.statusCode = 200 ∨ b.statusCode = 200) ∧ ShareId I a b ∧
        ¬(truthy a.tenantId = true ∧ truthy b.tenantId = true ∧ a.tenantId = b.tenantId) := by
    rw [reports_iff, checkerOf, checkTenantLeak_isSome_iff]
    constructor
    · rintro ⟨hopen, hforeign, hsame⟩
      exact ⟨hopen.1, (gateOpen_iff_of_foreignIds hopen.1 hforeign).mp hopen,
        (foreignIds_ne_nil_iff.mp hforeign).2, hsame⟩
    · rintro ⟨hu, hserved, hshare, hsame⟩
      have hforeign : foreignIds I a b ≠ [] := foreignIds_ne_nil_iff.mpr ⟨Or.inr hu, hshare⟩
      exact ⟨(gateOpen_iff_of_foreignIds hu hforeign).mpr hserved, hforeign, hsame⟩
  rw [hreports]
  constructor
  · intro h
    by_contra hno
    simp only [not_or, not_and_or, not_not] at hno
    obtain ⟨hunknown, hu, hshare, hserved⟩ := hno
    have htwo : TwoTenants a b :=
      (h ⟨hu, hserved, hshare, fun hsame => hunknown.elim (· hsame.1) (· hsame.2.1)⟩).1
    exact hunknown.elim (· htwo.1) (· htwo.2.1)
  · rintro hcond ⟨hu, hserved, hshare, hsame⟩
    refine ⟨?_, hshare⟩
    rcases hcond with ⟨ha, hb⟩ | hu' | hshare' | ⟨ha, hb⟩
    · exact ⟨ha, hb, fun he => hsame ⟨ha, hb, he⟩⟩
    · exact absurd hu' hu
    · exact absurd hshare hshare'
    · exact (hserved.elim ha hb).elim

/-- The same order, served to two users of a scan that knows no tenants. -/
def orderOf (userId : String) : CapturedResponse :=
  { endpoint := "/orders", method := "GET", url := "https://target.example/orders/5"
    statusCode := 200, body := some "order 5", bodyJson := .obj [("id", .int 5)]
    userId := some userId }

theorem tenant_leak_without_tenants :
    Reports ascii (orderOf "1") (orderOf "2") defaultThreshold .tenantLeak ∧
      (orderOf "1").tenantId = none ∧ (orderOf "2").tenantId = none ∧
      ¬TwoTenants (orderOf "1") (orderOf "2") :=
  ⟨reports_iff.mpr ⟨by decide +kernel, by decide +kernel⟩, rfl, rfl, fun h => h.2.2 rfl⟩

end tenants

section threshold

variable {I : Interpreter} {a b : CapturedResponse} {t : Float}

/-- The checker has a threshold of its own, for the rounded similarity. -/
lemma checkBola_isSome_iff :
    (checkBola I (compareResponses I a b t)).isSome ↔
      a.statusCode = 200 ∧ b.statusCode = 200 ∧
        0.65 ≤ round4 (bodySimilarity a.body b.body) ∧ a.userId ≠ b.userId := by
  unfold checkBola compareResponses
  dsimp only
  split
  · next h => simpa using h
  · next h => simpa using h

/-- A BOLA is reported by the threshold of the caller, if the fixed one agrees with it on the
similarity or does not get to decide. -/
theorem bola_threshold_iff (I : Interpreter) (a b : CapturedResponse) (t : Float) :
    (Reports I a b t .bola ↔
      a.userId ≠ b.userId ∧ a.statusCode = 200 ∧ b.statusCode = 200 ∧
        t ≤ bodySimilarity a.body b.body) ↔
    a.userId = b.userId ∨ a.statusCode ≠ 200 ∨ b.statusCode ≠ 200 ∨
      (t ≤ bodySimilarity a.body b.body ∧ 0.65 ≤ round4 (bodySimilarity a.body b.body)) ∨
      (¬t ≤ bodySimilarity a.body b.body ∧
        (¬0.65 ≤ round4 (bodySimilarity a.body b.body) ∨ ¬ShareId I a b)) := by
  have hreports : Reports I a b t .bola ↔
      a.userId ≠ b.userId ∧ a.statusCode = 200 ∧ b.statusCode = 200 ∧
        0.65 ≤ round4 (bodySimilarity a.body b.body) ∧
        (t ≤ bodySimilarity a.body b.body ∨ ShareId I a b) := by
    rw [reports_iff, checkerOf, checkBola_isSome_iff]
    constructor
    · rintro ⟨hopen, ha, hb, hround, hu⟩
      have hgate := (gateOpen_iff_of_success hu ha hb).mp hopen
      rw [foreignIds_ne_nil_iff] at hgate
      exact ⟨hu, ha, hb, hround, hgate.imp_right And.right⟩
    · rintro ⟨hu, ha, hb, hround, hgate⟩
      refine ⟨(gateOpen_iff_of_success hu ha hb).mpr ?_, ha, hb, hround, hu⟩
      exact hgate.imp_right fun hshare => foreignIds_ne_nil_iff.mpr ⟨Or.inr hu, hshare⟩
  rw [hreports]
  by_cases hboth : a.userId ≠ b.userId ∧ a.statusCode = 200 ∧ b.statusCode = 200
  · obtain ⟨hu, ha, hb⟩ := hboth
    by_cases ht : t ≤ bodySimilarity a.body b.body
    · simp [hu, ha, hb, ht]
    · simp [hu, ha, hb, ht, imp_iff_not_or]
  · have hout : a.userId = b.userId ∨ a.statusCode ≠ 200 ∨ b.statusCode ≠ 200 := by
      simpa only [not_and_or, not_not] using hboth
    constructor
    · exact fun _ => hout.imp_right (Or.imp_right Or.inl)
    · exact fun _ => ⟨fun h => absurd ⟨h.1, h.2.1, h.2.2.1⟩ hboth,
        fun h => absurd ⟨h.1, h.2.1, h.2.2.1⟩ hboth⟩

/-- A collector with a threshold of 0.5 misses bodies that are alike to six tenths, and one with
a threshold of 0.95 reports bodies that are alike to seven eighths. -/
theorem bola_ignores_threshold :
    (¬Reports ascii adminResponse guestResponse 0.5 .bola ∧
      adminResponse.userId ≠ guestResponse.userId ∧ adminResponse.statusCode = 200 ∧
      guestResponse.statusCode = 200 ∧
      0.5 ≤ bodySimilarity adminResponse.body guestResponse.body) ∧
    Reports ascii (orderOf "1") { orderOf "2" with body := some "order 5!!" } 0.95 .bola ∧
      ¬0.95 ≤ bodySimilarity (orderOf "1").body (some "order 5!!") := by
  refine ⟨⟨fun h => ?_, by decide, rfl, rfl, by decide +kernel⟩, ?_, by decide +kernel⟩
  · have hquiet : ¬(checkBola ascii
        (compareResponses ascii adminResponse guestResponse 0.5)).isSome := by
      decide +kernel
    exact hquiet (reports_iff.mp h).2
  · exact reports_iff.mpr ⟨by decide +kernel, by decide +kernel⟩

end threshold

end SecurityScanner

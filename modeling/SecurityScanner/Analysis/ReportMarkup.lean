import SecurityScanner.Analysis.HtmlReport

/-!
# The markup of the HTML report

Each value of the report stands in text. So texts that open nothing leave the tags to the
markup, which depends on the number of the issues, their severities and the lengths of their
lists. The report escapes nothing: a text that opens something changes the tags.
-/

namespace SecurityScanner

open Python Html HtmlReport

section texts

def CapturedResponse.withoutTexts (response : CapturedResponse) : CapturedResponse :=
  { response with userId := none, role := none }

def DiffResult.withoutTexts (diff : DiffResult) : DiffResult :=
  { diff with
    responseA := diff.responseA.withoutTexts
    responseB := diff.responseB.withoutTexts
    leakedFields := diff.leakedFields.map fun _ => ""
    foreignIdsFound := diff.foreignIdsFound.map fun _ => ""
    anomalyReason := "" }

def DatedIssue.withoutTexts (issue : DatedIssue) : DatedIssue :=
  { issue with
    title := ""
    description := ""
    endpoint := ""
    diff := issue.diff.withoutTexts
    repro := issue.repro.map fun repro => { repro with curlCommand := "" } }

/-- The report without what a scan writes into it. -/
def DatedReport.withoutTexts (report : DatedReport) : DatedReport :=
  { report with
    scanName := ""
    targetUrl := ""
    issues := report.issues.map DatedIssue.withoutTexts }

def CapturedResponse.texts (response : CapturedResponse) : List String :=
  response.userId.toList ++ response.role.toList

def DatedIssue.texts (issue : DatedIssue) : List String :=
  [issue.title, issue.method, issue.endpoint, issue.cwe, issue.owasp, issue.description,
   issue.diff.anomalyReason, issue.recommendation] ++
    issue.diff.responseA.texts ++ issue.diff.responseB.texts ++
    issue.diff.leakedFields.take 10 ++ issue.diff.foreignIdsFound.take 5 ++
    (issue.repro.map ReproductionSteps.curlCommand).toList

/-- All texts that the report shows. -/
def DatedReport.texts (report : DatedReport) : List String :=
  report.scanName :: report.targetUrl :: report.reportId :: report.issues.flatMap DatedIssue.texts

end texts

section sample

def sampleTime : DateTime where
  year := ⟨2025, by decide⟩
  month := ⟨11, by decide⟩
  day := ⟨23, by decide⟩
  hour := ⟨17, by decide⟩
  minute := ⟨42, by decide⟩
  second := ⟨37, by decide⟩
  microsecond := ⟨250000, by decide⟩
  utcOffset := none

def sampleResponse (userId : String) : CapturedResponse :=
  { endpoint := "GET /users/1"
    method := "GET"
    url := "http://localhost/users/1"
    statusCode := 200
    userId := some userId
    role := some "user" }

def sampleIssue (field : String) : DatedIssue :=
  { issueType := .bola
    severity := .high
    title := "BOLA on GET /users/1"
    description := "User 2 reads user 1."
    endpoint := "GET /users/1"
    method := "GET"
    diff :=
      { endpoint := "GET /users/1"
        method := "GET"
        responseA := sampleResponse "1"
        responseB := sampleResponse "2"
        leakedFields := [field] }
    discoveredAt := sampleTime }

/-- A report with one issue, about a field of the scanned server. -/
def sampleReport (field : String) : DatedReport :=
  { reportId := "7f0c2a4e"
    targetUrl := "http://localhost"
    scanName := "API Security Scan"
    summary := ⟨1, 2, 1, 0, 1, 0, 0, 0⟩
    durationSeconds := 1.5
    issues := [sampleIssue field]
    createdAt := sampleTime }

end sample

section placement

/-- The state in the style sheet. -/
def inStyle : State := .raw "style".toList

/-- The list of units comes from the literal itself, which no proof has to decode. -/
lemma not_mem_literal {c : Char} {l : List Char} (h : c ∉ l) : c ∉ (String.ofList l).toList := by
  rw [String.toList_ofList]
  exact h

/-- The colors stand in a quoted value. -/
lemma fits_badge (severity : SeverityLevel) : Fits .data (badge severity.value) .data := by
  have hcolor : '"' ∉ ((severityColor.lookup severity.value).getD "#6b7280").toList := by
    cases severity <;> decide +kernel
  have hbg : '"' ∉ ((severityBg.lookup severity.value).getD "#f9fafb").toList := by
    cases severity <;> decide +kernel
  unfold badge
  refine Fits.markup (.tag ⟨false, "span".toList, " style=\"background:".toList⟩ .doubleQuoted)
    rfl ?_
  refine Fits.quoted hbg (Fits.quoted (not_mem_literal (by decide)) ?_)
  refine Fits.quoted hcolor (Fits.quoted (not_mem_literal (by decide)) (Fits.quoted hcolor ?_))
  refine Fits.markup .data rfl (Fits.value _ rfl (by decide) ?_)
  exact Fits.markup .data rfl (Fits.nil _)

lemma fits_codes (texts : List String) : Fits .data (codes texts) .data := by
  unfold codes
  split
  · exact Fits.markup .data rfl (Fits.nil _)
  · refine Fits.intercalate (Fits.markup .data rfl (Fits.nil _)) fun block hblock => ?_
    obtain ⟨t, -, rfl⟩ := List.mem_map.mp hblock
    exact Fits.markup .data rfl (Fits.value t rfl (by decide) (Fits.markup .data rfl (Fits.nil _)))

/-- The number of the issue stands in a quoted value. -/
lemma fits_issueStart (idx : Nat) : Fits .data (issueStart idx) .data := by
  have hstart : after .data "\n        <div class=\"issue\" id=\"issue-".toList =
      .tag ⟨false, "div".toList, " class=\"issue\" id=\"issue-".toList⟩ .doubleQuoted := by
    decide +kernel
  have hidx : '"' ∉ (toString idx).toList := by
    intro h
    have hdigit : '"'.isDigit = true := by
      rw [Nat.toString_eq_repr, Nat.toList_repr] at h
      exact Nat.isDigit_of_mem_toDigits (by decide) (by decide) h
    exact absurd hdigit (by decide)
  refine ⟨rfl, ?_⟩
  change after .data ("\n        <div class=\"issue\" id=\"issue-".toList ++
    ((toString idx).toList ++ "\">".toList)) = .data
  rw [after_append, after_append, hstart, after_doubleQuoted _ hidx]
  rfl

lemma fits_issueNumber (idx : Nat) : Fits .data (issueNumber idx) .data := by
  unfold issueNumber
  repeat first
    | refine Fits.markup .data rfl ?_
    | refine Fits.value _ rfl (by decide) ?_
  exact Fits.nil _

lemma fits_issueFacts (issue : DatedIssue) : Fits .data (issueFacts issue) .data := by
  unfold issueFacts
  repeat first
    | refine Fits.markup .data rfl ?_
    | refine Fits.value _ rfl (by decide) ?_
  exact Fits.nil _

lemma fits_issueEnd (issue : DatedIssue) : Fits .data (issueEnd issue) .data := by
  unfold issueEnd
  repeat first
    | refine Fits.markup .data rfl ?_
    | refine Fits.value _ rfl (by decide) ?_
  exact Fits.nil _

lemma fits_head (scanName : String) : Fits .data (head scanName) inStyle := by
  unfold head
  refine Fits.markup .data rfl (Fits.markup .data rfl ?_)
  refine Fits.markup (.raw "title".toList) rfl (Fits.value _ rfl (by decide) ?_)
  exact Fits.markup inStyle rfl (Fits.nil _)

lemma fits_stylesheet : Fits inStyle (stylesheet.map .markup) inStyle := by
  refine Fits.texts rfl ?_
  unfold stylesheet
  repeat refine List.forall_mem_cons.mpr ⟨not_mem_literal (by decide), ?_⟩
  exact List.forall_mem_nil _

lemma fits_bodyStart (scanName : String) : Fits inStyle (bodyStart scanName) .data := by
  unfold bodyStart
  refine Fits.markup .data rfl (Fits.value _ rfl (by decide) ?_)
  exact Fits.markup .data rfl (Fits.nil _)

lemma fits_summaryHtml (report : DatedReport) : Fits .data (summaryHtml report) .data := by
  unfold summaryHtml
  repeat first
    | refine Fits.markup .data rfl ?_
    | refine Fits.value _ rfl (by decide) ?_
  exact Fits.nil _

lemma fits_bodyEnd : Fits .data bodyEnd .data := by
  unfold bodyEnd
  refine Fits.markup .data rfl (Fits.markup .data rfl ?_)
  exact Fits.nil _

/-- The issue up to the codes of its leaked fields. -/
lemma fits_beforeCodes (idx : Nat) (issue : DatedIssue) :
    Fits .data (issueStart idx ++ issueNumber idx ++ badge issue.severity.value ++
      issueFacts issue) .data :=
  (((fits_issueStart idx).append (fits_issueNumber idx)).append
    (fits_badge issue.severity)).append (fits_issueFacts issue)

lemma fits_issueHtml (idx : Nat) (issue : DatedIssue) : Fits .data (issueHtml idx issue) .data := by
  have hforeign :
      Fits .data [.markup "</td></tr>\n              <tr><td>Foreign IDs</td><td>"] .data :=
    Fits.markup .data rfl (Fits.nil _)
  exact ((((fits_beforeCodes idx issue).append (fits_codes _)).append hforeign).append
    (fits_codes _)).append (fits_issueEnd issue)

lemma fits_issuesHtml (issues : List DatedIssue) : Fits .data (issuesHtml issues) .data := by
  unfold issuesHtml
  rw [List.flatMap_def]
  refine Fits.flatten fun block hblock => ?_
  obtain ⟨⟨issue, idx⟩, -, rfl⟩ := List.mem_map.mp hblock
  exact fits_issueHtml idx issue

lemma fits_noIssues (issues : List DatedIssue) : Fits .data (noIssues issues) .data := by
  unfold noIssues
  split
  · exact Fits.markup .data rfl (Fits.nil _)
  · exact Fits.nil _

lemma fits_beforeTarget (scanName : String) : Fits .data (beforeTarget scanName) .data :=
  ((fits_head scanName).append fits_stylesheet).append (fits_bodyStart scanName)

lemma fits_target (report : DatedReport) :
    Fits .data ([.value report.targetUrl] ++ summaryHtml report) .data := by
  have hsummary := fits_summaryHtml report
  unfold summaryHtml at hsummary ⊢
  exact Fits.value report.targetUrl rfl (by decide) hsummary

lemma fits_template (report : DatedReport) : Fits .data (template report) .data := by
  have hspace : Fits .data [.markup "\n  "] .data := Fits.markup .data rfl (Fits.nil _)
  have hrest : Fits .data (noIssues report.issues ++ [.markup "\n  "] ++
      issuesHtml report.issues ++ bodyEnd) .data :=
    (((fits_noIssues _).append hspace).append (fits_issuesHtml _)).append fits_bodyEnd
  have h := (fits_beforeTarget report.scanName).append ((fits_target report).append hrest)
  unfold template afterTarget
  simpa only [List.append_assoc] using h

end placement

section values

/-- A text of units of which none is a `<`. -/
lemma inert_ofList {l : List Char} (h : '<' ∉ l) : Inert (String.ofList l).toList := by
  rw [String.toList_ofList]
  exact inert_of_not_mem h

lemma not_mem_toDigits (n : Nat) : '<' ∉ Nat.toDigits 10 n := by
  intro h
  have hdigit : '<'.isDigit = true := Nat.isDigit_of_mem_toDigits (by decide) (by decide) h
  exact absurd hdigit (by decide)

lemma inert_nat (n : Nat) : Inert (toString n).toList := by
  rw [Nat.toString_eq_repr, Nat.toList_repr]
  exact inert_of_not_mem (not_mem_toDigits n)

lemma not_mem_int (z : Int) : '<' ∉ (toString z).toList := by
  cases z with
  | ofNat n =>
    change '<' ∉ (toString n).toList
    rw [Nat.toString_eq_repr, Nat.toList_repr]
    exact not_mem_toDigits n
  | negSucc n =>
    change '<' ∉ ("-" ++ (n + 1).repr).toList
    rw [String.toList_append, Nat.toList_repr, List.mem_append]
    exact not_or.mpr ⟨by decide, not_mem_toDigits _⟩

lemma inert_int (z : Int) : Inert (toString z).toList := inert_of_not_mem (not_mem_int z)

lemma inert_percent (x : Float) : Inert (percent x).toList := by
  unfold percent
  rw [String.toList_append]
  refine inert_of_not_mem ?_
  rw [List.mem_append]
  exact not_or.mpr ⟨not_mem_int _, by decide⟩

lemma not_mem_pad (w n : Nat) : '<' ∉ pad w n := by
  induction w generalizing n with
  | zero => exact List.not_mem_nil
  | succ w ih =>
    have hdigit : ∀ m < 10, Nat.digitChar m ≠ '<' := by decide
    intro h
    rcases List.mem_append.mp h with h | h
    · exact ih _ h
    · exact hdigit (n % 10) (Nat.mod_lt _ (by decide)) (List.mem_singleton.mp h).symm

lemma inert_strftimeUtc (t : DateTime) : Inert t.strftimeUtc.toList := by
  refine inert_ofList ?_
  simp only [List.mem_append, List.mem_cons, not_mem_pad, or_false, false_or]
  decide

lemma not_mem_decimalRepr (s : Nat) (e : Int) : '<' ∉ decimalRepr s e := by
  have htake (n : Nat) : '<' ∉ (Nat.toDigits 10 s).take n := fun h =>
    not_mem_toDigits s (List.mem_of_mem_take h)
  have hdrop (n : Nat) : '<' ∉ (Nat.toDigits 10 s).drop n := fun h =>
    not_mem_toDigits s (List.mem_of_mem_drop h)
  have htail : '<' ∉ (Nat.toDigits 10 s).tail := fun h =>
    not_mem_toDigits s (List.mem_of_mem_tail h)
  unfold decimalRepr
  dsimp only
  split
  · simp [not_mem_toDigits]
  · split
    · simp [htake, hdrop]
    · split
      · simp [not_mem_toDigits]
      · split <;> split <;> split <;> simp [htake, htail, not_mem_toDigits]

lemma not_mem_floatRepr (x : Float) : '<' ∉ floatRepr x := by
  unfold floatRepr
  split
  · decide
  · dsimp only
    rw [List.mem_append]
    refine not_or.mpr ⟨?_, ?_⟩
    · split <;> decide
    · split
      · decide
      · split
        · decide
        · exact not_mem_decimalRepr _ _

lemma inert_duration (x : Float) : Inert (String.ofList (floatRepr x ++ ['s'])).toList := by
  refine inert_ofList ?_
  rw [List.mem_append]
  exact not_or.mpr ⟨not_mem_floatRepr x, by decide⟩

lemma inert_issueType (t : IssueType) : Inert t.value.toList := by
  refine inert_of_not_mem ?_
  cases t with
  | bola => decide
  | bfla => decide
  | tenantLeak => decide
  | jwtBypass => decide
  | privEscalation => decide
  | infoDisclosure => decide

lemma inert_severity (s : SeverityLevel) : Inert s.value.toList := by
  refine inert_of_not_mem ?_
  cases s with
  | critical => decide
  | high => decide
  | medium => decide
  | low => decide
  | info => decide

lemma inert_text {t : Option String} (h : ∀ s ∈ t.toList, Inert s.toList) :
    Inert (text t).toList := by
  cases t with
  | none => exact inert_of_not_mem (by decide)
  | some s => exact h s List.mem_cons_self

lemma allInert_badge (severity : SeverityLevel) : AllInert (badge severity.value) := by
  unfold badge
  simp only [allInert_markup, allInert_value, allInert_nil, and_true]
  exact inert_severity severity

lemma allInert_codes {texts : List String} (h : ∀ t ∈ texts, Inert t.toList) :
    AllInert (codes texts) := by
  unfold codes
  split
  · exact allInert_nil
  · refine AllInert.intercalate allInert_nil fun block hblock => ?_
    obtain ⟨t, ht, rfl⟩ := List.mem_map.mp hblock
    exact (allInert_value t).mpr ⟨h t ht, allInert_nil⟩

variable {issue : DatedIssue} {report : DatedReport}

lemma allInert_issueStart (idx : Nat) : AllInert (issueStart idx) := by
  unfold issueStart
  simp only [allInert_markup, allInert_nil]

lemma allInert_issueNumber (idx : Nat) : AllInert (issueNumber idx) := by
  unfold issueNumber
  simp only [allInert_markup, allInert_value, allInert_nil, and_true]
  exact inert_nat idx

lemma allInert_issueFacts (h : ∀ t ∈ issue.texts, Inert t.toList) :
    AllInert (issueFacts issue) := by
  simp only [DatedIssue.texts, CapturedResponse.texts, List.forall_mem_append,
    List.forall_mem_cons] at h
  obtain ⟨⟨⟨⟨⟨⟨htitle, hmethod, hendpoint, hcwe, howasp, hdescription, -⟩, hidA, hroleA⟩,
    hidB, hroleB⟩, -⟩, -⟩, -⟩ := h
  unfold issueFacts
  simp only [allInert_markup, allInert_value, allInert_nil, and_true]
  exact ⟨inert_issueType _, htitle, hmethod, hendpoint, inert_strftimeUtc _, hcwe, howasp,
    hdescription, inert_percent _, inert_int _, inert_int _, inert_text hidA, inert_text hroleA,
    inert_text hidB, inert_text hroleB⟩

lemma allInert_issueEnd (h : ∀ t ∈ issue.texts, Inert t.toList) : AllInert (issueEnd issue) := by
  simp only [DatedIssue.texts, List.forall_mem_append, List.forall_mem_cons] at h
  obtain ⟨⟨⟨⟨⟨⟨-, -, -, -, -, -, hreason, hrecommendation, -⟩, -⟩, -⟩, -⟩, -⟩, hcurl⟩ := h
  have hshown : Inert
      (if issue.diff.anomalyReason = "" then "—" else issue.diff.anomalyReason).toList := by
    split
    · exact inert_of_not_mem (by decide)
    · exact hreason
  unfold issueEnd
  simp only [allInert_markup, allInert_value, allInert_nil, and_true]
  refine ⟨hshown, ?_, hrecommendation⟩
  cases hrepro : issue.repro with
  | none => exact inert_of_not_mem (by decide)
  | some repro =>
    rw [hrepro] at hcurl
    exact hcurl _ List.mem_cons_self

lemma allInert_issueHtml (idx : Nat) (h : ∀ t ∈ issue.texts, Inert t.toList) :
    AllInert (issueHtml idx issue) := by
  have hlists := h
  simp only [DatedIssue.texts, List.forall_mem_append] at hlists
  obtain ⟨⟨⟨-, hleaked⟩, hforeign⟩, -⟩ := hlists
  have hbefore : AllInert (issueStart idx ++ issueNumber idx ++ badge issue.severity.value ++
      issueFacts issue) :=
    (((allInert_issueStart idx).append (allInert_issueNumber idx)).append
      (allInert_badge issue.severity)).append (allInert_issueFacts h)
  have hrow : AllInert [.markup "</td></tr>\n              <tr><td>Foreign IDs</td><td>"] :=
    (allInert_markup _).mpr allInert_nil
  exact (((hbefore.append (allInert_codes hleaked)).append hrow).append
    (allInert_codes hforeign)).append (allInert_issueEnd h)

lemma allInert_issuesHtml {issues : List DatedIssue}
    (h : ∀ issue ∈ issues, ∀ t ∈ issue.texts, Inert t.toList) : AllInert (issuesHtml issues) := by
  unfold issuesHtml
  rw [List.flatMap_def]
  refine AllInert.flatten fun block hblock => ?_
  obtain ⟨⟨issue, idx⟩, hmem, rfl⟩ := List.mem_map.mp hblock
  exact allInert_issueHtml idx (h issue (List.fst_mem_of_mem_zipIdx hmem))

lemma allInert_markups (ts : List String) : AllInert (ts.map .markup) := by
  induction ts with
  | nil => exact allInert_nil
  | cons t ts ih => exact ih

lemma allInert_beforeTarget {scanName : String} (h : Inert scanName.toList) :
    AllInert (beforeTarget scanName) := by
  have hhead : AllInert (head scanName) := by
    unfold head
    simp only [allInert_markup, allInert_value, allInert_nil, and_true]
    exact h
  have hbody : AllInert (bodyStart scanName) := by
    unfold bodyStart
    simp only [allInert_markup, allInert_value, allInert_nil, and_true]
    exact h
  exact (hhead.append (allInert_markups stylesheet)).append hbody

lemma allInert_summaryHtml (h : Inert report.reportId.toList) : AllInert (summaryHtml report) := by
  have hid : Inert (String.ofList (report.reportId.toList.take 8)).toList := by
    rw [String.toList_ofList]
    exact h.of_part (List.take_prefix ..).isInfix
  unfold summaryHtml
  simp only [allInert_markup, allInert_value, allInert_nil, and_true]
  exact ⟨inert_strftimeUtc _, inert_duration _, hid, inert_nat _, inert_nat _, inert_nat _,
    inert_nat _, inert_nat _, inert_nat _, inert_nat _⟩

lemma allInert_noIssues (issues : List DatedIssue) : AllInert (noIssues issues) := by
  unfold noIssues
  split
  · exact allInert_nil
  · exact allInert_nil

lemma allInert_template (h : ∀ t ∈ report.texts, Inert t.toList) : AllInert (template report) := by
  simp only [DatedReport.texts, List.forall_mem_cons] at h
  obtain ⟨hname, htarget, hid, hissues⟩ := h
  have hissues' : ∀ issue ∈ report.issues, ∀ t ∈ issue.texts, Inert t.toList := fun i hi t ht =>
    hissues t (List.mem_flatMap.mpr ⟨i, hi, ht⟩)
  have hend : AllInert bodyEnd := by
    unfold bodyEnd
    simp only [allInert_markup, allInert_nil]
  have hspace : AllInert [.markup "\n  "] := (allInert_markup _).mpr allInert_nil
  have hafter : AllInert (afterTarget report) :=
    ((((allInert_summaryHtml hid).append (allInert_noIssues _)).append hspace).append
      (allInert_issuesHtml hissues')).append hend
  have hvalue : AllInert [.value report.targetUrl] :=
    (allInert_value report.targetUrl).mpr ⟨htarget, allInert_nil⟩
  exact ((allInert_beforeTarget hname).append hvalue).append hafter

end values

section markup

variable {report : DatedReport}

/-- The markup of the codes depends on their number. -/
lemma skeleton_codes (texts : List String) :
    skeleton (codes (texts.map fun _ => "")) = skeleton (codes texts) := by
  have hblocks : ((texts.map fun _ => "").map fun t : String =>
      [Fragment.markup "<code>", .value t, .markup "</code>"]).map
        (List.flatMap Fragment.markupText) =
      (texts.map fun t => [Fragment.markup "<code>", .value t, .markup "</code>"]).map
        (List.flatMap Fragment.markupText) := by
    rw [List.map_map, List.map_map, List.map_map]
    rfl
  unfold codes
  by_cases hnil : texts = []
  · rw [hnil]
    rfl
  · rw [if_neg hnil, if_neg (by simpa using hnil)]
    unfold skeleton
    rw [flatMap_intercalate, flatMap_intercalate, hblocks]

lemma skeleton_issueHtml (idx : Nat) (issue : DatedIssue) :
    skeleton (issueHtml idx issue.withoutTexts) = skeleton (issueHtml idx issue) := by
  have hleaked : skeleton (codes (issue.withoutTexts.diff.leakedFields.take 10)) =
      skeleton (codes (issue.diff.leakedFields.take 10)) := by
    rw [← skeleton_codes (issue.diff.leakedFields.take 10), List.map_take]
    rfl
  have hforeign : skeleton (codes (issue.withoutTexts.diff.foreignIdsFound.take 5)) =
      skeleton (codes (issue.diff.foreignIdsFound.take 5)) := by
    rw [← skeleton_codes (issue.diff.foreignIdsFound.take 5), List.map_take]
    rfl
  have hfacts : skeleton (issueFacts issue.withoutTexts) = skeleton (issueFacts issue) := rfl
  have hend : skeleton (issueEnd issue.withoutTexts) = skeleton (issueEnd issue) := rfl
  unfold issueHtml
  simp only [skeleton_append]
  rw [hleaked, hforeign, hfacts, hend]
  rfl

lemma skeleton_issuesHtml (issues : List DatedIssue) :
    skeleton (issuesHtml (issues.map .withoutTexts)) = skeleton (issuesHtml issues) := by
  unfold issuesHtml skeleton
  rw [List.zipIdx_map, List.flatMap_map, List.flatMap_assoc, List.flatMap_assoc]
  refine List.flatMap_congr fun ⟨issue, idx⟩ _ => ?_
  exact skeleton_issueHtml idx issue

lemma noIssues_map (issues : List DatedIssue) :
    noIssues (issues.map .withoutTexts) = noIssues issues := by
  cases issues with
  | nil => rfl
  | cons issue issues => rfl

lemma skeleton_template (report : DatedReport) :
    skeleton (template report.withoutTexts) = skeleton (template report) := by
  have hbefore : skeleton (beforeTarget report.withoutTexts.scanName) =
      skeleton (beforeTarget report.scanName) := by
    unfold beforeTarget
    simp only [skeleton_append]
    rfl
  have hsummary : skeleton (summaryHtml report.withoutTexts) = skeleton (summaryHtml report) := rfl
  unfold template afterTarget
  simp only [skeleton_append]
  rw [hbefore, hsummary]
  unfold DatedReport.withoutTexts
  rw [skeleton_issuesHtml, noIssues_map]
  rfl

/-- A report whose texts open nothing has the tags of its markup. -/
theorem tags_generateHtml (h : ∀ t ∈ report.texts, Inert t.toList) :
    tags (generateHtml report) = tagsFrom .data (skeleton (template report.withoutTexts)) := by
  unfold generateHtml
  rw [tags_render, skeleton_template]
  exact tagsFrom_chars (fits_template report).1 (allInert_template h)

end markup

section dependence

/-- A report without issues and without texts but for its target URL. -/
def targetReport (targetUrl : String) : DatedReport :=
  { sampleReport "" with reportId := "", scanName := "", targetUrl, issues := [] }

lemma exists_chars_summaryHtml (report : DatedReport) :
    ∃ rest, chars (summaryHtml report) = "</strong>".toList ++ rest := by
  have hsplit : "</strong></span>\n    <span>🕒 ".toList =
      "</strong>".toList ++ "</span>\n    <span>🕒 ".toList := by decide +kernel
  have hchars : chars (summaryHtml report) =
      "</strong></span>\n    <span>🕒 ".toList ++ chars (summaryHtml report).tail := rfl
  rw [hchars, hsplit, List.append_assoc]
  exact ⟨_, rfl⟩

/-- What stands before the target URL and behind it. -/
lemma exists_tags_targetReport : ∃ (before : List Tag) (rest : List Char), ∀ targetUrl : String,
    tags (generateHtml (targetReport targetUrl)) =
      before ++ tagsFrom .data (targetUrl.toList ++ ("</strong>".toList ++ rest)) := by
  have hinert : AllInert (beforeTarget "") := allInert_beforeTarget (inert_of_not_mem (by decide))
  obtain ⟨rest, hrest⟩ := exists_chars_summaryHtml (targetReport "")
  obtain ⟨fs, hfs⟩ : ∃ fs, afterTarget (targetReport "") = summaryHtml (targetReport "") ++ fs := by
    unfold afterTarget
    simp only [List.append_assoc]
    exact ⟨_, rfl⟩
  refine ⟨tagsFrom .data (skeleton (beforeTarget "")), rest ++ chars fs, fun targetUrl => ?_⟩
  have hafter : afterTarget (targetReport targetUrl) = afterTarget (targetReport "") := rfl
  have htemplate : template (targetReport targetUrl) =
      beforeTarget "" ++ (.value targetUrl :: afterTarget (targetReport "")) := by
    rw [← hafter]
    exact List.append_assoc ..
  have hchars : chars (.value targetUrl :: afterTarget (targetReport "")) =
      targetUrl.toList ++ ("</strong>".toList ++ (rest ++ chars fs)) := by
    rw [chars_cons, hfs, chars_append, hrest, List.append_assoc]
    rfl
  unfold generateHtml
  rw [tags_render, htemplate, (fits_beforeTarget "").tagsFrom_append hinert, hchars]

/-- A tag, a comment or a declaration that opens takes the closing tag behind it. -/
lemma tagsFrom_opens {c : Char} (h : opens c = true) (rest : List Char) :
    tagsFrom .data (['<', c] ++ ("</strong>".toList ++ rest)) ≠
      tagsFrom .data ("</strong>".toList ++ rest) := by
  have hclosing : tagsFrom .data "</strong>".toList = [⟨true, "strong".toList, []⟩] ∧
      after .data "</strong>".toList = .data := by decide +kernel
  rw [← List.append_assoc, tagsFrom_append, tagsFrom_append .data "</strong>".toList, hclosing.1,
    hclosing.2]
  have hlost {u : List Char} (hu : tagsFrom .data u = [] ∧ after .data u = .data) :
      tagsFrom .data u ++ tagsFrom (after .data u) rest ≠
        [⟨true, "strong".toList, []⟩] ++ tagsFrom .data rest := by
    rw [hu.1, hu.2]
    intro h
    have hlength := congrArg List.length h
    rw [List.length_append, List.length_append, List.length_singleton] at hlength
    exact absurd hlength (by simp)
  unfold opens at h
  simp only [Bool.or_eq_true, decide_eq_true_eq] at h
  rcases h with ((halpha | rfl) | rfl) | rfl
  · have hstep : step c .tagOpen = (.tag ⟨false, [c.toLower], []⟩ .name, none) := by
      rw [step_tagOpen, if_pos halpha]
    have htag : tagsFrom .data (['<', c] ++ "</strong>".toList) =
        [⟨false, [c.toLower, '<'], "/strong".toList⟩] := by
      change (step c .tagOpen).2.toList ++ tagsFrom (step c .tagOpen).1 "</strong>".toList = _
      rw [hstep]
      rfl
    rw [htag]
    intro h
    cases h
  · exact hlost (by decide +kernel)
  · exact hlost (by decide +kernel)
  · exact hlost (by decide +kernel)

/-- The text is a part of a text of `S`. -/
def PartOf (S : Set String) (t : String) : Prop := ∃ u ∈ S, t.toList <:+: u.toList

/-- Two reports that differ in their texts only, all of them parts of texts of `S`, have the
same tags. -/
def MarkupIndependent (S : Set String) : Prop :=
  ∀ r r' : DatedReport, r.withoutTexts = r'.withoutTexts →
    (∀ t ∈ r.texts ++ r'.texts, PartOf S t) → tags (generateHtml r) = tags (generateHtml r')

lemma inert_of_markupIndependent {S : Set String} (h : MarkupIndependent S) {t : String}
    (ht : t ∈ S) : Inert t.toList := by
  intro c hc hinside
  obtain ⟨before, rest, htags⟩ := exists_tags_targetReport
  have hnil : PartOf S "" := ⟨t, ht, List.nil_infix⟩
  have hpart : PartOf S (String.ofList ['<', c]) := by
    refine ⟨t, ht, ?_⟩
    rw [String.toList_ofList]
    exact hinside
  have hsame := h (targetReport (String.ofList ['<', c])) (targetReport "") rfl
  rw [htags, htags, List.append_cancel_left_eq, String.toList_ofList] at hsame
  refine tagsFrom_opens hc rest (hsame fun u hu => ?_)
  have hu' : u ∈ ["", String.ofList ['<', c], "", "", "", ""] := hu
  simp only [List.mem_cons, List.not_mem_nil, or_false] at hu'
  rcases hu' with rfl | rfl | rfl | rfl | rfl | rfl
  · exact hnil
  · exact hpart
  · exact hnil
  · exact hnil
  · exact hnil
  · exact hnil

/-- The markup is independent of texts, with all their parts, exactly if they open nothing. -/
theorem markup_independent_iff (S : Set String) :
    MarkupIndependent S ↔ ∀ t ∈ S, Inert t.toList := by
  constructor
  · intro h t ht
    exact inert_of_markupIndependent h ht
  · intro hS r r' hshape htexts
    have hinert : ∀ t ∈ r.texts ++ r'.texts, Inert t.toList := fun t ht => by
      obtain ⟨u, hu, hpart⟩ := htexts t ht
      exact (hS u hu).of_part hpart
    rw [List.forall_mem_append] at hinert
    rw [tags_generateHtml hinert.1, tags_generateHtml hinert.2, hshape]

/-- The sample report up to the codes of its leaked fields. -/
def sampleStart : List Fragment :=
  beforeTarget (sampleReport "").scanName ++ [.value (sampleReport "").targetUrl] ++
    summaryHtml (sampleReport "") ++ noIssues (sampleReport "").issues ++ [.markup "\n  "] ++
    (issueStart 1 ++ issueNumber 1 ++ badge (sampleIssue "").severity.value ++
      issueFacts (sampleIssue ""))

def sampleEnd : List Fragment :=
  [.markup "</td></tr>\n              <tr><td>Foreign IDs</td><td>"] ++ codes [] ++
    issueEnd (sampleIssue "") ++ bodyEnd

lemma fits_sampleStart : Fits .data sampleStart .data := by
  have hspace : Fits .data [.markup "\n  "] .data := Fits.markup .data rfl (Fits.nil _)
  have htarget := (fits_beforeTarget (sampleReport "").scanName).append
    (fits_target (sampleReport ""))
  have h := ((htarget.append (fits_noIssues (sampleReport "").issues)).append hspace).append
    (fits_beforeCodes 1 (sampleIssue ""))
  unfold sampleStart
  rw [List.append_assoc (beforeTarget _)]
  exact h

lemma allInert_sampleStart : AllInert sampleStart := by
  have hname : Inert (sampleReport "").scanName.toList := inert_of_not_mem (by decide)
  have htarget : AllInert [.value (sampleReport "").targetUrl] :=
    (allInert_value _).mpr ⟨inert_of_not_mem (by decide), allInert_nil⟩
  have hid : Inert (sampleReport "").reportId.toList := inert_of_not_mem (by decide)
  have hspace : AllInert [.markup "\n  "] := (allInert_markup _).mpr allInert_nil
  have hall : ((sampleIssue "").texts.all fun t => t.toList.all (· != '<')) = true := by
    decide +kernel
  have htexts : ∀ t ∈ (sampleIssue "").texts, Inert t.toList := fun t ht => by
    refine inert_of_not_mem fun hmem => ?_
    have hchars := List.all_eq_true.mp (List.all_eq_true.mp hall t ht) '<' hmem
    cases hchars
  have hissue := (((allInert_issueStart 1).append (allInert_issueNumber 1)).append
    (allInert_badge (sampleIssue "").severity)).append (allInert_issueFacts htexts)
  exact (((((allInert_beforeTarget hname).append htarget).append
    (allInert_summaryHtml hid)).append (allInert_noIssues _)).append hspace).append hissue

lemma template_sampleReport (field : String) :
    template (sampleReport field) = sampleStart ++ (codes [field] ++ sampleEnd) := by
  have hsummary : summaryHtml (sampleReport field) = summaryHtml (sampleReport "") := rfl
  have hfacts : issueFacts (sampleIssue field) = issueFacts (sampleIssue "") := rfl
  have hend : issueEnd (sampleIssue field) = issueEnd (sampleIssue "") := rfl
  have hissues : issuesHtml (sampleReport field).issues = issueHtml 1 (sampleIssue field) :=
    List.append_nil _
  have hcodes : codes ((sampleIssue field).diff.leakedFields.take 10) = codes [field] := rfl
  unfold template afterTarget
  rw [hsummary, hissues]
  unfold issueHtml sampleStart sampleEnd
  rw [hfacts, hend, hcodes]
  simp only [List.append_assoc]
  rfl

lemma tags_sampleReport (field : String) :
    tags (generateHtml (sampleReport field)) = tagsFrom .data (skeleton sampleStart) ++
      tagsFrom .data (chars (codes [field]) ++ chars sampleEnd) := by
  unfold generateHtml
  rw [tags_render, template_sampleReport, fits_sampleStart.tagsFrom_append allInert_sampleStart,
    chars_append]

/-- A field with the name `<b>` brings a tag into the report. -/
theorem tags_of_field_name :
    (sampleReport "<b>").withoutTexts = (sampleReport "email").withoutTexts ∧
      tags (generateHtml (sampleReport "<b>")) ≠ tags (generateHtml (sampleReport "email")) := by
  have hbold : (tagsFrom .data (chars (codes ["<b>"]))).length = 3 ∧
      after .data (chars (codes ["<b>"])) = .data := by decide +kernel
  have hplain : (tagsFrom .data (chars (codes ["email"]))).length = 2 ∧
      after .data (chars (codes ["email"])) = .data := by decide +kernel
  refine ⟨rfl, fun h => ?_⟩
  rw [tags_sampleReport, tags_sampleReport, List.append_cancel_left_eq, Html.tagsFrom_append,
    Html.tagsFrom_append, hbold.2, hplain.2] at h
  have hlength := congrArg List.length h
  rw [List.length_append, List.length_append, hbold.1, hplain.1] at hlength
  omega

end dependence

end SecurityScanner

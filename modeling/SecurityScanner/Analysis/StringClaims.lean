import SecurityScanner.Analysis.ReportTotality
import SecurityScanner.Lib.Refinement

/-!
# Reports on claims that are strings

`models.py` declares the user and the role of a response as strings, a token can claim any value
of JSON. On strings the collector of a report does what the collector of the declared types does:
its state is that of the other one on the responses as the texts of a report show them.
-/

namespace SecurityScanner.ReportService

open Python Fallible

/-- The user and the role of the response are strings. -/
structure StringClaims (r : ScanResponse) : Prop where
  userId : ∃ s, r.userId = .str s
  role : ∃ s, r.role = .str s

/-- `str` of a string is the string. -/
def Codec.KeepsStrings (lib : Codec) : Prop := ∀ s, lib.str (.str s) = s

section pairs

variable {lib : Codec} {I : Interpreter} {a b : ScanResponse}

lemma StringClaims.userId_shown {r : ScanResponse} (h : StringClaims r) (hlib : lib.KeepsStrings) :
    ∃ s, r.userId = .str s ∧ (r.shown lib).userId = some s := by
  obtain ⟨s, hs⟩ := h.userId
  have hshown : (r.shown lib).userId = some (lib.str r.userId) := rfl
  exact ⟨s, hs, by rw [hshown, hs, hlib]⟩

lemma StringClaims.role_shown {r : ScanResponse} (h : StringClaims r) (hlib : lib.KeepsStrings) :
    ∃ s, r.role = .str s ∧ (r.shown lib).role = some s := by
  obtain ⟨s, hs⟩ := h.role
  have hshown : (r.shown lib).role = some (lib.str r.role) := rfl
  exact ⟨s, hs, by rw [hshown, hs, hlib]⟩

lemma sameUser_eq (hlib : lib.KeepsStrings) (ha : StringClaims a) (hb : StringClaims b) :
    sameUser a b = decide ((a.shown lib).userId = (b.shown lib).userId) := by
  obtain ⟨s, hs, hshown⟩ := ha.userId_shown hlib
  obtain ⟨t, ht, hshown'⟩ := hb.userId_shown hlib
  unfold sameUser
  rw [hs, ht, hshown, hshown', pyEq_str]
  simp [eq_comm]

lemma sameRole_eq (hlib : lib.KeepsStrings) (ha : StringClaims a) (hb : StringClaims b) :
    a.role.pyEq b.role = decide ((a.shown lib).role = (b.shown lib).role) := by
  obtain ⟨s, hs, hshown⟩ := ha.role_shown hlib
  obtain ⟨t, ht, hshown'⟩ := hb.role_shown hlib
  rw [hs, ht, hshown, hshown', pyEq_str]
  simp [eq_comm]

lemma lowerable_of_strings {r : ScanResponse} (h : StringClaims r) : Lowerable r.role :=
  fun _ => h.role

lemma lowered_eq {r : ScanResponse} (hlib : lib.KeepsStrings) (h : StringClaims r) :
    lowered I r.role = I.lower ((r.shown lib).role.getD "") := by
  obtain ⟨s, hs, hshown⟩ := h.role_shown hlib
  rw [hs, hshown]
  rfl

lemma foreignIds_eq (hlib : lib.KeepsStrings) (ha : StringClaims a) (hb : StringClaims b) :
    foreignIds I a b = SecurityScanner.foreignIds I (a.shown lib) (b.shown lib) := by
  have htenant : differentTenant (a.shown lib) (b.shown lib) = false := rfl
  unfold foreignIds SecurityScanner.foreignIds
  rw [sameUser_eq hlib ha hb, htenant, Bool.false_or]
  simp only [ne_eq, decide_not]
  rfl

lemma anomalyReason_eq (hlib : lib.KeepsStrings) (ha : StringClaims a) (hb : StringClaims b)
    (t : Float) : anomalyReason lib I a b t =
      SecurityScanner.anomalyReason I (a.shown lib) (b.shown lib) t := by
  unfold anomalyReason SecurityScanner.anomalyReason SameData SharedIds OnlyChallenger
  rw [sameUser_eq hlib ha hb, foreignIds_eq hlib ha hb]
  simp only [Bool.not_eq_true', decide_eq_false_iff_not]
  rfl

/-- The result of a comparison is that of the responses as a report shows them. -/
lemma compareResponses_eq (hlib : lib.KeepsStrings) (ha : StringClaims a) (hb : StringClaims b)
    (t : Float) : (compareResponses lib I a b t).result =
      SecurityScanner.compareResponses I (a.shown lib) (b.shown lib) t := by
  unfold compareResponses
  dsimp only
  rw [anomalyReason_eq hlib ha hb, foreignIds_eq hlib ha hb]
  rfl

lemma checkBola_eq (hlib : lib.KeepsStrings) (ha : StringClaims a) (hb : StringClaims b)
    (t : Float) : checkBola lib I (compareResponses lib I a b t) =
      SecurityScanner.checkBola I (compareResponses lib I a b t).result := by
  unfold checkBola SecurityScanner.checkBola
  have hA : (compareResponses lib I a b t).result.responseA = a.shown lib := rfl
  have hB : (compareResponses lib I a b t).result.responseB = b.shown lib := rfl
  have huser : sameUser (compareResponses lib I a b t).responseA
      (compareResponses lib I a b t).responseB = sameUser a b := rfl
  dsimp only
  rw [hA, hB, huser, sameUser_eq hlib ha hb]
  simp only [Bool.not_eq_true', decide_eq_false_iff_not]
  rfl

lemma checkPrivilegeEscalation_eq (hlib : lib.KeepsStrings) (ha : StringClaims a)
    (hb : StringClaims b) (t : Float) :
    checkPrivilegeEscalation lib I (compareResponses lib I a b t) =
      .ok (SecurityScanner.checkPrivilegeEscalation I (compareResponses lib I a b t).result) := by
  have hA : (compareResponses lib I a b t).responseA = a := rfl
  have hB : (compareResponses lib I a b t).responseB = b := rfl
  unfold checkPrivilegeEscalation SecurityScanner.checkPrivilegeEscalation
  dsimp only
  rw [hA, hB, lowerRole_eq (lowerable_of_strings ha), lowerRole_eq (lowerable_of_strings hb),
    ok_bind, ok_bind, lowered_eq hlib ha, lowered_eq hlib hb]
  split_ifs with h h' h'
  · rfl
  · exact absurd h h'
  · exact absurd h' h
  · rfl

/-- The issues of a pair are those of its result. -/
lemma classifyDiff_eq (hlib : lib.KeepsStrings) (ha : StringClaims a) (hb : StringClaims b)
    (t : Float) : classifyDiff lib I (compareResponses lib I a b t) =
      .ok (SecurityScanner.classifyDiff I (compareResponses lib I a b t).result) := by
  unfold classifyDiff SecurityScanner.classifyDiff
  by_cases hanomaly : (compareResponses lib I a b t).result.isAnomaly = true
  · rw [if_pos hanomaly, if_pos hanomaly, checkPrivilegeEscalation_eq hlib ha hb, ok_bind,
      checkBola_eq hlib ha hb]
    rfl
  · rw [if_neg hanomaly, if_neg hanomaly]
    rfl

end pairs

section collectors

variable {lib : Codec} {I : Interpreter} {cfg : CollectorSettings}

/-- `_build_pairs` of the declared types, in terms of its references and challengers. -/
lemma buildPairs_captured (responses : List CapturedResponse) :
    let cs := challenges (fun r => I.lower (r.role.getD "") = I.lower cfg.referenceRole) responses
    SecurityScanner.buildPairs I cfg responses =
      (cs.1.flatMap fun ref => cs.2.map fun other => (ref, other)).filter fun p =>
        p.1.userId ≠ p.2.userId ∨ p.1.role ≠ p.2.role := by
  dsimp only
  unfold SecurityScanner.buildPairs challenges
  dsimp only
  cases hrefs : responses.filter fun r =>
      decide (I.lower (r.role.getD "") = I.lower cfg.referenceRole) with
  | nil =>
    cases responses with
    | nil => rfl
    | cons first rest =>
      cases rest with
      | nil => rfl
      | cons second rest => rfl
  | cons ref refs =>
    have hothers : responses.filter (· ∉ ref :: refs) = responses.filter fun r =>
        !decide (I.lower (r.role.getD "") = I.lower cfg.referenceRole) := by
      apply List.filter_congr
      intro r hr
      rw [← hrefs]
      simp [hr]
    rw [hothers, if_neg (List.cons_ne_nil ref refs)]

/-- The pairs of an endpoint are those of its responses as a report shows them. -/
lemma buildPairs_shown (hlib : lib.KeepsStrings) {responses : List ScanResponse}
    (h : ∀ r ∈ responses, StringClaims r) :
    ∃ pairs, buildPairs I cfg responses = .ok pairs ∧
      SecurityScanner.buildPairs I cfg (responses.map (ScanResponse.shown lib)) =
        pairs.map (Prod.map (ScanResponse.shown lib) (ScanResponse.shown lib)) := by
  refine ⟨_, buildPairs_eq fun r hr => lowerable_of_strings (h r hr), ?_⟩
  have hrole : challenges ((fun r => decide (I.lower (r.role.getD "") = I.lower cfg.referenceRole)) ∘
      ScanResponse.shown lib) responses =
      challenges (fun r => lowered I r.role = I.lower cfg.referenceRole) responses := by
    apply challenges_congr
    intro r hr
    rw [Function.comp_apply, lowered_eq hlib (h r hr)]
  rw [buildPairs_captured, challenges_map, hrole]
  dsimp only
  generalize hcs : challenges (fun r => decide (lowered I r.role = I.lower cfg.referenceRole))
    responses = cs
  have hproduct : ((cs.1.map (ScanResponse.shown lib)).flatMap fun ref =>
      (cs.2.map (ScanResponse.shown lib)).map fun other => (ref, other)) =
      (cs.1.flatMap fun ref => cs.2.map fun other => (ref, other)).map
        (Prod.map (ScanResponse.shown lib) (ScanResponse.shown lib)) := by
    simp [List.flatMap_map, List.map_flatMap, Function.comp_def]
  rw [hproduct, List.filter_map]
  unfold pairings
  congr 1
  apply List.filter_congr
  intro p hp
  obtain ⟨ref, href, hp⟩ := List.mem_flatMap.mp hp
  obtain ⟨other, hother, rfl⟩ := List.mem_map.mp hp
  rw [← hcs] at href hother
  have hr := h ref (mem_challenges (Or.inl href))
  have ho := h other (mem_challenges (Or.inr hother))
  dsimp only [Function.comp_apply, Prod.map]
  rw [sameUser_eq hlib hr ho, sameRole_eq hlib hr ho, Bool.decide_or, decide_not, decide_not]

/-- The second collector is the first one as a report shows its responses. -/
structure Shows (lib : Codec) (s : Collector) (s' : SecurityScanner.Collector) : Prop where
  buffer : s'.buffer.items = s.buffer.items.map fun g => (g.1, g.2.map (ScanResponse.shown lib))
  diffs : s'.diffs = s.diffs.map Diff.result
  issues : s'.issues = s.issues
  requestCount : s'.requestCount = s.requestCount

lemma shows_onResult {s : Collector} {s' : SecurityScanner.Collector} (h : Shows lib s s')
    (r : ScanResponse) : Shows lib (s.onResult r) (s'.onResult (r.shown lib)) := by
  refine ⟨?_, h.diffs, h.issues, congrArg (· + 1) h.requestCount⟩
  have hget : (s'.buffer.get? (endpointKey r)).getD [] =
      ((s.buffer.get? (endpointKey r)).getD []).map (ScanResponse.shown lib) := by
    unfold Dict.get?
    rw [h.buffer, lookup_map]
    cases s.buffer.items.lookup (endpointKey r) <;> rfl
  have hkey : SecurityScanner.endpointKey (r.shown lib) = endpointKey r := rfl
  change Dict.setItems _ _ s'.buffer.items = (Dict.setItems _ _ s.buffer.items).map _
  rw [hkey, hget, h.buffer, ← setItems_map, List.map_append]
  rfl

lemma shows_foldl (responses : List ScanResponse) {s : Collector} {s' : SecurityScanner.Collector}
    (h : Shows lib s s') : Shows lib (responses.foldl Collector.onResult s)
      ((responses.map (ScanResponse.shown lib)).foldl SecurityScanner.Collector.onResult s') := by
  induction responses generalizing s s' with
  | nil => exact h
  | cons r responses ih => exact ih (shows_onResult h r)

/-- The collectors with the issues found so far. -/
def ShowsFound (lib : Codec) (s : Collector × List Issue)
    (s' : SecurityScanner.Collector × List Issue) : Prop :=
  Shows lib s.1 s'.1 ∧ s'.2 = s.2

/-- The computation returns, and its value shows as the second one. -/
abbrev ReturnsShown {α β : Type} (R : α → β → Prop) (x : Except PyError α) (b : β) : Prop :=
  Matches (fun _ => False) R x (.ok b)

variable (I cfg) in
/-- `compare_responses` with the threshold of the collector. -/
abbrev comparison (a b : CapturedResponse) : DiffResult :=
  SecurityScanner.compareResponses I a b cfg.similarityThreshold

lemma comparePair_shown (hlib : lib.KeepsStrings) {s : Collector × List Issue}
    {s' : SecurityScanner.Collector × List Issue} (h : ShowsFound lib s s')
    {p : ScanResponse × ScanResponse} (h1 : StringClaims p.1) (h2 : StringClaims p.2) :
    ReturnsShown (ShowsFound lib) (Collector.comparePair lib I cfg s p)
      (SecurityScanner.Collector.comparePairBy I (comparison I cfg) s'
        (Prod.map (ScanResponse.shown lib) (ScanResponse.shown lib) p)) := by
  obtain ⟨hs, hissues⟩ := h
  have hresult := compareResponses_eq (I := I) hlib h1 h2 cfg.similarityThreshold
  unfold Collector.comparePair SecurityScanner.Collector.comparePairBy
  dsimp only [Prod.map]
  rw [classifyDiff_eq hlib h1 h2, hresult]
  have hdiffs : s'.1.diffs ++ [comparison I cfg (p.1.shown lib) (p.2.shown lib)] =
      (s.1.diffs ++ [compareResponses lib I p.1 p.2 cfg.similarityThreshold]).map Diff.result := by
    rw [List.map_append, hs.diffs, List.map_singleton, hresult]
  split_ifs with hanomaly
  · exact ⟨⟨hs.buffer, hdiffs, hs.issues, hs.requestCount⟩, by rw [hissues]⟩
  · exact ⟨⟨hs.buffer, hdiffs, hs.issues, hs.requestCount⟩, by rw [hissues, List.append_nil]⟩

lemma processEndpoint_shown (hlib : lib.KeepsStrings) {s : Collector × List Issue}
    {s' : SecurityScanner.Collector × List Issue} (h : ShowsFound lib s s')
    {responses : List ScanResponse} (hclaims : ∀ r ∈ responses, StringClaims r) :
    ReturnsShown (ShowsFound lib) (Collector.processEndpoint lib I cfg s responses)
      (SecurityScanner.Collector.processEndpointBy I cfg (comparison I cfg) s'
        (responses.map (ScanResponse.shown lib))) := by
  unfold Collector.processEndpoint SecurityScanner.Collector.processEndpointBy
  rw [List.length_map]
  by_cases hlen : responses.length < 2
  · rw [if_pos hlen, if_pos hlen]
    exact h
  · obtain ⟨pairs, hpairs, hshown⟩ := @buildPairs_shown lib I cfg hlib responses hclaims
    rw [if_neg hlen, if_neg hlen, hpairs, ok_bind, hshown]
    refine matches_foldl _ (fun p hp s s' hs => ?_) h
    obtain ⟨h1, h2⟩ := mem_buildPairs hpairs hp
    exact comparePair_shown hlib hs (hclaims _ h1) (hclaims _ h2)

lemma processBuffered_shown (hlib : lib.KeepsStrings) {s : Collector}
    {s' : SecurityScanner.Collector} (h : Shows lib s s')
    (hclaims : ∀ group ∈ s.buffer.values, ∀ r ∈ group, StringClaims r) :
    ReturnsShown (Shows lib) (s.processBuffered lib I cfg) (s'.processBuffered I cfg).2 := by
  have hvalues : s'.buffer.values = s.buffer.values.map (List.map (ScanResponse.shown lib)) := by
    unfold Dict.values
    rw [h.buffer, List.map_map, List.map_map]
    rfl
  have hloop : ReturnsShown (ShowsFound lib)
      (s.buffer.values.foldlM (Collector.processEndpoint lib I cfg) (s, []))
      (s'.buffer.values.foldl
        (SecurityScanner.Collector.processEndpointBy I cfg (comparison I cfg)) (s', [])) := by
    have hstart : ShowsFound lib (s, []) (s', []) := ⟨h, rfl⟩
    rw [hvalues]
    refine matches_foldl _ (fun group hgroup t t' ht => ?_) hstart
    exact processEndpoint_shown hlib ht (hclaims group hgroup)
  have hrest : ∀ t t', ShowsFound lib t t' → ReturnsShown (Shows lib)
      (pure { t.1 with issues := t.2 }) { t'.1 with issues := t'.2 } :=
    fun t t' ht => ⟨ht.1.buffer, ht.1.diffs, ht.2, ht.1.requestCount⟩
  exact hloop.bind hrest

/-- The report is that of the other collector. -/
lemma flush_shown (hlib : lib.KeepsStrings) {s : Collector} {s' : SecurityScanner.Collector}
    (h : Shows lib s s') (hclaims : ∀ group ∈ s.buffer.values, ∀ r ∈ group, StringClaims r) :
    s.flush lib I cfg = .ok (s'.flush I cfg).1 := by
  have hreport : ∀ t t', Shows lib t t' → ReturnsShown Eq
      (pure (buildReport t.issues cfg.targetUrl cfg.scanName t.buffer.keys.length t.requestCount
        { similarityThreshold := cfg.similarityThreshold
          referenceRole := cfg.referenceRole
          totalDiffs := t.diffs.length
          anomalyDiffs := t.diffs.countP (·.result.isAnomaly) }))
      (buildReport t'.issues cfg.targetUrl cfg.scanName t'.buffer.keys.length t'.requestCount
        { similarityThreshold := cfg.similarityThreshold
          referenceRole := cfg.referenceRole
          totalDiffs := t'.diffs.length
          anomalyDiffs := t'.diffs.countP (·.isAnomaly) }) := by
    intro t t' ht
    have hkeys : t'.buffer.keys.length = t.buffer.keys.length := by
      unfold Dict.keys
      rw [ht.buffer, List.length_map, List.length_map, List.length_map]
    rw [ht.issues, ht.diffs, ht.requestCount, hkeys, List.length_map, List.countP_map]
    exact matches_pure rfl
  apply Matches.eq
  unfold Collector.flush SecurityScanner.Collector.flush
  dsimp only
  rw [h.issues]
  split_ifs with hissues
  · exact (processBuffered_shown hlib h hclaims).bind hreport
  · exact hreport s s' h

/-- The report on responses whose claims are strings is the report of the collector of
`result_collector.py` on what the first one shows of them. -/
theorem generateReport_of_strings (hlib : lib.KeepsStrings) {target name : String}
    {tasks : List ScannedTask} {responses : List ScanResponse}
    (hresponses : (answeredTasks tasks).mapM (scanResponse lib) = .ok responses)
    (hclaims : ∀ r ∈ responses, StringClaims r) :
    generateReport lib I target name tasks =
      .ok (((responses.map (ScanResponse.shown lib)).foldl
        SecurityScanner.Collector.onResult {}).flush I (reportSettings target name)).1 := by
  have hempty : Shows lib {} {} := ⟨rfl, rfl, rfl, rfl⟩
  have hfeed : feed lib tasks = .ok (responses.foldl Collector.onResult {}) := by
    unfold feed
    rw [hresponses]
    rfl
  unfold generateReport
  rw [hfeed, ok_bind]
  refine flush_shown hlib (shows_foldl responses hempty) fun group hgroup r hr => ?_
  have hbuffer : (responses.foldl Collector.onResult {}).buffer = groupBy endpointKey responses := by
    rw [foldl_onResult]
    rfl
  rw [hbuffer] at hgroup
  obtain ⟨x, hx, rfl⟩ := mem_values_groupBy.mp hgroup
  exact hclaims r (List.mem_filter.mp hr).1

end collectors

end SecurityScanner.ReportService

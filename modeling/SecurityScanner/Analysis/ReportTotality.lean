import SecurityScanner.Analysis.ReportService

/-!
# When a report is built

Two operations of the pipeline ask more of the data than that it is JSON: `replace` on the
`Authorization` header and `lower` on a role. The second is reached for the roles of the
endpoints that have two responses or more.
-/

namespace SecurityScanner.ReportService

open Python Fallible

variable (lib : Codec)

section conditions

/-- The `Authorization` header, if there is one, is a text. -/
def HeaderIsText (task : ScannedTask) : Prop :=
  ∀ v ∈ (task.headers.getD []).lookup "Authorization", ∃ s, v = .str s

/-- The role is a text, or one of the values that `or ""` replaces. -/
def Lowerable (role : Json) : Prop := role.truthy = true → ∃ s, role = .str s

/-- The token of a task whose header is a text. -/
def tokenOf (task : ScannedTask) : Option String :=
  match (task.headers.getD []).lookup "Authorization" with
  | some (.str s) => some (withoutBearer s)
  | _ => none

/-- The role that the token of a task claims. -/
def claimedRole (t : AnsweredTask) : Json := (identity lib (tokenOf t.task)).1

/-- The key of the group that a task's response comes into. -/
def taskKey (t : AnsweredTask) : String := t.task.method ++ "::" ++ t.task.url

/-- The response of a task whose header is a text. -/
def responseOf (t : AnsweredTask) : ScanResponse :=
  { endpoint := t.task.url
    method := t.task.method
    url := t.task.url
    statusCode := t.statusCode
    body := t.responseBody
    bodyJson := parseBody lib t.responseBody
    userId := (identity lib (tokenOf t.task)).2
    role := claimedRole lib t
    token := tokenOf t.task
    requestHeaders := t.task.headers.getD []
    requestBody := requestBody lib t.task.payload }

end conditions

section responses

variable {lib}

lemma bearerToken_eq {task : ScannedTask} (h : HeaderIsText task) :
    bearerToken task = .ok (tokenOf task) := by
  unfold bearerToken tokenOf
  cases hv : (task.headers.getD []).lookup "Authorization" with
  | none => rfl
  | some v =>
    obtain ⟨s, rfl⟩ := h v hv
    rfl

lemma returns_bearerToken {task : ScannedTask} : Returns (bearerToken task) ↔ HeaderIsText task := by
  constructor
  · intro h v hv
    unfold bearerToken at h
    rw [hv] at h
    cases v with
    | str s => exact ⟨s, rfl⟩
    | null => simp at h
    | bool b => simp at h
    | int n => simp at h
    | float q => simp at h
    | arr xs => simp at h
    | obj fields => simp at h
  · intro h
    exact ⟨_, bearerToken_eq h⟩

lemma scanResponse_eq {t : AnsweredTask} (h : HeaderIsText t.task) :
    scanResponse lib t = .ok (responseOf lib t) := by
  unfold scanResponse
  rw [bearerToken_eq h]
  rfl

lemma returns_scanResponse {t : AnsweredTask} :
    Returns (scanResponse lib t) ↔ HeaderIsText t.task := by
  unfold scanResponse
  rw [returns_bind_of_forall fun _ => returns_pure _, returns_bearerToken]

lemma feed_eq {tasks : List ScannedTask} (h : ∀ t ∈ answeredTasks tasks, HeaderIsText t.task) :
    feed lib tasks =
      .ok (((answeredTasks tasks).map (responseOf lib)).foldl Collector.onResult {}) := by
  unfold feed
  rw [mapM_eq_ok fun t ht => scanResponse_eq (h t ht)]
  rfl

lemma returns_feed {tasks : List ScannedTask} :
    Returns (feed lib tasks) ↔ ∀ t ∈ answeredTasks tasks, HeaderIsText t.task := by
  unfold feed
  rw [returns_bind_of_forall fun _ => returns_pure _, returns_mapM]
  simp only [returns_scanResponse]

/-- The collector holds the responses in the groups of their endpoints. -/
lemma foldl_onResult (responses : List ScanResponse) (s : Collector) :
    responses.foldl Collector.onResult s =
      { s with
        buffer := responses.foldl (fun d r => d.append (endpointKey r) r) s.buffer
        requestCount := s.requestCount + responses.length } := by
  induction responses generalizing s with
  | nil => rfl
  | cons r responses ih =>
    rw [List.foldl_cons, ih]
    simp only [Collector.onResult, List.foldl_cons, List.length_cons]
    rw [Nat.add_assoc, Nat.add_comm 1]

end responses

section analysis

variable {lib} {I : Interpreter} {cfg : CollectorSettings}

lemma returns_lowerRole {role : Json} : Returns (lowerRole I role) ↔ Lowerable role := by
  unfold lowerRole Lowerable
  by_cases h : role.truthy = true
  · rw [if_pos h]
    constructor
    · intro hr _
      cases role with
      | str s => exact ⟨s, rfl⟩
      | null => simp at hr
      | bool b => simp at hr
      | int n => simp at hr
      | float q => simp at hr
      | arr xs => simp at hr
      | obj fields => simp at hr
    · intro hs
      obtain ⟨s, rfl⟩ := hs h
      exact returns_pure _
  · simp [h]

lemma returns_withRole {select : String → Bool} {responses : List ScanResponse} :
    Returns (withRole I select responses) ↔ ∀ r ∈ responses, Lowerable r.role := by
  unfold withRole
  rw [returns_bind_of_forall fun _ => returns_pure _, returns_mapM]
  simp only [returns_bind_of_forall fun _ => returns_pure _, returns_lowerRole]

lemma returns_buildPairs {responses : List ScanResponse} :
    Returns (buildPairs I cfg responses) ↔ ∀ r ∈ responses, Lowerable r.role := by
  unfold buildPairs
  rw [returns_bind_of_forall, returns_withRole]
  intro refs
  split <;> exact returns_pure _

lemma mem_pairings {refs others : List ScanResponse} {p : ScanResponse × ScanResponse}
    (h : p ∈ pairings refs others) : p.1 ∈ refs ∧ p.2 ∈ others := by
  unfold pairings at h
  simp only [List.mem_filter, List.mem_flatMap, List.mem_map] at h
  obtain ⟨⟨ref, href, other, hother, rfl⟩, -⟩ := h
  exact ⟨href, hother⟩

lemma pyEq_str (s : String) (v : Json) : Json.pyEq (.str s) v = decide (v = .str s) := by
  cases v <;> simp [Json.pyEq, leafEq, number?, eq_comm]

/-- The role in lower case, where it can be lowered. -/
def lowered (I : Interpreter) : Json → String
  | .str s => I.lower s
  | _ => I.lower ""

lemma lowerRole_eq {role : Json} (h : Lowerable role) : lowerRole I role = .ok (lowered I role) := by
  unfold lowerRole
  by_cases htruthy : role.truthy = true
  · obtain ⟨s, rfl⟩ := h htruthy
    rw [if_pos htruthy]
    rfl
  · rw [if_neg htruthy]
    cases role with
    | str s =>
      have hs : s = "" := by simpa [Json.truthy] using htruthy
      subst hs
      rfl
    | null => rfl
    | bool b => rfl
    | int n => rfl
    | float q => rfl
    | arr xs => rfl
    | obj fields => rfl

lemma withRole_eq {select : String → Bool} {responses : List ScanResponse}
    (h : ∀ r ∈ responses, Lowerable r.role) :
    withRole I select responses = .ok (responses.filter fun r => select (lowered I r.role)) := by
  have hmap : responses.mapM (fun r => do pure (r, ← lowerRole I r.role)) =
      (.ok (responses.map fun r => (r, lowered I r.role)) :
        Except PyError (List (ScanResponse × String))) := by
    apply mapM_eq_ok
    intro r hr
    rw [lowerRole_eq (h r hr)]
    rfl
  unfold withRole
  rw [hmap, ok_bind, List.filter_map, List.map_map]
  have hfst : Prod.fst ∘ (fun r : ScanResponse => (r, lowered I r.role)) = id := rfl
  rw [hfst, List.map_id]
  rfl

/-- The references and their challengers; without a reference the first element is one. -/
def challenges {α : Type} (isReference : α → Bool) (xs : List α) : List α × List α :=
  let refs := xs.filter isReference
  if refs = [] then (xs.head?.toList, xs.tail) else (refs, xs.filter (!isReference ·))

lemma mem_challenges {α : Type} {isReference : α → Bool} {xs : List α} {x : α}
    (h : x ∈ (challenges isReference xs).1 ∨ x ∈ (challenges isReference xs).2) : x ∈ xs := by
  unfold challenges at h
  dsimp only at h
  split at h
  · rcases h with h | h
    · exact List.mem_of_mem_head? (by simpa using h)
    · exact List.mem_of_mem_tail h
  · rcases h with h | h
    · exact (List.mem_filter.mp h).1
    · exact (List.mem_filter.mp h).1

lemma challenges_map {α β : Type} (f : α → β) (isReference : β → Bool) (xs : List α) :
    challenges isReference (xs.map f) =
      ((challenges (isReference ∘ f) xs).1.map f, (challenges (isReference ∘ f) xs).2.map f) := by
  unfold challenges
  dsimp only
  rw [List.filter_map, List.filter_map]
  by_cases h : xs.filter (isReference ∘ f) = []
  · rw [if_pos h, if_pos (by simp [h])]
    cases xs <;> rfl
  · rw [if_neg h, if_neg (by simpa using h)]
    rfl

lemma challenges_congr {α : Type} {p q : α → Bool} {xs : List α} (h : ∀ x ∈ xs, p x = q x) :
    challenges p xs = challenges q xs := by
  unfold challenges
  rw [List.filter_congr h]
  have hneg : xs.filter (!p ·) = xs.filter (!q ·) := by
    apply List.filter_congr
    intro x hx
    rw [h x hx]
  rw [hneg]

/-- `_build_pairs` where all roles can be lowered. -/
lemma buildPairs_eq {responses : List ScanResponse} (h : ∀ r ∈ responses, Lowerable r.role) :
    let cs := challenges (fun r => lowered I r.role = I.lower cfg.referenceRole) responses
    buildPairs I cfg responses = .ok (pairings cs.1 cs.2) := by
  dsimp only
  unfold buildPairs challenges
  rw [withRole_eq h, ok_bind]
  dsimp only
  cases hrefs : responses.filter fun r =>
      decide (lowered I r.role = I.lower cfg.referenceRole) with
  | nil =>
    cases responses with
    | nil => rfl
    | cons first rest =>
      cases rest with
      | nil => rfl
      | cons second rest => rfl
  | cons ref refs =>
    have hothers : responses.filter (· ∉ ref :: refs) = responses.filter fun r =>
        !decide (lowered I r.role = I.lower cfg.referenceRole) := by
      apply List.filter_congr
      intro r hr
      rw [← hrefs]
      simp [hr]
    rw [hothers, if_neg (List.cons_ne_nil ref refs)]
    rfl

/-- Pairs are made of the responses of the endpoint. -/
lemma mem_buildPairs {responses : List ScanResponse} {pairs : List (ScanResponse × ScanResponse)}
    (h : buildPairs I cfg responses = .ok pairs) {p : ScanResponse × ScanResponse} (hp : p ∈ pairs) :
    p.1 ∈ responses ∧ p.2 ∈ responses := by
  rw [buildPairs_eq (returns_buildPairs.mp ⟨pairs, h⟩)] at h
  obtain rfl := Except.ok.inj h
  obtain ⟨h1, h2⟩ := mem_pairings hp
  exact ⟨mem_challenges (Or.inl h1), mem_challenges (Or.inr h2)⟩

lemma returns_classifyDiff {diff : Diff} (h1 : Lowerable diff.responseA.role)
    (h2 : Lowerable diff.responseB.role) : Returns (classifyDiff lib I diff) := by
  unfold classifyDiff
  split
  · rw [returns_bind_of_forall fun _ => returns_pure _]
    unfold checkPrivilegeEscalation
    dsimp only
    rw [lowerRole_eq h1, lowerRole_eq h2, ok_bind, ok_bind]
    split <;> exact returns_pure _
  · exact returns_pure _

lemma returns_comparePair {s : Collector × List Issue} {p : ScanResponse × ScanResponse}
    (h1 : Lowerable p.1.role) (h2 : Lowerable p.2.role) :
    Returns (Collector.comparePair lib I cfg s p) := by
  unfold Collector.comparePair
  dsimp only
  split
  · rw [returns_bind_of_forall fun _ => returns_pure _]
    exact returns_classifyDiff h1 h2
  · exact returns_pure _

/-- An endpoint is processed unless it has two responses and a role that is no text. -/
lemma returns_processEndpoint (s : Collector × List Issue) (responses : List ScanResponse) :
    Returns (Collector.processEndpoint lib I cfg s responses) ↔
      (2 ≤ responses.length → ∀ r ∈ responses, Lowerable r.role) := by
  unfold Collector.processEndpoint
  by_cases hlen : responses.length < 2
  · rw [if_pos hlen]
    have hnot : ¬2 ≤ responses.length := by omega
    simp [hnot]
  · rw [if_neg hlen, returns_bind]
    have hle : 2 ≤ responses.length := by omega
    simp only [hle, true_implies]
    constructor
    · rintro ⟨pairs, hpairs, -⟩
      exact returns_buildPairs.mp ⟨pairs, hpairs⟩
    · intro h
      obtain ⟨pairs, hpairs⟩ : Returns (buildPairs I cfg responses) := returns_buildPairs.mpr h
      refine ⟨pairs, hpairs, returns_foldlM_of_forall fun p hp s => ?_⟩
      obtain ⟨h1, h2⟩ := mem_buildPairs hpairs hp
      exact returns_comparePair (h _ h1) (h _ h2)

lemma returns_processBuffered (s : Collector) :
    Returns (s.processBuffered lib I cfg) ↔ ∀ group ∈ s.buffer.values,
      2 ≤ group.length → ∀ r ∈ group, Lowerable r.role := by
  unfold Collector.processBuffered
  rw [returns_bind_of_forall fun _ => returns_pure _]
  exact returns_foldlM returns_processEndpoint

end analysis

section report

variable {lib} {I : Interpreter}

/-- The groups of the collector, in terms of the tasks. -/
lemma shared_roles_iff (ts : List AnsweredTask) :
    (∀ group ∈ (groupBy endpointKey (ts.map (responseOf lib))).values,
        2 ≤ group.length → ∀ r ∈ group, Lowerable r.role) ↔
      ∀ t ∈ ts, 2 ≤ ts.countP (taskKey · = taskKey t) → Lowerable (claimedRole lib t) := by
  have hkey : ∀ t, endpointKey (responseOf lib t) = taskKey t := fun t => rfl
  have hgroup : ∀ key, ((ts.map (responseOf lib)).filter (endpointKey · = key)).length =
      ts.countP (taskKey · = key) := by
    intro key
    rw [← List.countP_eq_length_filter, List.countP_map]
    rfl
  constructor
  · intro h t ht hlen
    have hmem : responseOf lib t ∈ ts.map (responseOf lib) := List.mem_map_of_mem ht
    apply h _ (mem_values_groupBy.mpr ⟨_, hmem, rfl⟩) ?_ (responseOf lib t)
    · exact List.mem_filter.mpr ⟨hmem, by simp⟩
    · rw [hgroup, hkey]
      exact hlen
  · intro h group hg hlen r hr
    obtain ⟨x, hx, rfl⟩ := mem_values_groupBy.mp hg
    obtain ⟨hr, hrx⟩ := List.mem_filter.mp hr
    obtain ⟨t, ht, rfl⟩ := List.mem_map.mp hr
    apply h t ht
    rw [hgroup] at hlen
    rwa [← hkey t, of_decide_eq_true hrx]

/-- The report is built exactly when the headers are texts and the roles are texts that the
endpoints with two responses or more compare. -/
theorem generateReport_returns_iff (target name : String) (tasks : List ScannedTask) :
    Returns (generateReport lib I target name tasks) ↔
      (∀ t ∈ answeredTasks tasks, HeaderIsText t.task) ∧
      ∀ t ∈ answeredTasks tasks,
        2 ≤ (answeredTasks tasks).countP (taskKey · = taskKey t) → Lowerable (claimedRole lib t) := by
  by_cases hheader : ∀ t ∈ answeredTasks tasks, HeaderIsText t.task
  · unfold generateReport
    rw [feed_eq hheader, ok_bind, foldl_onResult]
    unfold Collector.flush
    rw [if_pos rfl, returns_bind_of_forall fun _ => returns_pure _, returns_processBuffered]
    exact (shared_roles_iff _).trans (and_iff_right hheader).symm
  · constructor
    · intro h
      unfold generateReport at h
      obtain ⟨collector, hc, -⟩ := returns_bind.mp h
      exact absurd (returns_feed.mp ⟨collector, hc⟩) hheader
    · rintro ⟨h, -⟩
      exact absurd h hheader

/-- Tokens that carry a level in the place of a role, and bodies that are no JSON. -/
def levelTokens : Codec where
  jwtDecode token :=
    if token = "a" then some [("user_id", .str "1"), ("role", .int 5)]
    else if token = "b" then some [("user_id", .str "2"), ("role", .int 1)]
    else none
  jsonLoads _ := none
  jsonDumps _ := ""
  str
    | .int n => toString n
    | .str s => s
    | _ => ""

def levelTask (token : String) : ScannedTask where
  method := "GET"
  url := "https://target.example/users"
  headers := some [("Authorization", .str ("Bearer " ++ token))]
  response := some ⟨some 200, some "ok"⟩

/-- A role that is a number is not lowered. -/
theorem generateReport_raises :
    ¬Returns (generateReport levelTokens ascii "https://target.example" "scan"
      [levelTask "a", levelTask "b"]) := by
  decide +kernel

end report

end SecurityScanner.ReportService

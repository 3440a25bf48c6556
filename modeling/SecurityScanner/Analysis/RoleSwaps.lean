import SecurityScanner.Analysis.AnomalyGate
import SecurityScanner.Analysis.ReportTotality
import SecurityScanner.Lib.Url

/-!
# The role-swap view of a scan

`get_scan_role_swaps` of `executor/api/routes.py` derives users, roles and pairs from the same
rows as the report, in its own way: it groups by the path of the URL, and a request without a
readable token is made by an anonymous guest.
-/

namespace SecurityScanner.ReportService

open Python Fallible Url

variable (lib : Codec) (I : Interpreter) (checkNetloc : String → Except ValueError Unit)

section route

structure RoleSwap where
  endpoint : String
  method : String
  sourceRole : Json
  targetRole : Json
  status : String
  bypass : Bool
  detail : String
  sourceStatusCode : Int
  targetStatusCode : Int

/-- `urlparse(task.url).path or task.url`. -/
def routePath (url : String) : Except PyError String :=
  match urlparsePath checkNetloc url with
  | .error _ => throw .valueError
  | .ok path => pure (if path ≠ "" then path else url)

/-- The role and the user of a token. -/
def routeIdentity (token : Option String) : Json × Json :=
  match token.bind lib.jwtDecode with
  | some decoded => (claim decoded "role" "user", claim decoded "user_id" "unknown")
  | none => (.str "guest", .str "anonymous")

/-- The body of the loop over the tasks. -/
def routeResponse (t : AnsweredTask) : Except PyError ScanResponse := do
  let token ← bearerToken t.task
  let (role, userId) := routeIdentity lib token
  let path ← routePath checkNetloc t.task.url
  pure
    { endpoint := path
      method := t.task.method
      url := t.task.url
      statusCode := t.statusCode
      body := t.responseBody
      bodyJson := parseBody lib t.responseBody
      userId
      role
      token
      requestHeaders := t.task.headers.getD []
      requestBody := requestBody lib t.task.payload }

/-- The entry of a pair. -/
def roleSwap (method path : String) (admin other : ScanResponse) : RoleSwap :=
  let diff := compareResponses lib I admin other defaultThreshold
  let bypass := diff.result.isAnomaly
  { endpoint := path
    method
    sourceRole := admin.role
    targetRole := other.role
    status := if bypass then "Bypass Detected" else "Enforced"
    bypass
    detail :=
      if diff.result.anomalyReason ≠ "" then diff.result.anomalyReason
      else "Access to " ++ path ++ " was properly restricted for role " ++ lib.str other.role ++ "."
    sourceStatusCode := admin.statusCode
    targetStatusCode := other.statusCode }

/-- The body of the loop over the groups. -/
def groupSwaps (group : (String × String) × List ScanResponse) : Except PyError (List RoleSwap) := do
  let ((method, path), responses) := group
  let admins ← withRole I (· = "admin") responses
  let others ← withRole I (· ≠ "admin") responses
  let (admins, others) :=
    if admins = [] ∧ 2 ≤ responses.length then (responses.take 1, responses.drop 1)
    else (admins, others)
  pure (admins.flatMap fun admin => others.map fun other => roleSwap lib I method path admin other)

/-- `get_scan_role_swaps`. -/
def getScanRoleSwaps (tasks : List ScannedTask) : Except PyError (List RoleSwap) := do
  let responses ← (answeredTasks tasks).mapM (routeResponse lib checkNetloc)
  let endpointGroups := groupBy (fun r => (r.method, r.endpoint)) responses
  let roleSwaps ← endpointGroups.items.mapM (groupSwaps lib I)
  pure roleSwaps.flatten

/-- The collector of `generate_report` when it has processed the responses. -/
def reportCollector (target name : String) (tasks : List ScannedTask) : Except PyError Collector := do
  let collector ← feed lib tasks
  collector.processBuffered lib I (reportSettings target name)

end route

section agreement

/-- The claims of a task's token, if it has a readable one. -/
def decodedOf (t : AnsweredTask) : Option (List (String × Json)) :=
  (tokenOf t.task).bind lib.jwtDecode

/-- The role claims of the tokens are texts. -/
def RolesAreTexts (ts : List AnsweredTask) : Prop :=
  ∀ t ∈ ts, ∀ decoded ∈ decodedOf lib t, ∀ v ∈ decoded.lookup "role", ∃ s, v = .str s

/-- `urlparse` accepts the URLs. -/
def UrlsParse (ts : List AnsweredTask) : Prop :=
  ∀ t ∈ ts, Returns (routePath checkNetloc t.task.url)

/-- The task is one of the method and the path. -/
def OnEndpoint (method path : String) (t : AnsweredTask) : Prop :=
  t.task.method = method ∧ routePath checkNetloc t.task.url = .ok path

instance (method path : String) (t : AnsweredTask) :
    Decidable (OnEndpoint checkNetloc method path t) := by
  unfold OnEndpoint
  infer_instance

def onEndpoint (method path : String) (ts : List AnsweredTask) : List AnsweredTask :=
  ts.filter fun t => OnEndpoint checkNetloc method path t

/-- The tasks of the method and the path are a group of the collector. -/
def OneGroup (method path : String) (ts : List AnsweredTask) : Prop :=
  ∀ t ∈ onEndpoint checkNetloc method path ts, ∀ t' ∈ ts,
    OnEndpoint checkNetloc method path t' ↔ taskKey t' = taskKey t

/-- If one of the tasks has no readable token, then none of the tokens leaves its user out or
names one of the users that stand in for a missing one. -/
def UsersAreNamed (ts : List AnsweredTask) : Prop :=
  (∃ t ∈ ts, decodedOf lib t = none) → ∀ t ∈ ts, ∀ decoded ∈ decodedOf lib t,
    claim decoded "user_id" "unknown" ≠ .str "anonymous" ∧
      claim decoded "user_id" "unknown" ≠ .str "unknown"

/-- `lower` turns the capital letters of ASCII into small ones and does nothing else to a text
of ASCII. -/
def LowersAscii : Prop :=
  ∀ s : String, (∀ c ∈ s.toList, c.toNat < 128) → I.lower s = s.map Char.toLower

end agreement

section pairs

variable {lib I}

/-- An anomaly is between different users, in one of three cases. -/
lemma isAnomaly_iff {a b : ScanResponse} {t : Float} :
    (compareResponses lib I a b t).result.isAnomaly = true ↔ sameUser a b = false ∧
      ((a.statusCode = 200 ∧ b.statusCode = 200 ∧ t ≤ bodySimilarity a.body b.body) ∨
        (foreignIds I a b ≠ [] ∧ (a.statusCode = 200 ∨ b.statusCode = 200)) ∨
        ((a.statusCode = 403 ∨ a.statusCode = 401) ∧ b.statusCode = 200)) := by
  have hanomaly : (compareResponses lib I a b t).result.isAnomaly =
      (anomalyReason lib I a b t).isSome := rfl
  rw [hanomaly]
  unfold anomalyReason
  cases sameUser a b with
  | true => simp
  | false =>
    simp only [Bool.not_false, true_and]
    split_ifs with h1 h2 h3
    · simp only [Option.isSome_some, true_iff]
      exact Or.inl h1
    · simp only [Option.isSome_some, true_iff]
      exact Or.inr (Or.inl h2)
    · simp only [Option.isSome_some, true_iff]
      exact Or.inr (Or.inr h3)
    · simp [h1, h2, h3]

/-- What makes a pair an anomaly: whether the users are the same, the statuses and the bodies. -/
lemma isAnomaly_congr {a b a' b' : ScanResponse} {t : Float} (huser : sameUser a b = sameUser a' b')
    (ha : a.statusCode = a'.statusCode ∧ a.body = a'.body ∧ a.bodyJson = a'.bodyJson)
    (hb : b.statusCode = b'.statusCode ∧ b.body = b'.body ∧ b.bodyJson = b'.bodyJson) :
    (compareResponses lib I a b t).result.isAnomaly = true ↔
      (compareResponses lib I a' b' t).result.isAnomaly = true := by
  obtain ⟨ha1, ha2, ha3⟩ := ha
  obtain ⟨hb1, hb2, hb3⟩ := hb
  have hids : foreignIds I a b = foreignIds I a' b' := by
    unfold foreignIds
    rw [huser, ha3, hb3]
  rw [isAnomaly_iff, isAnomaly_iff, huser, hids, ha1, ha2, hb1, hb2]

/-- Who has a challenger is not alone. -/
lemma two_le_length_of_challenges {α : Type} {p : α → Bool} {xs : List α} {x y : α}
    (hx : x ∈ (challenges p xs).1) (hy : y ∈ (challenges p xs).2) : 2 ≤ xs.length := by
  unfold challenges at hx hy
  dsimp only at hx hy
  split at hx
  · rename_i hnil
    rw [if_pos hnil] at hy
    cases xs with
    | nil => cases hy
    | cons z zs =>
      cases zs with
      | nil => cases hy
      | cons w zs => simp
  · rename_i hnil
    rw [if_neg hnil] at hy
    have hxp := (List.mem_filter.mp hx).2
    have hyp := (List.mem_filter.mp hy).2
    have hne : x ≠ y := by
      rintro rfl
      simp [hxp] at hyp
    have hxs := (List.mem_filter.mp hx).1
    have hys := (List.mem_filter.mp hy).1
    match xs, hxs, hys with
    | [z], hxs, hys =>
      rw [List.mem_singleton] at hxs hys
      exact absurd (hxs.trans hys.symm) hne
    | _ :: _ :: _, _, _ => simp

end pairs

section views

/-- The task is one of an admin. -/
def isAdmin (t : AnsweredTask) : Bool := lowered I (claimedRole lib t) = "admin"

/-- A challenge among the tasks is an anomaly between the responses that are built for them. -/
def Found (responseOf : AnsweredTask → ScanResponse) (ts : List AnsweredTask) : Prop :=
  ∃ s ∈ (challenges (isAdmin lib I) ts).1, ∃ t ∈ (challenges (isAdmin lib I) ts).2,
    (compareResponses lib I (responseOf s) (responseOf t) defaultThreshold).result.isAnomaly = true

/-- The response that the route builds for a task with a text in its header and a URL. -/
def routeResponseOf (t : AnsweredTask) : ScanResponse :=
  { responseOf lib t with
    endpoint := (routePath checkNetloc t.task.url).toOption.getD ""
    userId := (routeIdentity lib (tokenOf t.task)).2
    role := (routeIdentity lib (tokenOf t.task)).1 }

/-- The entries of the responses of a method and a path. -/
def swapsOf (method path : String) (responses : List ScanResponse) : List RoleSwap :=
  let cs := challenges (fun r => lowered I r.role = "admin") responses
  cs.1.flatMap fun admin => cs.2.map fun other => roleSwap lib I method path admin other

variable {lib I checkNetloc} {ts : List AnsweredTask}

lemma LowersAscii.lower {s : String} (h : LowersAscii I)
    (hs : s.toList.all (fun c => c.toNat < 128) = true) : I.lower s = s.map Char.toLower :=
  h s fun c hc => of_decide_eq_true (List.all_eq_true.mp hs c hc)

lemma lower_names (h : LowersAscii I) :
    I.lower "admin" = "admin" ∧ I.lower "user" = "user" ∧ I.lower "guest" = "guest" := by
  refine ⟨?_, ?_, ?_⟩
  · rw [h.lower (by decide)]
    decide +kernel
  · rw [h.lower (by decide)]
    decide +kernel
  · rw [h.lower (by decide)]
    decide +kernel

lemma claim_role_text (h : RolesAreTexts lib ts) {t : AnsweredTask} (ht : t ∈ ts)
    {decoded : List (String × Json)} (hd : decodedOf lib t = some decoded) :
    ∃ s, claim decoded "role" "user" = .str s := by
  unfold claim
  cases hv : decoded.lookup "role" with
  | none => exact ⟨"user", rfl⟩
  | some v =>
    obtain ⟨s, rfl⟩ := h t ht decoded hd v hv
    exact ⟨s, rfl⟩

variable (checkNetloc) in
/-- Both views see the same roles, except that a user without a token is a guest for one. -/
lemma roles_spec (hroles : RolesAreTexts lib ts) (hlower : LowersAscii I) {t : AnsweredTask}
    (ht : t ∈ ts) :
    Lowerable (responseOf lib t).role ∧ Lowerable (routeResponseOf lib checkNetloc t).role ∧
      (lowered I (routeResponseOf lib checkNetloc t).role = "admin" ↔
        lowered I (responseOf lib t).role = "admin") := by
  have hrole : (responseOf lib t).role = (identity lib (tokenOf t.task)).1 := rfl
  have hroute : (routeResponseOf lib checkNetloc t).role =
      (routeIdentity lib (tokenOf t.task)).1 := rfl
  rw [hrole, hroute]
  unfold identity routeIdentity
  cases hd : (tokenOf t.task).bind lib.jwtDecode with
  | none =>
    obtain ⟨-, huser, hguest⟩ := lower_names hlower
    refine ⟨fun _ => ⟨"user", rfl⟩, fun _ => ⟨"guest", rfl⟩, ?_⟩
    simp [lowered, huser, hguest]
  | some decoded =>
    obtain ⟨s, hs⟩ := claim_role_text hroles ht hd
    exact ⟨fun _ => ⟨s, hs⟩, fun _ => ⟨s, hs⟩, Iff.rfl⟩

lemma routeResponse_eq {t : AnsweredTask} (hheader : HeaderIsText t.task)
    (hurl : Returns (routePath checkNetloc t.task.url)) :
    routeResponse lib checkNetloc t = .ok (routeResponseOf lib checkNetloc t) := by
  obtain ⟨path, hpath⟩ := hurl
  unfold routeResponse routeResponseOf
  rw [bearerToken_eq hheader, hpath]
  rfl

lemma returns_routeResponse {t : AnsweredTask} (h : Returns (routeResponse lib checkNetloc t)) :
    HeaderIsText t.task := by
  unfold routeResponse at h
  obtain ⟨token, htoken, -⟩ := returns_bind.mp h
  exact returns_bearerToken.mp ⟨token, htoken⟩

/-- The entries of a group: one for each challenge. -/
lemma groupSwaps_eq {method path : String} {responses : List ScanResponse}
    (h : ∀ r ∈ responses, Lowerable r.role) :
    groupSwaps lib I ((method, path), responses) = .ok (swapsOf lib I method path responses) := by
  unfold groupSwaps swapsOf challenges
  dsimp only
  rw [withRole_eq h, withRole_eq h, ok_bind, ok_bind]
  by_cases hnil : responses.filter (fun r => decide (lowered I r.role = "admin")) = []
  · rw [if_pos hnil, hnil]
    cases responses with
    | nil => rfl
    | cons first rest =>
      cases rest with
      | nil => rfl
      | cons second rest => simp [Pure.pure, Except.pure]
  · rw [if_neg hnil, if_neg (fun hand => hnil hand.1)]
    simp [Pure.pure, Except.pure]

lemma challenges_routeResponseOf {us : List AnsweredTask} (hlower : LowersAscii I)
    (hroles : RolesAreTexts lib us) :
    challenges (fun r => lowered I r.role = "admin") (us.map (routeResponseOf lib checkNetloc)) =
      ((challenges (isAdmin lib I) us).1.map (routeResponseOf lib checkNetloc),
        (challenges (isAdmin lib I) us).2.map (routeResponseOf lib checkNetloc)) := by
  rw [challenges_map, challenges_congr (q := isAdmin lib I)]
  intro t ht
  exact decide_eq_decide.mpr (roles_spec checkNetloc hroles hlower ht).2.2

/-- The entries of an endpoint have a bypass exactly when an anomaly is found there. -/
lemma bypass_swapsOf {us : List AnsweredTask} (hlower : LowersAscii I)
    (hroles : RolesAreTexts lib us) (method path : String) :
    (∃ e ∈ swapsOf lib I method path (us.map (routeResponseOf lib checkNetloc)),
        e.bypass = true) ↔ Found lib I (routeResponseOf lib checkNetloc) us := by
  unfold swapsOf Found
  rw [challenges_routeResponseOf hlower hroles]
  simp only [List.mem_flatMap, List.mem_map]
  constructor
  · rintro ⟨e, ⟨-, ⟨s, hs, rfl⟩, -, ⟨t, ht, rfl⟩, rfl⟩, he⟩
    exact ⟨s, hs, t, ht, he⟩
  · rintro ⟨s, hs, t, ht, h⟩
    exact ⟨_, ⟨_, ⟨s, hs, rfl⟩, _, ⟨t, ht, rfl⟩, rfl⟩, h⟩

lemma mem_swapsOf {method path : String} {responses : List ScanResponse} {e : RoleSwap}
    (h : e ∈ swapsOf lib I method path responses) :
    e.method = method ∧ e.endpoint = path := by
  unfold swapsOf at h
  simp only [List.mem_flatMap, List.mem_map] at h
  obtain ⟨admin, -, other, -, rfl⟩ := h
  exact ⟨rfl, rfl⟩

/-- The group of a method and a path has the responses of their tasks. -/
lemma filter_routeResponses (hurls : UrlsParse checkNetloc ts) (method path : String) :
    (ts.map (routeResponseOf lib checkNetloc)).filter
        (fun r => (r.method, r.endpoint) = (method, path)) =
      (onEndpoint checkNetloc method path ts).map (routeResponseOf lib checkNetloc) := by
  rw [List.filter_map]
  unfold onEndpoint
  congr 1
  apply List.filter_congr
  intro t ht
  obtain ⟨p, hp⟩ := hurls t ht
  apply decide_eq_decide.mpr
  simp [OnEndpoint, routeResponseOf, responseOf, hp, Except.toOption]

variable {tasks : List ScannedTask}

lemma getScanRoleSwaps_eq (hheader : ∀ t ∈ answeredTasks tasks, HeaderIsText t.task)
    (hurls : UrlsParse checkNetloc (answeredTasks tasks)) (hlower : LowersAscii I)
    (hroles : RolesAreTexts lib (answeredTasks tasks)) :
    getScanRoleSwaps lib I checkNetloc tasks =
      .ok (((groupBy (fun r : ScanResponse => (r.method, r.endpoint))
        ((answeredTasks tasks).map (routeResponseOf lib checkNetloc))).items.map
          fun group => swapsOf lib I group.1.1 group.1.2 group.2).flatten) := by
  unfold getScanRoleSwaps
  rw [mapM_eq_ok fun t ht => routeResponse_eq (hheader t ht) (hurls t ht), ok_bind]
  dsimp only
  rw [mapM_eq_ok (g := fun group => swapsOf lib I group.1.1 group.1.2 group.2)]
  · rfl
  · intro group hgroup
    rw [items_groupBy] at hgroup
    obtain ⟨key, -, rfl⟩ := List.mem_map.mp hgroup
    apply groupSwaps_eq
    intro r hr
    obtain ⟨t, ht, rfl⟩ := List.mem_map.mp (List.mem_filter.mp hr).1
    exact (roles_spec checkNetloc hroles hlower ht).2.1

lemma bypass_iff_found (hheader : ∀ t ∈ answeredTasks tasks, HeaderIsText t.task)
    (hurls : UrlsParse checkNetloc (answeredTasks tasks)) (hlower : LowersAscii I)
    (hroles : RolesAreTexts lib (answeredTasks tasks)) (method path : String) :
    (∃ swaps, getScanRoleSwaps lib I checkNetloc tasks = .ok swaps ∧
        ∃ e ∈ swaps, e.bypass = true ∧ e.method = method ∧ e.endpoint = path) ↔
      Found lib I (routeResponseOf lib checkNetloc)
        (onEndpoint checkNetloc method path (answeredTasks tasks)) := by
  have hsub : RolesAreTexts lib (onEndpoint checkNetloc method path (answeredTasks tasks)) :=
    fun t ht => hroles t (List.mem_filter.mp ht).1
  have hgroup : ((answeredTasks tasks).map (routeResponseOf lib checkNetloc)).filter
      (fun r => (r.method, r.endpoint) = (method, path)) = _ :=
    filter_routeResponses hurls method path
  rw [getScanRoleSwaps_eq hheader hurls hlower hroles, ← bypass_swapsOf hlower hsub method path]
  simp only [Except.ok.injEq, exists_eq_left', List.mem_flatten, items_groupBy, List.map_map,
    List.mem_map, Function.comp_apply]
  constructor
  · rintro ⟨e, ⟨-, ⟨⟨m, p⟩, -, rfl⟩, he⟩, hbypass, rfl, rfl⟩
    obtain ⟨rfl, rfl⟩ := mem_swapsOf he
    rw [hgroup] at he
    exact ⟨e, he, hbypass⟩
  · rintro ⟨e, he, hbypass⟩
    obtain ⟨hm, hp⟩ := mem_swapsOf he
    refine ⟨e, ⟨_, ⟨(method, path), ?_, rfl⟩, ?_⟩, hbypass, hm, hp⟩
    · have hne : (onEndpoint checkNetloc method path (answeredTasks tasks)).map
          (routeResponseOf lib checkNetloc) ≠ [] := by
        intro hnil
        rw [hnil] at he
        cases he
      obtain ⟨r, hr⟩ := List.exists_mem_of_ne_nil _ hne
      rw [← hgroup] at hr
      exact mem_keys_groupBy.mpr ⟨r, (List.mem_filter.mp hr).1,
        of_decide_eq_true (List.mem_filter.mp hr).2⟩
    · rw [hgroup]
      exact he

end views

section report

variable {lib I checkNetloc} {cfg : CollectorSettings} {tasks : List ScannedTask}

lemma comparePair_diffs {s s' : Collector × List Issue} {p : ScanResponse × ScanResponse}
    (h : Collector.comparePair lib I cfg s p = .ok s') :
    s'.1.diffs = s.1.diffs ++ [compareResponses lib I p.1 p.2 cfg.similarityThreshold] := by
  unfold Collector.comparePair at h
  dsimp only at h
  split at h
  · cases hissues : classifyDiff lib I
        (compareResponses lib I p.1 p.2 cfg.similarityThreshold) with
    | error e =>
      rw [hissues] at h
      cases h
    | ok issues =>
      rw [hissues] at h
      obtain rfl := Except.ok.inj h
      rfl
  · obtain rfl := Except.ok.inj h
    rfl

variable (lib I cfg) in
/-- The diffs of an endpoint. -/
def endpointDiffs (responses : List ScanResponse) : List Diff :=
  if responses.length < 2 then []
  else
    let cs := challenges (fun r => lowered I r.role = I.lower cfg.referenceRole) responses
    (pairings cs.1 cs.2).map fun p => compareResponses lib I p.1 p.2 cfg.similarityThreshold

lemma processEndpoint_diffs {s s' : Collector × List Issue} {responses : List ScanResponse}
    (h : Collector.processEndpoint lib I cfg s responses = .ok s') :
    s'.1.diffs = s.1.diffs ++ endpointDiffs lib I cfg responses := by
  unfold Collector.processEndpoint at h
  unfold endpointDiffs
  by_cases hlen : responses.length < 2
  · rw [if_pos hlen] at h ⊢
    obtain rfl := Except.ok.inj h
    simp
  · rw [if_neg hlen] at h ⊢
    obtain ⟨pairs, hpairs, -⟩ := returns_bind.mp ⟨s', h⟩
    rw [hpairs, ok_bind] at h
    rw [buildPairs_eq (returns_buildPairs.mp ⟨pairs, hpairs⟩)] at hpairs
    obtain rfl := Except.ok.inj hpairs
    rw [foldlM_observe (fun s => s.1.diffs)
      (fun p => [compareResponses lib I p.1 p.2 cfg.similarityThreshold])
      (fun s p s' hp => comparePair_diffs hp) h, List.map_eq_flatMap]

lemma processBuffered_diffs {s s' : Collector} (h : s.processBuffered lib I cfg = .ok s') :
    s'.diffs = s.diffs ++ s.buffer.values.flatMap (endpointDiffs lib I cfg) := by
  unfold Collector.processBuffered at h
  cases hloop : s.buffer.values.foldlM (Collector.processEndpoint lib I cfg) (s, []) with
  | error e =>
    rw [hloop] at h
    cases h
  | ok t =>
    rw [hloop] at h
    obtain rfl := Except.ok.inj h
    exact foldlM_observe (fun s => s.1.diffs) (endpointDiffs lib I cfg)
      (fun s responses s' hs => processEndpoint_diffs hs) hloop

variable (checkNetloc) in
/-- The response is one of the method and the path. -/
def OfEndpoint (method path : String) (r : ScanResponse) : Prop :=
  r.method = method ∧ routePath checkNetloc r.url = .ok path

lemma challenges_responseOf (hlower : LowersAscii I) (us : List AnsweredTask) :
    challenges (fun r => lowered I r.role = I.lower "admin") (us.map (responseOf lib)) =
      ((challenges (isAdmin lib I) us).1.map (responseOf lib),
        (challenges (isAdmin lib I) us).2.map (responseOf lib)) := by
  rw [(lower_names hlower).1, challenges_map]
  rfl

/-- An endpoint has an anomalous diff exactly when an anomaly is found there. -/
lemma anomaly_endpointDiffs (hlower : LowersAscii I) (target name : String)
    (us : List AnsweredTask) :
    (∃ d ∈ endpointDiffs lib I (reportSettings target name) (us.map (responseOf lib)),
      d.result.isAnomaly = true) ↔ Found lib I (responseOf lib) us := by
  unfold endpointDiffs Found
  have hreference : (reportSettings target name).referenceRole = "admin" := rfl
  rw [hreference, challenges_responseOf hlower]
  dsimp only
  constructor
  · rintro ⟨d, hd, hanomaly⟩
    split at hd
    · cases hd
    · obtain ⟨p, hp, rfl⟩ := List.mem_map.mp hd
      obtain ⟨h1, h2⟩ := mem_pairings hp
      obtain ⟨s, hs, hs'⟩ := List.mem_map.mp h1
      obtain ⟨t, ht, ht'⟩ := List.mem_map.mp h2
      rw [← hs', ← ht'] at hanomaly
      exact ⟨s, hs, t, ht, hanomaly⟩
  · rintro ⟨s, hs, t, ht, hanomaly⟩
    have hlen : ¬(us.map (responseOf lib)).length < 2 := by
      rw [List.length_map]
      exact not_lt.mpr (two_le_length_of_challenges hs ht)
    rw [if_neg hlen]
    refine ⟨_, List.mem_map.mpr ⟨(responseOf lib s, responseOf lib t), ?_, rfl⟩, hanomaly⟩
    unfold pairings
    apply List.mem_filter.mpr
    constructor
    · exact List.mem_flatMap.mpr ⟨_, List.mem_map_of_mem hs, List.mem_map_of_mem
        (List.mem_map_of_mem ht)⟩
    · rw [(isAnomaly_iff.mp hanomaly).1]
      rfl

/-- Both responses of a diff come from the endpoint's group. -/
lemma mem_endpointDiffs {cfg : CollectorSettings} {responses : List ScanResponse} {d : Diff}
    (h : d ∈ endpointDiffs lib I cfg responses) :
    d.responseA ∈ responses ∧ d.responseB ∈ responses := by
  unfold endpointDiffs at h
  split at h
  · cases h
  · obtain ⟨p, hp, rfl⟩ := List.mem_map.mp h
    obtain ⟨h1, h2⟩ := mem_pairings hp
    exact ⟨mem_challenges (Or.inl h1), mem_challenges (Or.inr h2)⟩

/-- The group of a task on the endpoint has the responses of the endpoint's tasks. -/
lemma filter_responses {ts : List AnsweredTask} {method path : String}
    (hgroup : OneGroup checkNetloc method path ts) {t : AnsweredTask}
    (ht : t ∈ onEndpoint checkNetloc method path ts) :
    (ts.map (responseOf lib)).filter (endpointKey · = taskKey t) =
      (onEndpoint checkNetloc method path ts).map (responseOf lib) := by
  rw [List.filter_map]
  unfold onEndpoint
  congr 1
  apply List.filter_congr
  intro t' ht'
  exact decide_eq_decide.mpr (hgroup t ht t' ht').symm

lemma anomaly_iff_found (hheader : ∀ t ∈ answeredTasks tasks, HeaderIsText t.task)
    (hlower : LowersAscii I) (hroles : RolesAreTexts lib (answeredTasks tasks))
    {method path : String} (hgroup : OneGroup checkNetloc method path (answeredTasks tasks))
    (target name : String) :
    (∃ s, reportCollector lib I target name tasks = .ok s ∧ ∃ d ∈ s.diffs,
        d.result.isAnomaly = true ∧ OfEndpoint checkNetloc method path d.responseA ∧
          OfEndpoint checkNetloc method path d.responseB) ↔
      Found lib I (responseOf lib) (onEndpoint checkNetloc method path (answeredTasks tasks)) := by
  have hroles' : ∀ r ∈ (answeredTasks tasks).map (responseOf lib), Lowerable r.role := by
    intro r hr
    obtain ⟨t, ht, rfl⟩ := List.mem_map.mp hr
    exact (roles_spec checkNetloc hroles hlower ht).1
  have hrun : Returns (reportCollector lib I target name tasks) := by
    unfold reportCollector
    rw [feed_eq hheader, ok_bind, foldl_onResult, returns_processBuffered]
    intro group hg _ r hr
    obtain ⟨x, -, rfl⟩ := mem_values_groupBy.mp hg
    exact hroles' r (List.mem_filter.mp hr).1
  obtain ⟨s, hs⟩ := hrun
  have hdiffs : s.diffs = (groupBy endpointKey ((answeredTasks tasks).map
      (responseOf lib))).values.flatMap (endpointDiffs lib I (reportSettings target name)) := by
    unfold reportCollector at hs
    rw [feed_eq hheader, ok_bind, foldl_onResult] at hs
    exact processBuffered_diffs hs
  rw [← anomaly_endpointDiffs hlower target name]
  simp only [hs, Except.ok.injEq, exists_eq_left', hdiffs, List.mem_flatMap]
  constructor
  · rintro ⟨d, ⟨group, hg, hd⟩, hanomaly, hA, -⟩
    obtain ⟨x, hx, rfl⟩ := mem_values_groupBy.mp hg
    obtain ⟨hmem, hkey⟩ := List.mem_filter.mp (mem_endpointDiffs hd).1
    obtain ⟨t, ht, htA⟩ := List.mem_map.mp hmem
    have hon : t ∈ onEndpoint checkNetloc method path (answeredTasks tasks) := by
      apply List.mem_filter.mpr ⟨ht, _⟩
      apply decide_eq_true
      rw [← htA] at hA
      exact hA
    have hxt : endpointKey x = taskKey t := by
      rw [← of_decide_eq_true hkey, ← htA]
      rfl
    rw [hxt, filter_responses hgroup hon] at hd
    exact ⟨d, hd, hanomaly⟩
  · rintro ⟨d, hd, hanomaly⟩
    obtain ⟨hA, hB⟩ := mem_endpointDiffs hd
    have hof : ∀ r ∈ (onEndpoint checkNetloc method path (answeredTasks tasks)).map
        (responseOf lib), OfEndpoint checkNetloc method path r := by
      intro r hr
      obtain ⟨t, ht, rfl⟩ := List.mem_map.mp hr
      exact of_decide_eq_true (p := OnEndpoint checkNetloc method path t) (List.mem_filter.mp ht).2
    obtain ⟨t, ht, -⟩ := List.mem_map.mp hA
    refine ⟨d, ⟨_, mem_values_groupBy.mpr ⟨responseOf lib t, ?_, rfl⟩, ?_⟩, hanomaly,
      hof _ hA, hof _ hB⟩
    · exact List.mem_map_of_mem (List.mem_filter.mp ht).1
    · have hkey : endpointKey (responseOf lib t) = taskKey t := rfl
      rw [hkey, filter_responses hgroup ht]
      exact hd

end report

section agree

variable {lib I checkNetloc} {tasks : List ScannedTask}

lemma pyEq_str_right (v : Json) (s : String) : Json.pyEq v (.str s) = decide (v = .str s) := by
  cases v <;> simp [Json.pyEq, leafEq, number?]

/-- Where the users are named, both views tell the same users apart. -/
lemma sameUser_routeResponseOf {us : List AnsweredTask} (hnamed : UsersAreNamed lib us)
    {s t : AnsweredTask} (hs : s ∈ us) (ht : t ∈ us) :
    sameUser (routeResponseOf lib checkNetloc s) (routeResponseOf lib checkNetloc t) =
      sameUser (responseOf lib s) (responseOf lib t) := by
  unfold sameUser routeResponseOf responseOf routeIdentity identity
  dsimp only
  cases hds : (tokenOf s.task).bind lib.jwtDecode with
  | none =>
    cases hdt : (tokenOf t.task).bind lib.jwtDecode with
    | none => simp [pyEq_str]
    | some decoded =>
      obtain ⟨h1, h2⟩ := hnamed ⟨s, hs, hds⟩ t ht decoded hdt
      simp [pyEq_str, h1, h2]
  | some decoded =>
    cases hdt : (tokenOf t.task).bind lib.jwtDecode with
    | none =>
      obtain ⟨h1, h2⟩ := hnamed ⟨t, ht, hdt⟩ s hs decoded hds
      simp [pyEq_str_right, h1, h2]
    | some decoded' => rfl

/-- The two views agree about an endpoint whose tasks are one group for the collector and whose
users are named. -/
theorem roleSwaps_agree (hlower : LowersAscii I)
    (hroles : RolesAreTexts lib (answeredTasks tasks))
    (hurls : UrlsParse checkNetloc (answeredTasks tasks)) {method path : String}
    (hgroup : OneGroup checkNetloc method path (answeredTasks tasks))
    (hnamed : UsersAreNamed lib (onEndpoint checkNetloc method path (answeredTasks tasks)))
    (target name : String) :
    (∃ swaps, getScanRoleSwaps lib I checkNetloc tasks = .ok swaps ∧
        ∃ e ∈ swaps, e.bypass = true ∧ e.method = method ∧ e.endpoint = path) ↔
      ∃ s, reportCollector lib I target name tasks = .ok s ∧ ∃ d ∈ s.diffs,
        d.result.isAnomaly = true ∧ OfEndpoint checkNetloc method path d.responseA ∧
          OfEndpoint checkNetloc method path d.responseB := by
  by_cases hheader : ∀ t ∈ answeredTasks tasks, HeaderIsText t.task
  · rw [bypass_iff_found hheader hurls hlower hroles, anomaly_iff_found hheader hlower hroles hgroup]
    unfold Found
    apply exists_congr
    intro s
    apply and_congr_right
    intro hs
    apply exists_congr
    intro t
    apply and_congr_right
    intro ht
    exact isAnomaly_congr (sameUser_routeResponseOf hnamed (mem_challenges (Or.inl hs))
      (mem_challenges (Or.inr ht))) ⟨rfl, rfl, rfl⟩ ⟨rfl, rfl, rfl⟩
  · constructor
    · rintro ⟨swaps, hswaps, -⟩
      unfold getScanRoleSwaps at hswaps
      obtain ⟨responses, hresponses, -⟩ := returns_bind.mp ⟨swaps, hswaps⟩
      exact absurd (fun t ht => returns_routeResponse (returns_mapM.mp ⟨_, hresponses⟩ t ht)) hheader
    · rintro ⟨s, hs, -⟩
      unfold reportCollector at hs
      obtain ⟨collector, hc, -⟩ := returns_bind.mp ⟨s, hs⟩
      exact absurd (returns_feed.mp ⟨collector, hc⟩) hheader

/-- Tokens of an admin, of a user and of an admin that is not named. -/
def namedTokens : Codec where
  jwtDecode token :=
    if token = "a" then some [("user_id", .str "1"), ("role", .str "admin")]
    else if token = "b" then some [("user_id", .str "2"), ("role", .str "user")]
    else if token = "c" then some [("role", .str "admin")]
    else none
  jsonLoads _ := none
  jsonDumps _ := ""
  str
    | .str s => s
    | _ => ""

def servedTask (query : String) (headers : List (String × Json)) : ScannedTask where
  method := "GET"
  url := "https://target.example/users" ++ query
  headers := some headers
  response := some ⟨some 200, some "ok"⟩

def bearer (token : String) : List (String × Json) :=
  [("Authorization", .str ("Bearer " ++ token))]

theorem roleSwaps_agree_named :
    (∃ swaps, getScanRoleSwaps namedTokens ascii (fun _ => .ok ())
        [servedTask "" (bearer "a"), servedTask "" (bearer "b")] = .ok swaps ∧
        ∃ e ∈ swaps, e.bypass = true ∧ e.method = "GET" ∧ e.endpoint = "/users") ↔
      ∃ s, reportCollector namedTokens ascii "https://target.example" "scan"
        [servedTask "" (bearer "a"), servedTask "" (bearer "b")] = .ok s ∧ ∃ d ∈ s.diffs,
        d.result.isAnomaly = true ∧ OfEndpoint (fun _ => .ok ()) "GET" "/users" d.responseA ∧
          OfEndpoint (fun _ => .ok ()) "GET" "/users" d.responseB := by
  refine roleSwaps_agree (fun s _ => rfl) ?_ ?_ ?_ ?_ "https://target.example" "scan"
  · have htokens : ∀ t ∈ answeredTasks [servedTask "" (bearer "a"), servedTask "" (bearer "b")],
        decodedOf namedTokens t = some [("user_id", .str "1"), ("role", .str "admin")] ∨
          decodedOf namedTokens t = some [("user_id", .str "2"), ("role", .str "user")] := by
      decide +kernel
    intro t ht decoded hd v hv
    rcases htokens t ht with h | h
    · obtain rfl := Option.some.inj (h.symm.trans hd)
      exact ⟨"admin", (Option.some.inj hv).symm⟩
    · obtain rfl := Option.some.inj (h.symm.trans hd)
      exact ⟨"user", (Option.some.inj hv).symm⟩
  · unfold UrlsParse
    decide +kernel
  · unfold OneGroup
    decide +kernel
  · unfold UsersAreNamed
    decide +kernel

/-- The route has an entry with a bypass. -/
def routeFinds (tasks : List ScannedTask) (method path : String) : Bool :=
  (getScanRoleSwaps namedTokens ascii (fun _ => .ok ()) tasks).toOption.any fun swaps =>
    swaps.any fun e => e.bypass && e.method == method && e.endpoint == path

/-- An anomaly between two responses of the method and the path. -/
def collectorFinds (tasks : List ScannedTask) (method path : String) : Prop :=
  ∃ s, reportCollector namedTokens ascii "https://target.example" "scan" tasks = .ok s ∧
    ∃ d ∈ s.diffs, d.result.isAnomaly = true ∧
      OfEndpoint (fun _ => .ok ()) method path d.responseA ∧
      OfEndpoint (fun _ => .ok ()) method path d.responseB

instance (method path : String) (r : ScanResponse) :
    Decidable (OfEndpoint checkNetloc method path r) := by
  unfold OfEndpoint
  infer_instance

lemma collectorFinds_iff {tasks : List ScannedTask} {method path : String} :
    collectorFinds tasks method path ↔
      (reportCollector namedTokens ascii "https://target.example" "scan" tasks).toOption.any
        (fun s => s.diffs.any fun d => d.result.isAnomaly = true ∧
          OfEndpoint (fun _ => .ok ()) method path d.responseA ∧
          OfEndpoint (fun _ => .ok ()) method path d.responseB) = true := by
  unfold collectorFinds
  cases reportCollector namedTokens ascii "https://target.example" "scan" tasks with
  | error e => simp [Except.toOption]
  | ok s => simp [Except.toOption]

/-- Two pages of one path are two endpoints for the collector, a request without a token is made
by the same user as one with a token that names none, and a URL that is none breaks the route. -/
theorem roleSwaps_disagree :
    (routeFinds [servedTask "?page=1" (bearer "a"), servedTask "?page=2" (bearer "b")]
        "GET" "/users" = true ∧
      ¬collectorFinds [servedTask "?page=1" (bearer "a"), servedTask "?page=2" (bearer "b")]
        "GET" "/users") ∧
    (routeFinds [servedTask "" (bearer "c"), servedTask "" []] "GET" "/users" = true ∧
      ¬collectorFinds [servedTask "" (bearer "c"), servedTask "" []] "GET" "/users") ∧
    (routeFinds [servedTask "" (bearer "a"), servedTask "" (bearer "b"),
        { servedTask "" [] with url := "https://[::1" }] "GET" "/users" = false ∧
      collectorFinds [servedTask "" (bearer "a"), servedTask "" (bearer "b"),
        { servedTask "" [] with url := "https://[::1" }] "GET" "/users") := by
  simp only [collectorFinds_iff]
  refine ⟨⟨?_, ?_⟩, ⟨?_, ?_⟩, ?_, ?_⟩
  all_goals decide +kernel

end agree

end SecurityScanner.ReportService

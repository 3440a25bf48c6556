import SecurityScanner.Mutation.Engine

/-!
# Fuzz tasks against the requests they come from

A mutation carries the components that its mutator returns, and the bridge fills the others
with defaults instead of those of the request.
-/

namespace SecurityScanner

open JavaScript

/-- The task is the request with the components of the mutation in place of its own. -/
structure ChangesOnly (request : MutationRequest) (m : Mutation) (task : FuzzTask) : Prop where
  method : some task.method = (m.method <|> request.method)
  url : some task.url = (m.path <|> request.path)
  headers : some task.headers = (m.headers <|> request.headers)
  payload : some task.payload = (m.body <|> request.body)

namespace MutationBridge

variable (copy : EngineCopy) (case : CaseMap)

/-- The tasks of the bridge, each with the request and the mutation it is built from. -/
def built (endpoints : List BridgeEndpoint) (baseUrl : Text) :
    List (MutationRequest × Mutation × FuzzTask) :=
  match MutationEngine.runCli copy case (endpoints.map (requestFor baseUrl)) with
  | .error _ => []
  | .ok results => results.flatMap fun res =>
      res.2.map fun m => (res.1, m.toMutation, taskOf m.toMutation)

/-- These are the tasks that it returns. -/
lemma generateMutations_eq_built (endpoints : List BridgeEndpoint) (baseUrl : Text) :
    generateMutations copy case endpoints baseUrl =
      (built copy case endpoints baseUrl).map fun b => b.2.2 := by
  unfold generateMutations built
  cases endpoints with
  | nil => rfl
  | cons ep eps =>
    have hne : (ep :: eps).map (requestFor baseUrl) ≠ [] := List.cons_ne_nil _ _
    simp only [hne, if_false]
    generalize MutationEngine.runCli copy case _ = results
    cases results with
    | error e => rfl
    | ok results => simp [List.map_flatMap, Function.comp_def]

end MutationBridge

section deduplication

open MutationEngine

lemma deduplicateFrom_cons (seen : List Text) (m : Mutation) (ms : List Mutation) :
    deduplicateFrom seen (m :: ms) =
      if generateFingerprint m ∈ seen then deduplicateFrom seen ms
      else m :: deduplicateFrom (generateFingerprint m :: seen) ms := rfl

/-- A mutation with a new fingerprint is kept. -/
lemma mem_deduplicateFrom {pre post : List Mutation} {m : Mutation} {seen : List Text}
    (hseen : generateFingerprint m ∉ seen)
    (hpre : ∀ x ∈ pre, generateFingerprint x ≠ generateFingerprint m) :
    m ∈ deduplicateFrom seen (pre ++ m :: post) := by
  induction pre generalizing seen with
  | nil =>
    rw [List.nil_append, deduplicateFrom_cons, if_neg hseen]
    exact List.mem_cons_self
  | cons x pre ih =>
    have hrest : ∀ y ∈ pre, generateFingerprint y ≠ generateFingerprint m :=
      fun y hy => hpre y (List.mem_cons_of_mem x hy)
    rw [List.cons_append, deduplicateFrom_cons]
    by_cases hx : generateFingerprint x ∈ seen
    · rw [if_pos hx]
      exact ih hseen hrest
    · rw [if_neg hx]
      apply List.mem_cons_of_mem
      apply ih _ hrest
      intro hmem
      rcases List.mem_cons.mp hmem with heq | hmem
      · exact hpre x List.mem_cons_self heq.symm
      · exact hseen hmem

end deduplication

section headers

open HeaderMutator

variable (case : CaseMap) (headers : Obj) (key t : Text)

/-- Mutations that leave method and path to the request. -/
def LeavesTarget (ms : List Mutation) : Prop := ∀ m ∈ ms, m.method = none ∧ m.path = none

lemma leavesTarget_map {α : Type} (xs : List α) (o : α → Obj) (s r : α → Text) :
    LeavesTarget (xs.map fun x => mutation (o x) (s x) (r x)) := by
  intro m hm
  obtain ⟨x, -, rfl⟩ := List.mem_map.mp hm
  exact ⟨rfl, rfl⟩

lemma leavesTarget_settingEach (strategy reason : Text → Text) (texts : List Text) :
    LeavesTarget (settingEach mutation headers key strategy reason texts) :=
  leavesTarget_map _ _ _ _

lemma LeavesTarget.append {ms ns : List Mutation} (hm : LeavesTarget ms) (hn : LeavesTarget ns) :
    LeavesTarget (ms ++ ns) := by
  intro m hmem
  rcases List.mem_append.mp hmem with h | h
  · exact hm m h
  · exact hn m h

lemma leavesTarget_nil : LeavesTarget [] := by
  intro m hm
  cases hm

/-- A header with a text as its value raises no exception. -/
lemma garbageToken_str : ∃ ms, garbageToken case headers key (.str t) = .ok ms ∧
    LeavesTarget ms := by
  unfold garbageToken
  by_cases h : includes (case.lower key) (js "authorization") = true
  · simp only [h, Bool.not_true, Bool.false_eq_true, if_false]
    exact ⟨_, rfl, leavesTarget_settingEach _ _ _ _ _⟩
  · simp only [h, Bool.not_false, if_true]
    exact ⟨[], rfl, leavesTarget_nil⟩

lemma tenantSwapping_str : ∃ ms, tenantSwapping case headers key (.str t) = .ok ms ∧
    LeavesTarget ms := by
  unfold tenantSwapping
  dsimp only
  split
  · exact ⟨[], rfl, leavesTarget_nil⟩
  · split
    · exact ⟨[], rfl, leavesTarget_nil⟩
    · exact ⟨_, rfl, leavesTarget_map _ _ _ _⟩

lemma privelegeEsc_leavesTarget : LeavesTarget (privelegeEsc case headers key) := by
  unfold privelegeEsc
  split
  · exact leavesTarget_nil
  · exact leavesTarget_settingEach _ _ _ _ _

lemma contentTypeSwap_leavesTarget : LeavesTarget (contentTypeSwap case headers key) := by
  unfold contentTypeSwap
  split
  · exact leavesTarget_nil
  · exact leavesTarget_settingEach _ _ _ _ _

/-- The removal of the header comes first. -/
lemma mutateKey_str : ∃ ms, mutateKey case headers key (.str t) =
      .ok (mutation (headers.delete key) (js "remove_header:" ++ key)
        (js "Testing what happens when " ++ key ++ js " is missing") :: ms) ∧
    LeavesTarget ms := by
  obtain ⟨garbage, hgarbage, hg⟩ := garbageToken_str case headers key t
  obtain ⟨tenants, htenants, ht⟩ := tenantSwapping_str case headers key t
  unfold mutateKey
  rw [hgarbage, htenants]
  refine ⟨_, rfl, ?_⟩
  apply LeavesTarget.append _ (contentTypeSwap_leavesTarget case headers key)
  apply LeavesTarget.append _ ht
  apply LeavesTarget.append _ (privelegeEsc_leavesTarget case headers key)
  apply LeavesTarget.append _ hg
  change LeavesTarget (blankValue headers key)
  exact leavesTarget_settingEach headers key _ _ _

end headers

section bridge

open MutationBridge MutationEngine

variable (case : CaseMap)

/-- The first mutation of every request of the bridge. -/
def removal : Mutation :=
  HeaderMutator.mutation [] (js "remove_header:" ++ js "Content-Type")
    (js "Testing what happens when " ++ js "Content-Type" ++ js " is missing")

lemma headerMutate_requestHeaders : ∃ ms,
    HeaderMutator.mutate case requestHeaders = .ok (removal :: ms) ∧ LeavesTarget ms := by
  obtain ⟨ms, hms, hleaves⟩ := mutateKey_str case requestHeaders (js "Content-Type")
    (js "application/json")
  have hspoof : LeavesTarget (HeaderMutator.idSpoofing requestHeaders) :=
    leavesTarget_map _ _ _ _
  refine ⟨ms ++ HeaderMutator.idSpoofing requestHeaders, ?_, hleaves.append hspoof⟩
  have hkeys : requestHeaders.mapM (fun kv => HeaderMutator.mutateKey case requestHeaders
      kv.1 kv.2) = .ok [removal :: ms] := by
    change (HeaderMutator.mutateKey case requestHeaders _ _ >>= _) = _
    rw [hms]
    rfl
  change (requestHeaders.mapM _ >>= _) = _
  rw [hkeys]
  simp

/-- The body of a bridge request raises an exception only in the standalone copy. -/
lemma bodyMutate_requestBody {copy : EngineCopy} {required : Bool}
    (h : copy = .bundled ∨ required = false) :
    ∃ ms, ofObject (BodyMutator.mutate copy) (some (requestBody required)) = .ok ms ∧
      (required = false → ms = []) := by
  cases required with
  | false => exact ⟨[], rfl, fun _ => rfl⟩
  | true =>
    obtain rfl : copy = .bundled := h.resolve_right (by simp)
    exact ⟨_, rfl, fun h => by cases h⟩

lemma bodyMutate_standalone : ∃ e,
    ofObject (BodyMutator.mutate .standalone) (some (requestBody true)) = .error e :=
  ⟨_, rfl⟩

/-- The mutations of a bridge request start with those of its only header. -/
lemma allMutations_requestFor {copy : EngineCopy} (baseUrl : Text) (ep : BridgeEndpoint)
    (h : copy = .bundled ∨ ep.requestBodyRequired = false) :
    ∃ hs bs, LeavesTarget hs ∧ (ep.requestBodyRequired = false → bs = []) ∧
      allMutations copy case (requestFor baseUrl ep) =
        .ok (removal :: hs ++ bs ++ ofText (MethodMutator.mutate case) (some ep.method) ++
          ofText (PathMutator.mutate case) (some (targetUrl baseUrl ep.path))) := by
  obtain ⟨hs, hheaders, hleaves⟩ := headerMutate_requestHeaders case
  obtain ⟨bs, hbody, hbs⟩ := bodyMutate_requestBody h
  have hheaders' : ofObject (HeaderMutator.mutate case) (some requestHeaders) =
      .ok (removal :: hs) := hheaders
  refine ⟨hs, bs, hleaves, hbs, ?_⟩
  unfold allMutations requestFor
  rw [hheaders', hbody]
  rfl

lemma mapM_ok {α β ε : Type} {f : α → Except ε β} {xs : List α}
    (h : ∀ x ∈ xs, ∃ y, f x = .ok y) :
    ∃ ys, xs.mapM f = .ok ys ∧ ∀ x ∈ xs, ∀ y, f x = .ok y → y ∈ ys := by
  induction xs with
  | nil => exact ⟨[], rfl, fun x hx => by cases hx⟩
  | cons x xs ih =>
    obtain ⟨y, hy⟩ := h x List.mem_cons_self
    obtain ⟨ys, hys, hmem⟩ := ih fun z hz => h z (List.mem_cons_of_mem x hz)
    refine ⟨y :: ys, ?_, fun z hz w hw => ?_⟩
    · rw [List.mapM_cons, hy, hys]
      rfl
    · rcases List.mem_cons.mp hz with rfl | hz
      · rw [hy] at hw
        rw [Except.ok.inj hw]
        exact List.mem_cons_self
      · exact List.mem_cons_of_mem y (hmem z hz w hw)

lemma mapM_error {α β ε : Type} {f : α → Except ε β} {xs : List α} {x : α} (hx : x ∈ xs) {e : ε}
    (h : f x = .error e) : ∃ e', xs.mapM f = .error e' := by
  induction xs with
  | nil => cases hx
  | cons y xs ih =>
    rw [List.mapM_cons]
    cases hy : f y with
    | error e' => exact ⟨e', rfl⟩
    | ok z =>
      have hx' : x ∈ xs := by
        rcases List.mem_cons.mp hx with rfl | hx
        · rw [h] at hy
          cases hy
        · exact hx
      obtain ⟨e', he'⟩ := ih hx'
      exact ⟨e', by rw [he']; rfl⟩

/-- The mutations that are kept for a request become tasks. -/
lemma mem_built {copy : EngineCopy} {endpoints : List BridgeEndpoint} {baseUrl : Text}
    (h : ∀ ep ∈ endpoints, copy = .bundled ∨ ep.requestBodyRequired = false)
    {ep : BridgeEndpoint} (hep : ep ∈ endpoints) {all : List Mutation}
    (hall : allMutations copy case (requestFor baseUrl ep) = .ok all) {m : Mutation}
    (hm : m ∈ deduplicate all) :
    (requestFor baseUrl ep, m, taskOf m) ∈ built copy case endpoints baseUrl := by
  have hok : ∀ request ∈ endpoints.map (requestFor baseUrl),
      ∃ y, runRequest copy case request = .ok y := by
    intro request hrequest
    obtain ⟨ep', hep', rfl⟩ := List.mem_map.mp hrequest
    obtain ⟨hs, bs, -, -, hall'⟩ := allMutations_requestFor case baseUrl ep' (h ep' hep')
    exact ⟨_, runRequest_ok hall'⟩
  obtain ⟨results, hresults, hmem⟩ := mapM_ok hok
  unfold built runCli
  rw [hresults]
  apply List.mem_flatMap.mpr
  refine ⟨(requestFor baseUrl ep, assignSeverity (deduplicate all)), ?_, ?_⟩
  · exact hmem _ (List.mem_map_of_mem hep) _ (runRequest_ok hall)
  · exact List.mem_map.mpr ⟨_, List.mem_map.mpr ⟨m, hm, rfl⟩, rfl⟩

lemma built_of_standalone {endpoints : List BridgeEndpoint} {baseUrl : Text}
    {ep : BridgeEndpoint} (hep : ep ∈ endpoints) (h : ep.requestBodyRequired = true) :
    built .standalone case endpoints baseUrl = [] := by
  have herror : ∃ e, allMutations .standalone case (requestFor baseUrl ep) = .error e := by
    obtain ⟨hs, hheaders, -⟩ := headerMutate_requestHeaders case
    obtain ⟨e, hbody⟩ := bodyMutate_standalone
    have hheaders' : ofObject (HeaderMutator.mutate case) (some requestHeaders) =
        .ok (removal :: hs) := hheaders
    unfold allMutations requestFor
    rw [hheaders', h, hbody]
    exact ⟨e, rfl⟩
  obtain ⟨e, he⟩ := herror
  obtain ⟨e', he'⟩ := mapM_error (List.mem_map_of_mem hep) (runRequest_error he)
  unfold built runCli
  rw [he']

/-- A mutation without method and path has a fingerprint that starts with the separator. -/
lemma fingerprint_of_leavesTarget {m : Mutation} (h : m.method = none ∧ m.path = none) :
    (generateFingerprint m).head? = some (unit '|') := by
  unfold generateFingerprint
  rw [h.1, h.2]
  rfl

end bridge

open MutationBridge MutationEngine

/-- Every task of the bridge is its request with the components of its mutation. -/
def KeepsRequests (copy : EngineCopy) (case : CaseMap) (endpoints : List BridgeEndpoint)
    (baseUrl : Text) : Prop :=
  ∀ b ∈ built copy case endpoints baseUrl, ChangesOnly b.1 b.2.1 b.2.2

/-- The first method switch of a GET request. -/
def switchToPost : Mutation :=
  MethodMutator.mutation (js "POST") (js "method_switch:" ++ js "POST")
    (js "Testing if " ++ js "POST" ++ js " is accessible when original method is " ++ js "GET")

lemma methodMutate_get (case : CaseMap) : ∃ ms,
    ofText (MethodMutator.mutate case) (some (js "GET")) = switchToPost :: ms := by
  have hblank : trim (js "GET") ≠ [] := by decide +kernel
  have hswitch : ∃ ms, MethodMutator.methodSwitching (js "GET") = switchToPost :: ms :=
    ⟨_, rfl⟩
  obtain ⟨ms, hms⟩ := hswitch
  rw [ofText_some hblank]
  unfold MethodMutator.mutate
  rw [hms]
  exact ⟨_, rfl⟩

/-- Some task of an endpoint differs from its request elsewhere than in its mutation: the
removal of the header, unless all defaults are the components of the request, and then the
switch to POST, which loses the header. -/
lemma not_keepsRequests {copy : EngineCopy} {case : CaseMap} {endpoints : List BridgeEndpoint}
    {baseUrl : Text} (h : ∀ ep ∈ endpoints, copy = .bundled ∨ ep.requestBodyRequired = false)
    {ep : BridgeEndpoint} (hep : ep ∈ endpoints) :
    ¬KeepsRequests copy case endpoints baseUrl := by
  intro hkeeps
  obtain ⟨hs, bs, hleaves, hbs, hall⟩ := allMutations_requestFor case baseUrl ep (h ep hep)
  have hremoval := hkeeps _ (mem_built case h hep hall List.mem_cons_self)
  have hmethod : js "GET" = ep.method := Option.some.inj hremoval.method
  have hbody : [] = requestBody ep.requestBodyRequired := Option.some.inj hremoval.payload
  have hrequired : ep.requestBodyRequired = false := by
    cases hr : ep.requestBodyRequired with
    | false => rfl
    | true =>
      rw [hr] at hbody
      cases hbody
  obtain ⟨ms, hms⟩ := methodMutate_get case
  rw [← hmethod, hms, hbs hrequired, List.append_nil, List.append_assoc, List.cons_append] at hall
  have hpost : switchToPost ∈ deduplicate (removal :: hs ++ switchToPost ::
      (ms ++ ofText (PathMutator.mutate case) (some (targetUrl baseUrl ep.path)))) := by
    apply mem_deduplicateFrom (List.not_mem_nil)
    intro x hx heq
    have hx' : x.method = none ∧ x.path = none := by
      rcases List.mem_cons.mp hx with rfl | hx
      · exact ⟨rfl, rfl⟩
      · exact hleaves x hx
    have hhead := fingerprint_of_leavesTarget hx'
    rw [heq] at hhead
    revert hhead
    decide +kernel
  have hheaders := (hkeeps _ (mem_built case h hep hall hpost)).headers
  cases hheaders

/-- The tasks keep the requests only where there are none: for no endpoints, or where the
engine raises an exception. -/
theorem fuzz_tasks_keep_requests_iff (copy : EngineCopy) (case : CaseMap)
    (endpoints : List BridgeEndpoint) (baseUrl : Text) :
    KeepsRequests copy case endpoints baseUrl ↔
      endpoints = [] ∨
        (copy = .standalone ∧ ∃ ep ∈ endpoints, ep.requestBodyRequired = true) := by
  constructor
  · intro hkeeps
    by_contra hn
    have hne : endpoints ≠ [] := fun h => hn (Or.inl h)
    have hok : ∀ ep ∈ endpoints, copy = .bundled ∨ ep.requestBodyRequired = false := by
      intro ep hep
      cases copy with
      | bundled => exact Or.inl rfl
      | standalone =>
        right
        by_contra hr
        exact hn (Or.inr ⟨rfl, ep, hep, by simpa using hr⟩)
    obtain ⟨ep, hep⟩ := List.exists_mem_of_ne_nil endpoints hne
    exact not_keepsRequests hok hep hkeeps
  · rintro (rfl | ⟨rfl, ep, hep, hr⟩)
    · intro b hb
      cases hb
    · intro b hb
      rw [built_of_standalone case hep hr] at hb
      cases hb

/-- The removal of the header of `GET /users` becomes a task for the empty URL. -/
theorem fuzz_tasks_lose_url :
    ¬KeepsRequests .bundled asciiCase [{ method := js "GET", path := js "/users" }]
      (js "https://target.example") := by
  intro hkeeps
  obtain ⟨hs, bs, -, -, hall⟩ := allMutations_requestFor asciiCase (js "https://target.example")
    { method := js "GET", path := js "/users" } (Or.inl rfl)
  have hremoval := hkeeps _ (mem_built asciiCase (fun _ _ => Or.inl rfl) List.mem_cons_self hall
    List.mem_cons_self)
  have hurl := hremoval.url
  revert hurl
  decide +kernel

end SecurityScanner

import SecurityScanner.Discovery.Bridges

/-!
# Where the generators send their requests

The crawler and the mutation bridge join a base and a path with one slash, the role swapper
puts them together as they are, and a source that stands for a single endpoint changes the base
of the crawler alone.
-/

namespace SecurityScanner

open JavaScript Python Fallible Joining

section definitions

/-- The role tasks of an endpoint. -/
def DiscoverRequest.jwtTasksOf (req : DiscoverRequest) (target : Text) (ep : SpecEndpoint) :
    List BridgeTask :=
  match req.jwtTokens with
  | some tokens => JWTBridge.generateJwtTasks [ep] tokens (req.base target)
  | none => []

/-- The role tasks and the mutations of an endpoint go where its crawler task goes. -/
structure SameTarget (req : DiscoverRequest) (target : Text) (te : BridgeTask × SpecEndpoint) :
    Prop where
  jwt : ∀ t ∈ req.jwtTasksOf target te.2, t.url = te.1.url
  mutation : (MutationBridge.requestFor (req.base target) te.2.toBridge).path = some te.1.url

/-- Base and path have one slash between them when they are put together. -/
def OneSlash (baseUrl path : Text) : Prop :=
  baseUrl = [] ∨ trailing (unit '/') baseUrl + leading (unit '/') path = 1

/-- The request has a token for the role swapper. -/
def DiscoverRequest.HasTokens (req : DiscoverRequest) : Prop :=
  ∃ token tokens, req.jwtTokens = some (token :: tokens)

/-- The generators agree on where the endpoints are that the parser finds at the source, or on
the host of a source where it finds none. -/
def TargetsAgree (P : SpecParser) (I : Interpreter)
    (checkNetloc : Text → Except Url.ValueError Unit) (req : DiscoverRequest) (target : Text) :
    Prop :=
  ∀ result, DiscoveryBridge.specResult P I checkNetloc req.specSource = .ok result →
    if DiscoveryBridge.isUrl req.specSource ∧ result.endpoints = [] then
      ∀ parsed, DiscoveryBridge.urlparse checkNetloc req.specSource = .ok parsed →
        req.base target ≠ [] ∧
          rstrip (unit '/') (req.base target) = rstrip (unit '/') (DiscoveryBridge.hostOf parsed)
    else
      req.HasTokens → ∀ ep ∈ result.endpoints, ep.hasAuth = true →
        OneSlash (req.base target) ep.path

end definitions

section urls

lemma targetUrl_eq (baseUrl path : Text) :
    MutationBridge.targetUrl baseUrl path =
      if baseUrl = [] then path else join (unit '/') baseUrl path := by
  have hslash : js "/" = [unit '/'] := by decide
  unfold MutationBridge.targetUrl
  by_cases hbase : baseUrl = []
  · simp [hbase]
  · rw [if_pos hbase, if_neg hbase, hslash, List.append_assoc]
    rfl

/-- The swapper's URL is the crawler's when there is one slash. -/
lemma append_eq_targetUrl (baseUrl path : Text) :
    baseUrl ++ path = MutationBridge.targetUrl baseUrl path ↔ OneSlash baseUrl path := by
  unfold OneSlash
  rw [targetUrl_eq]
  by_cases hbase : baseUrl = []
  · simp [hbase]
  · rw [if_neg hbase, append_eq_join]
    simp [hbase]

/-- The URL for the host of the source is the one for the base when they are the same. -/
lemma targetUrl_eq_host {host : Text} (hhost : rstrip (unit '/') host ≠ []) (baseUrl path : Text) :
    MutationBridge.targetUrl baseUrl path = MutationBridge.targetUrl host path ↔
      baseUrl ≠ [] ∧ rstrip (unit '/') baseUrl = rstrip (unit '/') host := by
  have hne : host ≠ [] := by
    rintro rfl
    exact hhost rfl
  rw [targetUrl_eq, targetUrl_eq, if_neg hne]
  by_cases hbase : baseUrl = []
  · rw [if_pos hbase, eq_join]
    simp [hbase, hhost]
  · rw [if_neg hbase, join_right_inj]
    simp [hbase]

/-- A host has a colon before its slashes. -/
lemma rstrip_hostOf (parsed : Url.Parts UInt16) :
    rstrip (unit '/') (DiscoveryBridge.hostOf parsed) ≠ [] := by
  intro h
  have hsplit := rstrip_append_trailing (a := unit '/') (DiscoveryBridge.hostOf parsed)
  rw [h, List.nil_append] at hsplit
  have hcolon : unit ':' ∈ DiscoveryBridge.hostOf parsed := by
    unfold DiscoveryBridge.hostOf
    simp [js, encodeChar, unit]
  rw [← hsplit] at hcolon
  exact absurd (List.eq_of_mem_replicate hcolon) (by decide)

end urls

section endpoints

variable {req : DiscoverRequest} {target : Text}

/-- The role task of an endpoint and a token. -/
def roleTaskFor (baseUrl : Text) (ep : SpecEndpoint) (token : Text × Text) : BridgeTask where
  method := ep.method
  url := baseUrl ++ ep.path
  headers := MutationBridge.requestHeaders
  authToken := some token.2
  retryCount := 3
  priorityLevel := "P2"

/-- The role tasks: one for each token and endpoint that wants any. -/
lemma generateJwtTasks_eq (eps : List SpecEndpoint) (tokens : List (Text × Text)) (baseUrl : Text) :
    JWTBridge.generateJwtTasks eps tokens baseUrl =
      (eps.filter (·.hasAuth)).flatMap fun ep => tokens.map (roleTaskFor baseUrl ep) := by
  unfold JWTBridge.generateJwtTasks JWTBridge.swapperEndpoints generateTestCases
  cases eps.filter (·.hasAuth) with
  | nil => rfl
  | cons ep eps =>
    simp only [List.map_flatMap, List.flatMap_map, List.map_map, Function.comp_def]
    rfl

lemma generateJwtTasks_flatMap (eps : List SpecEndpoint) (tokens : List (Text × Text))
    (baseUrl : Text) :
    JWTBridge.generateJwtTasks eps tokens baseUrl =
      eps.flatMap fun ep => JWTBridge.generateJwtTasks [ep] tokens baseUrl := by
  simp only [generateJwtTasks_eq]
  induction eps with
  | nil => rfl
  | cons ep eps ih =>
    rw [List.flatMap_cons, ← ih]
    cases hauth : ep.hasAuth <;> simp [hauth]

lemma jwt_urls_iff (ep : SpecEndpoint) (url : Text) :
    (∀ t ∈ req.jwtTasksOf target ep, t.url = url) ↔
      (req.HasTokens → ep.hasAuth = true → req.base target ++ ep.path = url) := by
  unfold DiscoverRequest.jwtTasksOf DiscoverRequest.HasTokens
  cases req.jwtTokens with
  | none => simp
  | some tokens =>
    dsimp only
    rw [generateJwtTasks_eq]
    cases hauth : ep.hasAuth with
    | false => simp [hauth]
    | true =>
      rw [List.filter_cons_of_pos hauth, List.filter_nil, List.flatMap_singleton,
        List.forall_mem_map]
      constructor
      · rintro h ⟨token, rest, htokens⟩ -
        obtain rfl := Option.some.inj htokens
        exact h token List.mem_cons_self
      · intro h token htoken
        obtain ⟨first, rest, rfl⟩ := List.exists_cons_of_ne_nil (List.ne_nil_of_mem htoken)
        exact h ⟨first, rest, rfl⟩ rfl

/-- When the role tasks and the mutations of an endpoint go where its crawler task goes. -/
lemma sameTarget_iff (baseUrl : Text) (ep : SpecEndpoint) :
    SameTarget req target (DiscoveryBridge.taskFor baseUrl ep, ep) ↔
      (req.HasTokens → ep.hasAuth = true →
        req.base target ++ ep.path = MutationBridge.targetUrl baseUrl ep.path) ∧
      MutationBridge.targetUrl (req.base target) ep.path =
        MutationBridge.targetUrl baseUrl ep.path := by
  have hurl : (DiscoveryBridge.taskFor baseUrl ep).url = MutationBridge.targetUrl baseUrl ep.path :=
    rfl
  have hmutation : (MutationBridge.requestFor (req.base target) ep.toBridge).path =
      some (MutationBridge.targetUrl (req.base target) ep.path) := rfl
  constructor
  · rintro ⟨hjwt, hmut⟩
    rw [hmutation, hurl, Option.some_inj] at hmut
    exact ⟨(jwt_urls_iff ep _).mp hjwt, hmut⟩
  · rintro ⟨hjwt, hmut⟩
    refine ⟨(jwt_urls_iff ep _).mpr hjwt, ?_⟩
    rw [hmutation, hmut, hurl]

/-- An endpoint of the parser: its role tasks decide. -/
lemma sameTarget_found (ep : SpecEndpoint) :
    SameTarget req target (DiscoveryBridge.taskFor (req.base target) ep, ep) ↔
      (req.HasTokens → ep.hasAuth = true → OneSlash (req.base target) ep.path) := by
  rw [sameTarget_iff, append_eq_targetUrl]
  exact and_iff_left rfl

/-- A source that is a single endpoint: its mutations decide. -/
lemma sameTarget_single (parsed : Url.Parts UInt16) :
    SameTarget req target (DiscoveryBridge.taskFor (DiscoveryBridge.hostOf parsed)
        (DiscoveryBridge.singleEndpoint parsed), DiscoveryBridge.singleEndpoint parsed) ↔
      req.base target ≠ [] ∧
        rstrip (unit '/') (req.base target) = rstrip (unit '/') (DiscoveryBridge.hostOf parsed) := by
  have hauth : (DiscoveryBridge.singleEndpoint parsed).hasAuth = false := rfl
  rw [sameTarget_iff, targetUrl_eq_host (rstrip_hostOf parsed), hauth]
  simp

end endpoints

section requests

variable {P : SpecParser} {I : Interpreter} {checkNetloc : Text → Except Url.ValueError Unit}
  {req : DiscoverRequest} {target : Text} {result : ParseResult}

/-- What the role swapper and the mutation engine get belongs to the crawler tasks. -/
lemma discover_generates {generated : Generated}
    (h : discover P I checkNetloc req target = .ok generated) :
    generated.jwt = generated.crawler.flatMap (fun te => req.jwtTasksOf target te.2) ∧
      generated.mutation = generated.crawler.map fun te =>
        MutationBridge.requestFor (req.base target) te.2.toBridge := by
  unfold discover at h
  dsimp only at h
  obtain ⟨tasks, htasks, -⟩ := returns_bind.mp ⟨generated, h⟩
  rw [htasks] at h
  obtain rfl := Except.ok.inj h
  refine ⟨?_, by simp [Function.comp_def]⟩
  unfold DiscoverRequest.jwtTasksOf
  cases req.jwtTokens with
  | none => simp
  | some tokens =>
    dsimp only
    rw [generateJwtTasks_flatMap, List.flatMap_map]
    cases tokens with
    | nil => simp [generateJwtTasks_eq]
    | cons token tokens => rfl

lemma discover_of_tasks {tasks : List (BridgeTask × SpecEndpoint)}
    (h : DiscoveryBridge.generateTasksFromSpec P I checkNetloc req.specSource (req.base target) =
      .ok tasks) :
    ∃ generated, discover P I checkNetloc req target = .ok generated ∧ generated.crawler = tasks := by
  unfold discover
  dsimp only
  rw [h]
  exact ⟨_, rfl, rfl⟩

lemma discover_of_error {e : DiscoveryError}
    (h : DiscoveryBridge.generateTasksFromSpec P I checkNetloc req.specSource (req.base target) =
      .error e) : discover P I checkNetloc req target = .error e := by
  unfold discover
  dsimp only
  rw [h]
  rfl

end requests

section sources

variable {P : SpecParser} {I : Interpreter} {checkNetloc : Text → Except Url.ValueError Unit}
  {source : Text} {result : ParseResult} (baseUrl : Text)

/-- The tasks for a source whose specification has endpoints. -/
lemma tasks_found (hresult : DiscoveryBridge.specResult P I checkNetloc source = .ok result)
    (hfound : result.endpoints ≠ []) :
    DiscoveryBridge.generateTasksFromSpec P I checkNetloc source baseUrl =
      .ok (result.endpoints.map fun ep => (DiscoveryBridge.taskFor baseUrl ep, ep)) := by
  have hne : result.endpoints.isEmpty = false := by simpa using hfound
  unfold DiscoveryBridge.generateTasksFromSpec
  rw [hresult, ok_bind, hne, Bool.and_false, if_neg Bool.false_ne_true]
  simp only [pure_bind, hne]
  rfl

/-- The task for a URL where the parser finds no endpoint. -/
lemma tasks_single {parsed : Url.Parts UInt16}
    (hresult : DiscoveryBridge.specResult P I checkNetloc source = .ok result)
    (hurl : DiscoveryBridge.isUrl source = true) (hnone : result.endpoints = [])
    (hparsed : DiscoveryBridge.urlparse checkNetloc source = .ok parsed) :
    DiscoveryBridge.generateTasksFromSpec P I checkNetloc source baseUrl =
      .ok [(DiscoveryBridge.taskFor (DiscoveryBridge.hostOf parsed)
        (DiscoveryBridge.singleEndpoint parsed), DiscoveryBridge.singleEndpoint parsed)] := by
  unfold DiscoveryBridge.generateTasksFromSpec
  rw [hresult, ok_bind, hurl, hnone, List.isEmpty_nil, Bool.and_self, if_pos rfl, hparsed]
  rfl

lemma tasks_unparsable {e : DiscoveryError}
    (hresult : DiscoveryBridge.specResult P I checkNetloc source = .ok result)
    (hurl : DiscoveryBridge.isUrl source = true) (hnone : result.endpoints = [])
    (hparsed : DiscoveryBridge.urlparse checkNetloc source = .error e) :
    DiscoveryBridge.generateTasksFromSpec P I checkNetloc source baseUrl = .error e := by
  unfold DiscoveryBridge.generateTasksFromSpec
  rw [hresult, ok_bind, hurl, hnone, List.isEmpty_nil, Bool.and_self, if_pos rfl, hparsed]
  rfl

lemma tasks_none (hresult : DiscoveryBridge.specResult P I checkNetloc source = .ok result)
    (hurl : DiscoveryBridge.isUrl source = false) (hnone : result.endpoints = []) :
    DiscoveryBridge.generateTasksFromSpec P I checkNetloc source baseUrl =
      .error (DiscoveryBridge.noEndpoints result.errorsEncountered) := by
  unfold DiscoveryBridge.generateTasksFromSpec
  rw [hresult, ok_bind, hurl, Bool.false_and, if_neg Bool.false_ne_true, hnone]
  rfl

lemma tasks_error {e : DiscoveryError}
    (hresult : DiscoveryBridge.specResult P I checkNetloc source = .error e) :
    DiscoveryBridge.generateTasksFromSpec P I checkNetloc source baseUrl = .error e := by
  unfold DiscoveryBridge.generateTasksFromSpec
  rw [hresult]
  rfl

end sources

section agreement

variable {P : SpecParser} {I : Interpreter} {checkNetloc : Text → Except Url.ValueError Unit}
  {req : DiscoverRequest} {target : Text}

/-- The generated lists follow the crawler tasks: the role tasks are those of one endpoint after
the other, and each of them, like the request for the mutation engine in the place of its
endpoint, goes where the crawler task goes. -/
structure Generated.FollowsCrawler (generated : Generated) (req : DiscoverRequest)
    (target : Text) : Prop where
  jwt : ∃ parts : List (List BridgeTask), generated.jwt = parts.flatten ∧
    List.Forall₂ (fun te part => part = req.jwtTasksOf target te.2 ∧ ∀ t ∈ part, t.url = te.1.url)
      generated.crawler parts
  mutation : List.Forall₂ (fun te request => request.path = some te.1.url)
    generated.crawler generated.mutation

/-- All generators send their requests for an endpoint to one URL. -/
def SameTargets (P : SpecParser) (I : Interpreter)
    (checkNetloc : Text → Except Url.ValueError Unit) (req : DiscoverRequest) (target : Text) :
    Prop :=
  ∀ generated, discover P I checkNetloc req target = .ok generated →
    generated.FollowsCrawler req target

/-- The generated lists follow the crawler tasks when each endpoint's tasks and mutations do. -/
lemma followsCrawler_iff {generated : Generated}
    (h : discover P I checkNetloc req target = .ok generated) :
    generated.FollowsCrawler req target ↔ ∀ te ∈ generated.crawler, SameTarget req target te := by
  obtain ⟨hjwt, hmutation⟩ := discover_generates h
  constructor
  · rintro ⟨⟨parts, -, hparts⟩, hrequests⟩ te hte
    rw [hmutation, List.forall₂_map_right_iff, List.forall₂_same] at hrequests
    have hurls : List.Forall₂ (fun te part =>
        (∀ t ∈ req.jwtTasksOf target te.2, t.url = te.1.url) ∧ part = req.jwtTasksOf target te.2)
        generated.crawler parts :=
      hparts.imp fun te part h => ⟨h.1 ▸ h.2, h.1⟩
    exact ⟨((List.forall₂_and_left _ _).mp hurls).1 te hte, hrequests te hte⟩
  · intro hall
    refine ⟨⟨generated.crawler.map fun te => req.jwtTasksOf target te.2, ?_, ?_⟩, ?_⟩
    · rw [hjwt, List.flatMap_def]
    · rw [List.forall₂_map_right_iff, List.forall₂_same]
      exact fun te hte => ⟨rfl, (hall te hte).jwt⟩
    · rw [hmutation, List.forall₂_map_right_iff, List.forall₂_same]
      exact fun te hte => (hall te hte).mutation

lemma sameTargets_of_error {e : DiscoveryError} (h : discover P I checkNetloc req target = .error e) :
    SameTargets P I checkNetloc req target := by
  intro generated hgenerated
  rw [h] at hgenerated
  cases hgenerated

lemma sameTargets_of_tasks {tasks : List (BridgeTask × SpecEndpoint)}
    (h : DiscoveryBridge.generateTasksFromSpec P I checkNetloc req.specSource (req.base target) =
      .ok tasks) :
    SameTargets P I checkNetloc req target ↔ ∀ te ∈ tasks, SameTarget req target te := by
  obtain ⟨generated, hgenerated, rfl⟩ := discover_of_tasks h
  rw [← followsCrawler_iff hgenerated]
  constructor
  · exact fun hall => hall generated hgenerated
  · intro hall other hother
    rw [hgenerated] at hother
    obtain rfl := Except.ok.inj hother
    exact hall

theorem sameTargets_iff (P : SpecParser) (I : Interpreter)
    (checkNetloc : Text → Except Url.ValueError Unit) (req : DiscoverRequest) (target : Text) :
    SameTargets P I checkNetloc req target ↔ TargetsAgree P I checkNetloc req target := by
  unfold TargetsAgree
  cases hresult : DiscoveryBridge.specResult P I checkNetloc req.specSource with
  | error e =>
    have herror : SameTargets P I checkNetloc req target :=
      sameTargets_of_error (discover_of_error (tasks_error _ hresult))
    simpa using herror
  | ok result =>
    by_cases hnone : result.endpoints = []
    · cases hurl : DiscoveryBridge.isUrl req.specSource with
      | false =>
        have herror : SameTargets P I checkNetloc req target :=
          sameTargets_of_error (discover_of_error (tasks_none _ hresult hurl hnone))
        simpa [hnone] using herror
      | true =>
        cases hparsed : DiscoveryBridge.urlparse checkNetloc req.specSource with
        | error e =>
          have herror : SameTargets P I checkNetloc req target :=
            sameTargets_of_error (discover_of_error (tasks_unparsable _ hresult hurl hnone hparsed))
          simpa [hnone] using herror
        | ok parsed =>
          rw [sameTargets_of_tasks (tasks_single _ hresult hurl hnone hparsed),
            List.forall_mem_singleton, sameTarget_single]
          simp [hnone]
    · rw [sameTargets_of_tasks (tasks_found _ hresult hnone), List.forall_mem_map]
      simp only [sameTarget_found, Except.ok.injEq, forall_eq', hnone, and_false, if_false]
      constructor
      · exact fun h htokens ep hep => h ep hep htokens
      · exact fun h ep hep htokens => h htokens ep hep

/-- A parser that finds one endpoint in a text. -/
def usersParser : SpecParser where
  fromUrl _ _ := .ok ⟨[], []⟩
  fromContent _ := .ok ⟨[{ method := js "GET", path := js "/users", hasAuth := true }], []⟩
  fromFile _ := .ok ⟨[], []⟩

/-- A base with a slash at its end. -/
def slashRequest : DiscoverRequest where
  specSource := js "\x7b\x7d"
  baseUrl := some (js "https://target.example/")
  jwtTokens := some [(js "admin", js "a.b.c")]

/-- The role task goes to `https://target.example//users`. -/
theorem targets_differ : ¬SameTargets usersParser ascii (fun _ => .ok ()) slashRequest [] := by
  have hresult : DiscoveryBridge.specResult usersParser ascii (fun _ => .ok ())
      slashRequest.specSource =
        .ok ⟨[{ method := js "GET", path := js "/users", hasAuth := true }], []⟩ := by
    rfl
  rw [sameTargets_of_tasks (tasks_found _ hresult (List.cons_ne_nil _ _)), List.forall_mem_map,
    List.forall_mem_singleton, sameTarget_found]
  intro h
  have hslash : OneSlash (js "https://target.example/") (js "/users") := h ⟨_, _, rfl⟩ rfl
  unfold OneSlash at hslash
  exact absurd hslash (by decide)

end agreement

end SecurityScanner

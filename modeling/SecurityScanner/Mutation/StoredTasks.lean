import SecurityScanner.Mutation.FuzzTasks

/-!
# Fuzz tasks in the columns of the database

The tasks of the bridge are written to the columns of `Task`, which have fixed sizes. The
label of one content type is longer than its column.
-/

namespace SecurityScanner

open JavaScript MutationBridge MutationEngine

/-- The characters of a text, where a pair of surrogates is one. -/
def characters : Text → Nat
  | [] => 0
  | [_] => 1
  | u :: v :: t =>
    if 0xd800 ≤ u ∧ u < 0xdc00 ∧ 0xdc00 ≤ v ∧ v < 0xe000 then characters t + 1
    else characters (v :: t) + 1

/-- The task fits into the columns `String(10)`, `String(2048)`, `String(50)` and `String(255)`. -/
structure FitsColumns (task : FuzzTask) : Prop where
  method : characters task.method ≤ 10
  url : characters task.url ≤ 2048
  strategy : characters task.mutationStrategy ≤ 50
  reason : characters task.mutationReason ≤ 255

/-- The whole batch can be written. -/
def StorableTasks (copy : EngineCopy) (case : CaseMap) (endpoints : List BridgeEndpoint)
    (baseUrl : Text) : Prop :=
  ∀ task ∈ generateMutations copy case endpoints baseUrl, FitsColumns task

/-- The only header of a bridge request with another type. -/
def swapTo (type : String) : Mutation :=
  HeaderMutator.mutation [(js "Content-Type", .str (js type))]
    (js "type_swap:" ++ js "Content-Type" ++ js "=" ++ js type)
    (js "Testing content type swapping")

def formSwap : Mutation := swapTo "application/x-www-form-urlencoded"

/-- The mutations of the header before this one. -/
def beforeFormSwap : List Mutation :=
  removal :: HeaderMutator.blankValue requestHeaders (js "Content-Type") ++
    [swapTo "text/xml", swapTo "text/plain"]

variable {copy : EngineCopy} {case : CaseMap}

lemma headerMutate_formSwap (hcase : case.lower (js "Content-Type") = js "content-type") :
    HeaderMutator.mutate case requestHeaders =
      .ok (beforeFormSwap ++ formSwap :: HeaderMutator.idSpoofing requestHeaders) := by
  have hkey : HeaderMutator.mutateKey case requestHeaders (js "Content-Type")
      (.str (js "application/json")) = .ok (beforeFormSwap ++ [formSwap]) := by
    have hauthorization : includes (js "content-type") (js "authorization") = false := by
      decide +kernel
    have hrole : includes (js "content-type") (js "x-user-role") = false := by decide +kernel
    have htenant : (includes (js "content-type") (js "id") ||
        includes (js "content-type") (js "tenant") ||
        includes (js "content-type") (js "org")) = false := by decide +kernel
    have htype : includes (js "content-type") (js "type") = true := by decide +kernel
    unfold HeaderMutator.mutateKey HeaderMutator.garbageToken HeaderMutator.privelegeEsc
      HeaderMutator.tenantSwapping HeaderMutator.contentTypeSwap
    rw [hcase, hauthorization, hrole, htype]
    dsimp only
    rw [htenant]
    rfl
  unfold HeaderMutator.mutate
  change ((HeaderMutator.mutateKey case requestHeaders _ _ >>= _) >>= _) = _
  rw [hkey]
  rfl

/-- The mutations of a bridge request start with those of its header. -/
lemma allMutations_headers {ms : List Mutation}
    (hms : HeaderMutator.mutate case requestHeaders = .ok ms) (baseUrl : Text)
    (ep : BridgeEndpoint) (h : copy = .bundled ∨ ep.requestBodyRequired = false) :
    ∃ rest, allMutations copy case (requestFor baseUrl ep) = .ok (ms ++ rest) := by
  obtain ⟨bs, hbody, -⟩ := bodyMutate_requestBody h
  have hheaders : ofObject (HeaderMutator.mutate case) (some requestHeaders) = .ok ms := hms
  unfold allMutations requestFor
  rw [hheaders, hbody]
  refine ⟨bs ++ (ofText (MethodMutator.mutate case) (some ep.method) ++
    ofText (PathMutator.mutate case) (some (targetUrl baseUrl ep.path))), ?_⟩
  change Except.ok (([] : List Mutation) ++ ms ++ bs ++ _ ++ _) = _
  simp only [List.nil_append, List.append_assoc]

/-- No mutation before it has the same fingerprint. -/
lemma fingerprint_formSwap : ∀ m ∈ beforeFormSwap,
    generateFingerprint m ≠ generateFingerprint formSwap := by
  decide +kernel

lemma formSwap_not_fits : ¬FitsColumns (taskOf formSwap) := by
  intro h
  have hstrategy := h.strategy
  revert hstrategy
  decide +kernel

/-- Every endpoint has a task whose label is too long for its column. -/
lemma not_storable (hcase : case.lower (js "Content-Type") = js "content-type")
    {endpoints : List BridgeEndpoint} {baseUrl : Text}
    (h : ∀ ep ∈ endpoints, copy = .bundled ∨ ep.requestBodyRequired = false)
    {ep : BridgeEndpoint} (hep : ep ∈ endpoints) : ¬StorableTasks copy case endpoints baseUrl := by
  intro hstorable
  obtain ⟨rest, hall⟩ := allMutations_headers (headerMutate_formSwap hcase) baseUrl ep (h ep hep)
  rw [List.append_assoc, List.cons_append] at hall
  have hkept : formSwap ∈ deduplicate (beforeFormSwap ++
      formSwap :: (HeaderMutator.idSpoofing requestHeaders ++ rest)) :=
    mem_deduplicateFrom List.not_mem_nil fingerprint_formSwap
  have hbuilt := mem_built case h hep hall hkept
  unfold StorableTasks at hstorable
  rw [generateMutations_eq_built] at hstorable
  exact formSwap_not_fits (hstorable _ (List.mem_map_of_mem hbuilt))

/-- A batch can be written only if it is empty: for no endpoints, or where the engine raises
an exception. The length of the URLs does not matter. -/
theorem fuzz_tasks_storable_iff (hcase : case.lower (js "Content-Type") = js "content-type")
    (endpoints : List BridgeEndpoint) (baseUrl : Text) :
    StorableTasks copy case endpoints baseUrl ↔
      endpoints = [] ∨
        (copy = .standalone ∧ ∃ ep ∈ endpoints, ep.requestBodyRequired = true) := by
  constructor
  · intro hstorable
    by_contra hn
    rw [not_or] at hn
    have hok : ∀ ep ∈ endpoints, copy = .bundled ∨ ep.requestBodyRequired = false := by
      intro ep hep
      cases copy with
      | bundled => exact Or.inl rfl
      | standalone =>
        right
        rw [← Bool.not_eq_true]
        exact fun hr => hn.2 ⟨rfl, ep, hep, hr⟩
    obtain ⟨ep, hep⟩ := List.exists_mem_of_ne_nil endpoints hn.1
    exact not_storable hcase hok hep hstorable
  · unfold StorableTasks
    rw [generateMutations_eq_built]
    rintro (rfl | ⟨rfl, ep, hep, hr⟩)
    · rintro task ⟨⟩
    · rw [built_of_standalone case hep hr]
      rintro task ⟨⟩

/-- With an engine that raises an exception for a body. -/
theorem fuzz_tasks_storable_of_exception :
    StorableTasks .standalone asciiCase
      [{ method := js "POST", path := js "/users", requestBodyRequired := true }]
      (js "https://target.example") :=
  (fuzz_tasks_storable_iff (by decide +kernel) _ _).mpr
    (Or.inr ⟨rfl, _, List.mem_cons_self, rfl⟩)

/-- The batch of `GET /users` cannot be written, although its URL is short. -/
theorem fuzz_tasks_not_storable :
    characters (js "https://target.example" ++ js "/users") ≤ 1024 ∧
      ¬StorableTasks .bundled asciiCase [{ method := js "GET", path := js "/users" }]
        (js "https://target.example") :=
  ⟨by decide +kernel, not_storable (by decide +kernel) (fun _ _ => Or.inl rfl) List.mem_cons_self⟩

end SecurityScanner

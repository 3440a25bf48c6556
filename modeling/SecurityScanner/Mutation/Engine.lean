import SecurityScanner.Mutation.FieldMutators

/-!
# The mutation engine and its bridge

`index.js`, the command line `cli.js` around it, and `mutation_bridge.py`, which feeds it
the endpoints of a scan and turns its output into tasks. What travels between the two as
JSON is the same on both sides.
-/

namespace SecurityScanner

open JavaScript

/-- A request for the engine; a component can be missing. -/
structure MutationRequest where
  method : Option Text := none
  path : Option Text := none
  params : Option Obj := none
  headers : Option Obj := none
  body : Option Obj := none

structure ScoredMutation extends Mutation where
  severity : Nat

namespace MutationEngine

variable (copy : EngineCopy) (case : CaseMap)

/-- `mutation.method || ''`. -/
def textOrEmpty (t : Option Text) : Text := t.getD []

/-- `JSON.stringify(mutation.params || {})`. -/
def objOrEmpty (o : Option Obj) : Text := stringify (.obj (o.getD []))

/-- `_generateFingerprint`. -/
def generateFingerprint (m : Mutation) : Text :=
  joinWith (js "|") [textOrEmpty m.method, textOrEmpty m.path, objOrEmpty m.params,
    objOrEmpty m.headers, objOrEmpty m.body]

/-- The loop of `_deduplicate`, with the fingerprints seen so far. -/
def deduplicateFrom : List Text → List Mutation → List Mutation
  | _, [] => []
  | seen, m :: ms =>
    let fingerprint := generateFingerprint m
    if fingerprint ∈ seen then deduplicateFrom seen ms
    else m :: deduplicateFrom (fingerprint :: seen) ms

/-- `_deduplicate`. -/
def deduplicate (ms : List Mutation) : List Mutation := deduplicateFrom [] ms

def severityOf (s : Text) : Nat :=
  let mentions (labels : List String) : Bool := labels.any fun label => includes s (js label)
  if mentions ["tenant_swap", "privilege_esc"] then 5
  else if mentions ["garbage_token", "remove_header", "remove_param"] then 4
  else if mentions ["method_switch", "path_traversal", "inject"] then 3
  else if mentions ["id_enum", "nullify", "tenant"] then 2
  else 1

/-- `_assignSeverity`. -/
def assignSeverity (ms : List Mutation) : List ScoredMutation :=
  ms.map fun m => { m with severity := severityOf m.strategy }

/-- The mutations of an object that has properties. -/
def ofObject (mutator : Obj → Except JsError (List Mutation)) :
    Option Obj → Except JsError (List Mutation)
  | some (kv :: kvs) => mutator (kv :: kvs)
  | _ => .ok []

/-- The mutations of a text that is not blank. -/
def ofText (mutator : Text → List Mutation) : Option Text → List Mutation
  | some t => if trim t ≠ [] then mutator t else []
  | none => []

@[simp] lemma ofText_some {mutator : Text → List Mutation} {t : Text} (h : trim t ≠ []) :
    ofText mutator (some t) = mutator t :=
  if_pos h

/-- `allMutations`. -/
def allMutations (request : MutationRequest) : Except JsError (List Mutation) := do
  let paramMutations ← ofObject (ParameterMutator.mutate case) request.params
  let headerMutations ← ofObject (HeaderMutator.mutate case) request.headers
  let bodyMutations ← ofObject (BodyMutator.mutate copy) request.body
  return paramMutations ++ headerMutations ++ bodyMutations ++
    ofText (MethodMutator.mutate case) request.method ++
    ofText (PathMutator.mutate case) request.path

/-- `MutationEngine.mutate`. -/
def mutate (request : MutationRequest) : Except JsError (List ScoredMutation) := do
  let all ← allMutations copy case request
  return assignSeverity (deduplicate all)

/-- The entry of `results` for one request. -/
def runRequest (request : MutationRequest) :
    Except JsError (MutationRequest × List ScoredMutation) := do
  let mutations ← mutate copy case request
  return (request, mutations)

/-- `run` of `cli.js`: an exception ends the process without output. -/
def runCli (requests : List MutationRequest) :
    Except JsError (List (MutationRequest × List ScoredMutation)) :=
  requests.mapM (runRequest copy case)

lemma runRequest_ok {copy : EngineCopy} {case : CaseMap} {request : MutationRequest}
    {all : List Mutation} (h : allMutations copy case request = .ok all) :
    runRequest copy case request = .ok (request, assignSeverity (deduplicate all)) := by
  unfold runRequest mutate
  rw [h]
  rfl

lemma runRequest_error {copy : EngineCopy} {case : CaseMap} {request : MutationRequest}
    {e : JsError} (h : allMutations copy case request = .error e) :
    runRequest copy case request = .error e := by
  unfold runRequest mutate
  rw [h]
  rfl

end MutationEngine

/-- What the bridge reads of an endpoint. -/
structure BridgeEndpoint where
  method : Text
  path : Text
  requestBodyRequired : Bool := false

/-- The fields of `TaskSubmit` that the bridge sets. -/
structure FuzzTask where
  method : Text
  url : Text
  headers : Obj
  payload : Obj
  retryCount : Int := 1
  priorityLevel : String := "P4"
  mutationStrategy : Text
  mutationReason : Text

namespace MutationBridge

variable (copy : EngineCopy) (case : CaseMap)

def stripLeft (t : Text) : Text := t.dropWhile (· = unit '/')

def stripRight (t : Text) : Text := (stripLeft t.reverse).reverse

/-- `target_url`. -/
def targetUrl (baseUrl path : Text) : Text :=
  if baseUrl ≠ [] then stripRight baseUrl ++ js "/" ++ stripLeft path else path

/-- `{"Content-Type": "application/json"}`. -/
def requestHeaders : Obj := [(js "Content-Type", .str (js "application/json"))]

def requestBody (required : Bool) : Obj :=
  if required then [(js "dummy", .str (js "value"))] else []

/-- The request that is built for an endpoint. -/
def requestFor (baseUrl : Text) (ep : BridgeEndpoint) : MutationRequest where
  method := some ep.method
  path := some (targetUrl baseUrl ep.path)
  headers := some requestHeaders
  params := some []
  body := some (requestBody ep.requestBodyRequired)

/-- The task that is built from a mutation: a component that the mutation does not carry
gets a default. -/
def taskOf (m : Mutation) : FuzzTask where
  method := m.method.getD (js "GET")
  url := m.path.getD []
  headers := m.headers.getD []
  payload := m.body.getD []
  mutationStrategy := m.strategy
  mutationReason := m.reason

/-- `generate_mutations`. -/
def generateMutations (endpoints : List BridgeEndpoint) (baseUrl : Text) : List FuzzTask :=
  let requestsForNode := endpoints.map (requestFor baseUrl)
  if requestsForNode = [] then []
  else match MutationEngine.runCli copy case requestsForNode with
    | .error _ => []
    | .ok results => results.flatMap fun res => res.2.map fun m => taskOf m.toMutation

end MutationBridge

end SecurityScanner

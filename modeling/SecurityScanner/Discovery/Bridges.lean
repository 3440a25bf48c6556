import SecurityScanner.Json
import SecurityScanner.Lib.Fallible
import SecurityScanner.Lib.Joining
import SecurityScanner.Lib.Python
import SecurityScanner.Lib.Url
import SecurityScanner.Mutation.Engine

/-!
# The bridges of a discovery request

`discovery_bridge.py`, `jwt_bridge.py` with `role_swapper.py`, and `discover_and_submit` of
`routes.py`, which hands the endpoints of the first to the second and to the mutation bridge.
What fetches, reads and parses a specification is a parameter.
-/

namespace SecurityScanner

open JavaScript Python

/-- What the bridges read of an endpoint of the parser. -/
structure SpecEndpoint where
  method : Text
  path : Text
  requestBodyRequired : Json := .bool false
  hasAuth : Bool := false
  requestBodySchema : Json := .null

structure ParseResult where
  endpoints : List SpecEndpoint
  errorsEncountered : List String

/-- `OpenAPIParser`, from a source to the result of `parse`. A URL can answer differently
each time: the fetches of one request are numbered. -/
structure SpecParser where
  fromUrl : Nat → Text → Except PyError ParseResult
  fromContent : Text → Except PyError ParseResult
  fromFile : Text → Except PyError ParseResult

inductive DiscoveryError where
  | valueError (message : String)
  | raised (e : PyError)

/-- The fields of `TaskSubmit` that the bridges set. -/
structure BridgeTask where
  method : Text
  url : Text
  headers : Obj
  payload : Option Obj := none
  authToken : Option Text := none
  retryCount : Int
  priorityLevel : String

namespace DiscoveryBridge

variable (P : SpecParser) (I : Interpreter) (checkNetloc : Text → Except Url.ValueError Unit)

section source

/-- `source.startswith("http://") or source.startswith("https://")`. -/
def isUrl (source : Text) : Bool :=
  (js "http://").isPrefixOf source || (js "https://").isPrefixOf source

def isSpaceUnit (u : UInt16) : Bool := Python.isSpace (Char.ofNat u.toNat)

/-- `source.strip()`. -/
def stripped (source : Text) : Text :=
  ((source.dropWhile isSpaceUnit).reverse.dropWhile isSpaceUnit).reverse

/-- The source is the text of a specification. -/
def isContent (source : Text) : Bool :=
  (js "\x7b").isPrefixOf (stripped source) || (js "openapi").isPrefixOf (stripped source)

/-- An error that makes the bridge probe the usual places. -/
def mentionsSpec (error : String) : Bool :=
  contains (I.lower error) "paths" || contains (I.lower error) "json"

def urlparse (source : Text) : Except DiscoveryError (Url.Parts UInt16) :=
  match Url.urlparse UInt16.toNat (fun u => if 65 ≤ u ∧ u ≤ 90 then u + 32 else u) checkNetloc
      source with
  | .ok parts => .ok parts
  | .error e => .error (.valueError e.message)

/-- `f"{parsed_url.scheme}://{parsed_url.netloc}"`. -/
def hostOf (parsed : Url.Parts UInt16) : Text := parsed.scheme ++ js "://" ++ parsed.netloc

/-- `unique_paths`. -/
def uniquePaths (source : Text) (parsed : Url.Parts UInt16) : List Text :=
  let here := MutationBridge.stripRight source
  let host := hostOf parsed
  let pathsToTry :=
    [here ++ js "/swagger.json", here ++ js "/openapi.json", here ++ js "/api-docs",
      host ++ js "/swagger.json", host ++ js "/openapi.json", host ++ js "/api-docs"]
  pathsToTry.foldl (fun unique p => if unique.contains p then unique else unique ++ [p]) []

/-- The loop over the places: the first result with endpoints. -/
def probe : Nat → List Text → Option ParseResult
  | _, [] => none
  | n, testUrl :: rest =>
    match P.fromUrl n testUrl with
    | .ok result => if result.endpoints.isEmpty then probe (n + 1) rest else some result
    | .error _ => probe (n + 1) rest

def ofParser (x : Except PyError ParseResult) : Except DiscoveryError ParseResult :=
  match x with
  | .ok result => .ok result
  | .error e => .error (.raised e)

/-- The result of the parser, or of one for a place that was probed. -/
def specResult (source : Text) : Except DiscoveryError ParseResult :=
  if isUrl source then do
    let result ← ofParser (P.fromUrl 0 source)
    if result.endpoints.isEmpty && result.errorsEncountered.any (mentionsSpec I) then
      let parsed ← urlparse checkNetloc source
      pure ((probe P 1 (uniquePaths source parsed)).getD result)
    else pure result
  else if isContent source then ofParser (P.fromContent source)
  else ofParser (P.fromFile source)

/-- `single_ep`. -/
def singleEndpoint (parsed : Url.Parts UInt16) : SpecEndpoint where
  method := js "GET"
  path := if parsed.path = [] then js "/" else parsed.path

end source

/-- `{"_comment": "Auto-generated dummy payload for crawler"}`. -/
def dummyPayload : Obj :=
  [(js "_comment", .str (js "Auto-generated dummy payload for crawler"))]

/-- The crawler task of an endpoint. -/
def taskFor (baseUrl : Text) (ep : SpecEndpoint) : BridgeTask :=
  let payload := if ep.requestBodyRequired.truthy && ep.requestBodySchema.truthy then
    some dummyPayload else none
  { method := ep.method
    url := MutationBridge.targetUrl baseUrl ep.path
    headers := if payload.isSome then MutationBridge.requestHeaders else []
    payload := payload
    retryCount := 3
    priorityLevel := "P3" }

/-- The exception for a result without endpoints. -/
def noEndpoints (errors : List String) : DiscoveryError :=
  if errors.isEmpty then .valueError "No endpoints discovered. Parser errors: []"
  else .valueError ("Spec discovery failed: " ++ "; ".intercalate (errors.take 5))

/-- `generate_tasks_from_spec`. -/
def generateTasksFromSpec (source baseUrl : Text) :
    Except DiscoveryError (List (BridgeTask × SpecEndpoint)) := do
  let result ← specResult P I checkNetloc source
  let (endpoints, baseUrl) ←
    if isUrl source && result.endpoints.isEmpty then do
      let parsed ← urlparse checkNetloc source
      pure ([singleEndpoint parsed], hostOf parsed)
    else pure (result.endpoints, baseUrl)
  if endpoints.isEmpty then throw (noEndpoints result.errorsEncountered)
  else pure (endpoints.map fun ep => (taskFor baseUrl ep, ep))

end DiscoveryBridge

/-- A test case of `role_swapper.py`. -/
structure RoleTestCase where
  testName : Text
  url : Text
  method : Text
  tokenName : Text
  token : Text
  expectedRole : Text

/-- What `generate_test_cases` reads of an endpoint. -/
structure SwapperEndpoint where
  path : Text
  method : Text
  expectedRole : Text

/-- `generate_test_cases`; the tokens are the items of a dictionary. -/
def generateTestCases (baseUrl : Text) (endpoints : List SwapperEndpoint)
    (tokens : List (Text × Text)) : List RoleTestCase :=
  endpoints.flatMap fun endpoint => tokens.map fun token =>
    { testName := token.1 ++ js " testing " ++ endpoint.path
      url := baseUrl ++ endpoint.path
      method := endpoint.method
      tokenName := token.1
      token := token.2
      expectedRole := endpoint.expectedRole }

namespace JWTBridge

/-- `swapper_endpoints`. -/
def swapperEndpoints (endpoints : List SpecEndpoint) : List SwapperEndpoint :=
  (endpoints.filter (·.hasAuth)).map fun ep => ⟨ep.path, ep.method, js "admin"⟩

/-- `generate_jwt_tasks`. -/
def generateJwtTasks (endpoints : List SpecEndpoint) (tokens : List (Text × Text))
    (baseUrl : Text) : List BridgeTask :=
  let swapper := swapperEndpoints endpoints
  if swapper.isEmpty then []
  else (generateTestCases baseUrl swapper tokens).map fun tc =>
    { method := tc.method
      url := tc.url
      headers := MutationBridge.requestHeaders
      authToken := some tc.token
      retryCount := 3
      priorityLevel := "P2" }

end JWTBridge

/-- What the mutation bridge reads of an endpoint. -/
def SpecEndpoint.toBridge (ep : SpecEndpoint) : BridgeEndpoint where
  method := ep.method
  path := ep.path
  requestBodyRequired := ep.requestBodyRequired.truthy

/-- `DiscoverRequest`. -/
structure DiscoverRequest where
  specSource : Text
  baseUrl : Option Text := none
  jwtTokens : Option (List (Text × Text)) := none

/-- What `discover_and_submit` generates: the crawler tasks with their endpoints, the role tasks
and the requests that it gives to the mutation engine. -/
structure Generated where
  crawler : List (BridgeTask × SpecEndpoint)
  jwt : List BridgeTask
  mutation : List MutationRequest

/-- `req.base_url or scan.target`. -/
def DiscoverRequest.base (req : DiscoverRequest) (target : Text) : Text :=
  match req.baseUrl with
  | some url => if url = [] then target else url
  | none => target

/-- `discover_and_submit` up to the submission. -/
def discover (P : SpecParser) (I : Interpreter) (checkNetloc : Text → Except Url.ValueError Unit)
    (req : DiscoverRequest) (target : Text) : Except DiscoveryError Generated := do
  let baseUrl := req.base target
  let tasks ← DiscoveryBridge.generateTasksFromSpec P I checkNetloc req.specSource baseUrl
  let endpoints := tasks.map Prod.snd
  pure
    { crawler := tasks
      jwt := match req.jwtTokens with
        | some tokens =>
          if tokens.isEmpty then [] else JWTBridge.generateJwtTasks endpoints tokens baseUrl
        | none => []
      mutation := (endpoints.map SpecEndpoint.toBridge).map (MutationBridge.requestFor baseUrl) }

end SecurityScanner

import SecurityScanner.Analysis.ResultCollector
import SecurityScanner.Lib.Fallible
import SecurityScanner.Lib.Grouping

/-!
# The report of a scan

`generate_report` of `executor/analysis/report_service.py`, and the collector as it runs on
the responses that are built there: their user and role are claims of a token, which are JSON
values of any type. An operation that the type of a value does not have is an error.
-/

namespace SecurityScanner

open Python

namespace Json

mutual

/-- `x == y`: numbers by their value, objects in any order of their keys. -/
def pyEq : Json → Json → Bool
  | .arr xs, .arr ys => pyEqList xs ys
  | .obj xs, .obj ys => xs.length == ys.length && pyEqFields xs ys
  | x, y => leafEq x y

def pyEqList : List Json → List Json → Bool
  | [], [] => true
  | x :: xs, y :: ys => pyEq x y && pyEqList xs ys
  | _, _ => false

def pyEqFields : List (String × Json) → List (String × Json) → Bool
  | [], _ => true
  | (k, x) :: xs, ys => (ys.lookup k).any (pyEq x) && pyEqFields xs ys

end

end Json

namespace ReportService

/-- What the report takes from PyJWT and from Python: `jwt.decode` without a check of the
signature, `json.loads`, `json.dumps` and `str`. -/
structure Codec where
  jwtDecode : String → Option (List (String × Json))
  jsonLoads : String → Option Json
  jsonDumps : Json → String
  str : Json → String

/-- A row of `scan_responses`. -/
structure StoredResponse where
  statusCode : Option Int
  responseBody : Option String

/-- A row of `tasks` with its response. -/
structure ScannedTask where
  method : String
  url : String
  headers : Option (List (String × Json)) := none
  payload : Json := .null
  response : Option StoredResponse

/-- A task that has a response with a status. -/
structure AnsweredTask where
  task : ScannedTask
  statusCode : Int
  responseBody : Option String

def ScannedTask.answered? (task : ScannedTask) : Option AnsweredTask :=
  match task.response with
  | some ⟨some statusCode, responseBody⟩ => some ⟨task, statusCode, responseBody⟩
  | _ => none

/-- A `ScanResponse`, as far as the analysis reads it. -/
structure ScanResponse where
  endpoint : String
  method : String
  url : String
  statusCode : Int
  body : Option String
  bodyJson : Json
  userId : Json
  role : Json
  token : Option String
  requestHeaders : List (String × Json)
  requestBody : Option String
  deriving DecidableEq

structure Diff where
  responseA : ScanResponse
  responseB : ScanResponse
  /-- The result as the texts of a report show it. -/
  result : DiffResult

variable (lib : Codec) (I : Interpreter)

section build

/-- `body_json`. -/
def parseBody (body : Option String) : Json :=
  if truthy body then (lib.jsonLoads (body.getD "")).getD .null else .null

/-- `request_body`. -/
def requestBody (payload : Json) : Option String :=
  match payload with
  | .str s => some s
  | payload => if payload.truthy then some (lib.jsonDumps payload) else none

/-- The text without the occurrences of `sub`; `fuel` exceeds the length of the text. -/
def dropAll (sub : List Char) : Nat → List Char → List Char
  | 0, cs => cs
  | _, [] => []
  | fuel + 1, c :: cs =>
    if sub.isPrefixOf (c :: cs) then dropAll sub fuel ((c :: cs).drop sub.length)
    else c :: dropAll sub fuel cs

/-- `s.replace("Bearer ", "")`. -/
def withoutBearer (s : String) : String :=
  String.ofList (dropAll "Bearer ".toList (s.length + 1) s.toList)

/-- The token of a task, if its headers have one. -/
def bearerToken (task : ScannedTask) : Except PyError (Option String) :=
  match (task.headers.getD []).lookup "Authorization" with
  | none => pure none
  | some (.str s) => pure (some (withoutBearer s))
  | some _ => throw .attributeError

/-- The claim of a decoded token, or what `get` returns in its place. -/
def claim (decoded : List (String × Json)) (name default : String) : Json :=
  (decoded.lookup name).getD (.str default)

/-- The role and the user of a token. -/
def identity (token : Option String) : Json × Json :=
  match token.bind lib.jwtDecode with
  | some decoded => (claim decoded "role" "user", claim decoded "user_id" "unknown")
  | none => (.str "user", .str "unknown")

/-- The body of the loop over the tasks, up to `on_result`. -/
def scanResponse (t : AnsweredTask) : Except PyError ScanResponse := do
  let token ← bearerToken t.task
  let (role, userId) := identity lib token
  pure
    { endpoint := t.task.url
      method := t.task.method
      url := t.task.url
      statusCode := t.statusCode
      body := t.responseBody
      bodyJson := parseBody lib t.responseBody
      userId
      role
      token
      requestHeaders := t.task.headers.getD []
      requestBody := requestBody lib t.task.payload }

end build

section compare

variable (a b : ScanResponse)

/-- The response as the texts of a report show it. -/
def ScanResponse.shown (r : ScanResponse) : CapturedResponse :=
  { endpoint := r.endpoint
    method := r.method
    url := r.url
    statusCode := r.statusCode
    body := r.body
    bodyJson := r.bodyJson
    userId := some (lib.str r.userId)
    role := some (lib.str r.role)
    token := r.token
    requestHeaders := r.requestHeaders.map fun kv => (kv.1, lib.str kv.2)
    requestBody := r.requestBody }

def sameUser : Bool := a.userId.pyEq b.userId

/-- `foreign_ids`; no response has a tenant. -/
def foreignIds : List String :=
  let idsA := extractIds I a.bodyJson
  let idsB := extractIds I b.bodyJson
  if idsA ≠ [] && idsB ≠ [] && !sameUser a b then I.setOrder (idsA.filter (· ∈ idsB)) else []

/-- The branches of `compare_responses` that make a pair an anomaly, with their reasons. -/
def anomalyReason (similarityThreshold : Float) : Option String :=
  if !sameUser a b ∧ a.statusCode = 200 ∧ b.statusCode = 200 ∧
      similarityThreshold ≤ bodySimilarity a.body b.body then
    some ("Both users received HTTP 200 with body similarity " ++
      percent (bodySimilarity a.body b.body) ++ ". User A (" ++ lib.str a.userId ++ "/" ++
      lib.str a.role ++ ") and User B (" ++ lib.str b.userId ++ "/" ++ lib.str b.role ++
      ") appear to receive the same data.")
  else if foreignIds I a b ≠ [] ∧ !sameUser a b ∧ (a.statusCode = 200 ∨ b.statusCode = 200) then
    some ("IDs belonging to User A (" ++ lib.str a.userId ++
      ") found in User B's response body: " ++
      String.intercalate ", " ((foreignIds I a b).take 5))
  else if !sameUser a b ∧ (a.statusCode = 403 ∨ a.statusCode = 401) ∧ b.statusCode = 200 then
    some ("User A received " ++ toString a.statusCode ++ " but User B (" ++ lib.str b.role ++
      ") received 200 on the same endpoint.")
  else none

/-- `compare_responses`. -/
def compareResponses (similarityThreshold : Float) : Diff :=
  let reason := anomalyReason lib I a b similarityThreshold
  { responseA := a
    responseB := b
    result :=
      { SecurityScanner.compareResponses I (a.shown lib) (b.shown lib) similarityThreshold with
        isAnomaly := reason.isSome
        anomalyReason := reason.getD ""
        foreignIdsFound := foreignIds I a b } }

end compare

section classify

variable (diff : Diff)

/-- `(role or "").lower()`. -/
def lowerRole (role : Json) : Except PyError String :=
  if role.truthy then
    match role with
    | .str s => pure (I.lower s)
    | _ => throw .attributeError
  else pure (I.lower "")

/-- `role_hierarchy`, where an unknown role ranks as a user. -/
def hierarchy : String → Nat
  | "admin" => 3
  | "manager" => 2
  | "user" => 1
  | "guest" => 0
  | _ => 1

/-- `_check_bola`. -/
def checkBola : Option Issue :=
  let a := diff.responseA
  let b := diff.responseB
  if a.statusCode = 200 ∧ b.statusCode = 200 ∧ diff.result.bodySimilarity ≥ 0.65 ∧
      !sameUser a b then
    some (issueOf diff.result .bola (scoreBola I diff.result) "BOLA"
      ("User '" ++ lib.str b.userId ++ "' (role: " ++ lib.str b.role ++
        ") received data belonging to User '" ++ lib.str a.userId ++ "' with " ++
        percent diff.result.bodySimilarity ++ " body similarity. " ++
        toString diff.result.leakedFields.length ++ " fields were present in both responses.")
      "Send request as User B using User B's token to User A's resource URL.")
  else none

/-- `_check_privilege_escalation`. -/
def checkPrivilegeEscalation : Except PyError (Option Issue) := do
  let a := diff.responseA
  let b := diff.responseB
  let roleARank := hierarchy (← lowerRole I a.role)
  let roleBRank := hierarchy (← lowerRole I b.role)
  if a.statusCode = 200 ∧ b.statusCode = 200 ∧ roleBRank < roleARank ∧
      diff.result.bodySimilarity ≥ 0.5 then
    pure (some (issueOf diff.result .privEscalation .high "Privilege Escalation"
      ("User '" ++ lib.str b.userId ++ "' with role '" ++ lib.str b.role ++
        "' accessed a resource that should require role '" ++ lib.str a.role ++
        "'. Response body similarity: " ++ percent diff.result.bodySimilarity ++ ".")
      "Authenticate as lower-privilege user and call the higher-privilege endpoint."))
  else pure none

/-- `classify_diff`; the other checkers do not look at the claims. -/
def classifyDiff : Except PyError (List Issue) :=
  if diff.result.isAnomaly then do
    let privilegeEscalation ← checkPrivilegeEscalation lib I diff
    pure ([checkJwtBypass diff.result, checkTenantLeak diff.result, checkBola lib I diff,
      checkBfla I diff.result, privilegeEscalation, checkInfoDisclosure I diff.result].filterMap id)
  else pure []

end classify

structure Collector where
  buffer : Dict String (List ScanResponse) := Dict.empty
  diffs : List Diff := []
  issues : List Issue := []
  requestCount : Nat := 0

def endpointKey (response : ScanResponse) : String :=
  response.method ++ "::" ++ response.endpoint

variable (cfg : CollectorSettings)

/-- The responses whose role, in lower case, is selected. -/
def withRole (select : String → Bool) (responses : List ScanResponse) :
    Except PyError (List ScanResponse) := do
  let lowered ← responses.mapM fun r => do pure (r, ← lowerRole I r.role)
  pure ((lowered.filter fun r => select r.2).map Prod.fst)

/-- The pairs that differ in the user or in the role. -/
def pairings (refs others : List ScanResponse) : List (ScanResponse × ScanResponse) :=
  (refs.flatMap fun ref => others.map fun other => (ref, other)).filter fun p =>
    !sameUser p.1 p.2 || !p.1.role.pyEq p.2.role

/-- `_build_pairs`. -/
def buildPairs (responses : List ScanResponse) :
    Except PyError (List (ScanResponse × ScanResponse)) := do
  let refs ← withRole I (· = I.lower cfg.referenceRole) responses
  let others := responses.filter (· ∉ refs)
  match refs, responses with
  | [], [] => pure []
  | [], [_] => pure []
  | [], first :: rest => pure (pairings [first] rest)
  | refs, _ => pure (pairings refs others)

namespace Collector

/-- `on_result`. -/
def onResult (s : Collector) (response : ScanResponse) : Collector :=
  { s with
    buffer := s.buffer.append (endpointKey response) response
    requestCount := s.requestCount + 1 }

/-- The body of the loop over the pairs of an endpoint, with the issues found so far. -/
def comparePair (s : Collector × List Issue) (pair : ScanResponse × ScanResponse) :
    Except PyError (Collector × List Issue) := do
  let diff := compareResponses lib I pair.1 pair.2 cfg.similarityThreshold
  let issues ← if diff.result.isAnomaly then classifyDiff lib I diff else pure []
  pure ({ s.1 with diffs := s.1.diffs ++ [diff] }, s.2 ++ issues)

/-- The body of the loop over the endpoints. -/
def processEndpoint (s : Collector × List Issue) (responses : List ScanResponse) :
    Except PyError (Collector × List Issue) := do
  if responses.length < 2 then pure s
  else
    let pairs ← buildPairs I cfg responses
    pairs.foldlM (comparePair lib I cfg) s

/-- `process_buffered`. -/
def processBuffered (s : Collector) : Except PyError Collector := do
  let (s, allIssues) ← s.buffer.values.foldlM (processEndpoint lib I cfg) (s, [])
  pure { s with issues := allIssues }

/-- `flush`. -/
def flush (s : Collector) : Except PyError ScanReport := do
  let s ← if s.issues = [] then s.processBuffered lib I cfg else pure s
  pure (buildReport s.issues cfg.targetUrl cfg.scanName s.buffer.keys.length s.requestCount
    { similarityThreshold := cfg.similarityThreshold
      referenceRole := cfg.referenceRole
      totalDiffs := s.diffs.length
      anomalyDiffs := s.diffs.countP (·.result.isAnomaly) })

end Collector

def answeredTasks (tasks : List ScannedTask) : List AnsweredTask :=
  tasks.filterMap ScannedTask.answered?

/-- The collector after step 4 of `generate_report`. -/
def feed (tasks : List ScannedTask) : Except PyError Collector := do
  let responses ← (answeredTasks tasks).mapM (scanResponse lib)
  pure (responses.foldl Collector.onResult {})

/-- The settings that `generate_report` gives the collector. -/
def reportSettings (target name : String) : CollectorSettings where
  targetUrl := target
  scanName := name
  similarityThreshold := 0.65
  referenceRole := "admin"

/-- `generate_report` up to the report. -/
def generateReport (target name : String) (tasks : List ScannedTask) :
    Except PyError ScanReport := do
  let collector ← feed lib tasks
  collector.flush lib I (reportSettings target name)

end ReportService

end SecurityScanner

import SecurityScanner.Analysis.DiffEngine

/-!
# The issue classifier

`issue_classifier.py`: six checkers, each with its own trigger, behind the anomaly flag of
the diff. The texts are those of the source.
-/

namespace SecurityScanner

open Python

structure IssueMeta where
  cwe : String
  owasp : String
  recommendation : String

/-- `ISSUE_META`. -/
def issueMeta : IssueType → IssueMeta
  | .bola =>
    { cwe := "CWE-285"
      owasp := "OWASP API1:2023 — Broken Object Level Authorization"
      recommendation :=
        "Validate that the authenticated user owns or has explicit permission " ++
        "to access the requested object. Use indirect object references or " ++
        "enforce ownership checks server-side on every request." }
  | .bfla =>
    { cwe := "CWE-862"
      owasp := "OWASP API5:2023 — Broken Function Level Authorization"
      recommendation :=
        "Implement role-based access control (RBAC) checks at the function/action " ++
        "level. Do not rely solely on UI hiding of admin features. Enforce " ++
        "permissions in the business logic layer on every API call." }
  | .tenantLeak =>
    { cwe := "CWE-284"
      owasp := "OWASP API1:2023 — Broken Object Level Authorization (Multi-tenant)"
      recommendation :=
        "Ensure every database query and response is scoped by tenant_id. " ++
        "Never derive tenant context from user-supplied input alone. " ++
        "Add automated tests that assert cross-tenant queries return 0 results." }
  | .jwtBypass =>
    { cwe := "CWE-287"
      owasp := "OWASP API2:2023 — Broken Authentication"
      recommendation :=
        "Always verify JWT signature with a strong secret or asymmetric key. " ++
        "Reject tokens with alg=none. Use a well-maintained JWT library and " ++
        "pin the expected algorithm. Rotate secrets regularly." }
  | .privEscalation =>
    { cwe := "CWE-269"
      owasp := "OWASP API5:2023 — Broken Function Level Authorization"
      recommendation :=
        "Enforce the principle of least privilege. Each role should only be " ++
        "granted the minimum permissions required. Re-validate role on every " ++
        "sensitive action, not just at login." }
  | .infoDisclosure =>
    { cwe := "CWE-200"
      owasp := "OWASP API3:2023 — Broken Object Property Level Authorization"
      recommendation :=
        "Apply field-level filtering based on the caller's role before " ++
        "serializing responses. Use allowlist-based serializers rather than " ++
        "returning full model objects." }

variable (I : Interpreter) (diff : DiffResult)

section severity

/-- `_score_bola`. -/
def scoreBola : SeverityLevel :=
  let piiKeywords := ["email", "phone", "ssn", "password", "address", "dob", "credit", "token"]
  let hasPii := diff.leakedFields.any fun f => piiKeywords.any fun p => contains (I.lower f) p
  if hasPii ∨ diff.bodySimilarity ≥ 0.9 then .critical
  else if diff.bodySimilarity ≥ 0.7 ∨ diff.leakedFields.length ≥ 5 then .high
  else .medium

/-- `_score_bfla`. -/
def scoreBfla : SeverityLevel :=
  let destructive := ["DELETE", "PUT", "PATCH"].contains (I.upper diff.method)
  let adminHints :=
    ["admin", "manage", "config", "setting", "role", "permission", "internal"].any fun k =>
      contains (I.lower diff.endpoint) k
  if destructive && adminHints then .critical
  else if destructive || adminHints then .high
  else .medium

end severity

section reproduction

/-- `_build_curl`. -/
def buildCurl (response : CapturedResponse) : String :=
  let headers := String.intercalate " " (response.requestHeaders.map fun kv =>
    "-H '" ++ kv.1 ++ ": " ++ kv.2 ++ "'")
  let bodyFlag := match response.requestBody with
    | some body => if body ≠ "" then "-d '" ++ body ++ "'" else ""
    | none => ""
  "curl -X " ++ response.method ++ " " ++ headers ++ " " ++ bodyFlag ++ " '" ++
    response.url ++ "'"

/-- `_build_repro`. -/
def buildRepro (description : String) : ReproductionSteps :=
  let a := diff.responseA
  let b := diff.responseB
  { description
    requestMethod := diff.method
    requestUrl := b.url
    requestHeaders := b.requestHeaders
    requestBody := b.requestBody
    userAToken := a.token
    userBToken := b.token
    expectedStatus := 403
    actualStatus := b.statusCode
    curlCommand := buildCurl b }

/-- The fields that all checkers fill in the same way. -/
def issueOf (issueType : IssueType) (severity : SeverityLevel) (name description : String)
    (repro : String) : Issue :=
  let info := issueMeta issueType
  { issueType
    severity
    title := name ++ " — " ++ diff.method ++ " " ++ diff.endpoint
    description
    endpoint := diff.endpoint
    method := diff.method
    diff
    repro := some (buildRepro diff repro)
    recommendation := info.recommendation
    cwe := info.cwe
    owasp := info.owasp }

end reproduction

section checkers

/-- `_check_bola`. -/
def checkBola : Option Issue :=
  let a := diff.responseA
  let b := diff.responseB
  if a.statusCode = 200 ∧ b.statusCode = 200 ∧ diff.bodySimilarity ≥ 0.65 ∧
      a.userId ≠ b.userId then
    some (issueOf diff .bola (scoreBola I diff) "BOLA"
      ("User '" ++ text b.userId ++ "' (role: " ++ text b.role ++
        ") received data belonging to User '" ++ text a.userId ++ "' with " ++
        percent diff.bodySimilarity ++ " body similarity. " ++
        toString diff.leakedFields.length ++ " fields were present in both responses.")
      "Send request as User B using User B's token to User A's resource URL.")
  else none

/-- `_check_bfla`. -/
def checkBfla : Option Issue :=
  let a := diff.responseA
  let b := diff.responseB
  if (a.statusCode = 403 ∨ a.statusCode = 401) ∧ b.statusCode = 200 then
    some (issueOf diff .bfla (scoreBfla I diff) "BFLA"
      ("User '" ++ text a.userId ++ "' (role: " ++ text a.role ++ ") received HTTP " ++
        toString a.statusCode ++ " but User '" ++ text b.userId ++ "' (role: " ++
        text b.role ++ ") received HTTP 200 on the same endpoint. " ++
        "Function-level authorization appears missing.")
      "Send request as lower-privilege User B. Observe 200 where 403 expected.")
  else none

/-- `_check_tenant_leak`. -/
def checkTenantLeak : Option Issue :=
  let a := diff.responseA
  let b := diff.responseB
  if diff.foreignIdsFound = [] then none
  else if truthy a.tenantId ∧ truthy b.tenantId ∧ a.tenantId = b.tenantId then none
  else
    some (issueOf diff .tenantLeak .critical "Tenant Data Leak"
      ("IDs belonging to Tenant '" ++ text a.tenantId ++ "' (User '" ++ text a.userId ++
        "') were found in the response of Tenant '" ++ text b.tenantId ++ "' (User '" ++
        text b.userId ++ "'). Leaked IDs: " ++
        String.intercalate ", " (diff.foreignIdsFound.take 5) ++ ".")
      "Authenticate as Tenant B, call the endpoint, observe Tenant A's object IDs in response.")

def tamperMarkers : List String :=
  ["alg=none", "eyJhbGciOiJub25lIiwidHlwIjoiSldUIn0", "__tampered__"]

/-- `_check_jwt_bypass`. -/
def checkJwtBypass : Option Issue :=
  let b := diff.responseB
  if b.statusCode = 200 ∧ tamperMarkers.any (contains (b.token.getD "") ·) then
    some (issueOf diff .jwtBypass .critical "JWT Bypass"
      ("A tampered JWT token was accepted by " ++ diff.endpoint ++
        ". The server returned HTTP " ++ toString b.statusCode ++ " instead of 401/403. " ++
        "This may indicate the signature is not being verified.")
      ("Send request with tampered JWT (alg=none or modified payload). " ++
        "Observe 200 response."))
  else none

/-- `role_hierarchy`, where an unknown role ranks as a user. -/
def roleRank (role : Option String) : Nat :=
  match I.lower (role.getD "") with
  | "admin" => 3
  | "manager" => 2
  | "user" => 1
  | "guest" => 0
  | _ => 1

/-- `_check_privilege_escalation`. -/
def checkPrivilegeEscalation : Option Issue :=
  let a := diff.responseA
  let b := diff.responseB
  if a.statusCode = 200 ∧ b.statusCode = 200 ∧ roleRank I b.role < roleRank I a.role ∧
      diff.bodySimilarity ≥ 0.5 then
    some (issueOf diff .privEscalation .high "Privilege Escalation"
      ("User '" ++ text b.userId ++ "' with role '" ++ text b.role ++
        "' accessed a resource that should require role '" ++ text a.role ++
        "'. Response body similarity: " ++ percent diff.bodySimilarity ++ ".")
      ("Authenticate as lower-privilege user and call the higher-privilege endpoint."))
  else none

def sensitiveHints : List String :=
  ["token", "secret", "key", "hash", "internal", "debug", "password", "private"]

/-- `_check_info_disclosure`. -/
def checkInfoDisclosure : Option Issue :=
  let sensitiveFields := diff.addedFields.filter fun f =>
    sensitiveHints.any fun h => contains (I.lower f) h
  if sensitiveFields ≠ [] then
    some (issueOf diff .infoDisclosure .medium "Info Disclosure"
      ("User '" ++ text diff.responseB.userId ++ "' received sensitive fields not " ++
        "present in the reference response: " ++ String.intercalate ", " sensitiveFields ++ ".")
      "Send request as User B and inspect response body for extra sensitive fields.")
  else none

end checkers

/-- `checkers`. -/
def checkers : List (DiffResult → Option Issue) :=
  [checkJwtBypass, checkTenantLeak, checkBola I, checkBfla I, checkPrivilegeEscalation I,
    checkInfoDisclosure I]

/-- `classify_diff`. -/
def classifyDiff : List Issue :=
  if diff.isAnomaly then (checkers I).filterMap fun checker => checker diff else []

/-- `classify_all`. -/
def classifyAll (diffs : List DiffResult) : List Issue := diffs.flatMap (classifyDiff I)

variable {I diff}

/-- An issue of a checker is reported exactly when the diff is an anomaly. -/
lemma mem_classifyDiff_iff {checker : DiffResult → Option Issue} {issue : Issue}
    (hc : checker ∈ checkers I) (hi : checker diff = some issue) :
    issue ∈ classifyDiff I diff ↔ diff.isAnomaly = true := by
  unfold classifyDiff
  by_cases h : diff.isAnomaly = true
  · simp only [h, if_true, iff_true]
    exact List.mem_filterMap.mpr ⟨checker, hc, hi⟩
  · simp [h]

end SecurityScanner

import SecurityScanner.Json

/-!
# The data of the diff and report pipeline

The dataclasses of `models.py`. A generated identifier is left out.
-/

namespace SecurityScanner

inductive IssueType where
  | bola | bfla | tenantLeak | jwtBypass | privEscalation | infoDisclosure
  deriving DecidableEq, Repr

inductive SeverityLevel where
  | critical | high | medium | low | info
  deriving DecidableEq, Repr

/-- `SEVERITY_SCORE`. -/
def SeverityLevel.score : SeverityLevel → Nat
  | .critical => 9
  | .high => 7
  | .medium => 5
  | .low => 3
  | .info => 1

/-- A response that was captured during a scan. A body that is not JSON has the parsed
value `null`. -/
structure CapturedResponse where
  endpoint : String
  method : String
  url : String
  statusCode : Int
  headers : List (String × String) := []
  body : Option String := none
  bodyJson : Json := .null
  userId : Option String := none
  role : Option String := none
  tenantId : Option String := none
  token : Option String := none
  requestHeaders : List (String × String) := []
  requestBody : Option String := none
  latencyMs : Option ℚ := none
  timestamp : Int := 0
  deriving DecidableEq

structure DiffResult where
  endpoint : String
  method : String
  responseA : CapturedResponse
  responseB : CapturedResponse
  statusDelta : Int := 0
  bodySimilarity : Float := 0
  leakedFields : List String := []
  addedFields : List String := []
  removedFields : List String := []
  /-- The fields with different values, with the value in A and the value in B. -/
  valueChanges : List (String × Json × Json) := []
  isAnomaly : Bool := false
  anomalyReason : String := ""
  foreignIdsFound : List String := []
  deriving DecidableEq

structure ReproductionSteps where
  description : String
  requestMethod : String
  requestUrl : String
  requestHeaders : List (String × String)
  requestBody : Option String
  userAToken : Option String
  userBToken : Option String
  expectedStatus : Int
  actualStatus : Int
  curlCommand : String := ""
  deriving DecidableEq

structure Issue where
  issueType : IssueType
  severity : SeverityLevel
  title : String
  description : String
  endpoint : String
  method : String
  diff : DiffResult
  repro : Option ReproductionSteps := none
  recommendation : String := ""
  cwe : String := ""
  owasp : String := ""
  falsePositiveLikelihood : Float := 0
  deriving DecidableEq

end SecurityScanner

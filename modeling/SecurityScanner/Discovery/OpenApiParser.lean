import SecurityScanner.Json
import SecurityScanner.Lib.FirstWins
import SecurityScanner.Lib.Python

/-!
# The OpenAPI parser

`endpoint_discovery.py`. A specification is a JSON value of any type, and an operation on a
value that does not have it raises. The warnings that go to the log are left out.
-/

namespace SecurityScanner

open Python

/-- The fields of a JSON object. -/
abbrev Object := List (String × Json)

namespace Json

/-- `v.get(key, default)`. -/
def get (v : Json) (key : String) (default : Json := .null) : Except PyError Json :=
  match v with
  | .obj fields => pure ((fields.lookup key).getD default)
  | _ => throw .attributeError

/-- `key in v`. -/
def contains (v : Json) (key : String) : Except PyError Bool :=
  match v with
  | .obj fields => pure (fields.lookup key).isSome
  | .arr xs => pure (xs.contains (.str key))
  | .str s => pure (Python.contains s key)
  | _ => throw .typeError

/-- `v[key]`, for a key that is there. -/
def item (v : Json) (key : String) : Except PyError Json :=
  match v with
  | .obj fields => pure ((fields.lookup key).getD .null)
  | _ => throw .typeError

/-- The elements that `for x in v` goes through. -/
def iter (v : Json) : Except PyError (List Json) :=
  match v with
  | .arr xs => pure xs
  | .obj fields => pure (fields.map fun kv => .str kv.1)
  | .str s => pure (s.toList.map fun c => .str (String.singleton c))
  | _ => throw .typeError

end Json

namespace OpenAPIParser

/-- The dataclass `DiscoveredEndpoint`. -/
structure DiscoveredEndpoint where
  method : String
  path : String
  requestBodyRequired : Json := .bool false
  hasAuth : Bool := false
  parameters : List Object := []
  requestBodySchema : Json := .null
  source : String := "openapi"

/-- What `to_dict` keeps of an endpoint. -/
structure EndpointDict where
  method : String
  path : String
  requestBodyRequired : Json
  hasAuth : Bool
  deriving DecidableEq

def DiscoveredEndpoint.toDict (e : DiscoveredEndpoint) : EndpointDict :=
  ⟨e.method, e.path, e.requestBodyRequired, e.hasAuth⟩

structure Result where
  endpoints : List EndpointDict
  errorsEncountered : List String
  totalEndpoints : Nat
  deriving DecidableEq

def validMethods : List String :=
  ["GET", "POST", "PUT", "DELETE", "PATCH", "OPTIONS", "HEAD", "TRACE"]

/-- An `OpenAPIParser`. -/
structure Parser where
  spec : Object
  endpoints : List DiscoveredEndpoint := []
  errorsEncountered : List String := []
  seenEndpoints : List (String × String) := []

/-- `OpenAPIParser(spec_data)`. -/
def Parser.new (specData : Json) : Parser where
  spec := match specData with
    | .obj fields => fields
    | _ => []

section helpers

/-- `re.sub(r'/+', '/', path)`: of a run of slashes the last one stays. -/
def collapseSlashes : List Char → List Char
  | [] => []
  | c :: cs => if c = '/' ∧ cs.head? = some '/' then collapseSlashes cs else c :: collapseSlashes cs

/-- `_normalize_path`. -/
def normalizePath (path : String) : String :=
  if path = "" then "/"
  else
    let normalized := collapseSlashes path.toList
    let normalized :=
      if 1 < normalized.length ∧ normalized.getLast? = some '/' then
        (normalized.reverse.dropWhile (· = '/')).reverse
      else normalized
    String.ofList (if normalized.head? = some '/' then normalized else '/' :: normalized)

/-- The value is a list and has an element. -/
def isNonemptyList : Json → Bool
  | .arr xs => !xs.isEmpty
  | _ => false

/-- `_check_auth`. -/
def checkAuth (spec methodDetails : Object) : Bool :=
  match methodDetails.lookup "security" with
  | some security => isNonemptyList security
  | none => isNonemptyList ((spec.lookup "security").getD (.arr []))

/-- The OpenAPI 3.x part of `_extract_body_schema`: the schema, and whether it is required. -/
def requestBodySchema (methodDetails : Object) : Except PyError (Json × Json) :=
  match methodDetails.lookup "requestBody" with
  | none => pure (.null, .bool false)
  | some rb => do
    let required ← rb.get "required" (.bool false)
    let content ← rb.get "content" (.obj [])
    if ← content.contains "application/json" then
      pure (← (← content.item "application/json").get "schema", required)
    else pure (.null, required)

/-- The Swagger 2.0 part: the loop over the parameters up to the first one in the body. -/
def bodyParameter (schema required : Json) : List Json → Except PyError (Json × Json)
  | [] => pure (schema, required)
  | param :: params => do
    if (← param.get "in") = .str "body" then
      pure (← param.get "schema", ← param.get "required" (.bool false))
    else bodyParameter schema required params

/-- `_extract_body_schema`. -/
def extractBodySchema (method : String) (methodDetails : Object) : Except PyError (Json × Json) := do
  let (schema, required) ← requestBodySchema methodDetails
  let (schema, required) ←
    if schema.truthy then pure (schema, required)
    else do
      let params ← ((methodDetails.lookup "parameters").getD (.arr [])).iter
      bodyParameter schema required params
  if schema = .null ∧ method ∈ ["POST", "PUT", "PATCH"] then pure (.obj [], required)
  else pure (schema, required)

/-- `p[key] = default` if the key is not there. -/
def setDefault (p : Object) (key : String) (default : Json) : Object :=
  match p.lookup key with
  | some _ => p
  | none => p ++ [(key, default)]

/-- `_process_parameters`. -/
def processParameters (methodDetails : Object) : List Object :=
  match methodDetails.lookup "parameters" with
  | some (.arr params) => params.filterMap fun
    | .obj param => some (setDefault
        (setDefault param "schema" (.obj [("type", .str "string")])) "required" (.bool false))
    | _ => none
  | _ => []

end helpers

variable (I : Interpreter)

namespace Parser

def recordError (s : Parser) (error : String) : Parser :=
  { s with errorsEncountered := s.errorsEncountered ++ [error] }

/-- The endpoint of the details of a method. -/
def endpointOf (spec : Object) (upperMethod normalizedPath : String) (details : Object) :
    Except PyError DiscoveredEndpoint := do
  let (bodySchema, bodyRequired) ← extractBodySchema upperMethod details
  pure
    { method := upperMethod
      path := normalizedPath
      requestBodyRequired := bodyRequired
      hasAuth := checkAuth spec details
      parameters := processParameters details
      requestBodySchema := bodySchema }

/-- The body of the loop over the methods of a path. -/
def processMethod (path normalizedPath : String) (s : Parser) (entry : String × Json) :
    Except PyError Parser := do
  let (methodName, details) := entry
  let upperMethod := I.upper methodName
  if upperMethod ∉ validMethods then
    pure (s.recordError ("Invalid HTTP method '" ++ methodName ++ "' for path '" ++ path ++
      "'. Skipping."))
  else
    match details with
    | .obj details =>
      if (upperMethod, normalizedPath) ∈ s.seenEndpoints then
        pure (s.recordError ("Duplicate endpoint detected: " ++ upperMethod ++ " " ++
          normalizedPath ++ ". Keeping first occurrence."))
      else
        let s :=
          if (details.lookup "responses").isSome then s
          else s.recordError ("Missing 'responses' field for " ++ upperMethod ++ " " ++ path ++ ".")
        let endpoint ← endpointOf s.spec upperMethod normalizedPath details
        pure { s with
          endpoints := s.endpoints ++ [endpoint]
          seenEndpoints := s.seenEndpoints ++ [(upperMethod, normalizedPath)] }
    | _ =>
      pure (s.recordError ("Missing or invalid details for " ++ upperMethod ++ " " ++ path ++ "."))

/-- The body of the loop over the paths. -/
def processPath (s : Parser) (entry : String × Json) : Except PyError Parser :=
  match entry with
  | (path, .obj methods) => methods.foldlM (processMethod I path (normalizePath path)) s
  | (path, _) =>
    pure (s.recordError ("Invalid methods definition for path '" ++ path ++ "'. Expected object."))

/-- `_build_result`. -/
def buildResult (s : Parser) : Result where
  endpoints := s.endpoints.map DiscoveredEndpoint.toDict
  errorsEncountered := s.errorsEncountered
  totalEndpoints := s.endpoints.length

/-- The parser after `parse`. -/
def run (s : Parser) : Except PyError Parser :=
  if s.spec = [] then pure s
  else
    match (s.spec.lookup "paths").getD .null with
    | .null => pure (s.recordError "Missing 'paths' section in specification.")
    | .obj paths => paths.foldlM (processPath I) s
    | _ => pure (s.recordError "'paths' section is not a valid object.")

/-- `parse`. -/
def parse (s : Parser) : Except PyError Result := do
  let s ← s.run I
  pure s.buildResult

end Parser

end OpenAPIParser

end SecurityScanner

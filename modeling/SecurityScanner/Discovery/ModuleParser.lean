import SecurityScanner.Discovery.References

/-!
# The parser of the discovery module

`parse` of the `parser.py` of the discovery module, which resolves the reference that a request
body, a parameter or a schema may be before it reads it. What it records on the way goes to
`errors_encountered`. The warnings that go to the log are left out.
-/

namespace SecurityScanner.ModuleParser

open Python

/-- The methods of an `OpenAPIParser` that resolve references. -/
abbrev ParserM := StateT OpenAPIParser (Except PyError)

/-- The dataclass of the discovery module has the fields of the other one. -/
abbrev DiscoveredEndpoint := OpenAPIParser.DiscoveredEndpoint

/-- `re.findall(r'\{([^}]+)\}', path)`, with the name that is being read since a brace. -/
def findParameters : Option (List Char) → List Char → List String
  | _, [] => []
  | none, c :: cs => findParameters (if c = '\x7b' then some [] else none) cs
  | some name, c :: cs =>
    if c = '\x7d' then
      if name = [] then findParameters none cs
      else String.ofList name :: findParameters none cs
    else findParameters (some (name ++ [c])) cs

/-- `dynamic_parameters`. -/
def dynamicParameters (e : DiscoveredEndpoint) : List String := findParameters none e.path.toList

example : findParameters none "/a/\x7bx\x7d/\x7b\x7d/\x7b\x7by\x7d/\x7bz".toList =
    ["x", "\x7by"] := by decide

/-- `to_dict`. -/
structure EndpointDict where
  method : String
  path : String
  requestBodyRequired : Json
  hasAuth : Bool
  parameters : List Object
  requestBodySchema : Json
  source : String
  dynamicParameters : List String
  deriving DecidableEq

def toDict (e : DiscoveredEndpoint) : EndpointDict where
  method := e.method
  path := e.path
  requestBodyRequired := e.requestBodyRequired
  hasAuth := e.hasAuth
  parameters := e.parameters
  requestBodySchema := e.requestBodySchema
  source := e.source
  dynamicParameters := dynamicParameters e

structure Result where
  endpoints : List EndpointDict
  errorsEncountered : List String
  totalEndpoints : Nat
  deriving DecidableEq

/-- `self._resolve_ref(schema)`. -/
def resolve (schema : Json) : ParserM Json := fun parser =>
  (resolveRef parser schema).map Prod.swap

/-- The OpenAPI 3.x part of `_extract_body_schema`: the schema, and whether it is required. -/
def requestBodySchema (methodDetails : Object) : ParserM (Json × Json) :=
  match methodDetails.lookup "requestBody" with
  | none => pure (.null, .bool false)
  | some rb => do
    let rb ← resolve rb
    let required ← rb.get "required" (.bool false)
    let content ← rb.get "content" (.obj [])
    if ← content.contains "application/json" then
      pure (← (← content.item "application/json").get "schema", required)
    else pure (.null, required)

/-- The Swagger 2.0 part: the loop over the parameters up to the first one in the body. -/
def bodyParameter (schema required : Json) : List Json → ParserM (Json × Json)
  | [] => pure (schema, required)
  | param :: params => do
    let param ← resolve param
    if (← param.get "in") = .str "body" then
      pure (← param.get "schema", ← param.get "required" (.bool false))
    else bodyParameter schema required params

/-- An empty object in place of a missing schema. -/
def schemaFallback (method : String) (schema : Json) : Json :=
  if schema = .null ∧ method ∈ ["POST", "PUT", "PATCH"] then .obj [] else schema

/-- `_extract_body_schema`. -/
def extractBodySchema (method : String) (methodDetails : Object) : ParserM (Json × Json) := do
  let (schema, required) ← requestBodySchema methodDetails
  let (schema, required) ←
    if schema.truthy then pure (schema, required)
    else do
      let params ← ((methodDetails.lookup "parameters").getD (.arr [])).iter
      bodyParameter schema required params
  let schema ← if schema.truthy then resolve schema else pure schema
  pure (schemaFallback method schema, required)

/-- The copy of a parameter that is an object, with its defaults. -/
def withDefaults : Json → Option Object
  | .obj param => some (OpenAPIParser.setDefault
      (OpenAPIParser.setDefault param "schema" (.obj [("type", .str "string")]))
      "required" (.bool false))
  | _ => none

/-- `_process_parameters`. -/
def processParameters (methodDetails : Object) : ParserM (List Object) :=
  match methodDetails.lookup "parameters" with
  | some (.arr params) => do
    let params ← params.mapM resolve
    pure (params.filterMap withDefaults)
  | _ => pure []

/-- The endpoint of the details of a method. -/
def endpointOf (upperMethod normalizedPath : String) (details : Object) :
    ParserM DiscoveredEndpoint := do
  let (bodySchema, bodyRequired) ← extractBodySchema upperMethod details
  let hasAuth := OpenAPIParser.checkAuth (← get).spec details
  let parameters ← processParameters details
  pure
    { method := upperMethod
      path := normalizedPath
      requestBodyRequired := bodyRequired
      hasAuth
      parameters
      requestBodySchema := bodySchema }

/-- An `OpenAPIParser` with what `parse` reads and writes. -/
structure Parser extends OpenAPIParser where
  endpoints : List DiscoveredEndpoint := []
  seenEndpoints : List (String × String) := []

namespace Parser

/-- `OpenAPIParser(spec_data)`. -/
def new (specData : Json) : Parser where
  spec := match specData with
    | .obj fields => fields
    | _ => []

def recordError (s : Parser) (error : String) : Parser :=
  { s with errorsEncountered := s.errorsEncountered ++ [error] }

variable (I : Interpreter)

/-- The body of the loop over the methods of a path. -/
def processMethod (path normalizedPath : String) (s : Parser) (entry : String × Json) :
    Except PyError Parser := do
  let (methodName, details) := entry
  let upperMethod := I.upper methodName
  if upperMethod ∉ OpenAPIParser.validMethods then
    pure (s.recordError ("Invalid HTTP method '" ++ methodName ++ "' for path '" ++ path ++
      "'. Skipping."))
  else
    match details with
    | .obj details =>
      if s.seenEndpoints.contains (upperMethod, normalizedPath) then
        pure (s.recordError ("Duplicate endpoint detected: " ++ upperMethod ++ " " ++
          normalizedPath ++ ". Keeping first occurrence."))
      else
        let s :=
          if (details.lookup "responses").isSome then s
          else s.recordError ("Missing 'responses' field for " ++ upperMethod ++ " " ++ path ++ ".")
        let (endpoint, parser) ← endpointOf upperMethod normalizedPath details s.toOpenAPIParser
        pure
          { toOpenAPIParser := parser
            endpoints := s.endpoints ++ [endpoint]
            seenEndpoints := s.seenEndpoints ++ [(upperMethod, normalizedPath)] }
    | _ =>
      pure (s.recordError ("Missing or invalid details for " ++ upperMethod ++ " " ++ path ++ "."))

/-- The body of the loop over the paths. -/
def processPath (s : Parser) (entry : String × Json) : Except PyError Parser :=
  match entry with
  | (path, .obj methods) =>
    methods.foldlM (processMethod I path (OpenAPIParser.normalizePath path)) s
  | (path, _) =>
    pure (s.recordError ("Invalid methods definition for path '" ++ path ++ "'. Expected object."))

/-- `_build_result`. -/
def buildResult (s : Parser) : Result where
  endpoints := s.endpoints.map toDict
  errorsEncountered := s.errorsEncountered
  totalEndpoints := s.endpoints.length

/-- The parser after `parse`. -/
def run (s : Parser) : Except PyError Parser :=
  if s.spec = [] then pure s
  else
    match (s.spec.lookup "paths").getD .null with
    | .null => pure (s.recordError "Missing 'paths' section in specification.")
    | .obj paths => paths.foldlM (processPath I) s
    | _ => pure (s.recordError "'paths' section is not a valid object.")

/-- `parse`. -/
def parse (s : Parser) : Except PyError Result := do
  let s ← s.run I
  pure s.buildResult

end Parser

end SecurityScanner.ModuleParser

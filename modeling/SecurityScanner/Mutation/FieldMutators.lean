import SecurityScanner.Mutation.PathMutator

/-!
# Mutations of parameters, headers, bodies and methods

`paramMutator.js`, `headerMutator.js`, `bodyMutator.js` and `methodMutator.js`. The body
mutator stands in the repository twice: the copy in `mutation-engine` names an undeclared
variable in `_typeConfusion`, the copy that the bridge runs does not.
-/

namespace SecurityScanner

open JavaScript

/-- The two copies of the mutation engine. -/
inductive EngineCopy where
  | standalone | bundled
  deriving DecidableEq, Repr

section strategies

variable (make : Obj → Text → Text → Mutation) (o : Obj) (key : Text)

/-- A strategy that puts each of its texts under the key. -/
def settingEach (strategy reason : Text → Text) (texts : List Text) : List Mutation :=
  texts.map fun text => make (o.set key (.str text)) (strategy text) (reason text)

/-- Numbers around the number of the value. -/
def enumeratingIds (value : Value) : Except JsError (List Mutation) := do
  match ← toNumber value with
  | none => return []
  | some num =>
    return settingEach make o key (fun candidate => js "id_enum:" ++ key ++ js "=" ++ candidate)
      (fun candidate =>
        js "Testing if " ++ key ++ js "=" ++ candidate ++ js " leaks another user's data")
      ([num - 1, num + 1, 1, 0, 99999, -1].map numberToText)

def removingKey (label : String) : List Mutation :=
  [make (o.delete key) (js label ++ key)
    (js "Testing what happens when " ++ key ++ js " is missing")]

def injecting (payloads : List String) : List Mutation :=
  settingEach make o key (fun payload => js "inject:" ++ key ++ js "=" ++ quote payload)
    (fun _ => js "Testing if " ++ key ++ js " is vulnerable to injection") (payloads.map js)

def nullifying : List Mutation :=
  settingEach make o key (fun val => js "nullify:" ++ key ++ js "=" ++ quote val)
    (fun _ => js "Testing what happens when " ++ key ++ js " is empty/null")
    (["", "null", "undefined", "0"].map js)

end strategies

namespace ParameterMutator

def mutation (params : Obj) (strategy reason : Text) : Mutation where
  params := some params
  strategy := strategy
  reason := reason

/-- `_idEnumeration`. -/
def idEnumeration : Obj → Text → Value → Except JsError (List Mutation) :=
  enumeratingIds mutation

/-- `_removeParam`. -/
def removeParam (params : Obj) (key : Text) : List Mutation :=
  removingKey mutation params key "remove_param:"

/-- The payloads for the kind of field that the name of the key suggests. -/
def specialChars (k : Text) : List String :=
  let mentions (hints : List String) : Bool := hints.any fun hint => includes k (js hint)
  if mentions ["id", "user", "account"] then
    ["' OR '1'='1", "1 OR 1=1", "-1", "0", "null"]
  else if mentions ["query", "search", "filter", "q"] then
    ["' OR '1'='1", "<script>alert(1)</script>", "\" onmouseover=\"alert(1)",
      "1; DROP TABLE users--", "*", "%"]
  else if mentions ["path", "file", "dir", "url"] then
    ["../../../etc/passwd", "../../../../windows/system32", "%2e%2e%2f%2e%2e%2f",
      "/etc/passwd%00"]
  else if mentions ["role", "permission", "access"] then
    ["admin", "superadmin", "root", "administrator", "true", "1"]
  else if mentions ["token", "key", "secret"] then
    ["", "null", "undefined", "Bearer fake"]
  else ["' OR '1'='1", "<script>alert(1)</script>", "../../../etc/passwd", "null"]

/-- `_injectSpecialChars`. -/
def injectSpecialChars (case : CaseMap) (params : Obj) (key : Text) : List Mutation :=
  injecting mutation params key (specialChars (case.lower key))

/-- `_nullify`. -/
def nullify : Obj → Text → List Mutation := nullifying mutation

/-- `ParameterMutator.mutate`. -/
def mutate (case : CaseMap) (params : Obj) : Except JsError (List Mutation) := do
  let perKey ← params.mapM fun (key, value) => do
    let ids ← idEnumeration params key value
    return ids ++ removeParam params key ++ injectSpecialChars case params key ++
      nullify params key
  return perKey.flatten

end ParameterMutator

namespace HeaderMutator

def mutation (headers : Obj) (strategy reason : Text) : Mutation where
  headers := some headers
  strategy := strategy
  reason := reason

/-- `_removeHeader`. -/
def removeHeader (headers : Obj) (key : Text) : List Mutation :=
  removingKey mutation headers key "remove_header:"

/-- `_blankValue`. -/
def blankValue (headers : Obj) (key : Text) : List Mutation :=
  settingEach mutation headers key (fun _ => js "blanking_value:" ++ key)
    (fun _ => js "Testing what happens when the value of " ++ key ++ js " is blank") [[]]

/-- The texts of `value.slice(0, -1)`, `value.slice(0, 10)` and `value.slice(11)`. Of the
values of JSON only strings and arrays have the method. -/
def slices : Value → Except JsError (Text × Text × Text)
  | .str t => .ok (t.dropLast, t.take 10, t.drop 11)
  | .arr xs => do
    return (← toText (.arr xs.dropLast), ← toText (.arr (xs.take 10)),
      ← toText (.arr (xs.drop 11)))
  | .null => .error (.typeError "Cannot read properties of null (reading 'slice')")
  | _ => .error (.typeError "value.slice is not a function")

/-- `_garbageToken`. -/
def garbageToken (case : CaseMap) (headers : Obj) (key : Text) (value : Value) :
    Except JsError (List Mutation) := do
  if !includes (case.lower key) (js "authorization") then return []
  let (butLast, start, rest) ← slices value
  let garbageValues : List Text :=
    [js "Bearer fake", js "Bearer null", js "Bearer undefined", js "Bearer 0", [],
      js "Bearer onlyonepart", js "Bearer !@#$%^&*()",
      js "Bearer " ++ List.replicate 1000 (unit 'a'),
      butLast ++ js "X", start ++ js "X" ++ rest,
      js "Bearer eyJhbGciOiJub25lIiwidHlwIjoiSldUIn0.eyJ1c2VySWQiOiIxIn0.",
      js ("Bearer eyJhbGciOiJIUzI1NiIsInR5cCI6IkpXVCJ9." ++
        "eyJ1c2VySWQiOiIxIiwicm9sZSI6ImFkbWluIn0.fakesignature")]
  return settingEach mutation headers key
    (fun garbageValue => js "garbage_token:" ++ key ++ js "=" ++ garbageValue)
    (fun garbageValue =>
      js "Testing what happens when Authorization header has garbage token " ++ garbageValue)
    garbageValues

/-- `_privelegeEsc`. -/
def privelegeEsc (case : CaseMap) (headers : Obj) (key : Text) : List Mutation :=
  if !includes (case.lower key) (js "x-user-role") then []
  else settingEach mutation headers key
    (fun privelege => js "privelege_esc:" ++ key ++ js "=" ++ privelege)
    (fun _ => js "Testing privelege escalation")
    (["admin", "superadmin", "root", "administrator"].map js)

/-- `_tenantSwapping`. Of the values of JSON only strings have the method `match`. -/
def tenantSwapping (case : CaseMap) (headers : Obj) (key : Text) (value : Value) :
    Except JsError (List Mutation) :=
  let k := case.lower key
  if !(includes k (js "id") || includes k (js "tenant") || includes k (js "org")) then .ok []
  else match value with
    | .str t =>
      match (digitRuns [] t).head? with
      | none => .ok []
      | some numStr =>
        let num := parseInt numStr
        .ok ([num - 1, num + 1, 0, 1, 9999].map fun candidate =>
          let text := numberToText candidate
          mutation (headers.set key (.str (replace t numStr text)))
            (js "tenant_swap:" ++ key ++ js "=" ++ text) (js "Testing tenant swapping"))
    | .null => .error (.typeError "Cannot read properties of null (reading 'match')")
    | _ => .error (.typeError "value.match is not a function")

/-- `_contentTypeSwap`. -/
def contentTypeSwap (case : CaseMap) (headers : Obj) (key : Text) : List Mutation :=
  if !includes (case.lower key) (js "type") then []
  else settingEach mutation headers key (fun type => js "type_swap:" ++ key ++ js "=" ++ type)
    (fun _ => js "Testing content type swapping")
    (["text/xml", "text/plain", "application/x-www-form-urlencoded"].map js)

/-- `_idSpoofing`. -/
def idSpoofing (headers : Obj) : List Mutation :=
  ["X-Forwarded-For", "X-Original-IP", "X-Real-IP"].map fun spoofKey =>
    mutation (headers.set (js spoofKey) (.str (js "127.0.0.1")))
      (js "id_spoof:" ++ js spoofKey ++ js "=" ++ js "127.0.0.1")
      (js "Testing if localhost IP gets special access via " ++ js spoofKey)

/-- The mutations for one header. -/
def mutateKey (case : CaseMap) (headers : Obj) (key : Text) (value : Value) :
    Except JsError (List Mutation) := do
  let garbage ← garbageToken case headers key value
  let tenants ← tenantSwapping case headers key value
  return removeHeader headers key ++ blankValue headers key ++ garbage ++
    privelegeEsc case headers key ++ tenants ++ contentTypeSwap case headers key

/-- `HeaderMutator.mutate`. -/
def mutate (case : CaseMap) (headers : Obj) : Except JsError (List Mutation) := do
  let perKey ← headers.mapM fun (key, value) => mutateKey case headers key value
  return perKey.flatten ++ idSpoofing headers

end HeaderMutator

namespace BodyMutator

def mutation (body : Obj) (strategy reason : Text) : Mutation where
  body := some body
  strategy := strategy
  reason := reason

/-- `_idEnumeration`. -/
def idEnumeration : Obj → Text → Value → Except JsError (List Mutation) :=
  enumeratingIds mutation

/-- `_removeField`. -/
def removeField (body : Obj) (key : Text) : List Mutation :=
  removingKey mutation body key "remove_field:"

/-- `_injectSpecialChars`. -/
def injectSpecialChars (body : Obj) (key : Text) : List Mutation :=
  injecting mutation body key
    ["' OR '1'='1", "../../../etc/passwd", "<script>alert(1)</script>", "null", "undefined",
      "true", "\x7b\x7d", "[]"]

/-- `_nullify`. -/
def nullify : Obj → Text → List Mutation := nullifying mutation

def dangerousFields : List (String × Value) :=
  [("isAdmin", .bool true), ("role", .str (js "admin")), ("verified", .bool true),
    ("credits", .num 99999), ("balance", .num 99999), ("isPremium", .bool true),
    ("accessLevel", .str (js "superadmin"))]

/-- `_massAssignment`. -/
def massAssignment (body : Obj) : List Mutation :=
  [mutation (dangerousFields.foldl (fun o kv => o.set (js kv.1) kv.2) body)
    (js "mass_assignment:all") (js "Testing if server blindly saves extra fields")]

/-- The new values of `_typeConfusion`, with the names of their types. -/
def variations : Value → List (Value × String)
  | .str t =>
    [(.num 42, "number"), (.arr [.str t], "array"), (.obj [(js "val", .str t)], "object"),
      (.bool true, "boolean")]
  | .num x =>
    [(.str (numberToText x), "string"), (.arr [.num x], "array"), (.bool true, "boolean"),
      (.null, "null")]
  | .bool b =>
    [(.num 1, "number"), (.arr [.bool b], "array"),
      (.str (js (if b then "true" else "false")), "string")]
  | _ => []

def typeOf : Value → String
  | .str _ => "string"
  | .num _ => "number"
  | .bool _ => "boolean"
  | _ => "object"

/-- `_typeConfusion`. The standalone copy evaluates the undeclared `typeName`. -/
def typeConfusion (copy : EngineCopy) (body : Obj) (key : Text) (value : Value) :
    Except JsError (List Mutation) :=
  if copy = .standalone ∧ variations value ≠ [] then
    .error (.referenceError "typeName is not defined")
  else .ok ((variations value).map fun (newValue, typeNewValue) =>
    mutation (body.set key newValue) (js "type_confusion:" ++ key ++ js "=" ++ js typeNewValue)
      (js "Testing if server validates type of " ++ key ++ js " — sent " ++ js typeNewValue ++
        js " instead of " ++ js (typeOf value)))

/-- The mutations for one field. -/
def mutateKey (copy : EngineCopy) (body : Obj) (key : Text) (value : Value) :
    Except JsError (List Mutation) := do
  let ids ← idEnumeration body key value
  let confusions ← typeConfusion copy body key value
  return ids ++ removeField body key ++ injectSpecialChars body key ++ nullify body key ++
    confusions

/-- `BodyMutator.mutate`. -/
def mutate (copy : EngineCopy) (body : Obj) : Except JsError (List Mutation) := do
  let perKey ← body.mapM fun (key, value) => mutateKey copy body key value
  return perKey.flatten ++ massAssignment body

end BodyMutator

namespace MethodMutator

def mutation (method strategy reason : Text) : Mutation where
  method := some method
  strategy := strategy
  reason := reason

/-- `_methodSwitching`. -/
def methodSwitching (currMethod : Text) : List Mutation :=
  ((["GET", "POST", "PUT", "DELETE", "PATCH", "OPTIONS", "HEAD"].map js).filter
    (· ≠ currMethod)).map fun method =>
    mutation method (js "method_switch:" ++ method)
      (js "Testing if " ++ method ++ js " is accessible when original method is " ++ currMethod)

/-- `_caseSwapping`: for each position, that unit in lower case, and all others. -/
def caseSwapping (case : CaseMap) (currMethod : Text) : List Mutation :=
  let variants := case.lower currMethod :: (List.range currMethod.length).flatMap fun i =>
    let before := currMethod.take i
    let here := (currMethod.drop i).take 1
    let after := currMethod.drop (i + 1)
    [before ++ case.lower here ++ after, case.lower before ++ here ++ case.lower after]
  variants.map fun method =>
    mutation method (js "case_swap:" ++ method)
      (js "Testing if " ++ method ++ js " is accessible")

/-- `_garbageMethod`. -/
def garbageMethod : List Mutation :=
  ["HACK", "", "FAKEMETHOD", "NULL"].map fun val =>
    mutation (js val) (js "garbage_method:" ++ js val)
      (js "Testing if garbage method " ++ js val ++ js " is accepted")

/-- `_methodOverrideHeader`. -/
def methodOverrideHeader (currMethod : Text) : List Mutation :=
  [{ method := some currMethod
     headers := some [(js "X-HTTP-Method-Override", .str (js "DELETE"))]
     strategy := js "method_override:DELETE"
     reason := js "Testing if server respects 'X-HTTP-Method-Override' header" }]

/-- `MethodMutator.mutate`. -/
def mutate (case : CaseMap) (method : Text) : List Mutation :=
  methodSwitching method ++ caseSwapping case method ++ garbageMethod ++
    methodOverrideHeader method

end MethodMutator

end SecurityScanner

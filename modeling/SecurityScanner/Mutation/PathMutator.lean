import SecurityScanner.Lib.JavaScript

/-!
# Path mutations

`pathMutator.js`: the strategies for the path of a request. A mutation carries the
components of the request that its mutator returns.
-/

namespace SecurityScanner

open JavaScript

structure Mutation where
  method : Option Text := none
  path : Option Text := none
  params : Option Obj := none
  headers : Option Obj := none
  body : Option Obj := none
  strategy : Text
  reason : Text

namespace PathMutator

/-- A mutation of a path, whose strategy label carries the new path. -/
def mutation (strategy : String) (reason mutPath : Text) : Mutation where
  path := some mutPath
  strategy := js strategy ++ mutPath
  reason := reason

/-- `_idEnumeration`. -/
def idEnumeration (path : Text) : List Mutation :=
  match (digitRuns [] path).getLast? with
  | none => []
  | some numStr =>
    let num := parseInt numStr
    [num - 1, num + 1, 0, 1, 9999].map fun candidate =>
      mutation "path_id_enumeration:"
        (js "Testing if different id " ++ numberToText candidate ++
          js " in path is accepted by server")
        (replace path numStr (numberToText candidate))

/-- A strategy that appends each of its payloads. -/
def appending (strategy : String) (reason : Text → Text) (payloads : List String)
    (path : Text) : List Mutation :=
  payloads.map fun payload => mutation strategy (reason (js payload)) (path ++ js payload)

/-- `_pathTraversal`. -/
def pathTraversal : Text → List Mutation :=
  appending "path_traversal:"
    (fun _ => js "Testing if path traversal url exposes restricted resources")
    ["/../", "/../../", "/../../../", "/../admin", "/../../admin", "/../config",
      "/../settings", "/../internal", "/%2e%2e/", "/%2e%2e/%2e%2e/", "/%252e%252e/",
      "/..\\", "/..\\..\\"]

/-- `_addedExtension`. -/
def addedExtension : Text → List Mutation :=
  appending "added_extension:"
    (fun extension => js "Testing if " ++ extension ++
      js " extension added to path exposes restricted resources")
    [".json", ".xml", ".yaml", ".csv", ".bak", ".old", ".backup", ".copy", ".tmp", ".js",
      ".php", ".py", ".rb", ".env", ".config", ".conf", ".ini", ".yml", ".log", ".zip",
      ".tar", ".gz"]

/-- `_versionSwitching`. -/
def versionSwitching (path : Text) : List Mutation :=
  match (versionTokens [] path).getLast? with
  | none => []
  | some versionStr =>
    let num := parseInt (versionStr.drop 1)
    [num - 1, num + 1, num + 2, num + 5, 9999].map fun candidate =>
      mutation "version_switching:"
        (js "Testing if different version " ++ numberToText candidate ++
          js " in path is accepted by server")
        (replace path versionStr (js "v" ++ numberToText candidate))

/-- `_caseSwitching`: the segments that are neither numbers nor end with a version. -/
def caseSwitching (case : CaseMap) (path : Text) : List Mutation :=
  let segments := ((split (unit '/') path).filter (· ≠ [])).filter (fun s =>
    (textToNumber s).isNone) |>.filter (!endsWithVersion ·)
  segments.map fun segment =>
    mutation "case_switching:"
      (js "Testing if different case of " ++ segment ++ js " in path is accepted by server")
      (replace path segment (case.upper segment))

/-- `path.replace(/\//g, "//")`. -/
def doubleSlashes (path : Text) : Text :=
  path.flatMap fun u => if u = unit '/' then [u, u] else [u]

lemma doubleSlashes_cons (u : UInt16) (t : Text) :
    doubleSlashes (u :: t) = (if u = unit '/' then [u, u] else [u]) ++ doubleSlashes t := rfl

/-- `_doubleSlashing`. -/
def doubleSlashing (path : Text) : List Mutation :=
  [mutation "double_slashing:"
    (js "Testing if adding double slashes in path is accepted by server")
    (doubleSlashes path)]

/-- `_addingJunk`. -/
def addingJunk : Text → List Mutation :=
  appending "adding_junk:" (fun _ => js "Testing adding junk in path ")
    [";admin", ";role=admin", ";/../", "%00", "%00.json", "#bypass", "#admin",
      "?admin=true", "?role=admin", "?debug=true", "%20admin", "%09", "%ef%bc%8f", "\x00"]

/-- `PathMutator.mutate`. -/
def mutate (case : CaseMap) (path : Text) : List Mutation :=
  idEnumeration path ++ addedExtension path ++ addingJunk path ++ caseSwitching case path ++
    doubleSlashing path ++ pathTraversal path ++ versionSwitching path

end PathMutator

end SecurityScanner

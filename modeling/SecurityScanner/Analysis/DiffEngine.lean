import SecurityScanner.Analysis.Models
import SecurityScanner.Lib.Difflib
import SecurityScanner.Lib.Python

/-!
# The response diff engine

`diff_engine.py`. A set is a list without repetitions, in the order in which its elements
came; where the code makes a list of it, the interpreter chooses the order.
-/

namespace SecurityScanner

open Python

/-- `_body_similarity`. -/
def bodySimilarity : Option String → Option String → Float
  | none, none => 1
  | some a, some b => Difflib.ratio (strip a) (strip b)
  | _, _ => 0

mutual

/-- `_flatten_json`. -/
def flattenJson : Json → String → Dict String Json
  | .obj fields, pfx => flattenFields fields pfx Dict.empty
  | .arr xs, pfx => flattenItems xs pfx 0 Dict.empty
  | v, pfx => Dict.empty.set pfx v

def flattenFields : List (String × Json) → String → Dict String Json → Dict String Json
  | [], _, result => result
  | (k, v) :: rest, pfx, result =>
    let fullKey := if pfx ≠ "" then pfx ++ "." ++ k else k
    flattenFields rest pfx (result.update (flattenJson v fullKey).items)

def flattenItems : List Json → String → Nat → Dict String Json → Dict String Json
  | [], _, _, result => result
  | v :: rest, pfx, i, result =>
    let fullKey := pfx ++ "[" ++ toString i ++ "]"
    flattenItems rest pfx (i + 1) (result.update (flattenJson v fullKey).items)

end

/-- `_flatten_json(obj) if obj else {}`. -/
def flatOf (obj : Json) : Dict String Json :=
  if obj.truthy then flattenJson obj "" else Dict.empty

section ids

def isHex (c : Char) : Bool :=
  c.isDigit || ('a' ≤ c && c ≤ 'f') || ('A' ≤ c && c ≤ 'F')

/-- The text starts with groups of hexadecimal digits of the given sizes, joined by `-`. -/
def startsWithGroups : List Nat → List Char → Bool
  | [], _ => true
  | [n], cs => (cs.take n).length = n && (cs.take n).all isHex
  | n :: ns, cs =>
    (cs.take n).length = n && (cs.take n).all isHex &&
      match cs.drop n with
      | '-' :: cs => startsWithGroups ns cs
      | _ => false

/-- `uuid_pattern.match`. -/
def matchesUuid (s : String) : Bool := startsWithGroups [8, 4, 4, 4, 12] s.toList

/-- `int_id_pattern.match`: 1 to 12 digits and perhaps the end of the line. -/
def matchesIntId (I : Interpreter) (s : String) : Bool :=
  let cs := s.toList
  let digits := if cs.getLast? = some '\n' then cs.dropLast else cs
  1 ≤ digits.length && digits.length ≤ 12 && digits.all I.isDecimal

/-- `str(val)` of a leaf. The text of a float matches neither pattern, so it is left out
together with `None`. -/
def leafText : Json → Option String
  | .bool b => some (if b then "True" else "False")
  | .int n => some (toString n)
  | .str s => some s
  | _ => none

def isIdKey (I : Interpreter) (key : String) : Bool :=
  ["id", "user", "owner", "account", "tenant"].any fun k => contains (I.lower key) k

/-- The identifier that a flat entry adds. -/
def idOf (I : Interpreter) (key : String) (val : Json) : Option String :=
  match leafText val with
  | none => none
  | some s =>
    if matchesUuid s then some (I.lower s)
    else if matchesIntId I s && isIdKey I key then some s
    else none

/-- `_extract_ids`. -/
def extractIds (I : Interpreter) (obj : Json) : List String :=
  ((flatOf obj).items.filterMap fun kv => idOf I kv.1 kv.2).dedup

end ids

section fields

/-- The value of a leaf that is a number for Python. -/
def number? : Json → Option ℚ
  | .bool b => some (if b then 1 else 0)
  | .int n => some n
  | .float q => some q
  | _ => none

/-- `x == y` on the leaves of two documents. -/
def leafEq (x y : Json) : Bool :=
  match number? x, number? y with
  | some p, some q => p = q
  | none, none => x = y
  | _, _ => false

structure FieldDiff where
  leaked : List String
  added : List String
  removed : List String
  valueChanges : List (String × Json × Json)

/-- `_field_diff`. -/
def fieldDiff (I : Interpreter) (bodyA bodyB : Json) : FieldDiff :=
  let flatA := flatOf bodyA
  let flatB := flatOf bodyB
  let common := I.setOrder (flatA.keys.filter (· ∈ flatB.keys))
  { leaked := common
    added := I.setOrder (flatB.keys.filter (· ∉ flatA.keys))
    removed := I.setOrder (flatA.keys.filter (· ∉ flatB.keys))
    valueChanges := common.filterMap fun k =>
      match flatA.get? k, flatB.get? k with
      | some x, some y => if leafEq x y then none else some (k, x, y)
      | _, _ => none }

end fields

section compare

variable (I : Interpreter) (a b : CapturedResponse)

/-- `different_tenant`. -/
def differentTenant : Bool :=
  truthy a.tenantId && truthy b.tenantId && a.tenantId ≠ b.tenantId

/-- `foreign_ids`. -/
def foreignIds : List String :=
  let idsA := extractIds I a.bodyJson
  let idsB := extractIds I b.bodyJson
  if idsA ≠ [] && idsB ≠ [] && (differentTenant a b || a.userId ≠ b.userId) then
    I.setOrder (idsA.filter (· ∈ idsB))
  else []

/-- Both users are served, and the bodies are alike. -/
def SameData (similarityThreshold : Float) : Prop :=
  a.userId ≠ b.userId ∧ a.statusCode = 200 ∧ b.statusCode = 200 ∧
    similarityThreshold ≤ bodySimilarity a.body b.body

def SharedIds : Prop :=
  foreignIds I a b ≠ [] ∧ a.userId ≠ b.userId ∧ (a.statusCode = 200 ∨ b.statusCode = 200)

def OnlyChallenger : Prop :=
  a.userId ≠ b.userId ∧ (a.statusCode = 403 ∨ a.statusCode = 401) ∧ b.statusCode = 200

instance (t : Float) : Decidable (SameData a b t) := by unfold SameData; infer_instance

instance : Decidable (SharedIds I a b) := by unfold SharedIds; infer_instance

instance : Decidable (OnlyChallenger a b) := by unfold OnlyChallenger; infer_instance

/-- The branches that make a pair an anomaly, with their reasons. -/
def anomalyReason (similarityThreshold : Float) : Option String :=
  if SameData a b similarityThreshold then
    some ("Both users received HTTP 200 with body similarity " ++
      percent (bodySimilarity a.body b.body) ++ ". User A (" ++ text a.userId ++ "/" ++
      text a.role ++ ") and User B (" ++ text b.userId ++ "/" ++ text b.role ++
      ") appear to receive the same data.")
  else if SharedIds I a b then
    some ("IDs belonging to User A (" ++ text a.userId ++
      ") found in User B's response body: " ++
      String.intercalate ", " ((foreignIds I a b).take 5))
  else if OnlyChallenger a b then
    some ("User A received " ++ toString a.statusCode ++ " but User B (" ++ text b.role ++
      ") received 200 on the same endpoint.")
  else none

/-- `compare_responses`. -/
def compareResponses (similarityThreshold : Float) : DiffResult :=
  let fields := fieldDiff I a.bodyJson b.bodyJson
  let reason := anomalyReason I a b similarityThreshold
  { endpoint := a.endpoint
    method := a.method
    responseA := a
    responseB := b
    statusDelta := b.statusCode - a.statusCode
    bodySimilarity := round4 (bodySimilarity a.body b.body)
    leakedFields := fields.leaked
    addedFields := fields.added
    removedFields := fields.removed
    valueChanges := fields.valueChanges
    isAnomaly := reason.isSome
    anomalyReason := reason.getD ""
    foreignIdsFound := foreignIds I a b }

/-- A pair is an anomaly when one of the three branches is taken. -/
lemma isAnomaly_compareResponses (t : Float) :
    (compareResponses I a b t).isAnomaly = true ↔
      SameData a b t ∨ SharedIds I a b ∨ OnlyChallenger a b := by
  simp only [compareResponses, anomalyReason]
  by_cases h1 : SameData a b t
  · simp [h1]
  · by_cases h2 : SharedIds I a b
    · simp [h1, h2]
    · by_cases h3 : OnlyChallenger a b <;> simp [h1, h2, h3]

end compare

/-- `batch_compare`. -/
def batchCompare (I : Interpreter) (pairs : List (CapturedResponse × CapturedResponse))
    (similarityThreshold : Float) : List DiffResult :=
  (pairs.map fun p => compareResponses I p.1 p.2 similarityThreshold).filter (·.isAnomaly)

end SecurityScanner

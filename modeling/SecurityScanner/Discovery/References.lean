import SecurityScanner.Analysis.JsonLeaves
import SecurityScanner.Discovery.OpenApiParser
import SecurityScanner.Lib.JsonPointer

/-!
# References in a specification

`_resolve_ref` of the `parser.py` of the discovery module. A reference is looked up token by
token as it is written, while a pointer writes some keys with escapes and goes through arrays
by index.
-/

namespace SecurityScanner

open JsonPointer Json Python

namespace ModuleParser

/-- What `_resolve_ref` reads and writes of an `OpenAPIParser`. -/
structure OpenAPIParser where
  spec : Object
  errorsEncountered : List String := []

inductive LookupFailure where
  | keyError | typeError
  deriving DecidableEq, Repr

/-- `current[part]` for a string. -/
def subscript (current : Json) (part : String) : Except LookupFailure Json :=
  match current with
  | .obj fields =>
    match fields.lookup part with
    | some v => .ok v
    | none => .error .keyError
  | _ => .error .typeError

/-- `ref_path.split("/")`. -/
def splitSlashes (refPath : String) : List String :=
  (refPath.toList.splitOn '/').map String.ofList

/-- `_resolve_ref`. -/
def resolveRef (parser : OpenAPIParser) (schema : Json) : Except PyError (OpenAPIParser × Json) :=
  match schema with
  | .obj fields =>
    match fields.lookup "$ref" with
    | none => .ok (parser, schema)
    | some (.str refPath) =>
      if "#/".toList.isPrefixOf refPath.toList then
        match ((splitSlashes refPath).drop 1).foldlM subscript (.obj parser.spec) with
        | .ok current => .ok (parser, current)
        | .error _ =>
          let message := "Could not resolve reference: " ++ refPath
          .ok ({ parser with errorsEncountered := parser.errorsEncountered ++ [message] }, schema)
      else .ok (parser, schema)
    | some _ => .error .attributeError
  | _ => .ok (parser, schema)

end ModuleParser

open ModuleParser

namespace Json

/-- The node at a position. -/
def nodeAt : Json → List Step → Option Json
  | v, [] => some v
  | v, s :: p => (v.child s).bind fun w => nodeAt w p

lemma nodeAt_append (v : Json) (p q : List Step) :
    v.nodeAt (p ++ q) = (v.nodeAt p).bind fun w => w.nodeAt q := by
  induction p generalizing v with
  | nil => rfl
  | cons s p ih =>
    rw [List.cons_append, nodeAt, nodeAt, Option.bind_assoc]
    exact congrArg _ (funext ih)

/-- The token of a step in a pointer. -/
def Step.token : Step → List Char
  | .field k => k.toList
  | .item i => (toString i).toList

/-- A step to a key that a pointer writes as it is. -/
def Step.Literal : Step → Prop
  | .field k => Plain k.toList
  | .item _ => False

/-- The key that the encoded token of a step is read as. -/
def Step.asKey (s : Step) : Step := .field (String.ofList (encode s.token))

lemma Step.asKey_of_literal {s : Step} (h : s.Literal) : s.asKey = s := by
  cases s with
  | field k =>
    unfold Step.asKey Step.token
    rw [encode_of_plain h, String.ofList_toList]
  | item i => cases h

end Json

/-- `{"$ref": "#/..."}` with the pointer to a position. -/
def reference (p : List Step) : Json :=
  .obj [("$ref", .str ("#/" ++ String.ofList (pointer (p.map Step.token))))]

/-- The reference to a position gives the value and records no error. -/
def Resolves (doc : Object) (p : List Step) (w : Json) : Prop :=
  ∀ errors, resolveRef ⟨doc, errors⟩ (reference p) = .ok (⟨doc, errors⟩, w)

section walk

lemma subscript_eq (v : Json) (k : String) (w : Json) :
    subscript v k = .ok w ↔ v.child (.field k) = some w := by
  unfold subscript child
  cases v with
  | obj fields => cases h : fields.lookup k <;> simp [h]
  | _ => simp

lemma walk_eq_ok {v w : Json} {keys : List String} :
    keys.foldlM subscript v = .ok w ↔ v.nodeAt (keys.map .field) = some w := by
  induction keys generalizing v with
  | nil =>
    rw [List.foldlM_nil]
    constructor
    · intro h
      exact congrArg some (Except.ok.inj h)
    · intro h
      exact congrArg Except.ok (Option.some.inj h)
  | cons k keys ih =>
    rw [List.foldlM_cons, List.map_cons, nodeAt, Option.bind_eq_some_iff]
    cases hk : subscript v k with
    | error e =>
      constructor
      · intro h
        cases h
      · rintro ⟨u, hu, -⟩
        rw [(subscript_eq v k u).mpr hu] at hk
        cases hk
    | ok u =>
      have hu : v.child (.field k) = some u := (subscript_eq v k u).mp hk
      constructor
      · intro h
        exact ⟨u, hu, ih.mp h⟩
      · rintro ⟨u', hu', h⟩
        obtain rfl : u = u' := Option.some.inj (hu.symm.trans hu')
        exact ih.mpr h

/-- The text of a reference starts with the empty part before the first slash. -/
lemma toList_pointer (cs : List Char) :
    ("#/" ++ String.ofList cs).toList = ['#'] ++ '/' :: cs := by
  have hcs : (String.ofList cs).toList = cs := String.toList_ofList
  rw [String.toList_append, hcs]
  rfl

/-- The parts of a reference are the encoded tokens of its position. -/
lemma parts_reference {p : List Step} (hp : p ≠ []) :
    ((splitSlashes ("#/" ++ String.ofList (pointer (p.map Step.token)))).drop 1).map Step.field =
      p.map Step.asKey := by
  have hne : p.map Step.token ≠ [] := by simpa using hp
  have hhash : '/' ∉ ['#'] := by decide
  unfold splitSlashes
  rw [toList_pointer, List.splitOn_append_cons_self_of_not_mem hhash, splitOn_pointer hne,
    List.map_cons, List.drop_one, List.tail_cons, List.map_map, List.map_map, List.map_map]
  rfl

/-- A reference is resolved by the keys that its tokens are read as. -/
lemma resolves_iff {doc : Object} {p : List Step} {w : Json} (hp : p ≠ []) :
    Resolves doc p w ↔ (Json.obj doc).nodeAt (p.map Step.asKey) = some w := by
  have hprefix : "#/".toList.isPrefixOf
      ("#/" ++ String.ofList (pointer (p.map Step.token))).toList = true := by
    rw [toList_pointer]
    rfl
  rw [← parts_reference hp, ← walk_eq_ok]
  unfold Resolves resolveRef reference
  simp only [List.lookup_cons_self, hprefix, if_true]
  constructor
  · intro h
    have hrun := h []
    cases hwalk : ((splitSlashes ("#/" ++ String.ofList (pointer (p.map Step.token)))).drop 1
      ).foldlM subscript (.obj doc) with
    | ok v =>
      rw [hwalk] at hrun
      cases hrun
      rfl
    | error e =>
      rw [hwalk] at hrun
      cases hrun
  · intro h errors
    rw [h]

end walk

/-- The document has an equal node where the encoded tokens lead, from the first one on that a
pointer escapes. -/
def HasDecoy (doc : Object) (p : List Step) (w : Json) : Prop :=
  ∃ q k r, p = q ++ .field k :: r ∧ (∀ s ∈ q, s.Literal) ∧ ¬Plain k.toList ∧
    (Json.obj doc).nodeAt (q ++ (Step.field k :: r).map Step.asKey) = some w

lemma exists_first_not_literal {p : List Step} (h : ¬∀ s ∈ p, s.Literal) :
    ∃ q s r, p = q ++ s :: r ∧ (∀ t ∈ q, t.Literal) ∧ ¬s.Literal := by
  induction p with
  | nil => exact absurd (fun s hs => nomatch hs) h
  | cons s p ih =>
    by_cases hs : s.Literal
    · have hp : ¬∀ s ∈ p, s.Literal := by
        intro hp
        apply h
        rw [List.forall_mem_cons]
        exact ⟨hs, hp⟩
      obtain ⟨q, t, r, rfl, hq, ht⟩ := ih hp
      refine ⟨s :: q, t, r, rfl, ?_, ht⟩
      rw [List.forall_mem_cons]
      exact ⟨hs, hq⟩
    · exact ⟨[], s, p, rfl, fun t ht => (nomatch ht), hs⟩

lemma map_asKey_of_literal {q : List Step} (h : ∀ s ∈ q, s.Literal) : q.map Step.asKey = q :=
  (List.map_congr_left fun s hs => Step.asKey_of_literal (h s hs)).trans (List.map_id q)

/-- The reference to a node is resolved only if its position has neither an index nor a key
with `~` or `/`, or where there is an equal node in the wrong place. -/
theorem resolve_ref_iff {doc : Object} {p : List Step} {w : Json} (hp : p ≠ [])
    (hw : (Json.obj doc).nodeAt p = some w) :
    Resolves doc p w ↔ (∀ s ∈ p, s.Literal) ∨ HasDecoy doc p w := by
  rw [resolves_iff hp]
  by_cases hall : ∀ s ∈ p, s.Literal
  · rw [map_asKey_of_literal hall]
    exact iff_of_true hw (Or.inl hall)
  · obtain ⟨q, s, r, rfl, hq, hs⟩ := exists_first_not_literal hall
    rw [List.map_append, map_asKey_of_literal hq]
    constructor
    · intro h
      right
      cases s with
      | field k => exact ⟨q, k, r, rfl, hq, hs, h⟩
      | item i =>
        -- the container at `q` is an array, and an array has no keys
        rw [nodeAt_append] at h hw
        obtain ⟨v, hv, hitem⟩ := Option.bind_eq_some_iff.mp hw
        rw [hv] at h
        obtain ⟨u, hu, -⟩ := Option.bind_eq_some_iff.mp hitem
        rw [Option.bind_some] at h
        obtain ⟨u', hu', -⟩ := Option.bind_eq_some_iff.mp h
        rcases child_cases hu with ⟨xs, j, rfl, -, -⟩ | ⟨fields, k, -, hstep, -⟩
        · cases hu'
        · cases hstep
    · rintro (h | ⟨q', k, r', heq, hq', -, h⟩)
      · exact absurd h hall
      · rw [← map_asKey_of_literal hq', ← List.map_append, ← heq, List.map_append,
          map_asKey_of_literal hq] at h
        exact h

/-- A document with one path. -/
def usersSpec : Object := [("paths", .obj [("/users", .obj [("summary", .str "All users")])])]

/-- The reference to the path item is not resolved. -/
theorem resolve_ref_fails_on_path :
    (Json.obj usersSpec).nodeAt [.field "paths", .field "/users"] =
        some (.obj [("summary", .str "All users")]) ∧
      ¬Resolves usersSpec [.field "paths", .field "/users"]
        (.obj [("summary", .str "All users")]) := by
  refine ⟨by decide +kernel, ?_⟩
  rw [resolves_iff (by decide)]
  decide +kernel

/-- The reference to what stands under `paths` is. -/
theorem resolve_ref_of_plain_key :
    (∀ s ∈ [Step.field "paths"], s.Literal) ∧
      Resolves usersSpec [.field "paths"]
        (.obj [("/users", .obj [("summary", .str "All users")])]) := by
  have hliteral : ∀ s ∈ [Step.field "paths"], s.Literal := by simp [Step.Literal, Plain]
  exact ⟨hliteral, (resolve_ref_iff (by decide) (by decide +kernel)).mpr (Or.inl hliteral)⟩

end SecurityScanner

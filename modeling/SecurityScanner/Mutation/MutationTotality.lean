import SecurityScanner.Lib.Fallible
import SecurityScanner.Mutation.Engine

/-!
# When the mutation engine returns

The strategies convert the values of parameters and body fields to numbers and call string
methods on the values of some headers. Paths and methods are texts, and their strategies do
not fail.
-/

namespace SecurityScanner

open JavaScript Fallible

section conversion

/-- A value that is converted along with `v`: it is `v`, or it stands in an array that is. -/
inductive ConvertedWith : Value → Value → Prop
  | self (v : Value) : ConvertedWith v v
  | element {xs : List Value} {x w : Value} : x ∈ xs → ConvertedWith x w →
      ConvertedWith (.arr xs) w

/-- No object that is converted along with the value hides the method `toString`. -/
def Convertible (v : Value) : Prop :=
  ∀ fields, ConvertedWith v (.obj fields) → Obj.has fields (js "toString") = false

lemma convertible_arr {xs : List Value} : Convertible (.arr xs) ↔ ∀ x ∈ xs, Convertible x := by
  constructor
  · intro h x hx fields hfields
    exact h fields (ConvertedWith.element hx hfields)
  · intro h fields hfields
    cases hfields with
    | element hx hfields => exact h _ hx fields hfields

lemma convertible_obj {fields : Obj} :
    Convertible (.obj fields) ↔ Obj.has fields (js "toString") = false := by
  constructor
  · exact fun h => h fields (ConvertedWith.self _)
  · intro h other hother
    cases hother
    exact h

lemma convertible_of_primitive {v : Value} (harr : ∀ xs, v ≠ .arr xs) (hobj : ∀ o, v ≠ .obj o) :
    Convertible v := by
  intro fields hfields
  cases hfields with
  | self => exact absurd rfl (hobj fields)
  | element => exact absurd rfl (harr _)

/-- In a list an element that is null is left blank, which is what it would do. -/
lemma returns_elementTexts_cons (x : Value) (xs : List Value) :
    Returns (elementTexts (x :: xs)) ↔ Returns (toText x) ∧ Returns (elementTexts xs) := by
  by_cases hx : x = .null
  · rw [hx, elementTexts, returns_map]
    exact (and_iff_right (returns_ok _)).symm
  · rw [elementTexts]
    · apply returns_bind_const
      exact fun t => returns_bind_of_forall fun ts => returns_pure _
    · exact hx

mutual

lemma returns_toText : ∀ v : Value, Returns (toText v) ↔ Convertible v
  | .null => iff_of_true (returns_ok _) (convertible_of_primitive nofun nofun)
  | .bool _ => iff_of_true (returns_ok _) (convertible_of_primitive nofun nofun)
  | .num _ => iff_of_true (returns_ok _) (convertible_of_primitive nofun nofun)
  | .str _ => iff_of_true (returns_ok _) (convertible_of_primitive nofun nofun)
  | .arr xs => by
    rw [toText, returns_map, returns_elementTexts xs, convertible_arr]
  | .obj fields => by
    rw [toText, convertible_obj]
    cases Obj.has fields (js "toString") <;> simp

lemma returns_elementTexts : ∀ xs : List Value,
    Returns (elementTexts xs) ↔ ∀ x ∈ xs, Convertible x
  | [] => by simp [elementTexts]
  | x :: xs => by
    rw [returns_elementTexts_cons, returns_toText x, returns_elementTexts xs, List.forall_mem_cons]

end

lemma returns_arr (xs : List Value) : Returns (toText (.arr xs)) ↔ ∀ x ∈ xs, Convertible x :=
  (returns_toText _).trans convertible_arr

lemma returns_toNumber (v : Value) : Returns (toNumber v) ↔ Convertible v := by
  cases v with
  | null => exact iff_of_true (returns_ok _) (convertible_of_primitive nofun nofun)
  | bool b => exact iff_of_true (returns_ok _) (convertible_of_primitive nofun nofun)
  | num x => exact iff_of_true (returns_ok _) (convertible_of_primitive nofun nofun)
  | str t => exact iff_of_true (returns_ok _) (convertible_of_primitive nofun nofun)
  | arr xs => exact returns_map.trans (returns_toText _)
  | obj fields => exact returns_map.trans (returns_toText _)

end conversion

section strategies

variable (case : CaseMap)

lemma returns_enumeratingIds (make : Obj → Text → Text → Mutation) (o : Obj) (key : Text)
    (v : Value) : Returns (enumeratingIds make o key v) ↔ Convertible v := by
  rw [← returns_toNumber]
  unfold enumeratingIds
  apply returns_bind_of_forall
  rintro (_ | num)
  · exact returns_pure _
  · exact returns_pure _

/-- The value of a header that names an authorization: a text, or an array of which only parts are
converted, the elements that `slice(0, -1)`, `slice(0, 10)` and `slice(11)` keep. -/
def Sliceable : Value → Prop
  | .str _ => True
  | .arr xs => ∀ x ∈ xs.dropLast ++ xs.take 10 ++ xs.drop 11, Convertible x
  | _ => False

lemma returns_slices (v : Value) : Returns (HeaderMutator.slices v) ↔ Sliceable v := by
  cases v with
  | str t => exact iff_of_true (returns_ok _) trivial
  | arr xs =>
    unfold HeaderMutator.slices Sliceable
    dsimp only
    rw [List.forall_mem_append, List.forall_mem_append, ← returns_arr xs.dropLast,
      ← returns_arr (xs.take 10), ← returns_arr (xs.drop 11), and_assoc]
    apply returns_bind_const
    intro butLast
    apply returns_bind_const
    intro start
    exact returns_bind_of_forall fun rest => returns_pure _
  | null => exact iff_of_false (not_returns_error _) id
  | bool b => exact iff_of_false (not_returns_error _) id
  | num x => exact iff_of_false (not_returns_error _) id
  | obj fields => exact iff_of_false (not_returns_error _) id

lemma returns_garbageToken (headers : Obj) (key : Text) (v : Value) :
    Returns (HeaderMutator.garbageToken case headers key v) ↔
      (includes (case.lower key) (js "authorization") = true → Sliceable v) := by
  unfold HeaderMutator.garbageToken
  cases includes (case.lower key) (js "authorization") with
  | false => simp
  | true =>
    simp only [Bool.not_true, Bool.false_eq_true, if_false]
    rw [returns_bind_of_forall fun _ => returns_pure _, returns_slices]
    simp

/-- The header is taken for one that names a tenant. -/
def isTenantHeader (key : Text) : Bool :=
  includes (case.lower key) (js "id") || includes (case.lower key) (js "tenant") ||
    includes (case.lower key) (js "org")

def IsText (v : Value) : Prop := ∃ t, v = .str t

lemma returns_tenantSwapping (headers : Obj) (key : Text) (v : Value) :
    Returns (HeaderMutator.tenantSwapping case headers key v) ↔
      (isTenantHeader case key = true → IsText v) := by
  unfold HeaderMutator.tenantSwapping
  dsimp only
  change Returns (if !isTenantHeader case key then _ else _) ↔ _
  cases isTenantHeader case key with
  | false => simp
  | true =>
    cases v with
    | str t =>
      have htext : IsText (.str t) := ⟨t, rfl⟩
      cases hrun : (digitRuns [] t).head? with
      | none => simp [hrun, htext]
      | some run => simp [hrun, htext]
    | _ => simp [IsText]

lemma returns_typeConfusion (copy : EngineCopy) (body : Obj) (key : Text) (v : Value) :
    Returns (BodyMutator.typeConfusion copy body key v) ↔
      (copy = .standalone → BodyMutator.variations v = []) := by
  unfold BodyMutator.typeConfusion
  by_cases hundeclared : copy = .standalone ∧ BodyMutator.variations v ≠ []
  · rw [if_pos hundeclared]
    exact iff_of_false (not_returns_error _) fun h => hundeclared.2 (h hundeclared.1)
  · rw [if_neg hundeclared]
    exact iff_of_true (returns_ok _) (by tauto)

end strategies

section engine

variable (copy : EngineCopy) (case : CaseMap)

def ParamReadable (kv : Text × Value) : Prop := Convertible kv.2

/-- The header is a text or an array where it names an authorization, and a text where it is
taken for a tenant. -/
def HeaderReadable (kv : Text × Value) : Prop :=
  (includes (case.lower kv.1) (js "authorization") = true → Sliceable kv.2) ∧
    (isTenantHeader case kv.1 = true → IsText kv.2)

/-- The standalone copy has no new value for the field. -/
def FieldReadable (kv : Text × Value) : Prop :=
  Convertible kv.2 ∧ (copy = .standalone → BodyMutator.variations kv.2 = [])

lemma returns_params (params : Obj) :
    Returns (ParameterMutator.mutate case params) ↔ ∀ kv ∈ params, ParamReadable kv := by
  unfold ParameterMutator.mutate
  rw [returns_bind_of_forall fun _ => returns_pure _, returns_mapM]
  apply forall₂_congr
  rintro ⟨key, value⟩ -
  rw [returns_bind_of_forall fun _ => returns_pure _]
  exact returns_enumeratingIds _ _ _ _

lemma returns_headers (headers : Obj) :
    Returns (HeaderMutator.mutate case headers) ↔ ∀ kv ∈ headers, HeaderReadable case kv := by
  unfold HeaderMutator.mutate
  rw [returns_bind_of_forall fun _ => returns_pure _, returns_mapM]
  apply forall₂_congr
  rintro ⟨key, value⟩ -
  unfold HeaderReadable
  rw [← returns_garbageToken case headers]
  apply returns_bind_const
  intro garbage
  rw [returns_bind_of_forall fun _ => returns_pure _]
  exact returns_tenantSwapping case headers key value

lemma returns_body (body : Obj) :
    Returns (BodyMutator.mutate copy body) ↔ ∀ kv ∈ body, FieldReadable copy kv := by
  unfold BodyMutator.mutate
  rw [returns_bind_of_forall fun _ => returns_pure _, returns_mapM]
  apply forall₂_congr
  rintro ⟨key, value⟩ -
  unfold FieldReadable
  rw [← returns_enumeratingIds BodyMutator.mutation body key]
  apply returns_bind_const
  intro ids
  rw [returns_bind_of_forall fun _ => returns_pure _]
  exact returns_typeConfusion copy body key value

/-- A component that is missing or empty has no mutations. -/
lemma returns_ofObject {mutator : Obj → Except JsError (List Mutation)} {R : Text × Value → Prop}
    (h : ∀ o, Returns (mutator o) ↔ ∀ kv ∈ o, R kv) (o : Option Obj) :
    Returns (MutationEngine.ofObject mutator o) ↔ ∀ kv ∈ o.getD [], R kv := by
  cases o with
  | none => exact iff_of_true (returns_ok _) (by simp)
  | some o =>
    cases o with
    | nil => exact iff_of_true (returns_ok _) (by simp)
    | cons kv kvs => exact h (kv :: kvs)

/-- The engine returns when it can read all the values that its strategies convert. -/
theorem mutate_returns_iff (request : MutationRequest) :
    Returns (MutationEngine.mutate copy case request) ↔
      (∀ kv ∈ request.params.getD [], ParamReadable kv) ∧
      (∀ kv ∈ request.headers.getD [], HeaderReadable case kv) ∧
      ∀ kv ∈ request.body.getD [], FieldReadable copy kv := by
  unfold MutationEngine.mutate
  rw [returns_bind_of_forall fun _ => returns_pure _]
  unfold MutationEngine.allMutations
  rw [← returns_ofObject (returns_params case), ← returns_ofObject (returns_headers case),
    ← returns_ofObject (returns_body copy)]
  apply returns_bind_const
  intro params
  apply returns_bind_const
  intro headers
  exact returns_bind_of_forall fun body => returns_pure _

/-- A request with a text in its body. -/
def namedRequest : MutationRequest where
  method := some (js "POST")
  path := some (js "/users")
  params := some []
  headers := some []
  body := some [(js "name", .str (js "x"))]

/-- The standalone copy does not know the name of the type. -/
theorem mutate_throws : ¬Returns (MutationEngine.mutate .standalone asciiCase namedRequest) := by
  decide +kernel

end engine

end SecurityScanner

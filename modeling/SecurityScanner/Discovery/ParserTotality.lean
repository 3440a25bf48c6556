import SecurityScanner.Discovery.ParserEntries

/-!
# When the parser returns

`parse` records what is wrong with the paths and the methods, but reads `requestBody`,
`content` and `parameters` of a method without a look at their types.
-/

namespace SecurityScanner.OpenAPIParser

open Python Fallible FirstWins

section readable

/-- The value is an object. -/
def IsObject (v : Json) : Prop := ∃ fields, v = .obj fields

/-- `in` can be asked of the content, and what it has for JSON is an object. -/
def ContentReadable : Json → Prop
  | .obj content => ∀ media, content.lookup "application/json" = some media → IsObject media
  | .arr xs => .str "application/json" ∉ xs
  | .str s => contains s "application/json" = false
  | _ => False

/-- `content` of a request body, by default an empty object. -/
def contentOf (body : Object) : Json := (body.lookup "content").getD (.obj [])

def RequestBodyReadable (details : Object) : Prop :=
  ∀ rb, details.lookup "requestBody" = some rb →
    ∃ body, rb = .obj body ∧ ContentReadable (contentOf body)

/-- The content has a schema for JSON that is not empty. -/
def HasSchema (content : Json) : Prop :=
  ∃ fields media schema, content = .obj fields ∧
    fields.lookup "application/json" = some (.obj media) ∧
    media.lookup "schema" = some schema ∧ schema.truthy = true

def RequestBodyHasSchema (details : Object) : Prop :=
  ∃ body, details.lookup "requestBody" = some (.obj body) ∧ HasSchema (contentOf body)

/-- The parameter is one for the body. -/
def InBody (param : Json) : Prop :=
  ∃ fields, param = .obj fields ∧ fields.lookup "in" = some (.str "body")

/-- The parameters can be walked, and up to the first one for the body they are objects. -/
def ParametersReadable : Json → Prop
  | .arr params => ∀ before param after, params = before ++ param :: after →
      (∀ q ∈ before, ¬InBody q) → IsObject param
  | .obj fields => fields = []
  | .str s => s = ""
  | _ => False

/-- `parameters` of a method, by default an empty list. -/
def parametersOf (details : Object) : Json := (details.lookup "parameters").getD (.arr [])

def Readable (details : Object) : Prop :=
  RequestBodyReadable details ∧ (RequestBodyHasSchema details ∨
    ParametersReadable (parametersOf details))

end readable

section parameters

lemma returns_get {v : Json} {key : String} {default : Json} :
    Returns (v.get key default) ↔ IsObject v := by
  cases v <;> simp [Json.get, IsObject]

lemma parametersReadable_cons {param : Json} {params : List Json} :
    ParametersReadable (.arr (param :: params)) ↔
      IsObject param ∧ (¬InBody param → ParametersReadable (.arr params)) := by
  constructor
  · intro h
    refine ⟨h [] param params rfl (by simp), fun hin before q after hsplit hbefore => ?_⟩
    apply h (param :: before) q after (by rw [hsplit, List.cons_append])
    intro r hr
    rcases List.mem_cons.mp hr with rfl | hr
    · exact hin
    · exact hbefore r hr
  · rintro ⟨hobject, hrest⟩ before q after hsplit hbefore
    cases before with
    | nil =>
      obtain ⟨rfl, -⟩ := List.cons.inj hsplit
      exact hobject
    | cons r before =>
      obtain ⟨rfl, hparams⟩ := List.cons.inj hsplit
      have hin : ¬InBody param := hbefore param List.mem_cons_self
      exact hrest hin before q after hparams fun x hx => hbefore x (List.mem_cons_of_mem _ hx)

lemma inBody_obj {fields : Object} :
    InBody (.obj fields) ↔ (fields.lookup "in").getD .null = .str "body" := by
  constructor
  · rintro ⟨fields', hfields, hin⟩
    obtain rfl := Json.obj.inj hfields
    rw [hin]
    rfl
  · intro h
    refine ⟨fields, rfl, ?_⟩
    cases hin : fields.lookup "in" with
    | none =>
      rw [hin] at h
      cases h
    | some v =>
      rw [hin] at h
      exact congrArg some h

/-- The loop over the parameters stops at the first one for the body. -/
lemma returns_bodyParameter {schema required : Json} {params : List Json} :
    Returns (bodyParameter schema required params) ↔ ParametersReadable (.arr params) := by
  induction params with
  | nil => simp [bodyParameter, ParametersReadable]
  | cons param params ih =>
    rw [parametersReadable_cons]
    unfold bodyParameter
    cases param with
    | obj fields =>
      have hobject : IsObject (.obj fields) := ⟨fields, rfl⟩
      have hget : Json.get (.obj fields) "in" = .ok ((fields.lookup "in").getD .null) := rfl
      rw [hget, ok_bind]
      by_cases hbody : (fields.lookup "in").getD .null = .str "body"
      · rw [if_pos hbody]
        have hreturns : Returns (Json.get (.obj fields) "schema" >>= fun schema =>
            Json.get (.obj fields) "required" (.bool false) >>= fun required =>
              (pure (schema, required) : Except PyError (Json × Json))) := returns_ok _
        exact iff_of_true hreturns ⟨hobject, fun hin => absurd (inBody_obj.mpr hbody) hin⟩
      · rw [if_neg hbody, ih]
        have hin : ¬InBody (.obj fields) := mt inBody_obj.mp hbody
        simp [hobject, hin]
    | _ => simp [Json.get, IsObject, throw_bind]

/-- What is walked are strings: the first of them is asked for its fields. -/
lemma parametersReadable_strings {α : Type} (f : α → String) (xs : List α) :
    ParametersReadable (.arr (xs.map fun x => .str (f x))) ↔ xs = [] := by
  cases xs with
  | nil => simp [ParametersReadable]
  | cons x xs =>
    rw [List.map_cons, parametersReadable_cons]
    simp [IsObject]

lemma returns_parameters {schema required params : Json} :
    Returns (params.iter >>= bodyParameter schema required) ↔ ParametersReadable params := by
  cases params with
  | arr xs => exact returns_bodyParameter
  | obj fields =>
    have hiter : (Json.obj fields).iter = .ok (fields.map fun kv => .str kv.1) := rfl
    rw [hiter, ok_bind, returns_bodyParameter, parametersReadable_strings]
    rfl
  | str t =>
    have hiter : (Json.str t).iter = .ok (t.toList.map fun c => .str (String.singleton c)) := rfl
    rw [hiter, ok_bind, returns_bodyParameter, parametersReadable_strings]
    exact String.toList_eq_nil_iff
  | _ => simp [Json.iter, ParametersReadable, throw_bind]

end parameters

section body

/-- The schema that a content has for JSON. -/
def contentSchema (content : Json) : Except PyError Json := do
  if ← content.contains "application/json" then (← content.item "application/json").get "schema"
  else pure .null

lemma contentSchema_of_contains {content : Json} {b : Bool}
    (h : content.contains "application/json" = .ok b) :
    contentSchema content =
      if b then content.item "application/json" >>= fun media => media.get "schema"
      else .ok .null := by
  unfold contentSchema
  rw [h, ok_bind]
  rfl

lemma contentSchema_obj (fields : Object) :
    contentSchema (.obj fields) =
      if (fields.lookup "application/json").isSome then
        ((fields.lookup "application/json").getD .null).get "schema"
      else .ok .null :=
  contentSchema_of_contains (b := (fields.lookup "application/json").isSome) rfl

/-- A content that is no object, asked for the JSON it says it has. -/
lemma returns_contentSchema_of_item {content : Json} {b : Bool}
    (h : content.contains "application/json" = .ok b)
    (hitem : content.item "application/json" = .error .typeError) :
    Returns (contentSchema content) ↔ b = false := by
  rw [contentSchema_of_contains h, hitem]
  cases b with
  | false => simp
  | true => simp [error_bind]

lemma returns_contentSchema {content : Json} :
    Returns (contentSchema content) ↔ ContentReadable content := by
  cases content with
  | obj fields =>
    rw [contentSchema_obj]
    unfold ContentReadable
    cases hmedia : fields.lookup "application/json" with
    | none => simp [hmedia]
    | some media => simp [hmedia, returns_get]
  | arr xs =>
    rw [returns_contentSchema_of_item (b := xs.contains (.str "application/json")) rfl rfl]
    simp [ContentReadable]
  | str s =>
    exact returns_contentSchema_of_item (b := contains s "application/json") rfl rfl
  | _ => exact iff_of_false (not_returns_error PyError.typeError) id

lemma hasSchema_obj {fields : Object} :
    HasSchema (.obj fields) ↔ ∃ media, fields.lookup "application/json" = some (.obj media) ∧
      ((media.lookup "schema").getD .null).truthy = true := by
  constructor
  · rintro ⟨fields', media, schema, hfields, hmedia, hschema, htruthy⟩
    obtain rfl := Json.obj.inj hfields
    refine ⟨media, hmedia, ?_⟩
    rw [hschema]
    exact htruthy
  · rintro ⟨media, hmedia, htruthy⟩
    cases hschema : media.lookup "schema" with
    | none =>
      rw [hschema] at htruthy
      cases htruthy
    | some schema =>
      rw [hschema] at htruthy
      exact ⟨fields, media, schema, rfl, hmedia, hschema, htruthy⟩

/-- A content that is no object has no schema, and none comes of it. -/
lemma contentSchema_truthy_of_item {content schema : Json} {b : Bool}
    (h : content.contains "application/json" = .ok b)
    (hitem : content.item "application/json" = .error .typeError)
    (hschema : contentSchema content = .ok schema) : schema.truthy = false := by
  obtain rfl := (returns_contentSchema_of_item h hitem).mp ⟨schema, hschema⟩
  rw [contentSchema_of_contains h] at hschema
  obtain rfl : Json.null = schema := Except.ok.inj hschema
  rfl

/-- The schema is not empty when it is one that the content has. -/
lemma contentSchema_truthy {content schema : Json} (h : contentSchema content = .ok schema) :
    schema.truthy = true ↔ HasSchema content := by
  cases content with
  | obj fields =>
    rw [hasSchema_obj]
    rw [contentSchema_obj] at h
    cases hmedia : fields.lookup "application/json" with
    | none =>
      rw [hmedia] at h
      obtain rfl : Json.null = schema := Except.ok.inj h
      simp [Json.truthy]
    | some media =>
      rw [hmedia] at h
      obtain ⟨media, rfl⟩ : IsObject media := returns_get.mp ⟨schema, h⟩
      obtain rfl : (media.lookup "schema").getD .null = schema := Except.ok.inj h
      simp
  | arr xs =>
    have hfalse := contentSchema_truthy_of_item (b := xs.contains (.str "application/json")) rfl rfl h
    simp [hfalse, HasSchema]
  | str s =>
    have hfalse := contentSchema_truthy_of_item (b := contains s "application/json") rfl rfl h
    simp [hfalse, HasSchema]
  | _ => cases h

lemma requestBodySchema_obj {details body : Object}
    (h : details.lookup "requestBody" = some (.obj body)) :
    requestBodySchema details = contentSchema (contentOf body) >>= fun schema =>
      pure (schema, (body.lookup "required").getD (.bool false)) := by
  have hrequired : Json.get (.obj body) "required" (.bool false) =
      .ok ((body.lookup "required").getD (.bool false)) := rfl
  have hcontent : Json.get (.obj body) "content" (.obj []) = .ok (contentOf body) := rfl
  unfold requestBodySchema contentSchema
  rw [h]
  dsimp only
  rw [hrequired, ok_bind, hcontent, ok_bind]
  cases (contentOf body).contains "application/json" with
  | error e => rfl
  | ok b =>
    cases b with
    | false => rfl
    | true => cases (contentOf body).item "application/json" <;> rfl

lemma returns_requestBodySchema {details : Object} :
    Returns (requestBodySchema details) ↔ RequestBodyReadable details := by
  unfold RequestBodyReadable
  cases hrb : details.lookup "requestBody" with
  | none => simp [requestBodySchema, hrb]
  | some rb =>
    cases rb with
    | obj body =>
      rw [requestBodySchema_obj hrb, returns_bind_of_forall fun _ => returns_pure _,
        returns_contentSchema]
      simp
    | _ => simp [requestBodySchema, hrb, Json.get, throw_bind]

lemma requestBodySchema_truthy {details : Object} {schema required : Json}
    (h : requestBodySchema details = .ok (schema, required)) :
    schema.truthy = true ↔ RequestBodyHasSchema details := by
  unfold RequestBodyHasSchema
  cases hrb : details.lookup "requestBody" with
  | none =>
    have hnull : requestBodySchema details = .ok (.null, .bool false) := by
      unfold requestBodySchema
      rw [hrb]
      rfl
    rw [hnull] at h
    obtain ⟨rfl, -⟩ := Prod.mk.inj (Except.ok.inj h)
    simp [Json.truthy]
  | some rb =>
    obtain ⟨body, rfl, -⟩ := returns_requestBodySchema.mp ⟨_, h⟩ rb hrb
    rw [requestBodySchema_obj hrb] at h
    obtain ⟨schema', hschema, -⟩ := returns_bind.mp ⟨_, h⟩
    rw [hschema] at h
    obtain ⟨rfl, -⟩ := Prod.mk.inj (Except.ok.inj h)
    rw [contentSchema_truthy hschema]
    simp

/-- The parameters are looked at when the request body has no schema. -/
lemma returns_extractBodySchema {method : String} {details : Object} :
    Returns (extractBodySchema method details) ↔ Readable details := by
  have hlast : ∀ p : Json × Json, Returns
      ((if p.1 = .null ∧ method ∈ ["POST", "PUT", "PATCH"] then pure (.obj [], p.2)
        else pure (p.1, p.2)) : Except PyError (Json × Json)) := by
    intro p
    split_ifs <;> exact returns_pure _
  unfold extractBodySchema Readable
  rw [returns_bind, ← returns_requestBodySchema]
  constructor
  · rintro ⟨⟨schema, required⟩, hbody, h⟩
    refine ⟨⟨_, hbody⟩, ?_⟩
    rw [← requestBodySchema_truthy hbody]
    by_cases htruthy : schema.truthy = true
    · exact Or.inl htruthy
    · right
      dsimp only at h
      rw [if_neg htruthy, ← bind_assoc, returns_bind_of_forall hlast] at h
      exact returns_parameters.mp h
  · rintro ⟨⟨⟨schema, required⟩, hbody⟩, h⟩
    refine ⟨_, hbody, ?_⟩
    rw [← requestBodySchema_truthy hbody] at h
    dsimp only
    by_cases htruthy : schema.truthy = true
    · rw [if_pos htruthy, returns_bind_of_forall hlast]
      exact returns_pure _
    · rw [if_neg htruthy, ← bind_assoc, returns_bind_of_forall hlast]
      exact returns_parameters.mpr (h.resolve_left htruthy)

end body

section totality

variable {I : Interpreter}

/-- `parse` returns exactly when it can read the first entry of each method and path. -/
theorem parse_returns_iff (spec : Json) :
    Returns ((Parser.new spec).parse I) ↔
      ∀ e, IsFirst (entriesOf I spec) e → Readable e.details := by
  have hextract : ∀ e, Returns (extract (Parser.new spec).spec e) ↔ Readable e.details := by
    intro e
    unfold extract Parser.endpointOf
    rw [returns_bind_of_forall fun _ => returns_pure _]
    exact returns_extractBodySchema
  unfold Parser.parse
  rw [returns_bind_of_forall fun _ => returns_pure _, (yields_run spec).returns]
  unfold Parser.collect
  have hseen : (Parser.new spec).seenEndpoints = [] := rfl
  rw [hseen, collect_eq, returns_mapM]
  simp only [hextract, mem_firsts]
  rfl

/-- A request body that is null. -/
def nullBodySpec : Json := .obj [("paths", .obj
  [("/a", .obj [("get", .obj [("requestBody", .null), ("responses", .obj [])])])])]

theorem parse_raises : ¬Returns ((Parser.new nullBodySpec).parse ascii) := by decide +kernel

end totality

end SecurityScanner.OpenAPIParser

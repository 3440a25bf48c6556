import SecurityScanner.Discovery.ModuleParser
import SecurityScanner.Discovery.ParserEntries
import SecurityScanner.Lib.Refinement

/-!
# Parsing with references is parsing without them

The parser of the discovery module finds in a document what the plain parser finds in the
document with its references inlined. It records the same problems, and the references that it
could not resolve between them; of its own it raises only for a reference that is no text.
-/

namespace SecurityScanner.ModuleParser

open Python Fallible

section inlining

/-- What `_resolve_ref` makes of a value. -/
def resolved (doc : Object) (v : Json) : Json :=
  match resolveRef ⟨doc, []⟩ v with
  | .ok (_, w) => w
  | .error _ => v

def mapValues (f : String → Json → Json) (fields : Object) : Object :=
  fields.map fun kv => (kv.1, f kv.1 kv.2)

/-- The request body and the parameters of a method in place of references to them. -/
def inlineField (doc : Object) (key : String) (v : Json) : Json :=
  if key = "requestBody" then resolved doc v
  else if key = "parameters" then
    match v with
    | .arr params => .arr (params.map (resolved doc))
    | v => v
  else v

def inlineOperation (doc : Object) : Json → Json
  | .obj details => .obj (mapValues (inlineField doc) details)
  | v => v

def inlinePathItem (doc : Object) : Json → Json
  | .obj methods => .obj (mapValues (fun _ => inlineOperation doc) methods)
  | v => v

def inlinePaths (doc : Object) : Json → Json
  | .obj paths => .obj (mapValues (fun _ => inlinePathItem doc) paths)
  | v => v

/-- The document with the references of its methods inlined. -/
def inlined (doc : Object) : Object :=
  mapValues (fun key v => if key = "paths" then inlinePaths doc v else v) doc

/-- The schema of a body that has been looked up. -/
def finalSchema (doc : Object) (method : String) (schema : Json) : Json :=
  schemaFallback method (if schema.truthy then resolved doc schema else schema)

/-- The endpoint with the schema of its body looked up. -/
def withSchema (doc : Object) (e : DiscoveredEndpoint) : DiscoveredEndpoint :=
  { e with requestBodySchema := finalSchema doc e.method e.requestBodySchema }

lemma lookup_mapValues (f : String → Json → Json) (fields : Object) (k : String) :
    (mapValues f fields).lookup k = (fields.lookup k).map (f k) := by
  induction fields with
  | nil => rfl
  | cons kv fields ih =>
    obtain ⟨l, v⟩ := kv
    change List.lookup k ((l, f l v) :: mapValues f fields) = _
    rw [List.lookup_cons, List.lookup_cons]
    by_cases h : k = l
    · subst h
      simp
    · have hne : (k == l) = false := beq_eq_false_iff_ne.mpr h
      rw [hne]
      exact ih

lemma lookup_paths_inlined (doc : Object) :
    (inlined doc).lookup "paths" = (doc.lookup "paths").map (inlinePaths doc) := by
  unfold inlined
  rw [lookup_mapValues]
  rfl

end inlining

section document

/-- A value of the document at any depth. -/
inductive Within (doc : Json) : Json → Prop
  | root : Within doc doc
  | item {xs : List Json} {x : Json} : Within doc (.arr xs) → x ∈ xs → Within doc x
  | field {fields : Object} {kv : String × Json} :
      Within doc (.obj fields) → kv ∈ fields → Within doc kv.2

lemma Within.lookup {doc : Json} {fields : Object} {k : String} {v : Json}
    (h : Within doc (.obj fields)) (hv : fields.lookup k = some v) : Within doc v := by
  obtain ⟨before, after, rfl, -⟩ := List.lookup_eq_some_iff.mp hv
  have hmem : (k, v) ∈ before ++ (k, v) :: after :=
    List.mem_append_right _ List.mem_cons_self
  exact h.field hmem

lemma Within.walk {doc v w : Json} {parts : List String} (h : Within doc v)
    (hw : parts.foldlM subscript v = .ok w) : Within doc w := by
  induction parts generalizing v with
  | nil =>
    obtain rfl : v = w := Except.ok.inj hw
    exact h
  | cons part parts ih =>
    rw [List.foldlM_cons] at hw
    cases v with
    | obj fields =>
      cases hpart : fields.lookup part with
      | none =>
        rw [subscript, hpart] at hw
        cases hw
      | some u =>
        rw [subscript, hpart] at hw
        exact ih (h.lookup hpart) hw
    | null | bool | int | float | str | arr => cases hw

/-- The document has a reference that is no text. -/
def OddReference (doc : Object) : Prop :=
  ∃ fields r, Within (.obj doc) (.obj fields) ∧ fields.lookup "$ref" = some r ∧ ∀ s, r ≠ .str s

/-- What the resolving parser raises of its own. -/
def Odd (doc : Object) (e : PyError) : Prop := e = .attributeError ∧ OddReference doc

/-- The message about a reference of the document that leads nowhere. -/
def Unresolved (doc : Object) (error : String) : Prop :=
  ∃ fields r, Within (.obj doc) (.obj fields) ∧ fields.lookup "$ref" = some (.str r) ∧
    ¬Returns (((splitSlashes r).drop 1).foldlM subscript (.obj doc)) ∧
    error = "Could not resolve reference: " ++ r

def isUnresolved (error : String) : Bool :=
  "Could not resolve reference: ".toList.isPrefixOf error.toList

/-- The messages that are not about references. -/
def recorded (errors : List String) : List String := errors.filter fun e => !isUnresolved e

lemma Unresolved.isUnresolved {doc : Object} {error : String} (h : Unresolved doc error) :
    isUnresolved error = true := by
  obtain ⟨fields, r, -, -, -, rfl⟩ := h
  rw [ModuleParser.isUnresolved, String.toList_append]
  exact List.isPrefixOf_iff_prefix.mpr (List.prefix_append _ _)

lemma recorded_append (errors new : List String) :
    recorded (errors ++ new) = recorded errors ++ recorded new := List.filter_append _ _

lemma recorded_unresolved {doc : Object} {new : List String} (h : ∀ e ∈ new, Unresolved doc e) :
    recorded new = [] := by
  refine List.filter_eq_nil_iff.mpr fun e he => ?_
  rw [(h e he).isUnresolved]
  decide

/-- A value that is looked up belongs to the document, if it is an object. -/
def Sound (doc : Object) (v : Json) : Prop := ∀ fields, v = .obj fields → Within (.obj doc) v

lemma resolveRef_cases {doc : Object} (errors : List String) {v : Json} (hv : Sound doc v) :
    (∃ e, resolveRef ⟨doc, errors⟩ v = .error e ∧ Odd doc e) ∨
      ∃ new, resolveRef ⟨doc, errors⟩ v = .ok (⟨doc, errors ++ new⟩, resolved doc v) ∧
        (∀ e ∈ new, Unresolved doc e) ∧ Sound doc (resolved doc v) := by
  have hkeep : ∀ errors : List String, resolveRef ⟨doc, errors⟩ v = .ok (⟨doc, errors⟩, v) →
      resolved doc v = v → ∃ new, resolveRef ⟨doc, errors⟩ v =
        .ok (⟨doc, errors ++ new⟩, resolved doc v) ∧ (∀ e ∈ new, Unresolved doc e) ∧
          Sound doc (resolved doc v) := by
    intro errors h hr
    refine ⟨[], ?_, fun e he => (nomatch he), hr.symm ▸ hv⟩
    rw [h, hr, List.append_nil]
  cases v with
  | obj fields =>
    cases href : fields.lookup "$ref" with
    | none =>
      have hok : ∀ errors, resolveRef ⟨doc, errors⟩ (.obj fields) =
          .ok (⟨doc, errors⟩, .obj fields) := by
        intro errors
        simp only [resolveRef, href]
      exact Or.inr (hkeep errors (hok errors) (by rw [resolved, hok]))
    | some r =>
      cases r with
      | str refPath =>
        right
        by_cases hlocal : "#/".toList.isPrefixOf refPath.toList = true
        · cases hwalk : ((splitSlashes refPath).drop 1).foldlM subscript (.obj doc) with
          | ok current =>
            have hok : ∀ errors, resolveRef ⟨doc, errors⟩ (.obj fields) =
                .ok (⟨doc, errors⟩, current) := by
              intro errors
              simp only [resolveRef, href, if_pos hlocal, hwalk]
            have hr : resolved doc (.obj fields) = current := by rw [resolved, hok]
            refine ⟨[], by rw [hok, hr, List.append_nil], fun e he => (nomatch he), fun _ _ => ?_⟩
            rw [hr]
            exact Within.root.walk hwalk
          | error e =>
            have hok : ∀ errors, resolveRef ⟨doc, errors⟩ (.obj fields) =
                .ok (⟨doc, errors ++ ["Could not resolve reference: " ++ refPath]⟩,
                  .obj fields) := by
              intro errors
              simp only [resolveRef, href, if_pos hlocal, hwalk]
            have hr : resolved doc (.obj fields) = .obj fields := by rw [resolved, hok]
            refine ⟨_, by rw [hok, hr], fun e he => ?_, hr.symm ▸ hv⟩
            refine ⟨fields, refPath, hv fields rfl, href, ?_, List.mem_singleton.mp he⟩
            rw [hwalk]
            exact not_returns_error _
        · have hok : ∀ errors, resolveRef ⟨doc, errors⟩ (.obj fields) =
              .ok (⟨doc, errors⟩, .obj fields) := by
            intro errors
            simp only [resolveRef, href, if_neg hlocal]
          exact hkeep errors (hok errors) (by rw [resolved, hok])
      | null | bool | int | float | arr | obj =>
        refine Or.inl ⟨.attributeError, by simp only [resolveRef, href], rfl, fields, _,
          hv fields rfl, href, ?_⟩
        exact fun _ => Json.noConfusion
  | null | bool | int | float | str | arr => exact Or.inr (hkeep errors rfl rfl)

end document

section mirroring

variable {α β γ δ : Type} {doc : Object} {R : α → β → Prop} {S : γ → δ → Prop}

/-- In between, the parser has only recorded references that lead nowhere. -/
def Keeps (doc : Object) (s s' : OpenAPIParser) : Prop :=
  ∃ new, s' = ⟨s.spec, s.errorsEncountered ++ new⟩ ∧ ∀ e ∈ new, Unresolved doc e

lemma Keeps.refl (s : OpenAPIParser) : Keeps doc s s :=
  ⟨[], by rw [List.append_nil], fun _ h => (nomatch h)⟩

lemma Keeps.trans {s s' s'' : OpenAPIParser} (h : Keeps doc s s') (h' : Keeps doc s' s'') :
    Keeps doc s s'' := by
  obtain ⟨new, rfl, hnew⟩ := h
  obtain ⟨later, rfl, hlater⟩ := h'
  refine ⟨new ++ later, by rw [List.append_assoc], fun e he => ?_⟩
  exact (List.mem_append.mp he).elim (hnew e) (hlater e)

/-- A method of the resolving parser does what a computation on the inlined document does. -/
def Mirrors (doc : Object) (R : α → β → Prop) (x : ParserM α) (y : Except PyError β) : Prop :=
  ∀ s : OpenAPIParser, s.spec = doc → Matches (Odd doc) (fun r b => R r.1 b ∧ Keeps doc s r.2) (x s) y

lemma mirrors_pure {a : α} {b : β} (h : R a b) : Mirrors doc R (pure a) (pure b) :=
  fun s _ => ⟨h, Keeps.refl s⟩

lemma Mirrors.bind {x : ParserM α} {y : Except PyError β} {f : α → ParserM γ}
    {g : β → Except PyError δ} (h : Mirrors doc R x y)
    (hfg : ∀ a b, R a b → Mirrors doc S (f a) (g b)) : Mirrors doc S (x >>= f) (y >>= g) := by
  intro s hs
  refine Matches.bind (h s hs) ?_
  rintro ⟨a, s'⟩ b ⟨hab, hkeeps⟩
  have hs' : s'.spec = doc := by
    obtain ⟨new, rfl, -⟩ := hkeeps
    exact hs
  refine (hfg a b hab s' hs').mono ?_
  rintro ⟨c, s''⟩ d ⟨hcd, hkeeps'⟩
  exact ⟨hcd, hkeeps.trans hkeeps'⟩

/-- What does not look at references is done by both. -/
lemma mirrors_lift_bind {x : Except PyError α} {f : α → ParserM γ} {g : α → Except PyError δ}
    (hfg : ∀ a, x = .ok a → Mirrors doc S (f a) (g a)) :
    Mirrors doc S ((liftM x : ParserM α) >>= f) (x >>= g) := by
  intro s hs
  cases x with
  | ok a => exact hfg a rfl s hs
  | error e => exact Or.inr rfl

lemma mirrors_resolve {v : Json} (hv : Sound doc v) :
    Mirrors doc (fun w _ => w = resolved doc v ∧ Sound doc w) (resolve v) (pure ()) := by
  rintro ⟨spec, errors⟩ hs
  obtain rfl : spec = doc := hs
  rcases resolveRef_cases errors hv with ⟨e, he, hodd⟩ | ⟨new, hok, hnew, hsound⟩
  · have hx : resolve v ⟨spec, errors⟩ = .error e := by rw [resolve, he]; rfl
    rw [hx]
    exact Or.inl hodd
  · have hx : resolve v ⟨spec, errors⟩ = .ok (resolved spec v, ⟨spec, errors ++ new⟩) := by
      rw [resolve, hok]; rfl
    rw [hx]
    exact ⟨⟨rfl, hsound⟩, new, rfl, hnew⟩

/-- The reference is looked up by one parser; the other one reads the value itself. -/
lemma mirrors_resolve_bind {v : Json} (hv : Sound doc v) {f : Json → ParserM γ}
    {y : Except PyError δ} (hf : Sound doc (resolved doc v) → Mirrors doc S (f (resolved doc v)) y) :
    Mirrors doc S (resolve v >>= f) y := by
  refine (mirrors_resolve hv).bind (g := fun _ => y) ?_
  rintro w _ ⟨rfl, hw⟩
  exact hf hw

lemma mirrors_mapM_resolve {params : List Json} (h : ∀ v ∈ params, Sound doc v) :
    Mirrors doc (fun ws ws' => ws = ws') (params.mapM resolve)
      (pure (params.map (resolved doc))) := by
  induction params with
  | nil => exact mirrors_pure rfl
  | cons v params ih =>
    rw [List.mapM_cons]
    have hrest := ih fun w hw => h w (List.mem_cons_of_mem v hw)
    refine mirrors_resolve_bind (h v List.mem_cons_self) fun _ => ?_
    refine hrest.bind (g := fun ws => pure (resolved doc v :: ws)) ?_
    rintro ws _ rfl
    exact mirrors_pure rfl

end mirroring

section methods

variable {doc details : Object}

lemma sound_of_within {v : Json} (h : Within (.obj doc) v) : Sound doc v := fun _ _ => h

lemma sound_null : Sound doc .null := fun _ h => Json.noConfusion h

/-- A field that is read of a value of the document, or its default. -/
lemma sound_get {v w default : Json} {key : String} (hv : Sound doc v)
    (h : v.get key default = .ok w) : w = default ∨ Sound doc w := by
  cases v with
  | obj fields =>
    obtain rfl := Except.ok.inj h
    cases hk : fields.lookup key with
    | none => exact Or.inl rfl
    | some u => exact Or.inr (sound_of_within ((hv fields rfl).lookup hk))
  | null | bool | int | float | str | arr => cases h

/-- A schema that is read of a value of the document. -/
lemma sound_schema {v w : Json} (hv : Sound doc v) (h : v.get "schema" = .ok w) : Sound doc w := by
  rcases sound_get hv h with rfl | hw
  · exact sound_null
  · exact hw

/-- The media type of a content that has it. -/
lemma sound_item {v w : Json} (hv : Sound doc v)
    (h : v.item "application/json" = .ok w) : Sound doc w := by
  cases v with
  | obj fields =>
    obtain rfl := Except.ok.inj h
    cases hk : fields.lookup "application/json" with
    | none => exact sound_null
    | some u => exact sound_of_within ((hv fields rfl).lookup hk)
  | null | bool | int | float | str | arr => cases h

/-- What a loop goes through are strings, or values of the document. -/
lemma sound_iter {v x : Json} {xs : List Json} (hv : v = .arr [] ∨ Within (.obj doc) v)
    (h : v.iter = .ok xs) (hx : x ∈ xs) : Sound doc x := by
  cases v with
  | arr ys =>
    obtain rfl := Except.ok.inj h
    rcases hv with hv | hv
    · rw [Json.arr.inj hv] at hx
      cases hx
    · exact sound_of_within (hv.item hx)
  | obj fields =>
    obtain rfl := Except.ok.inj h
    obtain ⟨kv, -, rfl⟩ := List.mem_map.mp hx
    exact fun _ h => Json.noConfusion h
  | str s =>
    obtain rfl := Except.ok.inj h
    obtain ⟨c, -, rfl⟩ := List.mem_map.mp hx
    exact fun _ h => Json.noConfusion h
  | null | bool | int | float => cases h

lemma lookup_requestBody (doc details : Object) :
    (mapValues (inlineField doc) details).lookup "requestBody" =
      (details.lookup "requestBody").map (resolved doc) := by
  rw [lookup_mapValues]
  rfl

lemma lookup_other (doc details : Object) {key : String} (hbody : key ≠ "requestBody")
    (hparams : key ≠ "parameters") :
    (mapValues (inlineField doc) details).lookup key = details.lookup key := by
  rw [lookup_mapValues]
  have hsame : inlineField doc key = id := by
    funext v
    unfold inlineField
    rw [if_neg hbody, if_neg hparams, id]
  rw [hsame, Option.map_id, id]

lemma mirrors_requestBodySchema (hd : Within (.obj doc) (.obj details)) :
    Mirrors doc (fun a b => a = b ∧ Sound doc a.1) (requestBodySchema details)
      (OpenAPIParser.requestBodySchema (mapValues (inlineField doc) details)) := by
  unfold requestBodySchema OpenAPIParser.requestBodySchema
  rw [lookup_requestBody]
  cases hrb : details.lookup "requestBody" with
  | none => exact mirrors_pure ⟨rfl, sound_null⟩
  | some rb =>
    refine mirrors_resolve_bind (sound_of_within (hd.lookup hrb)) fun hsound => ?_
    refine mirrors_lift_bind fun required _ => ?_
    refine mirrors_lift_bind fun content hcontent => ?_
    refine mirrors_lift_bind fun found hfound => ?_
    cases found with
    | false => exact mirrors_pure ⟨rfl, sound_null⟩
    | true =>
      refine mirrors_lift_bind fun media hmedia => ?_
      refine mirrors_lift_bind fun schema hschema => ?_
      refine mirrors_pure ⟨rfl, sound_schema (sound_item ?_ hmedia) hschema⟩
      rcases sound_get hsound hcontent with rfl | h
      · cases hfound
      · exact h

/-- Up to the first parameter in the body, which is not looked up again. -/
lemma mirrors_bodyParameter {schema required : Json} (hschema : Sound doc schema)
    {params : List Json} (h : ∀ v ∈ params, Sound doc v) :
    Mirrors doc (fun a b => a = b ∧ Sound doc a.1) (bodyParameter schema required params)
      (OpenAPIParser.bodyParameter schema required (params.map (resolved doc))) := by
  induction params with
  | nil => exact mirrors_pure ⟨rfl, hschema⟩
  | cons param params ih =>
    rw [List.map_cons]
    unfold bodyParameter OpenAPIParser.bodyParameter
    refine mirrors_resolve_bind (h param List.mem_cons_self) fun hparam => ?_
    refine mirrors_lift_bind fun place _ => ?_
    by_cases hbody : place = .str "body"
    · rw [if_pos hbody, if_pos hbody]
      refine mirrors_lift_bind fun schema hs => ?_
      refine mirrors_lift_bind fun required _ => ?_
      exact mirrors_pure ⟨rfl, sound_schema hparam hs⟩
    · rw [if_neg hbody, if_neg hbody]
      exact ih fun v hv => h v (List.mem_cons_of_mem param hv)

/-- A loop over the inlined parameters goes through the parameters that were looked up. -/
lemma iter_parameters (doc details : Object) :
    (((mapValues (inlineField doc) details).lookup "parameters").getD (.arr [])).iter =
      (((details.lookup "parameters").getD (.arr [])).iter).map fun params =>
        params.map (resolved doc) := by
  rw [lookup_mapValues]
  cases hparams : details.lookup "parameters" with
  | none => rfl
  | some v =>
    cases v with
    | obj fields =>
      have hmap : (fields.map fun kv => Json.str kv.1).map (resolved doc) =
          fields.map fun kv => Json.str kv.1 := List.map_map
      exact congrArg Except.ok hmap.symm
    | str s =>
      have hmap : (s.toList.map fun c => Json.str (String.singleton c)).map (resolved doc) =
          s.toList.map fun c => Json.str (String.singleton c) := List.map_map
      exact congrArg Except.ok hmap.symm
    | null | bool | int | float | arr => rfl

/-- A schema as the plain parser leaves it: a value of the document, or the empty object in its
place. -/
def Final (doc : Object) (method : String) (schema : Json) : Prop :=
  schemaFallback method schema = schema ∧ (schema = .obj [] ∨ Sound doc schema)

lemma final_schemaFallback (method : String) {schema : Json} (h : Sound doc schema) :
    Final doc method (schemaFallback method schema) := by
  by_cases hnone : schema = .null ∧ method ∈ ["POST", "PUT", "PATCH"]
  · have hempty : schemaFallback method schema = .obj [] := if_pos hnone
    rw [hempty]
    exact ⟨if_neg (by simp), Or.inl rfl⟩
  · have hsame : schemaFallback method schema = schema := if_neg hnone
    exact ⟨by rw [hsame, hsame], Or.inr (hsame.symm ▸ h)⟩

/-- The schema that has been found is looked up last. -/
lemma mirrors_finalSchema (method : String) {schema : Json} (required : Json)
    (h : Sound doc schema) :
    Mirrors doc (fun a b => a = (finalSchema doc method b.1, b.2) ∧ Final doc method b.1)
      (do
        let schema ← if schema.truthy then resolve schema else pure schema
        pure (schemaFallback method schema, required))
      (pure (schemaFallback method schema, required)) := by
  have hfallback : finalSchema doc method (schemaFallback method schema) =
      finalSchema doc method schema := by
    by_cases hnone : schema = .null ∧ method ∈ ["POST", "PUT", "PATCH"]
    · have hempty : schemaFallback method schema = .obj [] := if_pos hnone
      rw [hempty, hnone.1, finalSchema, finalSchema]
      simp [schemaFallback, Json.truthy, hnone.2]
    · have hsame : schemaFallback method schema = schema := if_neg hnone
      rw [hsame]
  cases htruthy : schema.truthy with
  | true =>
    refine mirrors_resolve_bind h fun _ => mirrors_pure ⟨?_, final_schemaFallback method h⟩
    rw [hfallback, finalSchema, htruthy]
    rfl
  | false =>
    refine mirrors_pure ⟨?_, final_schemaFallback method h⟩
    rw [hfallback, finalSchema, htruthy]
    rfl

lemma mirrors_extractBodySchema (method : String) (hd : Within (.obj doc) (.obj details)) :
    Mirrors doc (fun a b => a = (finalSchema doc method b.1, b.2) ∧ Final doc method b.1)
      (extractBodySchema method details)
      (OpenAPIParser.extractBodySchema method (mapValues (inlineField doc) details)) := by
  have htail : ∀ p q : Json × Json, p = q ∧ Sound doc p.1 →
      Mirrors doc (fun a b => a = (finalSchema doc method b.1, b.2) ∧ Final doc method b.1)
        (do
          let schema ← if p.1.truthy then resolve p.1 else pure p.1
          pure (schemaFallback method schema, p.2))
        (if q.1 = .null ∧ method ∈ ["POST", "PUT", "PATCH"] then pure (.obj [], q.2)
          else pure (q.1, q.2)) := by
    rintro ⟨schema, required⟩ _ ⟨rfl, h⟩
    have hplain : (if schema = .null ∧ method ∈ ["POST", "PUT", "PATCH"]
        then pure (.obj [], required) else pure (schema, required)) =
          (pure (schemaFallback method schema, required) : Except PyError (Json × Json)) := by
      unfold schemaFallback
      split <;> rfl
    rw [hplain]
    exact mirrors_finalSchema method required h
  unfold extractBodySchema OpenAPIParser.extractBodySchema
  refine (mirrors_requestBodySchema hd).bind ?_
  rintro ⟨schema, required⟩ _ ⟨rfl, hschema⟩
  dsimp only
  cases htruthy : schema.truthy with
  | true => exact htail _ _ ⟨rfl, hschema⟩
  | false =>
    rw [iter_parameters]
    cases hiter : ((details.lookup "parameters").getD (.arr [])).iter with
    | error e => exact fun _ _ => Or.inr rfl
    | ok params =>
      have hparams : ∀ v ∈ params, Sound doc v := by
        intro v hv
        refine sound_iter ?_ hiter hv
        cases hlookup : details.lookup "parameters" with
        | none => exact Or.inl rfl
        | some w => exact Or.inr (hd.lookup hlookup)
      exact (mirrors_bodyParameter hschema hparams).bind htail

lemma processParameters_arr {params : List Json}
    (h : details.lookup "parameters" = some (.arr params)) :
    OpenAPIParser.processParameters details = params.filterMap withDefaults := by
  unfold OpenAPIParser.processParameters
  rw [h]
  refine List.filterMap_congr fun v _ => ?_
  cases v <;> rfl

lemma mirrors_processParameters (hd : Within (.obj doc) (.obj details)) :
    Mirrors doc (fun a b => a = b) (processParameters details)
      (pure (OpenAPIParser.processParameters (mapValues (inlineField doc) details))) := by
  have hlookup := lookup_mapValues (inlineField doc) details "parameters"
  unfold processParameters
  cases hparams : details.lookup "parameters" with
  | none =>
    rw [hparams] at hlookup
    unfold OpenAPIParser.processParameters
    rw [hlookup]
    exact mirrors_pure rfl
  | some v =>
    rw [hparams] at hlookup
    cases v with
    | arr params =>
      rw [processParameters_arr hlookup]
      have hsound : ∀ v ∈ params, Sound doc v := fun v hv =>
        sound_of_within ((hd.lookup hparams).item hv)
      refine (mirrors_mapM_resolve hsound).bind
        (g := fun ws => pure (ws.filterMap withDefaults)) ?_
      rintro ws _ rfl
      exact mirrors_pure rfl
    | null | bool | int | float | str | obj =>
      unfold OpenAPIParser.processParameters
      rw [hlookup]
      exact mirrors_pure rfl

/-- The security of the document and of a method stays where it is. -/
lemma checkAuth_inlined (doc details : Object) :
    OpenAPIParser.checkAuth (inlined doc) (mapValues (inlineField doc) details) =
      OpenAPIParser.checkAuth doc details := by
  have hdoc : (inlined doc).lookup "security" = doc.lookup "security" := by
    unfold inlined
    rw [lookup_mapValues]
    exact Option.map_id'
  unfold OpenAPIParser.checkAuth
  rw [lookup_other doc details (by decide) (by decide), hdoc]

lemma mirrors_endpointOf (method path : String) (hd : Within (.obj doc) (.obj details)) :
    Mirrors doc (fun a b => a = withSchema doc b ∧ Final doc b.method b.requestBodySchema)
      (endpointOf method path details)
      (OpenAPIParser.Parser.endpointOf (inlined doc) method path
        (mapValues (inlineField doc) details)) := by
  unfold endpointOf OpenAPIParser.Parser.endpointOf
  refine (mirrors_extractBodySchema method hd).bind ?_
  rintro _ ⟨schema, required⟩ ⟨rfl, hfinal⟩
  intro s hs
  refine ((mirrors_processParameters hd).bind
    (S := fun a b => a = withSchema doc b ∧ Final doc b.method b.requestBodySchema)
    (f := fun parameters => pure
      { method
        path
        requestBodyRequired := required
        hasAuth := OpenAPIParser.checkAuth s.spec details
        parameters
        requestBodySchema := finalSchema doc method schema })
    (g := fun parameters => pure
      { method
        path
        requestBodyRequired := required
        hasAuth := OpenAPIParser.checkAuth (inlined doc) (mapValues (inlineField doc) details)
        parameters
        requestBodySchema := schema }) ?_) s hs
  rintro parameters _ rfl
  rw [hs, checkAuth_inlined]
  exact mirrors_pure ⟨rfl, hfinal⟩

end methods

section loops

variable {I : Interpreter} {doc : Object}

/-- The resolving parser on the document, and the plain one on the inlined document. -/
structure Inlines (doc : Object) (m : Parser) (p : OpenAPIParser.Parser) : Prop where
  spec : m.spec = doc
  inlinedSpec : p.spec = inlined doc
  endpoints : m.endpoints = p.endpoints.map (withSchema doc)
  seen : m.seenEndpoints = p.seenEndpoints
  errors : recorded m.errorsEncountered = p.errorsEncountered
  unresolved : ∀ e ∈ m.errorsEncountered, isUnresolved e = true → Unresolved doc e
  final : ∀ e ∈ p.endpoints, Final doc e.method e.requestBodySchema

lemma isUnresolved_append {a b : String} {c : Char} (h : a.toList.head? = some c) (hc : 'C' ≠ c) :
    isUnresolved (a ++ b) = false := by
  have hprefix : ∃ cs, "Could not resolve reference: ".toList = 'C' :: cs := by simp
  obtain ⟨cs, hcs⟩ := hprefix
  obtain ⟨as, ha⟩ := List.head?_eq_some_iff.mp h
  have hhead : ('C' == c) = false := beq_eq_false_iff_ne.mpr hc
  rw [isUnresolved, String.toList_append, hcs, ha, List.cons_append, List.isPrefixOf, hhead,
    Bool.false_and]

lemma Inlines.recordError {m : Parser} {p : OpenAPIParser.Parser} (h : Inlines doc m p)
    {error : String} (herror : isUnresolved error = false) :
    Inlines doc (m.recordError error) (p.recordError error) where
  spec := h.spec
  inlinedSpec := h.inlinedSpec
  endpoints := h.endpoints
  seen := h.seen
  errors := by
    have hone : recorded [error] = [error] := by simp [recorded, herror]
    change recorded (m.errorsEncountered ++ [error]) = p.errorsEncountered ++ [error]
    rw [recorded_append, h.errors, hone]
  unresolved := by
    intro e he hunresolved
    rcases List.mem_append.mp he with he | he
    · exact h.unresolved e he hunresolved
    · rw [List.mem_singleton.mp he, herror] at hunresolved
      cases hunresolved
  final := h.final

/-- The endpoint of a new method and path, and its references. -/
lemma matches_endpoint (method path : String) {details : Object}
    (hd : Within (.obj doc) (.obj details)) {m : Parser} {p : OpenAPIParser.Parser}
    (h : Inlines doc m p) :
    Matches (Odd doc) (Inlines doc)
      (do
        let found ← endpointOf method path details m.toOpenAPIParser
        pure
          { toOpenAPIParser := found.2
            endpoints := m.endpoints ++ [found.1]
            seenEndpoints := m.seenEndpoints ++ [(method, path)] })
      (do
        let endpoint ← OpenAPIParser.Parser.endpointOf p.spec method path
          (mapValues (inlineField doc) details)
        pure { p with
          endpoints := p.endpoints ++ [endpoint]
          seenEndpoints := p.seenEndpoints ++ [(method, path)] }) := by
  rw [h.inlinedSpec]
  refine Matches.bind (mirrors_endpointOf method path hd m.toOpenAPIParser h.spec) ?_
  rintro ⟨endpoint, parser⟩ e ⟨⟨hendpoint, hfinal⟩, new, hparser, hnew⟩
  obtain rfl : endpoint = withSchema doc e := hendpoint
  obtain rfl : parser = ⟨m.spec, m.errorsEncountered ++ new⟩ := hparser
  refine matches_pure ⟨h.spec, rfl, ?_, congrArg (· ++ [(method, path)]) h.seen, ?_, ?_, ?_⟩
  · rw [List.map_append, ← h.endpoints]
    rfl
  · change recorded (m.errorsEncountered ++ new) = p.errorsEncountered
    rw [recorded_append, recorded_unresolved hnew, h.errors, List.append_nil]
  · intro e he hunresolved
    exact (List.mem_append.mp he).elim (fun he => h.unresolved e he hunresolved) (hnew e)
  · intro d hd
    rcases List.mem_append.mp hd with hd | hd
    · exact h.final d hd
    · exact List.mem_singleton.mp hd ▸ hfinal

lemma matches_processMethod (path : String) {entry : String × Json}
    (hentry : Within (.obj doc) entry.2) {m : Parser} {p : OpenAPIParser.Parser}
    (h : Inlines doc m p) :
    Matches (Odd doc) (Inlines doc)
      (Parser.processMethod I path (OpenAPIParser.normalizePath path) m entry)
      (OpenAPIParser.Parser.processMethod I path (OpenAPIParser.normalizePath path) p
        (entry.1, inlineOperation doc entry.2)) := by
  obtain ⟨name, details⟩ := entry
  unfold Parser.processMethod OpenAPIParser.Parser.processMethod
  dsimp only
  by_cases hvalid : I.upper name ∈ OpenAPIParser.validMethods
  · rw [if_neg (not_not.mpr hvalid), if_neg (not_not.mpr hvalid)]
    cases details with
    | obj details =>
      dsimp only [inlineOperation]
      rw [h.seen]
      by_cases hseen : (I.upper name, OpenAPIParser.normalizePath path) ∈ p.seenEndpoints
      · rw [if_pos (List.contains_iff_mem.mpr hseen), if_pos hseen]
        refine matches_pure (h.recordError ?_)
        simp only [String.append_assoc]
        exact isUnresolved_append (c := 'D') (by simp) (by decide)
      · rw [if_neg (fun hc => hseen (List.contains_iff_mem.mp hc)), if_neg hseen,
          lookup_other doc details (by decide) (by decide)]
        cases (details.lookup "responses").isSome with
        | true => exact matches_endpoint (I.upper name) _ hentry h
        | false =>
          refine matches_endpoint (I.upper name) _ hentry (h.recordError ?_)
          simp only [String.append_assoc]
          exact isUnresolved_append (c := 'M') (by simp) (by decide)
    | null | bool | int | float | str | arr =>
      refine matches_pure (h.recordError ?_)
      simp only [String.append_assoc]
      exact isUnresolved_append (c := 'M') (by simp) (by decide)
  · rw [if_pos hvalid, if_pos hvalid]
    refine matches_pure (h.recordError ?_)
    simp only [String.append_assoc]
    exact isUnresolved_append (c := 'I') (by simp) (by decide)

lemma matches_processPath {entry : String × Json} (hentry : Within (.obj doc) entry.2)
    {m : Parser} {p : OpenAPIParser.Parser} (h : Inlines doc m p) :
    Matches (Odd doc) (Inlines doc) (Parser.processPath I m entry)
      (OpenAPIParser.Parser.processPath I p (entry.1, inlinePathItem doc entry.2)) := by
  obtain ⟨path, methods⟩ := entry
  cases methods with
  | obj methods =>
    exact matches_foldlM (R := Inlines doc) (fun kv => (kv.1, inlineOperation doc kv.2))
      (fun kv hkv m p h => matches_processMethod path (hentry.field hkv) h) h
  | null | bool | int | float | str | arr =>
    refine matches_pure (h.recordError ?_)
    simp only [String.append_assoc]
    exact isUnresolved_append (c := 'I') (by simp) (by decide)

/-- Both parsers go through the same methods. -/
lemma matches_run (doc : Object) :
    Matches (Odd doc) (Inlines doc) ((Parser.new (.obj doc)).run I)
      ((OpenAPIParser.Parser.new (.obj (inlined doc))).run I) := by
  have hstart : Inlines doc (Parser.new (.obj doc)) (OpenAPIParser.Parser.new (.obj (inlined doc))) :=
    ⟨rfl, rfl, rfl, rfl, rfl, fun e he => (nomatch he), fun e he => (nomatch he)⟩
  have hrecord : ∀ {error : String} {c : Char}, error.toList.head? = some c → 'C' ≠ c →
      Matches (Odd doc) (Inlines doc)
        (pure ((Parser.new (.obj doc)).recordError error))
        (pure ((OpenAPIParser.Parser.new (.obj (inlined doc))).recordError error)) := by
    intro error c h hc
    refine matches_pure (hstart.recordError ?_)
    rw [← String.append_empty (s := error)]
    exact isUnresolved_append h hc
  unfold Parser.run OpenAPIParser.Parser.run
  change Matches _ _ (if doc = [] then _ else _) (if inlined doc = [] then _ else _)
  by_cases hempty : doc = []
  · rw [if_pos hempty, if_pos (by rw [hempty]; rfl)]
    exact matches_pure hstart
  · have hinlined : inlined doc ≠ [] := fun h => hempty (List.map_eq_nil_iff.mp h)
    rw [if_neg hempty, if_neg hinlined]
    have hspec : (Parser.new (.obj doc)).spec = doc := rfl
    have hinlinedSpec : (OpenAPIParser.Parser.new (.obj (inlined doc))).spec = inlined doc := rfl
    rw [hspec, hinlinedSpec, lookup_paths_inlined]
    cases hlookup : doc.lookup "paths" with
    | none => exact hrecord (c := 'M') (by simp) (by decide)
    | some v =>
      cases v with
      | obj paths =>
        exact matches_foldlM (R := Inlines doc) (fun kv => (kv.1, inlinePathItem doc kv.2))
          (fun kv hkv m p h => matches_processPath ((Within.root.lookup hlookup).field hkv) h) hstart
      | null => exact hrecord (c := 'M') (by simp) (by decide)
      | bool | int | float | str | arr => exact hrecord (c := '\'') (by simp) (by decide)

end loops

section results

variable (I : Interpreter) (doc : Object)

/-- The result of the resolving parser, and the plain parser after its run. -/
structure Shows (result : Result) (p : OpenAPIParser.Parser) : Prop where
  endpoints : result.endpoints = p.endpoints.map fun e => toDict (withSchema doc e)
  total : result.totalEndpoints = p.endpoints.length
  errors : recorded result.errorsEncountered = p.errorsEncountered
  unresolved : ∀ e ∈ result.errorsEncountered, isUnresolved e = true → Unresolved doc e

lemma Inlines.shows {m : Parser} {p : OpenAPIParser.Parser} (h : Inlines doc m p) :
    Shows doc m.buildResult p where
  endpoints := by
    change m.endpoints.map toDict = _
    rw [h.endpoints, List.map_map]
    rfl
  total := by
    change m.endpoints.length = _
    rw [h.endpoints, List.length_map]
  errors := h.errors
  unresolved := h.unresolved

/-- The resolving parser does on a document what the plain parser does on the document with its
references inlined. -/
theorem parse_inlines_references :
    Matches (Odd doc) (Shows doc) ((Parser.new (.obj doc)).parse I)
      ((OpenAPIParser.Parser.new (.obj (inlined doc))).run I) := by
  have hrun := (matches_run (I := I) doc).bind (g := pure) (S := Shows doc)
    fun _ _ h => matches_pure (h.shows doc)
  rw [bind_pure] at hrun
  exact hrun

end results

end SecurityScanner.ModuleParser

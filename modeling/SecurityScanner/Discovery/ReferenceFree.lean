import SecurityScanner.Discovery.InlinedReferences

/-!
# The two parsers side by side

On a document without references the parser of the discovery module and the plain one do the
same. References never decide which endpoints are found: where both parsers return, they list
the same methods and paths, and ask for authentication for the same ones.
-/

namespace SecurityScanner.ModuleParser

open Python Fallible FirstWins

section free

variable {I : Interpreter} {doc : Object}

mutual

def referenceFree : Json → Bool
  | .arr xs => referenceFreeList xs
  | .obj fields => (fields.lookup "$ref").isNone && referenceFreeFields fields
  | _ => true

def referenceFreeList : List Json → Bool
  | [] => true
  | x :: xs => referenceFree x && referenceFreeList xs

def referenceFreeFields : Object → Bool
  | [] => true
  | kv :: fields => referenceFree kv.2 && referenceFreeFields fields

end

lemma referenceFreeList_iff {xs : List Json} :
    referenceFreeList xs = true ↔ ∀ x ∈ xs, referenceFree x = true := by
  induction xs with
  | nil => simp [referenceFreeList]
  | cons x xs ih => simp [referenceFreeList, ih]

lemma referenceFreeFields_iff {fields : Object} :
    referenceFreeFields fields = true ↔ ∀ kv ∈ fields, referenceFree kv.2 = true := by
  induction fields with
  | nil => simp [referenceFreeFields]
  | cons kv fields ih => rw [referenceFreeFields, Bool.and_eq_true, ih, List.forall_mem_cons]

/-- The document has no references. -/
abbrev NoReferences (doc : Object) : Prop := referenceFree (.obj doc) = true

lemma Within.referenceFree {doc v : Json} (hv : Within doc v)
    (h : ModuleParser.referenceFree doc = true) : ModuleParser.referenceFree v = true := by
  induction hv with
  | root => exact h
  | item _ hx ih => exact referenceFreeList_iff.mp ih _ hx
  | field _ hkv ih =>
    rw [ModuleParser.referenceFree, Bool.and_eq_true] at ih
    exact referenceFreeFields_iff.mp ih.2 _ hkv

lemma mapValues_eq {f : String → Json → Json} {fields : Object}
    (h : ∀ kv ∈ fields, f kv.1 kv.2 = kv.2) : mapValues f fields = fields :=
  (List.map_congr_left fun kv hkv => congrArg (Prod.mk kv.1) (h kv hkv)).trans (List.map_id fields)

section plain

variable (h : NoReferences doc)
include h

lemma NoReferences.lookup {fields : Object} (hv : Within (.obj doc) (.obj fields)) :
    fields.lookup "$ref" = none := by
  have hfree := hv.referenceFree h
  rw [referenceFree, Bool.and_eq_true] at hfree
  exact Option.isNone_iff_eq_none.mp hfree.1

lemma NoReferences.resolved {v : Json} (hv : Sound doc v) : resolved doc v = v := by
  cases v with
  | obj fields =>
    have href := NoReferences.lookup h (hv fields rfl)
    simp only [ModuleParser.resolved, resolveRef, href]
  | null | bool | int | float | str | arr => rfl

lemma NoReferences.inlineField {v : Json} (key : String) (hv : Within (.obj doc) v) :
    inlineField doc key v = v := by
  unfold ModuleParser.inlineField
  split
  · exact NoReferences.resolved h (sound_of_within hv)
  · split
    · cases v with
      | arr params =>
        refine congrArg Json.arr ?_
        exact (List.map_congr_left fun x hx =>
          NoReferences.resolved h (sound_of_within (hv.item hx))).trans (List.map_id params)
      | null | bool | int | float | str | obj => rfl
    · rfl

lemma NoReferences.inlineOperation {v : Json} (hv : Within (.obj doc) v) :
    inlineOperation doc v = v := by
  cases v with
  | obj details =>
    exact congrArg Json.obj (mapValues_eq fun kv hkv => NoReferences.inlineField h kv.1 (hv.field hkv))
  | null | bool | int | float | str | arr => rfl

lemma NoReferences.inlinePathItem {v : Json} (hv : Within (.obj doc) v) :
    inlinePathItem doc v = v := by
  cases v with
  | obj methods =>
    exact congrArg Json.obj (mapValues_eq fun kv hkv => NoReferences.inlineOperation h (hv.field hkv))
  | null | bool | int | float | str | arr => rfl

lemma NoReferences.inlined : inlined doc = doc := by
  refine mapValues_eq fun kv hkv => ?_
  have hv : Within (.obj doc) kv.2 := Within.root.field hkv
  split
  · cases hpaths : kv.2 with
    | obj paths =>
      rw [hpaths] at hv
      exact congrArg Json.obj (mapValues_eq fun kv hkv => NoReferences.inlinePathItem h (hv.field hkv))
    | null | bool | int | float | str | arr => rfl
  · rfl

lemma NoReferences.not_unresolved (error : String) : ¬Unresolved doc error := by
  rintro ⟨fields, r, hwithin, href, -, -⟩
  rw [NoReferences.lookup h hwithin] at href
  cases href

lemma NoReferences.not_odd (e : PyError) : ¬Odd doc e := by
  rintro ⟨-, fields, r, hwithin, href, -⟩
  rw [NoReferences.lookup h hwithin] at href
  cases href

lemma NoReferences.withSchema {e : DiscoveredEndpoint}
    (hfinal : Final doc e.method e.requestBodySchema) : withSchema doc e = e := by
  obtain ⟨hfallback, hschema⟩ := hfinal
  have hresolved : ModuleParser.resolved doc e.requestBodySchema = e.requestBodySchema := by
    rcases hschema with hempty | hsound
    · rw [hempty]
      rfl
    · exact NoReferences.resolved h hsound
  rw [ModuleParser.withSchema, finalSchema, hresolved, ite_self, hfallback]

/-- Without references in the document, the two parsers do the same, and show the same problems
and endpoints. -/
theorem parsers_agree_without_references :
    (Parser.new (.obj doc)).parse I = ((OpenAPIParser.Parser.new (.obj doc)).run I).map fun p =>
      ⟨p.endpoints.map toDict, p.errorsEncountered, p.endpoints.length⟩ := by
  have hrun := matches_run (I := I) doc
  rw [NoReferences.inlined h] at hrun
  unfold Parser.parse
  cases hm : (Parser.new (.obj doc)).run I with
  | error e =>
    rw [hm] at hrun
    rw [hrun.error.resolve_left (NoReferences.not_odd h e)]
    rfl
  | ok m =>
    rw [hm] at hrun
    obtain ⟨p, hp, hinlines⟩ := hrun.exists_ok
    have hendpoints : m.endpoints = p.endpoints := by
      rw [hinlines.endpoints]
      exact (List.map_congr_left fun e he => NoReferences.withSchema h (hinlines.final e he)).trans
        (List.map_id _)
    have herrors : m.errorsEncountered = p.errorsEncountered := by
      rw [← hinlines.errors]
      refine (List.filter_eq_self.mpr fun e he => ?_).symm
      rw [Bool.not_eq_true']
      exact Bool.eq_false_iff.mpr fun hun => NoReferences.not_unresolved h e (hinlines.unresolved e he hun)
    rw [hp]
    refine congrArg Except.ok ?_
    rw [Parser.buildResult, hendpoints, herrors]

end plain

/-- A method with a body and a path that is no object. -/
def ordersDocument : Object :=
  [("paths", .obj [("/orders", .obj [("post", .obj [("requestBody", .obj [("content", .obj
    [("application/json", .obj [("schema", .obj [("type", .str "object")])])])])])]),
    ("/health", .null)])]

theorem parsers_agree_without_references_orders :
    (Parser.new (.obj ordersDocument)).parse ascii =
      ((OpenAPIParser.Parser.new (.obj ordersDocument)).run ascii).map fun p =>
        ⟨p.endpoints.map toDict, p.errorsEncountered, p.endpoints.length⟩ :=
  parsers_agree_without_references (by decide +kernel)

end free

section endpoints

variable {I : Interpreter} {doc : Object}

/-- The entry with its references inlined. -/
def inlineEntry (doc : Object) (e : OpenAPIParser.Entry) : OpenAPIParser.Entry :=
  { e with details := mapValues (inlineField doc) e.details }

lemma methodEntry_inlined (path : String) (entry : String × Json) :
    OpenAPIParser.methodEntry I path (entry.1, inlineOperation doc entry.2) =
      (OpenAPIParser.methodEntry I path entry).map (inlineEntry doc) := by
  obtain ⟨name, details⟩ := entry
  cases details with
  | obj details =>
    unfold inlineOperation OpenAPIParser.methodEntry
    dsimp only
    split <;> rfl
  | null | bool | int | float | str | arr => rfl

lemma pathEntries_inlined (entry : String × Json) :
    OpenAPIParser.pathEntries I (entry.1, inlinePathItem doc entry.2) =
      (OpenAPIParser.pathEntries I entry).map (inlineEntry doc) := by
  obtain ⟨path, methods⟩ := entry
  cases methods with
  | obj methods =>
    unfold inlinePathItem OpenAPIParser.pathEntries mapValues
    dsimp only
    rw [List.filterMap_map, List.map_filterMap]
    exact List.filterMap_congr fun entry _ => methodEntry_inlined path entry
  | null | bool | int | float | str | arr => rfl

lemma entriesOf_inlined (doc : Object) :
    OpenAPIParser.entriesOf I (.obj (inlined doc)) =
      (OpenAPIParser.entriesOf I (.obj doc)).map (inlineEntry doc) := by
  have hspec : ∀ fields, (OpenAPIParser.Parser.new (.obj fields)).spec = fields := fun _ => rfl
  unfold OpenAPIParser.entriesOf
  rw [hspec, hspec, lookup_paths_inlined]
  cases doc.lookup "paths" with
  | none => rfl
  | some v =>
    cases v with
    | obj paths =>
      change (mapValues (fun _ => inlinePathItem doc) paths).flatMap _ = _
      rw [mapValues, List.flatMap_map, List.map_flatMap]
      exact List.flatMap_congr fun entry _ => pathEntries_inlined entry
    | null | bool | int | float | str | arr => rfl

/-- The methods, the paths and the authentication of the endpoints come from the entries. -/
lemma found_run {p : OpenAPIParser.Parser}
    (h : (OpenAPIParser.Parser.new (.obj doc)).run I = .ok p) :
    (p.endpoints.map fun e => (e.method, e.path, e.hasAuth)) =
      (firsts OpenAPIParser.Entry.key (OpenAPIParser.entriesOf I (.obj doc))).map fun e =>
        (e.method, e.path, OpenAPIParser.checkAuth doc e.details) := by
  obtain ⟨hspec, hfound⟩ := OpenAPIParser.endpoints_run h
  refine map_of_mapM (fun e d hd => ?_) hfound
  have hdescribes := OpenAPIParser.describes_extract hd
  rw [hdescribes.method, hdescribes.path, hdescribes.hasAuth, hspec]
  rfl

/-- What the references lead to has no say in which endpoints are found and which of them ask
for authentication. -/
theorem references_change_no_endpoint {result : Result} {plain : OpenAPIParser.Result}
    (h : (Parser.new (.obj doc)).parse I = .ok result)
    (hplain : (OpenAPIParser.Parser.new (.obj doc)).parse I = .ok plain) :
    (result.endpoints.map fun e => (e.method, e.path, e.hasAuth)) =
      plain.endpoints.map fun e => (e.method, e.path, e.hasAuth) := by
  have hrun := matches_run (I := I) doc
  unfold Parser.parse at h
  unfold OpenAPIParser.Parser.parse at hplain
  obtain ⟨m, hm, -⟩ := returns_bind.mp ⟨result, h⟩
  obtain ⟨p, hp, -⟩ := returns_bind.mp ⟨plain, hplain⟩
  rw [hm] at h hrun
  rw [hp] at hplain
  obtain rfl := Except.ok.inj h
  obtain rfl := Except.ok.inj hplain
  obtain ⟨q, hq, hinlines⟩ := hrun.exists_ok
  have hfirsts : firsts OpenAPIParser.Entry.key
      ((OpenAPIParser.entriesOf I (.obj doc)).map (inlineEntry doc)) =
        (firsts OpenAPIParser.Entry.key (OpenAPIParser.entriesOf I (.obj doc))).map
          (inlineEntry doc) := firsts_map (fun _ => rfl) _
  have hshown : (p.endpoints.map OpenAPIParser.DiscoveredEndpoint.toDict).map
      (fun e => (e.method, e.path, e.hasAuth)) =
        p.endpoints.map fun e => (e.method, e.path, e.hasAuth) := List.map_map
  calc (m.endpoints.map toDict).map (fun e => (e.method, e.path, e.hasAuth))
      = q.endpoints.map fun e => (e.method, e.path, e.hasAuth) := by
        rw [hinlines.endpoints, List.map_map, List.map_map]
        rfl
    _ = (firsts OpenAPIParser.Entry.key (OpenAPIParser.entriesOf I (.obj doc))).map fun e =>
          (e.method, e.path, OpenAPIParser.checkAuth doc e.details) := by
        rw [found_run hq, entriesOf_inlined, hfirsts, List.map_map]
        refine List.map_congr_left fun e _ => ?_
        simp only [Function.comp_apply, inlineEntry, checkAuth_inlined]
    _ = p.endpoints.map fun e => (e.method, e.path, e.hasAuth) := (found_run hp).symm
    _ = (p.endpoints.map OpenAPIParser.DiscoveredEndpoint.toDict).map
          fun e => (e.method, e.path, e.hasAuth) := hshown.symm

/-- A method whose body and parameter are references. -/
def sharedDocument : Object :=
  [("paths", .obj [("/orders/", .obj [("post", .obj
      [("requestBody", .obj [("$ref", .str "#/components/order")]),
        ("parameters", .arr [.obj [("$ref", .str "#/components/missing")]])])])]),
    ("components", .obj [("order", .obj [("required", .bool true)])]), ("security", .arr [.null])]

def sharedResult : Result where
  endpoints :=
    [{ method := "POST"
       path := "/orders"
       requestBodyRequired := .bool true
       hasAuth := true
       parameters := [[("$ref", .str "#/components/missing"),
         ("schema", .obj [("type", .str "string")]), ("required", .bool false)]]
       requestBodySchema := .obj []
       source := "openapi"
       dynamicParameters := [] }]
  errorsEncountered :=
    ["Missing 'responses' field for POST /orders/.",
      "Could not resolve reference: #/components/missing",
      "Could not resolve reference: #/components/missing"]
  totalEndpoints := 1

def sharedPlainResult : OpenAPIParser.Result where
  endpoints := [⟨"POST", "/orders", .bool false, true⟩]
  errorsEncountered := ["Missing 'responses' field for POST /orders/."]
  totalEndpoints := 1

theorem references_change_no_endpoint_orders :
    (sharedResult.endpoints.map fun e => (e.method, e.path, e.hasAuth)) =
      sharedPlainResult.endpoints.map fun e => (e.method, e.path, e.hasAuth) := by
  have hresolving : (Parser.new (.obj sharedDocument)).parse ascii = .ok sharedResult := by
    decide +kernel
  have hplain : (OpenAPIParser.Parser.new (.obj sharedDocument)).parse ascii =
      .ok sharedPlainResult := by
    decide +kernel
  exact references_change_no_endpoint hresolving hplain

end endpoints

end SecurityScanner.ModuleParser

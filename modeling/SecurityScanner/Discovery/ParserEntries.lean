import SecurityScanner.Discovery.OpenApiParser

/-!
# What the parser finds

The two loops of `parse`, with their skip conditions and the set of seen endpoints, come down
to one loop over the entries of the specification that keeps the first of each method and path.
-/

namespace SecurityScanner.OpenAPIParser

open Python Fallible FirstWins

variable (I : Interpreter)

section entries

/-- A path and a method of the specification that both have an object for a value. -/
structure Entry where
  method : String
  path : String
  details : Object

def Entry.key (e : Entry) : String × String := (e.method, e.path)

def methodEntry (path : String) : String × Json → Option Entry
  | (name, .obj details) =>
    if I.upper name ∈ validMethods then some ⟨I.upper name, normalizePath path, details⟩ else none
  | _ => none

def pathEntries : String × Json → List Entry
  | (path, .obj methods) => methods.filterMap (methodEntry I path)
  | _ => []

/-- The entries of a specification in the order of the document. -/
def entriesOf (spec : Json) : List Entry :=
  match (Parser.new spec).spec.lookup "paths" with
  | some (.obj paths) => paths.flatMap (pathEntries I)
  | _ => []

/-- What `parse` makes of an entry. -/
def extract (spec : Object) (e : Entry) : Except PyError DiscoveredEndpoint :=
  Parser.endpointOf spec e.method e.path e.details

def DiscoveredEndpoint.key (e : DiscoveredEndpoint) : String × String := (e.method, e.path)

end entries

section loops

variable {I}

lemma key_extract {spec : Object} (e : Entry) (b : DiscoveredEndpoint)
    (h : extract spec e = .ok b) : b.key = e.key := by
  unfold extract Parser.endpointOf at h
  obtain ⟨schema, hschema, -⟩ := returns_bind.mp ⟨b, h⟩
  rw [hschema] at h
  obtain rfl := Except.ok.inj h
  rfl

lemma methodEntry_invalid (path : String) {name : String} (details : Json)
    (h : I.upper name ∉ validMethods) : methodEntry I path (name, details) = none := by
  unfold methodEntry
  cases details <;> simp [h]

/-- A part of `parse` that starts in the state `s` does what the loop `y` does: it raises the
same exception, or adds the same endpoints and remembers their keys. -/
def Yields (s : Parser) (x : Except PyError Parser) :
    Except PyError (List DiscoveredEndpoint) → Prop
  | .error e => x = .error e
  | .ok new => ∃ errors, x = .ok { s with
      endpoints := s.endpoints ++ new
      errorsEncountered := errors
      seenEndpoints := s.seenEndpoints ++ new.map DiscoveredEndpoint.key }

/-- The loop of the entries from the state `s` on. -/
def Parser.collect (s : Parser) (entries : List Entry) : Except PyError (List DiscoveredEndpoint) :=
  FirstWins.collect Entry.key (extract s.spec) s.seenEndpoints entries

lemma Yields.refl (s : Parser) : Yields s (pure s) (pure []) := by
  refine ⟨s.errorsEncountered, ?_⟩
  simp [Pure.pure, Except.pure]

lemma yields_recordError (s : Parser) (error : String) :
    Yields s (pure (s.recordError error)) (pure []) := by
  refine ⟨s.errorsEncountered ++ [error], ?_⟩
  simp [Parser.recordError, Pure.pure, Except.pure]

lemma collect_seen {s : Parser} {e : Entry} (h : e.key ∈ s.seenEndpoints) :
    s.collect [e] = pure [] := by
  unfold Parser.collect
  rw [collect_cons, if_pos h]
  rfl

lemma collect_fresh {s : Parser} {e : Entry} (h : e.key ∉ s.seenEndpoints) :
    s.collect [e] = (extract s.spec e >>= fun b => pure [b]) := by
  unfold Parser.collect
  rw [collect_cons, if_neg h]
  rfl

/-- The endpoint of a new method and path is added, whatever is recorded on the way. -/
lemma yields_endpoint (s : Parser) (e : Entry) (errors : List String) :
    Yields s
      (do
        let endpoint ← Parser.endpointOf s.spec e.method e.path e.details
        pure { s with
          errorsEncountered := errors
          endpoints := s.endpoints ++ [endpoint]
          seenEndpoints := s.seenEndpoints ++ [e.key] })
      (extract s.spec e >>= fun b => pure [b]) := by
  change Yields s (extract s.spec e >>= _) _
  cases hb : extract s.spec e with
  | error x => exact rfl
  | ok b =>
    have hkey : b.key = e.key := key_extract e b hb
    refine ⟨errors, ?_⟩
    rw [List.map_singleton, hkey]
    rfl

lemma yields_processMethod (path : String) (s : Parser) (entry : String × Json) :
    Yields s (Parser.processMethod I path (normalizePath path) s entry)
      (s.collect (methodEntry I path entry).toList) := by
  obtain ⟨name, details⟩ := entry
  by_cases hvalid : I.upper name ∈ validMethods
  · unfold Parser.processMethod methodEntry
    dsimp only
    rw [if_neg (not_not.mpr hvalid)]
    cases details with
    | obj details =>
      dsimp only
      rw [if_pos hvalid, Option.toList_some]
      by_cases hseen : (I.upper name, normalizePath path) ∈ s.seenEndpoints
      · rw [if_pos hseen, collect_seen hseen]
        exact yields_recordError s _
      · rw [if_neg hseen, collect_fresh hseen]
        -- a missing `responses` field is recorded, and the method is still taken
        cases (details.lookup "responses").isSome
        · exact yields_endpoint s _ _
        · exact yields_endpoint s _ s.errorsEncountered
    | null => exact yields_recordError s _
    | bool b => exact yields_recordError s _
    | int n => exact yields_recordError s _
    | float q => exact yields_recordError s _
    | str t => exact yields_recordError s _
    | arr xs => exact yields_recordError s _
  · rw [methodEntry_invalid path details hvalid]
    unfold Parser.processMethod
    dsimp only
    rw [if_pos hvalid]
    exact yields_recordError s _

/-- Loops of rounds that each do what the loop over its own entries does. -/
lemma yields_foldlM {α : Type} {f : Parser → α → Except PyError Parser} {entries : α → List Entry}
    (h : ∀ s x, Yields s (f s x) (s.collect (entries x))) (s : Parser) (xs : List α) :
    Yields s (xs.foldlM f s) (s.collect (xs.flatMap entries)) := by
  induction xs generalizing s with
  | nil => exact Yields.refl s
  | cons x xs ih =>
    have hx := h s x
    rw [List.foldlM_cons, List.flatMap_cons]
    unfold Parser.collect at hx ih ⊢
    rw [collect_append key_extract]
    cases hnew : FirstWins.collect Entry.key (extract s.spec) s.seenEndpoints (entries x) with
    | error e =>
      rw [hnew] at hx
      obtain hx : f s x = .error e := hx
      rw [hx]
      rfl
    | ok new =>
      rw [hnew] at hx
      obtain ⟨errors, hx⟩ := hx
      rw [hx, ok_bind, ok_bind]
      have hrest := ih { s with
        endpoints := s.endpoints ++ new
        errorsEncountered := errors
        seenEndpoints := s.seenEndpoints ++ new.map DiscoveredEndpoint.key }
      dsimp only at hrest
      cases hlater : FirstWins.collect Entry.key (extract s.spec)
          (s.seenEndpoints ++ new.map DiscoveredEndpoint.key) (xs.flatMap entries) with
      | error e =>
        rw [hlater] at hrest
        exact hrest
      | ok later =>
        rw [hlater] at hrest
        obtain ⟨errors, hrest⟩ := hrest
        refine ⟨errors, ?_⟩
        rw [hrest, List.map_append, List.append_assoc, List.append_assoc]

lemma yields_processPath (s : Parser) (entry : String × Json) :
    Yields s (Parser.processPath I s entry) (s.collect (pathEntries I entry)) := by
  obtain ⟨path, methods⟩ := entry
  unfold Parser.processPath pathEntries
  cases methods with
  | obj methods =>
    have hloop := yields_foldlM (yields_processMethod (I := I) path) s methods
    have hentries : methods.flatMap (fun entry => (methodEntry I path entry).toList) =
        methods.filterMap (methodEntry I path) := by
      rw [List.filterMap_eq_flatMap_toList]
    rw [hentries] at hloop
    exact hloop
  | null => exact yields_recordError s _
  | bool b => exact yields_recordError s _
  | int n => exact yields_recordError s _
  | float q => exact yields_recordError s _
  | str t => exact yields_recordError s _
  | arr xs => exact yields_recordError s _

/-- `parse` loops over the entries of the specification. -/
theorem yields_run (spec : Json) :
    Yields (Parser.new spec) ((Parser.new spec).run I)
      ((Parser.new spec).collect (entriesOf I spec)) := by
  unfold Parser.run entriesOf
  by_cases hempty : (Parser.new spec).spec = []
  · rw [if_pos hempty, hempty]
    exact Yields.refl _
  · rw [if_neg hempty]
    cases hpaths : (Parser.new spec).spec.lookup "paths" with
    | none => exact yields_recordError _ _
    | some paths =>
      cases paths with
      | obj paths => exact yields_foldlM yields_processPath _ paths
      | null => exact yields_recordError _ _
      | bool b => exact yields_recordError _ _
      | int n => exact yields_recordError _ _
      | float q => exact yields_recordError _ _
      | str t => exact yields_recordError _ _
      | arr xs => exact yields_recordError _ _

lemma Yields.returns {s : Parser} {x : Except PyError Parser}
    {y : Except PyError (List DiscoveredEndpoint)} (h : Yields s x y) : Returns x ↔ Returns y := by
  cases y with
  | error e =>
    obtain h : x = .error e := h
    rw [h]
    simp
  | ok new =>
    obtain ⟨errors, h⟩ := h
    rw [h]
    simp

end loops

section discovered

/-- A path of the specification and a method of the path have objects for values, and come
down to the method `method` and the path `path`. -/
def Listed (spec : Json) (method path : String) : Prop :=
  ∃ fields paths p methods name details,
    spec = .obj fields ∧ fields.lookup "paths" = some (.obj paths) ∧
    (p, .obj methods) ∈ paths ∧ (name, .obj details) ∈ methods ∧
    I.upper name = method ∧ method ∈ validMethods ∧ normalizePath p = path

/-- The first of the entries with its method and path. -/
def IsFirst (entries : List Entry) (e : Entry) : Prop :=
  ∃ before after, entries = before ++ e :: after ∧ ∀ y ∈ before, y.key ≠ e.key

/-- The endpoint comes from the details of the entry. -/
structure Describes (spec : Object) (e : Entry) (d : DiscoveredEndpoint) : Prop where
  method : d.method = e.method
  path : d.path = e.path
  hasAuth : d.hasAuth = checkAuth spec e.details
  body : extractBodySchema e.method e.details = .ok (d.requestBodySchema, d.requestBodyRequired)
  parameters : d.parameters = processParameters e.details

/-- What a parser that has returned knows of the specification. -/
structure Discovers (spec : Json) (s : Parser) (result : Result) : Prop where
  distinct : (result.endpoints.map fun e => (e.method, e.path)).Nodup
  listed : ∀ method path,
    (∃ e ∈ result.endpoints, e.method = method ∧ e.path = path) ↔ Listed I spec method path
  /-- The endpoints are those of the first entries, in the order of the document. -/
  first : ∃ entries, entries.Sublist (entriesOf I spec) ∧
    (∀ e, e ∈ entries ↔ IsFirst (entriesOf I spec) e) ∧
    List.Forall₂ (Describes s.spec) entries s.endpoints
  shown : result.endpoints = s.endpoints.map DiscoveredEndpoint.toDict
  total : result.totalEndpoints = result.endpoints.length

variable {I}

lemma mem_methodEntry {path : String} {entry : String × Json} {e : Entry} :
    methodEntry I path entry = some e ↔ entry.2 = .obj e.details ∧ I.upper entry.1 = e.method ∧
      e.method ∈ validMethods ∧ normalizePath path = e.path := by
  obtain ⟨name, value⟩ := entry
  cases value with
  | obj details =>
    unfold methodEntry
    rw [Option.ite_none_right_eq_some, Option.some_inj, Json.obj.injEq]
    constructor
    · rintro ⟨hvalid, rfl⟩
      exact ⟨rfl, rfl, hvalid, rfl⟩
    · rintro ⟨rfl, hmethod, hvalid, hpath⟩
      rw [← hmethod] at hvalid
      exact ⟨hvalid, by rw [hmethod, hpath]⟩
  | _ => simp [methodEntry]

lemma mem_pathEntries {entry : String × Json} {e : Entry} :
    e ∈ pathEntries I entry ↔ ∃ methods, entry.2 = .obj methods ∧
      ∃ m ∈ methods, methodEntry I entry.1 m = some e := by
  obtain ⟨path, value⟩ := entry
  cases value with
  | obj methods => simp [pathEntries]
  | _ => simp [pathEntries]

lemma mem_entriesOf {spec : Json} {e : Entry} :
    e ∈ entriesOf I spec ↔ ∃ fields paths, spec = .obj fields ∧
      fields.lookup "paths" = some (.obj paths) ∧ ∃ p ∈ paths, e ∈ pathEntries I p := by
  cases spec with
  | obj fields =>
    have hspec : (Parser.new (.obj fields)).spec = fields := rfl
    unfold entriesOf
    rw [hspec]
    cases hpaths : fields.lookup "paths" with
    | none => simp [hpaths]
    | some value =>
      cases value with
      | obj paths => simp [hpaths]
      | _ => simp [hpaths]
  | _ => simp [entriesOf, Parser.new]

/-- The entries are the methods that the specification lists. -/
lemma listed_iff {spec : Json} {method path : String} :
    Listed I spec method path ↔ ∃ e ∈ entriesOf I spec, e.key = (method, path) := by
  constructor
  · rintro ⟨fields, paths, p, methods, name, details, hspec, hpaths, hp, hname, rfl, hvalid, rfl⟩
    have he : Entry.mk (I.upper name) (normalizePath p) details ∈
        pathEntries I (p, .obj methods) := by
      rw [mem_pathEntries]
      exact ⟨methods, rfl, (name, .obj details), hname, mem_methodEntry.mpr ⟨rfl, rfl, hvalid, rfl⟩⟩
    exact ⟨_, mem_entriesOf.mpr ⟨fields, paths, hspec, hpaths, (p, .obj methods), hp, he⟩, rfl⟩
  · rintro ⟨e, he, hkey⟩
    obtain ⟨fields, paths, hspec, hpaths, ⟨p, value⟩, hp, he⟩ := mem_entriesOf.mp he
    obtain ⟨methods, rfl, ⟨name, details⟩, hname, hm⟩ := mem_pathEntries.mp he
    obtain ⟨rfl, hmethod, hvalid, hpath⟩ := mem_methodEntry.mp hm
    obtain ⟨rfl, rfl⟩ := Prod.mk.inj hkey
    exact ⟨fields, paths, p, methods, name, e.details, hspec, hpaths, hp, hname, hmethod, hvalid,
      hpath⟩

lemma describes_extract {spec : Object} {e : Entry} {d : DiscoveredEndpoint}
    (h : extract spec e = .ok d) : Describes spec e d := by
  unfold extract Parser.endpointOf at h
  obtain ⟨⟨schema, required⟩, hbody, -⟩ := returns_bind.mp ⟨d, h⟩
  rw [hbody] at h
  obtain rfl := Except.ok.inj h
  exact ⟨rfl, rfl, rfl, hbody, rfl⟩

/-- The endpoints of a parser that has returned are those of the first entries. -/
lemma endpoints_run {spec : Json} {s : Parser} (h : (Parser.new spec).run I = .ok s) :
    s.spec = (Parser.new spec).spec ∧
      (firsts Entry.key (entriesOf I spec)).mapM (extract s.spec) = .ok s.endpoints := by
  have hrun := yields_run (I := I) spec
  rw [h] at hrun
  unfold Parser.collect at hrun
  have hseen : (Parser.new spec).seenEndpoints = [] := rfl
  rw [hseen, collect_eq] at hrun
  cases hfound : (firsts Entry.key (entriesOf I spec)).mapM (extract (Parser.new spec).spec) with
  | error e =>
    rw [hfound] at hrun
    cases hrun
  | ok found =>
    rw [hfound] at hrun
    obtain ⟨errors, hs⟩ := hrun
    obtain rfl := Except.ok.inj hs
    exact ⟨rfl, hfound⟩

/-- The parser finds every method that the specification lists, once, and describes it by the
first entry in the document. -/
theorem parse_discovers {spec : Json} {result : Result}
    (h : (Parser.new spec).parse I = .ok result) :
    ∃ s, (Parser.new spec).run I = .ok s ∧ Discovers I spec s result := by
  unfold Parser.parse at h
  obtain ⟨s, hs, -⟩ := returns_bind.mp ⟨result, h⟩
  rw [hs] at h
  obtain rfl := Except.ok.inj h
  obtain ⟨hspec, hfound⟩ := endpoints_run hs
  have hdescribes := (mapM_eq_ok_iff.mp hfound).imp fun e d => describes_extract
  have hkeys : s.endpoints.map DiscoveredEndpoint.key =
      (firsts Entry.key (entriesOf I spec)).map Entry.key := map_of_mapM key_extract hfound
  have hshown : s.buildResult.endpoints.map (fun e => (e.method, e.path)) =
      s.endpoints.map DiscoveredEndpoint.key := List.map_map
  have hsub : (firsts Entry.key (entriesOf I spec)).Sublist (entriesOf I spec) := firsts_sublist _
  refine ⟨s, hs, ?_, ?_, ⟨firsts Entry.key (entriesOf I spec), ?_⟩, rfl, ?_⟩
  · rw [hshown, hkeys]
    exact nodup_firsts _
  · intro method path
    have hmem : (∃ e ∈ s.buildResult.endpoints, e.method = method ∧ e.path = path) ↔
        (method, path) ∈ (firsts Entry.key (entriesOf I spec)).map Entry.key := by
      rw [← hkeys, ← hshown]
      simp
    rw [hmem, listed_iff, List.mem_map]
    constructor
    · rintro ⟨e, he, hkey⟩
      exact ⟨e, hsub.subset he, hkey⟩
    · rintro ⟨e, he, hkey⟩
      obtain ⟨d, hd, hde⟩ : ∃ d ∈ firsts Entry.key (entriesOf I spec), d.key = e.key :=
        exists_mem_firsts he
      exact ⟨d, hd, hde.trans hkey⟩
  · exact ⟨hsub, fun e => mem_firsts, hdescribes⟩
  · exact (List.length_map DiscoveredEndpoint.toDict).symm

/-- Two spellings of one path. -/
def usersSpec : Json := .obj [("paths", .obj
  [("/users/", .obj [("get", .obj [("responses", .null)])]),
    ("//users", .obj [("get", .obj []),
      ("put", .obj [("responses", .null), ("security", .arr [.null])])])])]

def usersResult : Result where
  endpoints := [⟨"GET", "/users", .bool false, false⟩, ⟨"PUT", "/users", .bool false, true⟩]
  errorsEncountered := ["Duplicate endpoint detected: GET /users. Keeping first occurrence."]
  totalEndpoints := 2

theorem parse_discovers_users :
    ∃ s, (Parser.new usersSpec).run ascii = .ok s ∧ Discovers ascii usersSpec s usersResult := by
  apply parse_discovers
  decide +kernel

end discovered

end SecurityScanner.OpenAPIParser

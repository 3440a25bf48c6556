import SecurityScanner.Lib.ObjectLookup
import SecurityScanner.Mutation.MutationTotality

/-!
# Mutations of objects as edits

Each strategy for the parameters, the headers or the body of a request changes one key of
the object, but for the mass assignment. An edit is such a change with the parts of its
label, and a mutator makes the edits of one key after those of another.
-/

namespace SecurityScanner

open JavaScript Fallible

/-- A new value for a key, or none to take the key away. The label of the mutation is
`strategy`, which ends with a colon, then the key and `detail`. -/
structure Edit where
  strategy : String
  key : Text
  value : Option Value := none
  detail : Text := []

namespace Edit

def label (e : Edit) : Text := js e.strategy ++ e.key ++ e.detail

def apply (e : Edit) (o : Obj) : Obj :=
  match e.value with
  | some v => o.set e.key v
  | none => o.delete e.key

lemma lookup_apply (e : Edit) (o : Obj) (k : Text) :
    (e.apply o).lookup k = if k = e.key then e.value else o.lookup k := by
  unfold apply
  cases e.value with
  | some v => exact Obj.lookup_set
  | none => exact Obj.lookup_delete

/-- One edit for each text, which goes into the label through `detail`. -/
def assigning (strategy : String) (key : Text) (detail : Text → Text) (texts : List Text) :
    List Edit :=
  texts.map fun text => { strategy, key, value := some (.str text), detail := detail text }

def equals (t : Text) : Text := js "=" ++ t

def equalsQuoted (t : Text) : Text := js "=" ++ quote t

/-- The texts of the numbers around a value. -/
def idTexts (v : Value) : List Text :=
  match toNumber v with
  | .ok (some num) => [num - 1, num + 1, 1, 0, 99999, -1].map numberToText
  | _ => []

def nullTexts : List Text := ["", "null", "undefined", "0"].map js

end Edit

open Edit

/-- A mutation without the text of its reason. -/
def Mutation.silent (m : Mutation) : Mutation := { m with reason := [] }

section making

variable {make : Obj → Text → Text → Mutation} {o : Obj} {key : Text}

/-- The mutations are those of the edits, one after the other. -/
def Makes (make : Obj → Text → Text → Mutation) (o : Obj) (ms : List Mutation)
    (es : List Edit) : Prop :=
  ms.map Mutation.silent = es.map fun e => make (e.apply o) e.label []

/-- The reason of a mutation goes nowhere else. -/
def Labels (make : Obj → Text → Text → Mutation) : Prop :=
  ∀ o strategy reason, (make o strategy reason).silent = make o strategy []

lemma Makes.nil : Makes make o [] [] := rfl

lemma Makes.append {ms ns : List Mutation} {es fs : List Edit} (h : Makes make o ms es)
    (h' : Makes make o ns fs) : Makes make o (ms ++ ns) (es ++ fs) := by
  unfold Makes at *
  rw [List.map_append, List.map_append, h, h']

lemma Makes.of_map {α : Type} (hmake : Labels make) {xs : List α} {edit : α → Edit}
    {o' : α → Obj} {strategy reason : α → Text} (ho : ∀ x ∈ xs, o' x = (edit x).apply o)
    (hlabel : ∀ x ∈ xs, strategy x = (edit x).label) :
    Makes make o (xs.map fun x => make (o' x) (strategy x) (reason x)) (xs.map edit) := by
  unfold Makes
  rw [List.map_map, List.map_map]
  apply List.map_congr_left
  intro x hx
  change (make (o' x) (strategy x) (reason x)).silent = _
  rw [hmake, ho x hx, hlabel x hx]
  rfl

lemma makes_settingEach (hmake : Labels make) (strategy : String) (detail : Text → Text)
    {label reason : Text → Text} (hlabel : ∀ t, label t = js strategy ++ key ++ detail t)
    (texts : List Text) :
    Makes make o (settingEach make o key label reason texts)
      (assigning strategy key detail texts) :=
  Makes.of_map hmake (fun _ _ => rfl) (fun t _ => hlabel t)

lemma makes_removingKey (hmake : Labels make) (strategy : String) :
    Makes make o (removingKey make o key strategy) [{ strategy, key }] := by
  unfold Makes removingKey
  rw [List.map_singleton, List.map_singleton, hmake]
  unfold label
  rw [List.append_nil]
  rfl

lemma makes_enumeratingIds (hmake : Labels make) {v : Value} {ms : List Mutation}
    (h : enumeratingIds make o key v = .ok ms) :
    Makes make o ms (assigning "id_enum:" key equals (idTexts v)) := by
  unfold enumeratingIds at h
  unfold idTexts
  cases hv : toNumber v with
  | error e =>
    rw [hv, error_bind] at h
    cases h
  | ok num =>
    rw [hv, ok_bind] at h
    cases num with
    | none =>
      cases h
      exact Makes.nil
    | some num =>
      cases h
      exact makes_settingEach hmake _ equals (fun t => List.append_assoc _ _ _) _

lemma makes_injecting (hmake : Labels make) (payloads : List String) :
    Makes make o (injecting make o key payloads)
      (assigning "inject:" key equalsQuoted (payloads.map js)) :=
  makes_settingEach hmake _ equalsQuoted (fun _ => List.append_assoc _ _ _) _

lemma makes_nullifying (hmake : Labels make) :
    Makes make o (nullifying make o key) (assigning "nullify:" key equalsQuoted nullTexts) :=
  makes_settingEach hmake _ equalsQuoted (fun _ => List.append_assoc _ _ _) _

/-- A loop over the keys that returns makes the edits of all of them. -/
lemma makes_mapM {f : Text × Value → Except JsError (List Mutation)}
    {edits : Text × Value → List Edit} (h : ∀ kv ms, f kv = .ok ms → Makes make o ms (edits kv))
    {kvs : Obj} {perKey : List (List Mutation)} (hrun : kvs.mapM f = .ok perKey) :
    Makes make o perKey.flatten (kvs.flatMap edits) := by
  have hmap := map_of_mapM h hrun
  unfold Makes
  rw [List.map_flatten, List.map_flatMap, hmap, List.flatMap_def]

/-- Each mutation is that of one of the edits. -/
lemma Makes.exists_edit {ms : List Mutation} {es : List Edit} (h : Makes make o ms es)
    {m : Mutation} (hm : m ∈ ms) : ∃ e ∈ es, m.silent = make (e.apply o) e.label [] := by
  have hmem : m.silent ∈ ms.map Mutation.silent := List.mem_map_of_mem hm
  rw [h] at hmem
  obtain ⟨e, he, heq⟩ := List.mem_map.mp hmem
  exact ⟨e, he, heq.symm⟩

end making

namespace ParameterMutator

lemma labels_mutation : Labels mutation := fun _ _ _ => rfl

def edits (case : CaseMap) (kv : Text × Value) : List Edit :=
  assigning "id_enum:" kv.1 equals (idTexts kv.2) ++
    [{ strategy := "remove_param:", key := kv.1 }] ++
    assigning "inject:" kv.1 equalsQuoted ((specialChars (case.lower kv.1)).map js) ++
    assigning "nullify:" kv.1 equalsQuoted nullTexts

lemma makes_mutate {case : CaseMap} {params : Obj} {ms : List Mutation}
    (h : mutate case params = .ok ms) : Makes mutation params ms (params.flatMap (edits case)) := by
  obtain ⟨perKey, hrun, -⟩ := returns_bind.mp ⟨ms, h⟩
  unfold mutate at h
  rw [hrun, ok_bind] at h
  cases h
  apply makes_mapM _ hrun
  rintro ⟨key, value⟩ ns hns
  obtain ⟨ids, hids, -⟩ := returns_bind.mp ⟨ns, hns⟩
  dsimp only at hns
  rw [hids, ok_bind] at hns
  cases hns
  exact (((makes_enumeratingIds labels_mutation hids).append
    (makes_removingKey labels_mutation _)).append (makes_injecting labels_mutation _)).append
    (makes_nullifying labels_mutation)

end ParameterMutator

namespace HeaderMutator

lemma labels_mutation : Labels mutation := fun _ _ _ => rfl

def garbageTexts (v : Value) : List Text :=
  match slices v with
  | .ok (butLast, start, rest) =>
    [js "Bearer fake", js "Bearer null", js "Bearer undefined", js "Bearer 0", [],
      js "Bearer onlyonepart", js "Bearer !@#$%^&*()",
      js "Bearer " ++ List.replicate 1000 (unit 'a'),
      butLast ++ js "X", start ++ js "X" ++ rest,
      js "Bearer eyJhbGciOiJub25lIiwidHlwIjoiSldUIn0.eyJ1c2VySWQiOiIxIn0.",
      js ("Bearer eyJhbGciOiJIUzI1NiIsInR5cCI6IkpXVCJ9." ++
        "eyJ1c2VySWQiOiIxIiwicm9sZSI6ImFkbWluIn0.fakesignature")]
  | .error _ => []

def roleTexts : List Text := ["admin", "superadmin", "root", "administrator"].map js

def typeTexts : List Text :=
  ["text/xml", "text/plain", "application/x-www-form-urlencoded"].map js

/-- The values with another tenant, and the texts of the tenants. -/
def tenantTexts : Value → List (Text × Text)
  | .str t =>
    match (digitRuns [] t).head? with
    | none => []
    | some numStr =>
      let num := parseInt numStr
      ([num - 1, num + 1, 0, 1, 9999].map numberToText).map fun text =>
        (replace t numStr text, text)
  | _ => []

def garbageEdits (case : CaseMap) (kv : Text × Value) : List Edit :=
  if includes (case.lower kv.1) (js "authorization") then
    assigning "garbage_token:" kv.1 equals (garbageTexts kv.2)
  else []

def roleEdits (case : CaseMap) (kv : Text × Value) : List Edit :=
  if includes (case.lower kv.1) (js "x-user-role") then
    assigning "privelege_esc:" kv.1 equals roleTexts
  else []

def tenantEdits (case : CaseMap) (kv : Text × Value) : List Edit :=
  if isTenantHeader case kv.1 then
    (tenantTexts kv.2).map fun p =>
      { strategy := "tenant_swap:", key := kv.1, value := some (.str p.1), detail := equals p.2 }
  else []

def typeEdits (case : CaseMap) (kv : Text × Value) : List Edit :=
  if includes (case.lower kv.1) (js "type") then
    assigning "type_swap:" kv.1 equals typeTexts
  else []

def edits (case : CaseMap) (kv : Text × Value) : List Edit :=
  [{ strategy := "remove_header:", key := kv.1 }] ++
    assigning "blanking_value:" kv.1 (fun _ => []) [[]] ++ garbageEdits case kv ++
    roleEdits case kv ++ tenantEdits case kv ++ typeEdits case kv

def spoofEdits : List Edit :=
  ["X-Forwarded-For", "X-Original-IP", "X-Real-IP"].map fun spoofKey =>
    { strategy := "id_spoof:", key := js spoofKey, value := some (.str (js "127.0.0.1")),
      detail := equals (js "127.0.0.1") }

section strategies

variable {case : CaseMap} {headers : Obj} {key : Text} {v : Value} {ms : List Mutation}

lemma makes_garbageToken (h : garbageToken case headers key v = .ok ms) :
    Makes mutation headers ms (garbageEdits case (key, v)) := by
  unfold garbageToken at h
  unfold garbageEdits
  by_cases hkey : includes (case.lower key) (js "authorization") = true
  · rw [if_pos hkey]
    rw [hkey] at h
    obtain ⟨⟨butLast, start, rest⟩, hslices, -⟩ := returns_bind.mp ⟨ms, h⟩
    rw [if_neg (by simp), hslices, ok_bind] at h
    cases h
    unfold garbageTexts
    rw [hslices]
    exact makes_settingEach labels_mutation _ equals (fun _ => List.append_assoc _ _ _) _
  · rw [if_neg hkey]
    rw [Bool.not_eq_true] at hkey
    rw [hkey] at h
    cases h
    exact Makes.nil

lemma makes_privelegeEsc :
    Makes mutation headers (privelegeEsc case headers key) (roleEdits case (key, v)) := by
  unfold privelegeEsc roleEdits
  cases includes (case.lower key) (js "x-user-role") with
  | false => exact Makes.nil
  | true => exact makes_settingEach labels_mutation _ equals (fun _ => List.append_assoc _ _ _) _

lemma makes_contentTypeSwap :
    Makes mutation headers (contentTypeSwap case headers key) (typeEdits case (key, v)) := by
  unfold contentTypeSwap typeEdits
  cases includes (case.lower key) (js "type") with
  | false => exact Makes.nil
  | true => exact makes_settingEach labels_mutation _ equals (fun _ => List.append_assoc _ _ _) _

lemma makes_tenantSwapping (h : tenantSwapping case headers key v = .ok ms) :
    Makes mutation headers ms (tenantEdits case (key, v)) := by
  unfold tenantSwapping at h
  dsimp only at h
  unfold tenantEdits
  change (if !isTenantHeader case key then _ else _) = _ at h
  cases hkey : isTenantHeader case key with
  | false =>
    rw [hkey] at h
    cases h
    exact Makes.nil
  | true =>
    rw [hkey] at h
    rw [if_neg (by simp)] at h
    rw [if_pos rfl]
    cases v with
    | str t =>
      unfold tenantTexts
      dsimp only at h ⊢
      cases hrun : (digitRuns [] t).head? with
      | none =>
        rw [hrun] at h
        cases h
        exact Makes.nil
      | some numStr =>
        rw [hrun] at h
        cases h
        rw [List.map_map, List.map_map]
        exact Makes.of_map labels_mutation (fun _ _ => rfl) fun _ _ => List.append_assoc _ _ _
    | _ => cases h

lemma makes_idSpoofing : Makes mutation headers (idSpoofing headers) spoofEdits :=
  Makes.of_map labels_mutation (fun _ _ => rfl) fun _ _ => List.append_assoc _ _ _

end strategies

lemma makes_mutate {case : CaseMap} {headers : Obj} {ms : List Mutation}
    (h : mutate case headers = .ok ms) :
    Makes mutation headers ms (headers.flatMap (edits case) ++ spoofEdits) := by
  obtain ⟨perKey, hrun, -⟩ := returns_bind.mp ⟨ms, h⟩
  unfold mutate at h
  rw [hrun, ok_bind] at h
  cases h
  apply Makes.append _ makes_idSpoofing
  apply makes_mapM _ hrun
  rintro ⟨key, value⟩ ns hns
  dsimp only at hns
  unfold mutateKey at hns
  obtain ⟨garbage, hgarbage, -⟩ := returns_bind.mp ⟨ns, hns⟩
  rw [hgarbage, ok_bind] at hns
  obtain ⟨tenants, htenants, -⟩ := returns_bind.mp ⟨ns, hns⟩
  rw [htenants, ok_bind] at hns
  cases hns
  have hblank : Makes mutation headers (blankValue headers key)
      (assigning "blanking_value:" key (fun _ => []) [[]]) :=
    makes_settingEach labels_mutation _ _ (fun _ => (List.append_nil _).symm) _
  exact (((((makes_removingKey labels_mutation _).append hblank).append
    (makes_garbageToken hgarbage)).append makes_privelegeEsc).append
    (makes_tenantSwapping htenants)).append makes_contentTypeSwap

end HeaderMutator

namespace BodyMutator

lemma labels_mutation : Labels mutation := fun _ _ _ => rfl

def injectTexts : List Text :=
  ["' OR '1'='1", "../../../etc/passwd", "<script>alert(1)</script>", "null", "undefined",
    "true", "\x7b\x7d", "[]"].map js

/-- The strategies that assign texts. -/
def textEdits (kv : Text × Value) : List Edit :=
  assigning "id_enum:" kv.1 equals (idTexts kv.2) ++
    [{ strategy := "remove_field:", key := kv.1 }] ++
    assigning "inject:" kv.1 equalsQuoted injectTexts ++
    assigning "nullify:" kv.1 equalsQuoted nullTexts

def confusionEdits (kv : Text × Value) : List Edit :=
  (variations kv.2).map fun p =>
    { strategy := "type_confusion:", key := kv.1, value := some p.1, detail := equals (js p.2) }

def edits (kv : Text × Value) : List Edit := textEdits kv ++ confusionEdits kv

lemma makes_typeConfusion {copy : EngineCopy} {body : Obj} {key : Text} {v : Value}
    {ms : List Mutation} (h : typeConfusion copy body key v = .ok ms) :
    Makes mutation body ms (confusionEdits (key, v)) := by
  unfold typeConfusion at h
  split at h
  · cases h
  · cases h
    exact Makes.of_map labels_mutation (fun _ _ => rfl) fun _ _ => List.append_assoc _ _ _

lemma makes_mutateKey {copy : EngineCopy} {body : Obj} {key : Text} {v : Value}
    {ms : List Mutation} (h : mutateKey copy body key v = .ok ms) :
    Makes mutation body ms (edits (key, v)) := by
  unfold mutateKey at h
  obtain ⟨ids, hids, -⟩ := returns_bind.mp ⟨ms, h⟩
  rw [hids, ok_bind] at h
  obtain ⟨confusions, hconfusions, -⟩ := returns_bind.mp ⟨ms, h⟩
  rw [hconfusions, ok_bind] at h
  cases h
  exact ((((makes_enumeratingIds labels_mutation hids).append
    (makes_removingKey labels_mutation _)).append (makes_injecting labels_mutation _)).append
    (makes_nullifying labels_mutation)).append (makes_typeConfusion hconfusions)

lemma makes_mutate {copy : EngineCopy} {body : Obj} {ms : List Mutation}
    (h : mutate copy body = .ok ms) :
    ∃ ns, ms = ns ++ massAssignment body ∧ Makes mutation body ns (body.flatMap edits) := by
  obtain ⟨perKey, hrun, -⟩ := returns_bind.mp ⟨ms, h⟩
  unfold mutate at h
  rw [hrun, ok_bind] at h
  cases h
  refine ⟨perKey.flatten, rfl, ?_⟩
  apply makes_mapM _ hrun
  rintro ⟨key, value⟩ ns hns
  exact makes_mutateKey hns

end BodyMutator

end SecurityScanner

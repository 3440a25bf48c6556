import SecurityScanner.Mutation.Kept
import SecurityScanner.Mutation.PathTexts

/-!
# Mutations that repeat the request

A strategy that assigns a value which the request has, or that changes a text which stays as it
is, makes a mutation that is no mutation. It is returned, unless another one with the same
fingerprint comes before it.
-/

namespace SecurityScanner

open JavaScript Edit Fallible MutationEngine FirstWins

section properties

/-- The object that the mutation carries has another value under one of the keys. -/
def DiffersIn (carried original : Option Obj) : Prop :=
  ∃ o, carried = some o ∧ ∃ k, o.lookup k ≠ (original.getD []).lookup k

/-- A component of the mutation is not that of the request; the override of the method adds a
header that the request does not have. -/
def Mutates (request : MutationRequest) (m : Mutation) : Prop :=
  DiffersIn m.params request.params ∨ DiffersIn m.body request.body ∨
    (m.method = none ∧ DiffersIn m.headers request.headers) ∨
    (∃ t, m.method = some t ∧ t ≠ request.method.getD []) ∨
    (∃ t, m.path = some t ∧ t ≠ request.path.getD []) ∨
    (m.method ≠ none ∧ ∃ o, m.headers = some o ∧
      ∃ kv ∈ o, (request.headers.getD []).lookup kv.1 ≠ some kv.2)

/-- The parameter is one of the texts that the strategies assign to it. -/
def RepeatedParam (case : CaseMap) (kv : Text × Value) : Prop :=
  ∃ t ∈ idTexts kv.2 ++ (ParameterMutator.specialChars (case.lower kv.1)).map js ++ nullTexts,
    kv.2 = .str t

/-- The texts that the strategies assign to a header. -/
def HeaderMutator.texts (case : CaseMap) (kv : Text × Value) : List Text :=
  [[]] ++ (if includes (case.lower kv.1) (js "authorization") then garbageTexts kv.2 else []) ++
    (if includes (case.lower kv.1) (js "x-user-role") then roleTexts else []) ++
    (if isTenantHeader case kv.1 then (tenantTexts kv.2).map Prod.fst else []) ++
    (if includes (case.lower kv.1) (js "type") then typeTexts else [])

def RepeatedHeader (case : CaseMap) (kv : Text × Value) : Prop :=
  ∃ t ∈ HeaderMutator.texts case kv, kv.2 = .str t

def localhost : Value := .str (js "127.0.0.1")

/-- Nothing in the request is what a strategy puts in its place. A repetition in the body is
hidden by a number before it that JSON cannot write, and the path by a variant of the method
with the same bars. -/
structure NothingRepeated (case : CaseMap) (request : MutationRequest) : Prop where
  params : ∀ kv ∈ request.params.getD [], ¬RepeatedParam case kv
  headers : ∀ kv ∈ request.headers.getD [], ¬RepeatedHeader case kv
  spoofs : ∀ header ∈ ["X-Forwarded-For", "X-Original-IP", "X-Real-IP"],
    (request.headers.getD []).lookup (js header) ≠ some localhost
  body : ∀ pre kv post, request.body.getD [] = pre ++ kv :: post →
    (∀ kv' ∈ pre, ¬NonFinite kv'.2) → ¬BodyMutator.Repeated kv
  massAssignment : (∀ kv ∈ request.body.getD [], ¬NonFinite kv.2) →
    ¬BodyMutator.MassRepeated (request.body.getD [])
  method : trim (request.method.getD []) ≠ [] →
    request.method.getD [] ∉ MethodMutator.caseVariants case (request.method.getD []) ∧
      request.method.getD [] ∉ MethodMutator.garbageMethods
  override : trim (request.method.getD []) ≠ [] →
    (request.headers.getD []).lookup (js "X-HTTP-Method-Override") ≠ some (.str (js "DELETE"))
  path : trim (request.path.getD []) ≠ [] → PathChanges case (request.path.getD []) ∨
    trim (request.method.getD []) ≠ [] ∧ ∃ t, request.path.getD [] = t ++ js "|" ∧
      unit '|' :: t ∈ MethodMutator.caseVariants case (request.method.getD [])

end properties

namespace Change

/-- The change carries what the request has. -/
def Repeats (request : MutationRequest) : Change → Prop
  | params o => ∀ k, o.lookup k = (request.params.getD []).lookup k
  | headers o => ∀ k, o.lookup k = (request.headers.getD []).lookup k
  | body o => ∀ k, o.lookup k = (request.body.getD []).lookup k
  | method t => t = request.method.getD []
  | override t => t = request.method.getD [] ∧
    (request.headers.getD []).lookup (js "X-HTTP-Method-Override") = some (.str (js "DELETE"))
  | path t => t = request.path.getD []

lemma mutates_iff {request : MutationRequest} {c : Change} :
    Mutates request c.mutation ↔ ¬Repeats request c := by
  cases c <;> simp [Mutates, DiffersIn, Repeats, mutation, overrideHeaders]
  tauto

end Change

section edits

variable {case : CaseMap} {o : Obj} {kv : Text × Value} {e : Edit}

/-- An edit repeats its object if it assigns the value of its key. -/
lemma value_of_same (h : ∀ k, (e.apply o).lookup k = o.lookup k) : e.value = o.lookup e.key := by
  rw [← h e.key, lookup_apply, if_pos rfl]

lemma same_of_value (h : e.value = o.lookup e.key) (k : Text) :
    (e.apply o).lookup k = o.lookup k := by
  rw [lookup_apply]
  split
  · rename_i hk
    rw [hk, h]
  · rfl

lemma exists_assigning {strategy : String} {key : Text} {detail : Text → Text}
    {texts : List Text} {v : Value} :
    (∃ e ∈ assigning strategy key detail texts, e.value = some v) ↔ ∃ t ∈ texts, v = .str t := by
  constructor
  · rintro ⟨e, he, hv⟩
    obtain ⟨t, ht, rfl⟩ := List.mem_map.mp he
    exact ⟨t, ht, (Option.some.inj hv).symm⟩
  · rintro ⟨t, ht, rfl⟩
    exact ⟨_, List.mem_map_of_mem ht, rfl⟩

lemma repeatedParam_iff : (∃ e ∈ ParameterMutator.edits case kv, e.value = some kv.2) ↔
    RepeatedParam case kv := by
  unfold ParameterMutator.edits RepeatedParam
  simp only [List.mem_append, or_and_right, exists_or, exists_assigning, List.mem_singleton,
    exists_eq_left, reduceCtorEq, or_false]

lemma exists_mem_if {α : Type} {b : Bool} {xs : List α} {P : α → Prop} :
    (∃ x ∈ if b then xs else [], P x) ↔ b = true ∧ ∃ x ∈ xs, P x := by
  cases b <;> simp

lemma exists_tenant {v : Value} : (∃ e ∈ (HeaderMutator.tenantTexts v).map (fun p =>
      ({ strategy := "tenant_swap:", key := kv.1, value := some (.str p.1),
         detail := equals p.2 } : Edit)), e.value = some v) ↔
    ∃ t ∈ (HeaderMutator.tenantTexts v).map Prod.fst, v = .str t := by
  constructor
  · rintro ⟨e, he, hv⟩
    obtain ⟨p, hp, rfl⟩ := List.mem_map.mp he
    exact ⟨p.1, List.mem_map_of_mem hp, (Option.some.inj hv).symm⟩
  · rintro ⟨t, ht, hv⟩
    obtain ⟨p, hp, rfl⟩ := List.mem_map.mp ht
    exact ⟨_, List.mem_map_of_mem hp, congrArg some hv.symm⟩

lemma repeatedHeader_iff : (∃ e ∈ HeaderMutator.edits case kv, e.value = some kv.2) ↔
    RepeatedHeader case kv := by
  unfold HeaderMutator.edits RepeatedHeader HeaderMutator.texts HeaderMutator.garbageEdits
    HeaderMutator.roleEdits HeaderMutator.tenantEdits HeaderMutator.typeEdits
  simp only [List.mem_append, or_and_right, exists_or, exists_mem_if, exists_assigning,
    exists_tenant, List.mem_singleton, exists_eq_left, reduceCtorEq, false_or]

/-- A list of edits repeats the object if one of them assigns the value of its key. -/
lemma exists_same_iff {edits : Text × Value → List Edit} (hd : o.Distinct)
    (hname : ∀ kv, AllName kv.1 (edits kv)) :
    (∃ e ∈ o.flatMap edits, ∀ k, (e.apply o).lookup k = o.lookup k) ↔
      ∃ kv ∈ o, ∃ e ∈ edits kv, e.value = some kv.2 := by
  constructor
  · rintro ⟨e, he, hsame⟩
    obtain ⟨kv, hkv, he⟩ := List.mem_flatMap.mp he
    refine ⟨kv, hkv, e, he, ?_⟩
    rw [value_of_same hsame, (hname kv e he).key_eq, Obj.lookup_of_mem hd hkv]
  · rintro ⟨kv, hkv, e, he, hvalue⟩
    refine ⟨e, List.mem_flatMap.mpr ⟨kv, hkv, he⟩, same_of_value ?_⟩
    rw [(hname kv e he).key_eq, Obj.lookup_of_mem hd hkv, hvalue]

lemma exists_first {α : Type} {p : α → Prop} {xs : List α} (h : ∃ x ∈ xs, p x) :
    ∃ pre x post, xs = pre ++ x :: post ∧ p x ∧ ∀ y ∈ pre, ¬p y := by
  induction xs with
  | nil =>
    obtain ⟨x, hx, -⟩ := h
    cases hx
  | cons x xs ih =>
    by_cases hx : p x
    · exact ⟨[], x, xs, rfl, hx, nofun⟩
    · obtain ⟨pre, y, post, rfl, hy, hpre⟩ := ih (by simpa [hx] using h)
      refine ⟨x :: pre, y, post, rfl, hy, ?_⟩
      rw [List.forall_mem_cons]
      exact ⟨hx, hpre⟩

lemma eq_nil_of_lookup (h : ∀ k, o.lookup k = none) : o = [] := by
  cases o with
  | nil => rfl
  | cons f fields =>
    have hlookup := h f.1
    rw [Obj.lookup_cons, if_pos rfl] at hlookup
    cases hlookup

end edits

section requests

variable {case : CaseMap} {request : MutationRequest} {c d : Change}

/-- A change that repeats the request is not blank. -/
lemma not_blank_of_repeats (hc : c ∈ changes case request) (h : c.Repeats request) : ¬c.Blank := by
  intro hblank
  cases c with
  | params o =>
    cases hblank
    obtain ⟨e, he, -⟩ := params_mem_changes.mp hc
    rw [eq_nil_of_lookup fun k => (h k).symm] at he
    cases he
  | headers o =>
    cases hblank
    exact (headers_mem_changes.mp hc).1 (eq_nil_of_lookup fun k => (h k).symm)
  | body o =>
    cases hblank
    exact (body_mem_changes.mp hc).1 (eq_nil_of_lookup fun k => (h k).symm)
  | method t =>
    cases hblank
    have hempty : [] = request.method.getD [] := h
    obtain ⟨htrim, -⟩ := method_mem_changes.mp hc
    rw [← hempty] at htrim
    exact htrim rfl
  | override t => cases hblank
  | path t =>
    cases hblank
    have hempty : [] = request.path.getD [] := h
    obtain ⟨htrim, -⟩ := path_mem_changes.mp hc
    rw [← hempty] at htrim
    exact htrim rfl

/-- What has the fingerprint of a repetition. -/
lemma alike_of_repeats (hc : c ∈ changes case request) (hd : d ∈ changes case request)
    (h : c.Repeats request) (hfingerprint : d.fingerprint = c.fingerprint) :
    d.SameText c ∨ d.Bars c ∨ c.Bars d := by
  rcases Change.alike_of_fingerprint (live_of_mem hd) (live_of_mem hc) hfingerprint with
    hsame | ⟨-, hblank⟩ | hbars | hbars
  · exact Or.inl hsame
  · exact absurd hblank (not_blank_of_repeats hc h)
  · exact Or.inr (Or.inl hbars)
  · exact Or.inr (Or.inr hbars)

/-- The kept change with the fingerprint of a change. -/
lemma exists_kept (hc : c ∈ changes case request) :
    ∃ d ∈ firsts Change.fingerprint (changes case request), d.fingerprint = c.fingerprint :=
  exists_mem_firsts hc

/-- The changes of everything but the path, which come first. -/
def changesBeforePath (case : CaseMap) (request : MutationRequest) : List Change :=
  paramChanges case (request.params.getD []) ++ headerChanges case (request.headers.getD []) ++
    bodyChanges (request.body.getD []) ++ methodChanges case (request.method.getD [])

lemma changes_eq : changes case request =
    changesBeforePath case request ++ pathChanges case (request.path.getD []) := rfl

lemma path_not_mem_before {t : Text} : .path t ∉ changesBeforePath case request := by
  simp [changesBeforePath, paramChanges, headerChanges, bodyChanges, methodChanges]

lemma mem_before_of_method {t : Text} (h : .method t ∈ changes case request) :
    .method t ∈ changesBeforePath case request := by
  rw [changes_eq] at h
  rcases List.mem_append.mp h with h | h
  · exact h
  · simp [pathChanges] at h

/-- The changes up to the edits of the first fields of the body. -/
def changesUpTo (case : CaseMap) (request : MutationRequest) (pre : Obj) : List Change :=
  paramChanges case (request.params.getD []) ++ headerChanges case (request.headers.getD []) ++
    (pre.flatMap BodyMutator.edits).map fun e => .body (e.apply (request.body.getD []))

lemma body_mem_upTo {pre o : Obj} : .body o ∈ changesUpTo case request pre ↔
    ∃ kv ∈ pre, ∃ e ∈ BodyMutator.edits kv, e.apply (request.body.getD []) = o := by
  have hmap : .body o ∈ changesUpTo case request pre ↔
      ∃ e ∈ pre.flatMap BodyMutator.edits, e.apply (request.body.getD []) = o := by
    simp [changesUpTo, paramChanges, headerChanges]
  rw [hmap]
  constructor
  · rintro ⟨e, he, happly⟩
    obtain ⟨kv, hkv, he⟩ := List.mem_flatMap.mp he
    exact ⟨kv, hkv, e, he, happly⟩
  · rintro ⟨kv, hkv, e, he, happly⟩
    exact ⟨e, List.mem_flatMap.mpr ⟨kv, hkv, he⟩, happly⟩

/-- A fingerprint that occurs among these changes is kept there. -/
lemma mem_upTo_of_kept {pre post : Obj} (hbody : request.body.getD [] = pre ++ post)
    (hne : request.body.getD [] ≠ []) (hc : c ∈ changesUpTo case request pre)
    (hd : d ∈ firsts Change.fingerprint (changes case request))
    (hfingerprint : d.fingerprint = c.fingerprint) : d ∈ changesUpTo case request pre := by
  have hsplit : ∃ rest, changes case request = changesUpTo case request pre ++ rest := by
    unfold changes changesUpTo bodyChanges BodyMutator.bodies
    rw [if_neg hne]
    conv in (request.body.getD []).flatMap _ => rw [hbody]
    rw [List.flatMap_append, List.map_append, List.map_append, List.map_append, List.map_map]
    simp only [List.append_assoc]
    exact ⟨_, rfl⟩
  obtain ⟨rest, hrest⟩ := hsplit
  rw [hrest] at hd
  exact mem_of_mem_firsts (mem_firsts_left hd hc hfingerprint)

/-- No repetition is kept. -/
def NoneKept (case : CaseMap) (request : MutationRequest) : Prop :=
  ∀ c ∈ firsts Change.fingerprint (changes case request), ¬c.Repeats request

section kept

variable (hnone : NoneKept case request)

include hnone

lemma not_repeats_of_unique (hc : c ∈ changes case request)
    (hunique : ∀ d ∈ changes case request, d.fingerprint = c.fingerprint → c.Repeats request →
      d = c) : ¬c.Repeats request := by
  intro h
  obtain ⟨d, hd, hfingerprint⟩ := exists_kept hc
  have heq := hunique d (mem_of_mem_firsts hd) hfingerprint h
  rw [heq] at hd
  exact hnone c hd h

lemma params_of_noneKept (h : DistinctKeys request) {o : Obj}
    (hc : .params o ∈ changes case request) : ¬Change.Repeats request (.params o) := by
  apply not_repeats_of_unique hnone hc
  intro d hd hfingerprint hrepeats
  rcases alike_of_repeats hc hd hrepeats hfingerprint with hsame | hbars | hbars
  · cases d with
    | params o' =>
      obtain ⟨e, he, rfl⟩ := params_mem_changes.mp hc
      obtain ⟨e', he', rfl⟩ := params_mem_changes.mp hd
      rw [apply_eq_of_text h.params (setsText_of_params he') (setsText_of_params he) hsame]
    | _ => cases hsame
  · cases d <;> cases hbars
  · cases hbars

lemma headers_of_noneKept (h : DistinctKeys request) {o : Obj}
    (hc : .headers o ∈ changes case request) : ¬Change.Repeats request (.headers o) := by
  apply not_repeats_of_unique hnone hc
  intro d hd hfingerprint hrepeats
  rcases alike_of_repeats hc hd hrepeats hfingerprint with hsame | hbars | hbars
  · cases d with
    | headers o' =>
      obtain ⟨-, e, he, rfl⟩ := headers_mem_changes.mp hc
      obtain ⟨-, e', he', rfl⟩ := headers_mem_changes.mp hd
      rw [apply_eq_of_text h.headers (setsText_of_headers he') (setsText_of_headers he) hsame]
    | _ => cases hsame
  · cases d <;> cases hbars
  · cases hbars

lemma override_of_noneKept {t : Text} (hc : .override t ∈ changes case request) :
    ¬Change.Repeats request (.override t) := by
  apply not_repeats_of_unique hnone hc
  intro d hd hfingerprint hrepeats
  rcases alike_of_repeats hc hd hrepeats hfingerprint with hsame | hbars | hbars
  · cases d with
    | override t' => exact congrArg Change.override hsame
    | _ => cases hsame
  · cases d <;> cases hbars
  · cases hbars

/-- A path with the same bars comes too late to hide a method. -/
lemma method_of_noneKept {t : Text} (hc : .method t ∈ changes case request) :
    ¬Change.Repeats request (.method t) := by
  intro hrepeats
  obtain ⟨d, hd, hfingerprint⟩ := exists_kept hc
  have hbefore : d ∈ changesBeforePath case request := by
    rw [changes_eq] at hd
    exact mem_of_mem_firsts (mem_firsts_left hd (mem_before_of_method hc) hfingerprint)
  rcases alike_of_repeats hc (mem_of_mem_firsts hd) hrepeats hfingerprint with
    hsame | hbars | hbars
  · cases d with
    | method t' =>
      have heq : t' = t := hsame
      rw [heq] at hd
      exact hnone _ hd hrepeats
    | _ => cases hsame
  · cases d <;> cases hbars
  · cases d with
    | path p => exact path_not_mem_before hbefore
    | _ => cases hbars

/-- A repeated path is hidden by a method. -/
lemma path_of_noneKept {t : Text} (hc : .path t ∈ changes case request)
    (hrepeats : Change.Repeats request (.path t)) :
    ∃ t', .method t' ∈ changes case request ∧ Change.Bars (.method t') (.path t) := by
  obtain ⟨d, hd, hfingerprint⟩ := exists_kept hc
  rcases alike_of_repeats hc (mem_of_mem_firsts hd) hrepeats hfingerprint with
    hsame | hbars | hbars
  · cases d with
    | path t' =>
      have heq : t' = t := hsame
      rw [heq] at hd
      exact absurd hrepeats (hnone _ hd)
    | _ => cases hsame
  · cases d with
    | method t' => exact ⟨t', mem_of_mem_firsts hd, hbars⟩
    | _ => cases hbars
  · cases hbars

lemma body_of_noneKept (h : DistinctKeys request) {pre post : Obj} {kv : Text × Value}
    (hbody : request.body.getD [] = pre ++ kv :: post) (hpre : ∀ kv' ∈ pre, ¬NonFinite kv'.2) :
    ¬BodyMutator.Repeated kv := by
  intro hrepeated
  have hkv : kv ∈ request.body.getD [] := by
    rw [hbody]
    exact List.mem_append_right _ List.mem_cons_self
  have hne : request.body.getD [] ≠ [] := List.ne_nil_of_mem hkv
  obtain ⟨e, he, happly⟩ := BodyMutator.exists_keeping_edit h.body hkv hrepeated
  have hc : .body (request.body.getD []) ∈ changes case request :=
    body_mem_changes.mpr ⟨hne, BodyMutator.body_mem_of_repeated h.body hkv hrepeated⟩
  have hupTo : .body (request.body.getD []) ∈ changesUpTo case request (pre ++ [kv]) :=
    body_mem_upTo.mpr ⟨kv, List.mem_append_right _ List.mem_cons_self, e, he, happly⟩
  obtain ⟨d, hd, hfingerprint⟩ := exists_kept hc
  have hsplit : request.body.getD [] = (pre ++ [kv]) ++ post := by
    rw [hbody, List.append_assoc, List.singleton_append]
  have hfirst := mem_upTo_of_kept hsplit hne hupTo hd hfingerprint
  rcases alike_of_repeats hc (mem_of_mem_firsts hd) (fun _ => rfl) hfingerprint with
    hsame | hbars | hbars
  · cases d with
    | body o =>
      obtain ⟨kv', hkv', e', he', rfl⟩ := body_mem_upTo.mp hfirst
      have hmem : kv' ∈ request.body.getD [] := by
        rw [hbody]
        rcases List.mem_append.mp hkv' with hkv' | hkv'
        · exact List.mem_append_left _ hkv'
        · rw [List.mem_singleton.mp hkv']
          exact List.mem_append_right _ List.mem_cons_self
      rcases BodyMutator.kept_edit h.body hmem he' hsame with ⟨heq, -⟩ | ⟨hnumber, -⟩
      · rw [heq] at hd
        exact hnone _ hd fun _ => rfl
      · rcases List.mem_append.mp hkv' with hkv' | hkv'
        · exact hpre kv' hkv' hnumber
        · rw [List.mem_singleton.mp hkv'] at hnumber
          exact BodyMutator.not_nonFinite_of_repeated hrepeated hnumber
    | _ => cases hsame
  · cases d <;> cases hbars
  · cases hbars

lemma mass_of_noneKept (h : DistinctKeys request)
    (hfinite : ∀ kv ∈ request.body.getD [], ¬NonFinite kv.2) :
    ¬BodyMutator.MassRepeated (request.body.getD []) := by
  intro hrepeated
  have hne : request.body.getD [] ≠ [] := by
    intro hnil
    have hfield := hrepeated ("isAdmin", .bool true) List.mem_cons_self
    rw [hnil] at hfield
    cases hfield
  have hc : .body (request.body.getD []) ∈ changes case request :=
    body_mem_changes.mpr ⟨hne, BodyMutator.body_mem_of_massRepeated h.body hrepeated⟩
  obtain ⟨d, hd, hfingerprint⟩ := exists_kept hc
  rcases alike_of_repeats hc (mem_of_mem_firsts hd) (fun _ => rfl) hfingerprint with
    hsame | hbars | hbars
  · cases d with
    | body o =>
      obtain ⟨-, ho⟩ := body_mem_changes.mp (mem_of_mem_firsts hd)
      rcases BodyMutator.kept_cases h.body ho hsame with ⟨rfl, -⟩ | ⟨kv, hkv, hnumber, -⟩
      · exact hnone _ hd fun _ => rfl
      · exact hfinite kv hkv hnumber
    | _ => cases hsame
  · cases d <;> cases hbars
  · cases hbars

end kept

/-- Before the first repeated field of the body, a number hides the repetition. -/
lemma body_not_kept (h : DistinctKeys request)
    (hbody : ∀ pre kv post, request.body.getD [] = pre ++ kv :: post →
      (∀ kv' ∈ pre, ¬NonFinite kv'.2) → ¬BodyMutator.Repeated kv)
    (hmass : (∀ kv ∈ request.body.getD [], ¬NonFinite kv.2) →
      ¬BodyMutator.MassRepeated (request.body.getD [])) {o : Obj}
    (hc : .body o ∈ firsts Change.fingerprint (changes case request)) :
    ¬Change.Repeats request (.body o) := by
  intro hrepeats
  obtain ⟨hne, ho⟩ := body_mem_changes.mp (mem_of_mem_firsts hc)
  have hhidden {pre post : Obj} {kv : Text × Value} (hsplit : request.body.getD [] = pre ++ post)
      (ho : o = request.body.getD []) (hkv : kv ∈ pre) (hnumber : NonFinite kv.2) :
      ∃ kv' ∈ pre, BodyMutator.Repeated kv' := by
    have hpre {kv : Text × Value} (hkv : kv ∈ pre) : kv ∈ request.body.getD [] := by
      rw [hsplit]
      exact List.mem_append_left _ hkv
    have hnulled : .body ((request.body.getD []).set kv.1 .null) ∈ changesUpTo case request pre :=
      body_mem_upTo.mpr ⟨kv, hkv, BodyMutator.nullEdit kv,
        List.mem_append_right _ (BodyMutator.nullEdit_mem hnumber), rfl⟩
    have hfingerprint := Change.fingerprint_of_bodyText
      (BodyMutator.nulled_mem h.body (hpre hkv) hnumber).2.symm
    rw [ho] at hc
    obtain ⟨kv', hkv', e, he, happly⟩ :=
      body_mem_upTo.mp (mem_upTo_of_kept hsplit hne hnulled hc hfingerprint)
    have hsame : ∀ k, (e.apply (request.body.getD [])).lookup k =
        (request.body.getD []).lookup k := by
      intro k
      rw [happly]
    exact ⟨kv', hkv', (BodyMutator.repeated_of_same h.body (hpre hkv') he hsame).2⟩
  have hfrom (hmem : ∃ kv ∈ request.body.getD [], ∃ e ∈ BodyMutator.edits kv,
      e.apply (request.body.getD []) = o) :
      o = request.body.getD [] ∧ ∃ kv ∈ request.body.getD [], BodyMutator.Repeated kv := by
    obtain ⟨kv, hkv, e, he, rfl⟩ := hmem
    obtain ⟨heq, hrepeated⟩ := BodyMutator.repeated_of_same h.body hkv he hrepeats
    exact ⟨heq, kv, hkv, hrepeated⟩
  have hmassed (ho : o = BodyMutator.massAssigned (request.body.getD [])) :
      o = request.body.getD [] ∧ BodyMutator.MassRepeated (request.body.getD []) := by
    have hrepeated : BodyMutator.MassRepeated (request.body.getD []) := by
      intro field hfield
      rw [← hrepeats, ho]
      exact (BodyMutator.massAssigns_massAssigned _).1 field hfield
    exact ⟨ho.trans (BodyMutator.massAssigned_of_repeated h.body hrepeated), hrepeated⟩
  have heq : o = request.body.getD [] := by
    rcases BodyMutator.mem_bodies.mp ho with hmem | hmass
    · exact (hfrom hmem).1
    · exact (hmassed hmass).1
  by_cases hfield : ∃ kv ∈ request.body.getD [], BodyMutator.Repeated kv
  · obtain ⟨pre, kv, post, hsplit, hrepeated, hfirst⟩ := exists_first hfield
    have hnumber : ∃ kv' ∈ pre, NonFinite kv'.2 := by
      by_contra hfinite
      push Not at hfinite
      exact hbody pre kv post hsplit hfinite hrepeated
    obtain ⟨kv', hkv', hnumber⟩ := hnumber
    obtain ⟨kv'', hkv'', hrepeated'⟩ := hhidden hsplit heq hkv' hnumber
    exact hfirst kv'' hkv'' hrepeated'
  · rcases BodyMutator.mem_bodies.mp ho with hmem | hmassed'
    · exact hfield (hfrom hmem).2
    · have hnumber : ∃ kv ∈ request.body.getD [], NonFinite kv.2 := by
        by_contra hfinite
        push Not at hfinite
        exact hmass hfinite (hmassed hmassed').2
      obtain ⟨kv, hkv, hnumber⟩ := hnumber
      exact hfield (hhidden (List.append_nil _).symm heq hkv hnumber)

lemma exists_spoof {header : String}
    (hheader : header ∈ ["X-Forwarded-For", "X-Original-IP", "X-Real-IP"]) :
    ∃ e ∈ HeaderMutator.spoofEdits, e.key = js header ∧ e.value = some localhost :=
  ⟨_, List.mem_map_of_mem hheader, rfl, rfl⟩

/-- What the engine returns are the kept mutations with their severities. -/
lemma mutates_iff_noneKept {copy : EngineCopy} {scored : List ScoredMutation}
    (hscored : mutate copy case request = .ok scored) :
    (∀ m ∈ scored, Mutates request m.toMutation) ↔ NoneKept case request := by
  unfold mutate at hscored
  obtain ⟨all, hall, -⟩ := returns_bind.mp ⟨scored, hscored⟩
  rw [hall, ok_bind] at hscored
  cases hscored
  have hkept := (carry_allMutations hall).deduplicate
  have hscores : (∀ m ∈ assignSeverity (deduplicate all), Mutates request m.toMutation) ↔
      ∀ m ∈ deduplicate all, Mutates request m.bare := by
    unfold assignSeverity
    rw [List.forall_mem_map]
    rfl
  rw [hscores]
  constructor
  · intro h c hc hrepeats
    obtain ⟨m, hm, heq⟩ := hkept.exists_mutation hc
    exact Change.mutates_iff.mp (heq ▸ h m hm) hrepeats
  · intro h m hm
    obtain ⟨c, hc, heq⟩ := hkept.exists_change hm
    rw [heq]
    exact Change.mutates_iff.mpr (h c hc)

/-- No repetition is kept exactly if nothing in the request is repeated. -/
lemma noneKept_iff (h : DistinctKeys request) :
    NoneKept case request ↔ NothingRepeated case request := by
  constructor
  · intro hnone
    refine ⟨?_, ?_, ?_, fun _ _ _ => body_of_noneKept hnone h, mass_of_noneKept hnone h, ?_, ?_, ?_⟩
    · intro kv hkv hrepeated
      obtain ⟨e, he, hsame⟩ := (exists_same_iff h.params fun _ => allName_params case).mpr
        ⟨kv, hkv, repeatedParam_iff.mpr hrepeated⟩
      exact params_of_noneKept hnone h (params_mem_changes.mpr ⟨e, he, rfl⟩) hsame
    · intro kv hkv hrepeated
      obtain ⟨e, he, hsame⟩ := (exists_same_iff h.headers fun _ => allName_headers case).mpr
        ⟨kv, hkv, repeatedHeader_iff.mpr hrepeated⟩
      exact headers_of_noneKept hnone h (headers_mem_changes.mpr
        ⟨List.ne_nil_of_mem hkv, e, List.mem_append_left _ he, rfl⟩) hsame
    · intro header hheader hlookup
      have hne : request.headers.getD [] ≠ [] := by
        intro hnil
        rw [hnil] at hlookup
        cases hlookup
      obtain ⟨e, he, hkey, hvalue⟩ := exists_spoof hheader
      have hsame : e.value = (request.headers.getD []).lookup e.key := by rw [hvalue, hkey, hlookup]
      exact headers_of_noneKept hnone h (headers_mem_changes.mpr
        ⟨hne, e, List.mem_append_right _ he, rfl⟩) (same_of_value hsame)
    · intro htrim
      have hnot (hmem : request.method.getD [] ∈
          MethodMutator.methodTexts case (request.method.getD [])) : False :=
        method_of_noneKept hnone (method_mem_changes.mpr ⟨htrim, hmem⟩) rfl
      exact ⟨fun hmem => hnot (List.mem_append_left _ (List.mem_append_right _ hmem)),
        fun hmem => hnot (List.mem_append_right _ hmem)⟩
    · intro htrim hlookup
      exact override_of_noneKept hnone (override_mem_changes.mpr ⟨htrim, rfl⟩) ⟨rfl, hlookup⟩
    · intro htrim
      by_contra hnot
      rw [not_or, ← self_not_mem_pathTexts_iff, not_not] at hnot
      obtain ⟨t, ht, hbars⟩ :=
        path_of_noneKept hnone (path_mem_changes.mpr ⟨htrim, hnot.1⟩) rfl
      obtain ⟨hmethod, ht⟩ := method_mem_changes.mp ht
      rcases bars_cases hbars with ⟨-, hnil⟩ | ⟨s, rfl, hpath⟩
      · exact ne_nil_of_trim htrim hnil
      · exact hnot.2 ⟨hmethod, s, hpath, mem_caseVariants_of_bar ht⟩
  · intro hnothing c hc hrepeats
    have hmem := mem_of_mem_firsts hc
    cases c with
    | params o =>
      obtain ⟨e, he, rfl⟩ := params_mem_changes.mp hmem
      obtain ⟨kv, hkv, hedit⟩ :=
        (exists_same_iff h.params fun _ => allName_params case).mp ⟨e, he, hrepeats⟩
      exact hnothing.params kv hkv (repeatedParam_iff.mp hedit)
    | headers o =>
      obtain ⟨-, e, he, rfl⟩ := headers_mem_changes.mp hmem
      rcases List.mem_append.mp he with he | he
      · obtain ⟨kv, hkv, hedit⟩ :=
          (exists_same_iff h.headers fun _ => allName_headers case).mp ⟨e, he, hrepeats⟩
        exact hnothing.headers kv hkv (repeatedHeader_iff.mp hedit)
      · have hvalue := value_of_same hrepeats
        obtain ⟨header, hheader, rfl⟩ := List.mem_map.mp he
        exact hnothing.spoofs header hheader hvalue.symm
    | body o => exact body_not_kept h hnothing.body hnothing.massAssignment hc hrepeats
    | method t =>
      have heq : t = request.method.getD [] := hrepeats
      obtain ⟨htrim, ht⟩ := method_mem_changes.mp hmem
      obtain ⟨hvariants, hgarbage⟩ := hnothing.method htrim
      rw [heq] at ht
      unfold MethodMutator.methodTexts MethodMutator.switchedMethods at ht
      simp only [List.mem_append] at ht
      rcases ht with (ht | ht) | ht
      · exact of_decide_eq_true (List.mem_filter.mp ht).2 rfl
      · exact hvariants ht
      · exact hgarbage ht
    | override t =>
      obtain ⟨htrim, -⟩ := override_mem_changes.mp hmem
      exact hnothing.override htrim hrepeats.2
    | path t =>
      have heq : t = request.path.getD [] := hrepeats
      obtain ⟨htrim, ht⟩ := path_mem_changes.mp hmem
      rcases hnothing.path htrim with hchanges | ⟨hmethod, s, hpath, hs⟩
      · rw [heq] at ht
        exact self_not_mem_pathTexts_iff.mpr hchanges ht
      · -- the method with the same bars comes first
        have hbars : Change.Bars (.method (unit '|' :: s)) (.path t) := by
          rw [heq, hpath]
          rfl
        have hfirst : .method (unit '|' :: s) ∈ changes case request :=
          method_mem_changes.mpr ⟨hmethod, List.mem_append_left _ (List.mem_append_right _ hs)⟩
        rw [changes_eq] at hc
        have hbefore := mem_firsts_left hc (mem_before_of_method hfirst)
          (Change.fingerprint_of_bars hbars).symm
        exact path_not_mem_before (mem_of_mem_firsts hbefore)

end requests

/-- All mutations that the engine returns mutate the request exactly if nothing in the request is
what a strategy puts in its place. -/
theorem mutations_mutate_iff {copy : EngineCopy} {case : CaseMap} {request : MutationRequest}
    {scored : List ScoredMutation} (hkeys : DistinctKeys request)
    (hscored : mutate copy case request = .ok scored) :
    (∀ m ∈ scored, Mutates request m.toMutation) ↔ NothingRepeated case request := by
  rw [← noneKept_iff hkeys]
  exact mutates_iff_noneKept hscored

/-- A request for one user. -/
def userRequest (id : String) : MutationRequest where
  method := some (js "GET")
  path := some (js "/users/7")
  params := some [(js "id", .str (js id))]

lemma mutate_userRequest (id : String) :
    ∃ scored, mutate .bundled asciiCase (userRequest id) = .ok scored := by
  obtain ⟨all, hall⟩ : ∃ all, allMutations .bundled asciiCase (userRequest id) = .ok all :=
    allMutations_returns (textValued_cons textValued_nil) nofun nofun
  unfold mutate
  rw [hall]
  exact ⟨_, rfl⟩

lemma distinctKeys_userRequest (id : String) : DistinctKeys (userRequest id) :=
  ⟨List.nodup_singleton _, List.nodup_nil, List.nodup_nil⟩

lemma pathChanges_user : PathChanges asciiCase (js "/users/7") := by
  refine ⟨?_, ?_, by decide +kernel, by decide⟩
  · intro pre run post hlast
    have hrun : (digitRuns [] (js "/users/7")).getLast? = some (js "7") := by decide
    rw [getLast?_digitRuns hlast] at hrun
    rw [Option.some.inj hrun]
    decide +kernel
  · intro pre digits post hlast
    have hnone : (versionTokens [] (js "/users/7")).getLast? = none := by decide
    rw [getLast?_versionTokens hlast] at hnone
    cases hnone

/-- The seventh user is none of the candidates. -/
theorem mutations_mutate_seventh_user : ∃ scored,
    mutate .bundled asciiCase (userRequest "7") = .ok scored ∧
      ∀ m ∈ scored, Mutates (userRequest "7") m.toMutation := by
  obtain ⟨scored, hscored⟩ := mutate_userRequest "7"
  refine ⟨scored, hscored,
    (mutations_mutate_iff (distinctKeys_userRequest "7") hscored).mpr ?_⟩
  have hparam : ∀ t ∈ idTexts (.str (js "7")) ++
      (ParameterMutator.specialChars (asciiCase.lower (js "id"))).map js ++ nullTexts,
      t ≠ js "7" := by
    decide +kernel
  refine ⟨?_, nofun, nofun, ?_, ?_, fun _ => ?_, nofun, fun _ => Or.inl pathChanges_user⟩
  · intro kv hkv
    rw [List.mem_singleton.mp hkv]
    rintro ⟨t, ht, heq⟩
    exact hparam t ht (Value.str.inj heq).symm
  · intro pre kv post hsplit
    cases pre <;> cases hsplit
  · intro _ hrepeated
    cases hrepeated ("isAdmin", .bool true) List.mem_cons_self
  · decide

/-- For the first user one of the candidates is the user itself. -/
theorem mutation_repeats_first_user : ∃ scored,
    mutate .bundled asciiCase (userRequest "1") = .ok scored ∧
      ∃ m ∈ scored, ¬Mutates (userRequest "1") m.toMutation := by
  obtain ⟨scored, hscored⟩ := mutate_userRequest "1"
  refine ⟨scored, hscored, ?_⟩
  by_contra hall
  push Not at hall
  have hnone := (mutates_iff_noneKept hscored).mp hall
  have hnothing := (noneKept_iff (distinctKeys_userRequest "1")).mp hnone
  have hone : js "1" ∈ idTexts (.str (js "1")) := by decide +kernel
  refine hnothing.params (js "id", .str (js "1")) (List.mem_singleton_self _) ⟨js "1", ?_, rfl⟩
  exact List.mem_append_left _ (List.mem_append_left _ hone)

end SecurityScanner

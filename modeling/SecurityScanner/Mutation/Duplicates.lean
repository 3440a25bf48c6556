import SecurityScanner.Mutation.Kept
import SecurityScanner.Mutation.PathTexts

/-!
# What deduplication drops

A dropped mutation should be a duplicate of a kept one. It is unless the request makes two
fingerprints meet: by two components that a mutation empties, by a method and a path with bars,
or by a number in the body that JSON cannot write.
-/

namespace SecurityScanner

open JavaScript Edit MutationEngine FirstWins

section properties

/-- The same component with the same values, or none. -/
def SameMap : Option Obj → Option Obj → Prop
  | some o, some o' => ∀ k, o.lookup k = o'.lookup k
  | none, none => True
  | _, _ => False

/-- The mutations carry the same components with the same values. -/
def SameComponents (m m' : Mutation) : Prop :=
  m.method = m'.method ∧ m.path = m'.path ∧ SameMap m.params m'.params ∧
    SameMap m.headers m'.headers ∧ SameMap m.body m'.body

/-- A mutation that is dropped has the same components as an earlier one that is kept, and no
two kept ones have the same. -/
def DropsOnlyDuplicates (all : List Mutation) : Prop :=
  (∀ pre m post, all = pre ++ m :: post → deduplicate (pre ++ [m]) = deduplicate pre →
      ∃ kept ∈ deduplicate pre, SameComponents kept m) ∧
    (deduplicate all).Pairwise fun m m' => ¬SameComponents m m'

inductive Component where
  | params | headers | body | method | path
  deriving DecidableEq, Repr

/-- A mutation leaves the component empty. -/
def Emptied (case : CaseMap) (request : MutationRequest) : Component → Prop
  | .params => ∃ kv, request.params.getD [] = [kv]
  | .headers => ∃ kv, request.headers.getD [] = [kv]
  | .body => ∃ kv, request.body.getD [] = [kv]
  | .method => trim (request.method.getD []) ≠ []
  | .path => trim (request.path.getD []) ≠ [] ∧
    ∃ s ∈ switchedSegments (request.path.getD []),
      replace (request.path.getD []) s (case.upper s) = []

/-- The fingerprints tell the mutations of the request apart. -/
structure TellsApart (case : CaseMap) (request : MutationRequest) : Prop where
  emptied : ∀ c d, Emptied case request c → Emptied case request d → c = d
  bars : trim (request.method.getD []) ≠ [] → trim (request.path.getD []) ≠ [] →
    ∀ t, unit '|' :: t ∈ MethodMutator.caseVariants case (request.method.getD []) →
      t ++ js "|" ∉ PathMutator.pathTexts case (request.path.getD [])
  body : BodyMutator.BodiesApart (request.body.getD [])

end properties

section components

lemma SameMap.refl : ∀ o, SameMap o o
  | some _ => fun _ => rfl
  | none => trivial

lemma SameMap.symm {o o' : Option Obj} (h : SameMap o o') : SameMap o' o := by
  cases o with
  | none => cases o' with
    | none => trivial
    | some o' => cases h
  | some o => cases o' with
    | none => cases h
    | some o' => exact fun k => (h k).symm

lemma SameMap.trans {o o' o'' : Option Obj} (h : SameMap o o') (h' : SameMap o' o'') :
    SameMap o o'' := by
  cases o with
  | none => cases o' with
    | none => exact h'
    | some o' => cases h
  | some o => cases o' with
    | none => cases h
    | some o' => cases o'' with
      | none => cases h'
      | some o'' => exact fun k => (h k).trans (h' k)

lemma equivalence_sameComponents : Equivalence SameComponents where
  refl _ := ⟨rfl, rfl, .refl _, .refl _, .refl _⟩
  symm := fun ⟨hm, hp, hps, hhs, hb⟩ => ⟨hm.symm, hp.symm, hps.symm, hhs.symm, hb.symm⟩
  trans := fun ⟨hm, hp, hps, hhs, hb⟩ ⟨hm', hp', hps', hhs', hb'⟩ =>
    ⟨hm.trans hm', hp.trans hp', hps.trans hps', hhs.trans hhs', hb.trans hb'⟩

namespace Change

/-- The same component with the same value. -/
def SameValues : Change → Change → Prop
  | params o, params o' | headers o, headers o' | body o, body o' =>
    ∀ k, o.lookup k = o'.lookup k
  | method t, method t' | override t, override t' | path t, path t' => t = t'
  | _, _ => False

def component : Change → Component
  | params _ => .params
  | headers _ => .headers
  | body _ => .body
  | method _ | override _ => .method
  | path _ => .path

variable {c d : Change}

lemma sameComponents_iff : SameComponents c.mutation d.mutation ↔ SameValues c d := by
  cases c <;> cases d <;> simp [SameComponents, SameMap, SameValues, mutation]

lemma SameValues.refl : ∀ c, SameValues c c
  | params _ | headers _ | body _ => fun _ => rfl
  | method _ | override _ | path _ => rfl

lemma SameValues.component_eq (h : SameValues c d) : c.component = d.component := by
  cases c <;> cases d <;> first | rfl | cases h

lemma eq_of_blank (hc : c.Blank) (hd : d.Blank) (h : c.component = d.component) : c = d := by
  cases c <;> cases d <;> simp_all [Blank, component]

end Change

end components

section emptying

variable {o : Obj} {e : Edit} {kv : Text × Value}

lemma value_of_nil (h : e.apply o = []) : e.value = none := by
  have hlookup := lookup_apply e o e.key
  rw [h, if_pos rfl] at hlookup
  exact hlookup.symm

lemma apply_singleton (hkey : e.key = kv.1) (hv : e.value = none) : e.apply [kv] = [] := by
  unfold Edit.apply Obj.delete
  rw [hv, hkey]
  exact List.filter_cons_of_neg (by simp)

/-- Only the last key can be taken away from an object so that nothing is left. -/
lemma eq_singleton_of_nil (hd : o.Distinct) (hkv : kv ∈ o) (hkey : e.key = kv.1)
    (h : e.apply o = []) : o = [kv] := by
  have hall : ∀ f ∈ o, f = kv := by
    intro f hf
    have hdelete : o.delete e.key = [] := by
      rw [← h]
      unfold Edit.apply
      rw [value_of_nil h]
    have hsame := List.filter_eq_nil_iff.mp hdelete f hf
    apply Obj.eq_of_key hd hf hkv
    rw [← hkey]
    simpa using hsame
  have hnodup : o.Nodup := List.Nodup.of_map Prod.fst hd
  cases o with
  | nil => cases hkv
  | cons f fields =>
    rw [hall f List.mem_cons_self]
    congr 1
    apply List.eq_nil_iff_forall_not_mem.mpr
    intro g hg
    apply (List.nodup_cons.mp hnodup).1
    rwa [hall f List.mem_cons_self, ← hall g (List.mem_cons_of_mem f hg)]

/-- The mutators of an object empty it when it has one key. -/
lemma nil_iff_singleton {edits : Text × Value → List Edit} (hd : o.Distinct)
    (hname : ∀ kv, AllName kv.1 (edits kv))
    (hremove : ∀ kv, ∃ e ∈ edits kv, e.value = none) :
    (∃ e ∈ o.flatMap edits, e.apply o = []) ↔ ∃ kv, o = [kv] := by
  constructor
  · rintro ⟨e, he, hnil⟩
    obtain ⟨kv, hkv, he⟩ := List.mem_flatMap.mp he
    exact ⟨kv, eq_singleton_of_nil hd hkv (hname kv e he).key_eq hnil⟩
  · rintro ⟨kv, rfl⟩
    obtain ⟨e, he, hv⟩ := hremove kv
    refine ⟨e, List.mem_flatMap.mpr ⟨kv, List.mem_cons_self, he⟩, ?_⟩
    exact apply_singleton (hname kv e he).key_eq hv

end emptying

section requests

variable {case : CaseMap} {request : MutationRequest}

lemma nil_params_iff (h : DistinctKeys request) :
    Change.params [] ∈ changes case request ↔ Emptied case request .params := by
  rw [params_mem_changes]
  apply nil_iff_singleton h.params fun _ => allName_params case
  exact fun kv => ⟨{ strategy := "remove_param:", key := kv.1 },
    by simp [ParameterMutator.edits], rfl⟩

lemma nil_headers_iff (h : DistinctKeys request) :
    Change.headers [] ∈ changes case request ↔ Emptied case request .headers := by
  have hremove (kv : Text × Value) : ∃ e ∈ HeaderMutator.edits case kv, e.value = none :=
    ⟨{ strategy := "remove_header:", key := kv.1 }, by simp [HeaderMutator.edits], rfl⟩
  have hsingle := nil_iff_singleton h.headers (fun _ => allName_headers case) hremove
  rw [headers_mem_changes]
  constructor
  · rintro ⟨-, e, he, hnil⟩
    rcases List.mem_append.mp he with he | he
    · exact hsingle.mp ⟨e, he, hnil⟩
    · obtain ⟨k, -, rfl⟩ := List.mem_map.mp he
      cases value_of_nil hnil
  · rintro ⟨kv, hkv⟩
    obtain ⟨e, he, hnil⟩ := hsingle.mpr ⟨kv, hkv⟩
    refine ⟨?_, e, List.mem_append_left _ he, hnil⟩
    rw [hkv]
    exact List.cons_ne_nil _ _

lemma nil_body_iff (h : DistinctKeys request) :
    Change.body [] ∈ changes case request ↔ Emptied case request .body := by
  have hremove (kv : Text × Value) : ∃ e ∈ BodyMutator.edits kv, e.value = none :=
    ⟨{ strategy := "remove_field:", key := kv.1 },
      by simp [BodyMutator.edits, BodyMutator.textEdits], rfl⟩
  have hsingle := nil_iff_singleton h.body (fun _ => allName_body) hremove
  rw [body_mem_changes, BodyMutator.mem_bodies]
  constructor
  · rintro ⟨-, ⟨kv, hkv, e, he, hnil⟩ | hmass⟩
    · exact hsingle.mp ⟨e, List.mem_flatMap.mpr ⟨kv, hkv, he⟩, hnil⟩
    · have hfield := (BodyMutator.massAssigns_massAssigned (request.body.getD [])).1
        ("isAdmin", .bool true) List.mem_cons_self
      rw [← hmass] at hfield
      cases hfield
  · rintro ⟨kv, hkv⟩
    obtain ⟨e, he, hnil⟩ := hsingle.mpr ⟨kv, hkv⟩
    obtain ⟨kv', hkv', he⟩ := List.mem_flatMap.mp he
    refine ⟨?_, Or.inl ⟨kv', hkv', e, he, hnil⟩⟩
    rw [hkv]
    exact List.cons_ne_nil _ _

lemma nil_method_iff : Change.method [] ∈ changes case request ↔ Emptied case request .method := by
  have hgarbage (t : Text) : [] ∈ MethodMutator.methodTexts case t := by
    apply List.mem_append_right
    decide
  rw [method_mem_changes]
  exact and_iff_left (hgarbage _)

lemma nil_path_iff : Change.path [] ∈ changes case request ↔ Emptied case request .path := by
  rw [path_mem_changes]
  unfold Emptied
  constructor
  · rintro ⟨hpath, hnil⟩
    exact ⟨hpath, (nil_mem_pathTexts_iff (ne_nil_of_trim hpath)).mp hnil⟩
  · rintro ⟨hpath, hsegment⟩
    exact ⟨hpath, (nil_mem_pathTexts_iff (ne_nil_of_trim hpath)).mpr hsegment⟩

/-- A blank change empties its component. -/
lemma emptied_of_blank (h : DistinctKeys request) {c : Change} (hc : c ∈ changes case request)
    (hblank : c.Blank) : Emptied case request c.component := by
  cases c with
  | params o =>
    cases hblank
    exact (nil_params_iff h).mp hc
  | headers o =>
    cases hblank
    exact (nil_headers_iff h).mp hc
  | body o =>
    cases hblank
    exact (nil_body_iff h).mp hc
  | method t =>
    cases hblank
    exact nil_method_iff.mp hc
  | override t => cases hblank
  | path t =>
    cases hblank
    exact nil_path_iff.mp hc

lemma exists_blank (h : DistinctKeys request) {x : Component} (hx : Emptied case request x) :
    ∃ c ∈ changes case request, c.Blank ∧ c.component = x := by
  cases x with
  | params => exact ⟨_, (nil_params_iff h).mpr hx, rfl, rfl⟩
  | headers => exact ⟨_, (nil_headers_iff h).mpr hx, rfl, rfl⟩
  | body => exact ⟨_, (nil_body_iff h).mpr hx, rfl, rfl⟩
  | method => exact ⟨_, nil_method_iff.mpr hx, rfl, rfl⟩
  | path => exact ⟨_, nil_path_iff.mpr hx, rfl, rfl⟩

/-- Changes of a request with the same values are the same. -/
lemma eq_of_sameValues (h : DistinctKeys request) {c d : Change} (hc : c ∈ changes case request)
    (hd : d ∈ changes case request) (hsame : c.SameValues d) : c = d := by
  cases c with
  | params o =>
    cases d with
    | params o' =>
      obtain ⟨e, -, rfl⟩ := params_mem_changes.mp hc
      obtain ⟨e', -, rfl⟩ := params_mem_changes.mp hd
      rw [apply_eq_of_lookup h.params hsame]
    | _ => cases hsame
  | headers o =>
    cases d with
    | headers o' =>
      obtain ⟨-, e, -, rfl⟩ := headers_mem_changes.mp hc
      obtain ⟨-, e', -, rfl⟩ := headers_mem_changes.mp hd
      rw [apply_eq_of_lookup h.headers hsame]
    | _ => cases hsame
  | body o =>
    cases d with
    | body o' =>
      obtain ⟨-, ho⟩ := body_mem_changes.mp hc
      obtain ⟨-, ho'⟩ := body_mem_changes.mp hd
      rw [BodyMutator.eq_of_same_values h.body ho ho' hsame]
    | _ => cases hsame
  | method t =>
    cases d with
    | method t' => exact congrArg Change.method hsame
    | _ => cases hsame
  | override t =>
    cases d with
    | override t' => exact congrArg Change.override hsame
    | _ => cases hsame
  | path t =>
    cases d with
    | path t' => exact congrArg Change.path hsame
    | _ => cases hsame

/-- Where the bodies stay apart, the same component with the same text has the same value. -/
lemma eq_of_sameText_changes (h : DistinctKeys request)
    (hbody : BodyMutator.BodiesApart (request.body.getD [])) {c d : Change}
    (hc : c ∈ changes case request) (hd : d ∈ changes case request) (hsame : c.SameText d) :
    c = d := by
  cases c with
  | params o =>
    cases d with
    | params o' =>
      obtain ⟨e, he, rfl⟩ := params_mem_changes.mp hc
      obtain ⟨e', he', rfl⟩ := params_mem_changes.mp hd
      rw [apply_eq_of_text h.params (setsText_of_params he) (setsText_of_params he') hsame]
    | _ => cases hsame
  | headers o =>
    cases d with
    | headers o' =>
      obtain ⟨-, e, he, rfl⟩ := headers_mem_changes.mp hc
      obtain ⟨-, e', he', rfl⟩ := headers_mem_changes.mp hd
      rw [apply_eq_of_text h.headers (setsText_of_headers he) (setsText_of_headers he') hsame]
    | _ => cases hsame
  | body o =>
    cases d with
    | body o' =>
      obtain ⟨-, ho⟩ := body_mem_changes.mp hc
      obtain ⟨-, ho'⟩ := body_mem_changes.mp hd
      rw [(BodyMutator.bodies_apart_iff h.body).mpr hbody o ho o' ho' hsame]
    | _ => cases hsame
  | method t =>
    cases d with
    | method t' => exact congrArg Change.method hsame
    | _ => cases hsame
  | override t =>
    cases d with
    | override t' => exact congrArg Change.override hsame
    | _ => cases hsame
  | path t =>
    cases d with
    | path t' => exact congrArg Change.path hsame
    | _ => cases hsame

/-- When the fingerprints tell the changes apart. -/
lemma tellsApart_iff (h : DistinctKeys request) :
    (∀ c ∈ changes case request, ∀ d ∈ changes case request, c.fingerprint = d.fingerprint →
      c.SameValues d) ↔ TellsApart case request := by
  constructor
  · intro happart
    refine ⟨?_, ?_, ?_⟩
    · intro x y hx hy
      obtain ⟨c, hc, hblank, rfl⟩ := exists_blank h hx
      obtain ⟨d, hd, hblank', rfl⟩ := exists_blank h hy
      apply Change.SameValues.component_eq
      apply happart c hc d hd
      rw [Change.fingerprint_of_blank hblank, Change.fingerprint_of_blank hblank']
    · intro hmethod hpath t ht hp
      have hc : Change.method (unit '|' :: t) ∈ changes case request :=
        method_mem_changes.mpr ⟨hmethod, List.mem_append_left _ (List.mem_append_right _ ht)⟩
      have hd : Change.path (t ++ js "|") ∈ changes case request :=
        path_mem_changes.mpr ⟨hpath, hp⟩
      exact happart _ hc _ hd (Change.fingerprint_of_bars rfl)
    · by_cases hnil : request.body.getD [] = []
      · rw [hnil]
        rintro kv ⟨⟩
      · apply (BodyMutator.bodies_apart_iff h.body).mp
        intro o ho o' ho' htext
        apply BodyMutator.eq_of_same_values h.body ho ho'
        exact happart _ (body_mem_changes.mpr ⟨hnil, ho⟩) _ (body_mem_changes.mpr ⟨hnil, ho'⟩)
          (Change.fingerprint_of_bodyText htext)
  · intro happart c hc d hd hfingerprint
    have hbars {t p : Text} (ht : .method t ∈ changes case request)
        (hp : .path p ∈ changes case request) : ¬Change.Bars (.method t) (.path p) := by
      intro hbars
      obtain ⟨hmethod, ht⟩ := method_mem_changes.mp ht
      obtain ⟨hpath, hp'⟩ := path_mem_changes.mp hp
      rcases bars_cases hbars with ⟨-, rfl⟩ | ⟨s, rfl, rfl⟩
      · cases happart.emptied .method .path hmethod (nil_path_iff.mp hp)
      · exact happart.bars hmethod hpath s (mem_caseVariants_of_bar ht) hp'
    rcases Change.alike_of_fingerprint (live_of_mem hc) (live_of_mem hd) hfingerprint with
      hsame | ⟨hblank, hblank'⟩ | hbar | hbar
    · rw [eq_of_sameText_changes h happart.body hc hd hsame]
      exact Change.SameValues.refl d
    · have hcomponent := happart.emptied _ _ (emptied_of_blank h hc hblank)
        (emptied_of_blank h hd hblank')
      rw [Change.eq_of_blank hblank hblank' hcomponent]
      exact Change.SameValues.refl d
    · cases c with
      | method t =>
        cases d with
        | path p => exact absurd hbar (hbars hc hd)
        | _ => cases hbar
      | _ => cases hbar
    · cases d with
      | method t =>
        cases c with
        | path p => exact absurd hbar (hbars hd hc)
        | _ => cases hbar
      | _ => cases hbar

/-- What is dropped is a duplicate exactly if changes with the same fingerprint carry the same. -/
lemma dropsOnlyDuplicates_iff {copy : EngineCopy} {all : List Mutation} (h : DistinctKeys request)
    (hall : allMutations copy case request = .ok all) :
    DropsOnlyDuplicates all ↔ ∀ c ∈ changes case request, ∀ d ∈ changes case request,
      c.fingerprint = d.fingerprint → c.SameValues d := by
  have hcarry := carry_allMutations hall
  have hfingerprint {m : Mutation} {c : Change} (h : m.bare = c.mutation) :
      generateFingerprint m = c.fingerprint := by
    rw [generateFingerprint_bare, h]
    rfl
  have hsame {m m' : Mutation} {c d : Change} (h : m.bare = c.mutation)
      (h' : m'.bare = d.mutation) : SameComponents m m' ↔ c.SameValues d := by
    rw [← Change.sameComponents_iff, ← h, ← h']
    rfl
  have hrelated : ∀ m ∈ all, ∀ m' ∈ all, SameComponents m m' →
      generateFingerprint m = generateFingerprint m' := by
    intro m hm m' hm' hcomponents
    obtain ⟨c, hc, heq⟩ := hcarry.exists_change hm
    obtain ⟨d, hd, heq'⟩ := hcarry.exists_change hm'
    rw [hfingerprint heq, hfingerprint heq',
      eq_of_sameValues h hc hd ((hsame heq heq').mp hcomponents)]
  unfold DropsOnlyDuplicates
  simp only [deduplicate_eq]
  rw [drops_related_iff equivalence_sameComponents hrelated]
  constructor
  · intro h c hc d hd htext
    obtain ⟨m, hm, heq⟩ := hcarry.exists_mutation hc
    obtain ⟨m', hm', heq'⟩ := hcarry.exists_mutation hd
    apply (hsame heq heq').mp
    apply h m hm m' hm'
    rw [hfingerprint heq, hfingerprint heq', htext]
  · intro h m hm m' hm' htext
    obtain ⟨c, hc, heq⟩ := hcarry.exists_change hm
    obtain ⟨d, hd, heq'⟩ := hcarry.exists_change hm'
    rw [hfingerprint heq, hfingerprint heq'] at htext
    exact (hsame heq heq').mpr (h c hc d hd htext)

end requests

/-- Deduplication drops only duplicates exactly for the requests whose mutations the
fingerprints tell apart. -/
theorem drops_only_duplicates_iff {copy : EngineCopy} {case : CaseMap} {request : MutationRequest}
    {all : List Mutation} (hkeys : DistinctKeys request)
    (hall : allMutations copy case request = .ok all) :
    DropsOnlyDuplicates all ↔ TellsApart case request := by
  rw [dropsOnlyDuplicates_iff hkeys hall, tellsApart_iff hkeys]

/-- A search with two parameters. -/
def searchRequest : MutationRequest where
  params := some [(js "id", .str (js "7")), (js "sort", .str (js "name"))]

lemma emptied_searchRequest (c : Component) : ¬Emptied asciiCase searchRequest c := by
  intro h
  cases c with
  | params =>
    obtain ⟨kv, hkv⟩ := h
    cases hkv
  | headers =>
    obtain ⟨kv, hkv⟩ := h
    cases hkv
  | body =>
    obtain ⟨kv, hkv⟩ := h
    cases hkv
  | method => exact h rfl
  | path => exact h.1 rfl

/-- No component of the search can be emptied. -/
theorem drops_only_duplicates_of_search :
    ∃ all, allMutations .bundled asciiCase searchRequest = .ok all ∧ DropsOnlyDuplicates all := by
  have htexts : TextValued (searchRequest.params.getD []) := by
    rintro kv (_ | ⟨_, _ | ⟨_, hkv⟩⟩)
    · exact ⟨_, rfl⟩
    · exact ⟨_, rfl⟩
    · cases hkv
  have hkeys : DistinctKeys searchRequest := by
    refine ⟨?_, List.nodup_nil, List.nodup_nil⟩
    change [js "id", js "sort"].Nodup
    decide
  have hapart : TellsApart asciiCase searchRequest := by
    refine ⟨fun c d hc => absurd hc (emptied_searchRequest c), fun h => absurd rfl h, ?_⟩
    rintro kv ⟨⟩
  obtain ⟨all, hall⟩ : ∃ all, allMutations .bundled asciiCase searchRequest = .ok all :=
    allMutations_returns htexts nofun nofun
  exact ⟨all, hall, (drops_only_duplicates_iff hkeys hall).mpr hapart⟩

/-- A request with one parameter and one header. -/
def singleRequest : MutationRequest where
  params := some [(js "id", .str (js "7"))]
  headers := some [(js "Accept", .str (js "*/*"))]

/-- The mutation without the header is dropped in favour of that without the parameter. -/
theorem drops_another_mutation :
    ∃ all, allMutations .bundled asciiCase singleRequest = .ok all ∧ ¬DropsOnlyDuplicates all := by
  have hkeys : DistinctKeys singleRequest :=
    ⟨List.nodup_singleton _, List.nodup_singleton _, List.nodup_nil⟩
  obtain ⟨all, hall⟩ : ∃ all, allMutations .bundled asciiCase singleRequest = .ok all :=
    allMutations_returns (textValued_cons textValued_nil) (textValued_cons textValued_nil) nofun
  refine ⟨all, hall, fun h => ?_⟩
  have hparams : Change.params [] ∈ changes asciiCase singleRequest :=
    (nil_params_iff hkeys).mpr ⟨_, rfl⟩
  have hheaders : Change.headers [] ∈ changes asciiCase singleRequest :=
    (nil_headers_iff hkeys).mpr ⟨_, rfl⟩
  exact (dropsOnlyDuplicates_iff hkeys hall).mp h _ hparams _ hheaders rfl

end SecurityScanner

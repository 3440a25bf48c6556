import SecurityScanner.Lib.FirstWins
import SecurityScanner.Mutation.BodyTexts

/-!
# Which mutations are kept

`_deduplicate` keeps the first mutation of each fingerprint. What it keeps carries the first
changes of their fingerprints.
-/

namespace SecurityScanner

open JavaScript Edit Fallible MutationEngine FirstWins

section deduplication

lemma deduplicateFrom_eq (seen : List Text) (ms : List Mutation) :
    deduplicateFrom seen ms =
      (firsts generateFingerprint ms).filter (generateFingerprint · ∉ seen) := by
  induction ms generalizing seen with
  | nil => rfl
  | cons m ms ih =>
    unfold deduplicateFrom firsts
    dsimp only
    by_cases hseen : generateFingerprint m ∈ seen
    · rw [if_pos hseen, ih, List.filter_cons_of_neg (by simpa using hseen), List.filter_filter]
      apply List.filter_congr
      intro y _
      by_cases hy : generateFingerprint y = generateFingerprint m
      · simp [hy, hseen]
      · simp [hy]
    · rw [if_neg hseen, ih, List.filter_cons_of_pos (by simpa using hseen), List.filter_filter]
      congr 1
      apply List.filter_congr
      intro y _
      simp [Bool.and_comm]

lemma deduplicate_eq (ms : List Mutation) : deduplicate ms = firsts generateFingerprint ms := by
  unfold deduplicate
  rw [deduplicateFrom_eq]
  simp

lemma generateFingerprint_bare (m : Mutation) :
    generateFingerprint m = generateFingerprint m.bare := rfl

/-- The kept mutations carry the first changes of their fingerprints. -/
lemma Carry.deduplicate {ms : List Mutation} {cs : List Change} (h : Carry ms cs) :
    Carry (deduplicate ms) (firsts Change.fingerprint cs) := by
  unfold Carry at *
  rw [deduplicate_eq, ← firsts_map (fun m => (generateFingerprint_bare m).symm), h]
  exact firsts_map (fun c => rfl) cs

lemma Carry.exists_change {ms : List Mutation} {cs : List Change} (h : Carry ms cs) {m : Mutation}
    (hm : m ∈ ms) : ∃ c ∈ cs, m.bare = c.mutation := by
  have hmem : m.bare ∈ ms.map Mutation.bare := List.mem_map_of_mem hm
  rw [h] at hmem
  obtain ⟨c, hc, heq⟩ := List.mem_map.mp hmem
  exact ⟨c, hc, heq.symm⟩

lemma Carry.exists_mutation {ms : List Mutation} {cs : List Change} (h : Carry ms cs) {c : Change}
    (hc : c ∈ cs) : ∃ m ∈ ms, m.bare = c.mutation := by
  have hmem : c.mutation ∈ cs.map Change.mutation := List.mem_map_of_mem hc
  rw [← h] at hmem
  exact List.mem_map.mp hmem

end deduplication

section membership

variable {case : CaseMap} {request : MutationRequest} {o : Obj} {t : Text}

lemma params_mem_changes : Change.params o ∈ changes case request ↔
    ∃ e ∈ (request.params.getD []).flatMap (ParameterMutator.edits case),
      e.apply (request.params.getD []) = o := by
  simp [changes, paramChanges, headerChanges, bodyChanges, methodChanges, pathChanges]

lemma headers_mem_changes : Change.headers o ∈ changes case request ↔
    request.headers.getD [] ≠ [] ∧
      ∃ e ∈ (request.headers.getD []).flatMap (HeaderMutator.edits case) ++
        HeaderMutator.spoofEdits, e.apply (request.headers.getD []) = o := by
  simp [changes, paramChanges, headerChanges, bodyChanges, methodChanges, pathChanges,
    or_and_right, exists_or]

lemma body_mem_changes : Change.body o ∈ changes case request ↔
    request.body.getD [] ≠ [] ∧ o ∈ BodyMutator.bodies (request.body.getD []) := by
  simp [changes, paramChanges, headerChanges, bodyChanges, methodChanges, pathChanges]

lemma method_mem_changes : Change.method t ∈ changes case request ↔
    trim (request.method.getD []) ≠ [] ∧
      t ∈ MethodMutator.methodTexts case (request.method.getD []) := by
  simp [changes, paramChanges, headerChanges, bodyChanges, methodChanges, pathChanges]

lemma override_mem_changes : Change.override t ∈ changes case request ↔
    trim (request.method.getD []) ≠ [] ∧ t = request.method.getD [] := by
  simp [changes, paramChanges, headerChanges, bodyChanges, methodChanges, pathChanges]

lemma path_mem_changes : Change.path t ∈ changes case request ↔
    trim (request.path.getD []) ≠ [] ∧
      t ∈ PathMutator.pathTexts case (request.path.getD []) := by
  simp [changes, paramChanges, headerChanges, bodyChanges, methodChanges, pathChanges]

end membership

section requests

variable {case : CaseMap} {request : MutationRequest}

/-- The objects of the request have each key once. -/
structure DistinctKeys (request : MutationRequest) : Prop where
  params : (request.params.getD []).Distinct
  headers : (request.headers.getD []).Distinct
  body : (request.body.getD []).Distinct

lemma ne_nil_of_trim {t : Text} (h : trim t ≠ []) : t ≠ [] := by
  rintro rfl
  exact h rfl

lemma live_of_mem {c : Change} (hc : c ∈ changes case request) : c.Live := by
  cases c with
  | override t =>
    obtain ⟨htrim, rfl⟩ := override_mem_changes.mp hc
    exact ne_nil_of_trim htrim
  | _ => trivial

lemma setsText_of_params {e : Edit} {o : Obj}
    (he : e ∈ o.flatMap (ParameterMutator.edits case)) : SetsText e := by
  obtain ⟨kv, -, he⟩ := List.mem_flatMap.mp he
  exact setsText_params he

lemma setsText_of_headers {e : Edit} {o : Obj}
    (he : e ∈ o.flatMap (HeaderMutator.edits case) ++ HeaderMutator.spoofEdits) : SetsText e := by
  rcases List.mem_append.mp he with he | he
  · obtain ⟨kv, -, he⟩ := List.mem_flatMap.mp he
    exact setsText_headers he
  · exact setsText_spoof he

/-- Only a case variant of the method starts with a bar. -/
lemma mem_caseVariants_of_bar {t method : Text}
    (h : unit '|' :: t ∈ MethodMutator.methodTexts case method) :
    unit '|' :: t ∈ MethodMutator.caseVariants case method := by
  have hhead {texts : List Text} (htexts : ∀ u ∈ texts, u.head? ≠ some (unit '|')) :
      unit '|' :: t ∉ texts := fun hmem => htexts _ hmem rfl
  unfold MethodMutator.methodTexts MethodMutator.switchedMethods at h
  simp only [List.mem_append] at h
  rcases h with (h | h) | h
  · have hmem := List.mem_of_mem_filter h
    exact absurd hmem (hhead (by decide))
  · exact h
  · exact absurd h (hhead (by decide))

/-- The bars of a method and a path. -/
lemma bars_cases {t p : Text} (h : Change.Bars (.method t) (.path p)) :
    t = [] ∧ p = [] ∨ ∃ s, t = unit '|' :: s ∧ p = s ++ js "|" := by
  have hbars : t ++ js "|" = js "|" ++ p := h
  cases t with
  | nil =>
    have hnil : p = [] := List.append_right_eq_self.mp hbars.symm
    exact Or.inl ⟨rfl, hnil⟩
  | cons u s =>
    obtain ⟨rfl, hrest⟩ := List.cons.inj hbars
    exact Or.inr ⟨s, rfl, hrest.symm⟩

end requests

section returning

variable {case : CaseMap} {request : MutationRequest}

lemma ofObject_returns {mutator : Obj → Except JsError (List Mutation)}
    (h : ∀ {o}, TextValued o → Returns (mutator o)) {o : Option Obj} (ho : TextValued (o.getD [])) :
    Returns (ofObject mutator o) := by
  rcases o with _ | (_ | ⟨kv, kvs⟩)
  · exact returns_ok _
  · exact returns_ok _
  · exact h ho

/-- The mutators return for a request whose values are strings. -/
lemma allMutations_returns (hparams : TextValued (request.params.getD []))
    (hheaders : TextValued (request.headers.getD [])) (hbody : TextValued (request.body.getD [])) :
    ∃ all, allMutations .bundled case request = .ok all := by
  unfold allMutations
  obtain ⟨ps, hps⟩ := ofObject_returns (paramsReturn case) hparams
  obtain ⟨hs, hhs⟩ := ofObject_returns (headersReturn case) hheaders
  obtain ⟨bs, hbs⟩ := ofObject_returns bodyReturns hbody
  rw [hps, hhs, hbs]
  exact ⟨_, rfl⟩

end returning

end SecurityScanner

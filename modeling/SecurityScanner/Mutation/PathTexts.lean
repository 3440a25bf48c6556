import SecurityScanner.Lib.JsonText
import SecurityScanner.Mutation.Changes
import SecurityScanner.Mutation.PathRewrites

/-!
# The mutated paths

A mutated path has its id, its version or one of its segments replaced, its slashes doubled, or
a text behind it. It is the path itself when the replacement is what it replaces.
-/

namespace SecurityScanner

open JavaScript PathMutator

section texts

/-- How the path mutations make a path. -/
inductive PathText (case : CaseMap) (path : Text) : Text → Prop
  | id {pre run post : Text} {c : Float} : LastDigits path pre run post → c ∈ idCandidates run →
      PathText case path (replace path run (numberToText c))
  | version {pre digits post : Text} {c : Float} : LastVersion path pre digits post →
      c ∈ versionCandidates digits →
      PathText case path (replace path (vee :: digits) (vee :: numberToText c))
  | segment {s : Text} : s ∈ switchedSegments path →
      PathText case path (replace path s (case.upper s))
  | doubled : PathText case path (doubleSlashes path)
  | appended {t : Text} : t ≠ [] → PathText case path (path ++ t)

variable {case : CaseMap} {path p : Text}

lemma mem_pathTexts_iff : p ∈ pathTexts case path ↔
    ∃ m ∈ PathMutator.mutate case path, m.path.getD [] = p :=
  List.mem_map

lemma pathText_of_ids (h : some p ∈ (idEnumeration path).map (·.path)) : PathText case path p := by
  by_cases hdigit : ∃ u ∈ path, isDigit u = true
  · obtain ⟨pre, run, post, hlast⟩ := exists_lastDigits hdigit
    rw [idEnumeration_paths hlast] at h
    obtain ⟨c, hc, heq⟩ := List.mem_map.mp h
    rw [← Option.some.inj heq]
    exact .id hlast hc
  · have hnone : ∀ u ∈ path, isDigit u = false := by simpa using hdigit
    rw [idEnumeration_of_none hnone] at h
    cases h

lemma pathText_of_versions (h : some p ∈ (versionSwitching path).map (·.path)) :
    PathText case path p := by
  by_cases hversion : HasVersion path
  · obtain ⟨pre, digits, post, hlast⟩ := exists_lastVersion hversion
    rw [versionSwitching_paths hlast] at h
    obtain ⟨c, hc, heq⟩ := List.mem_map.mp h
    rw [← Option.some.inj heq]
    exact .version hlast hc
  · rw [versionSwitching_of_none hversion] at h
    cases h

lemma pathText_of_appending {strategy : String} {reason : Text → Text} {payloads : List String}
    (hpayloads : ∀ payload ∈ payloads, js payload ≠ []) {m : Mutation}
    (hm : m ∈ appending strategy reason payloads path) : PathText case path (m.path.getD []) := by
  obtain ⟨payload, hpayload, rfl⟩ := List.mem_map.mp hm
  exact .appended (hpayloads payload hpayload)

/-- Each mutated path is made in one of these ways. -/
lemma pathText_of_mem (h : p ∈ pathTexts case path) : PathText case path p := by
  obtain ⟨m, hm, rfl⟩ := mem_pathTexts_iff.mp h
  have hpath : m.path = some (m.path.getD []) := by
    obtain ⟨strategy, reason, p, rfl⟩ := mem_pathMutate hm
    rfl
  unfold PathMutator.mutate at hm
  simp only [List.mem_append] at hm
  rcases hm with (((((hid | hextension) | hjunk) | hcase) | hslash) | htraversal) | hversion
  · apply pathText_of_ids
    rw [← hpath]
    exact List.mem_map_of_mem hid
  · exact pathText_of_appending (by decide) hextension
  · exact pathText_of_appending (by decide) hjunk
  · obtain ⟨s, hs, rfl⟩ := List.mem_map.mp hcase
    exact .segment hs
  · rw [List.mem_singleton.mp hslash]
    exact .doubled
  · exact pathText_of_appending (by decide) htraversal
  · apply pathText_of_versions
    rw [← hpath]
    exact List.mem_map_of_mem hversion

lemma mem_pathTexts_of_path (h : some p ∈ (PathMutator.mutate case path).map (·.path)) :
    p ∈ pathTexts case path := by
  obtain ⟨m, hm, heq⟩ := List.mem_map.mp h
  exact mem_pathTexts_iff.mpr ⟨m, hm, congrArg (·.getD []) heq⟩

lemma mem_pathTexts_of_id {pre run post : Text} {c : Float} (h : LastDigits path pre run post)
    (hc : c ∈ idCandidates run) : replace path run (numberToText c) ∈ pathTexts case path := by
  apply mem_pathTexts_of_path
  unfold PathMutator.mutate
  have hids : some (replace path run (numberToText c)) ∈ (idEnumeration path).map (·.path) := by
    rw [idEnumeration_paths h]
    exact List.mem_map_of_mem hc
  simp only [List.map_append, List.mem_append, hids, true_or]

lemma mem_pathTexts_of_version {pre digits post : Text} {c : Float}
    (h : LastVersion path pre digits post) (hc : c ∈ versionCandidates digits) :
    replace path (vee :: digits) (vee :: numberToText c) ∈ pathTexts case path := by
  apply mem_pathTexts_of_path
  unfold PathMutator.mutate
  have hversions : some (replace path (vee :: digits) (vee :: numberToText c)) ∈
      (versionSwitching path).map (·.path) := by
    rw [versionSwitching_paths h]
    exact List.mem_map_of_mem hc
  simp only [List.map_append, List.mem_append, hversions, or_true]

lemma mem_pathTexts_of_segment {s : Text} (h : s ∈ switchedSegments path) :
    replace path s (case.upper s) ∈ pathTexts case path := by
  apply mem_pathTexts_of_path
  unfold PathMutator.mutate
  have hsegments : some (replace path s (case.upper s)) ∈
      (caseSwitching case path).map (·.path) := by
    rw [caseSwitching_eq, List.map_map]
    exact List.mem_map.mpr ⟨s, h, rfl⟩
  simp only [List.map_append, List.mem_append, hsegments, true_or, or_true]

lemma mem_pathTexts_of_doubled : doubleSlashes path ∈ pathTexts case path := by
  apply mem_pathTexts_of_path
  unfold PathMutator.mutate
  have hdoubled : some (doubleSlashes path) ∈ (doubleSlashing path).map (·.path) :=
    List.mem_singleton_self _
  simp only [List.map_append, List.mem_append, hdoubled, true_or, or_true]

end texts

section lengths

variable {case : CaseMap} {path : Text}

lemma dollar_not_mem_numberToText (c : Float) : unit '$' ∉ numberToText c := by
  intro h
  have hmem := numberToText_subset c h
  revert hmem
  decide

lemma dollar_not_mem_version (c : Float) : unit '$' ∉ vee :: numberToText c := by
  rintro (_ | ⟨_, h⟩)
  exact dollar_not_mem_numberToText c h

lemma length_doubleSlashes (path : Text) :
    (doubleSlashes path).length = path.length + path.count (unit '/') := by
  induction path with
  | nil => rfl
  | cons u path ih =>
    unfold doubleSlashes at ih ⊢
    rw [List.flatMap_cons, List.length_append, ih, List.count_cons, List.length_cons]
    by_cases hu : u = unit '/'
    · rw [if_pos hu, if_pos (beq_iff_eq.mpr hu), List.length_cons, List.length_singleton]
      omega
    · rw [if_neg hu, if_neg (mt beq_iff_eq.mp hu), List.length_singleton]
      omega

lemma doubleSlashes_eq_self_iff : doubleSlashes path = path ↔ unit '/' ∉ path := by
  constructor
  · intro h
    have hlen := length_doubleSlashes path
    rw [h] at hlen
    exact List.count_eq_zero.mp (by omega)
  · intro h
    unfold doubleSlashes
    have hunits : path.flatMap (fun u => if u = unit '/' then [u, u] else [u]) =
        path.flatMap fun u => [u] := by
      apply List.flatMap_congr
      intro u hu
      have hne : u ≠ unit '/' := fun heq => h (heq ▸ hu)
      exact if_neg hne
    rw [hunits, List.flatMap_singleton']

/-- Only a segment whose replacement means nothing leaves an empty path. -/
lemma nil_mem_pathTexts_iff (hpath : path ≠ []) : [] ∈ pathTexts case path ↔
    ∃ s ∈ switchedSegments path, replace path s (case.upper s) = [] := by
  constructor
  · intro h
    obtain ⟨p, hp, hmade⟩ : ∃ p, p = [] ∧ PathText case path p := ⟨_, rfl, pathText_of_mem h⟩
    cases hmade with
    | id hlast hc =>
      exact absurd hp (replace_ne_nil hlast.nonempty hlast.path
        (dollar_not_mem_numberToText _) (numberToText_ne_nil _))
    | version hlast hc =>
      exact absurd hp (replace_ne_nil (List.cons_ne_nil _ _) hlast.path
        (dollar_not_mem_version _) (List.cons_ne_nil _ _))
    | segment hs => exact ⟨_, hs, hp⟩
    | doubled =>
      have hlen := length_doubleSlashes path
      rw [hp, List.length_nil] at hlen
      exact absurd (List.length_eq_zero_iff.mp (by omega)) hpath
    | appended ht => exact absurd hp (List.append_ne_nil_of_left_ne_nil hpath _)
  · rintro ⟨s, hs, hnil⟩
    rw [← hnil]
    exact mem_pathTexts_of_segment hs

end lengths

section self

variable {case : CaseMap} {path : Text}

/-- No replacement in the path is what it replaces, and there are slashes to double. -/
structure PathChanges (case : CaseMap) (path : Text) : Prop where
  ids : ∀ pre run post, LastDigits path pre run post → ∀ c ∈ idCandidates run,
    numberToText c ≠ run
  versions : ∀ pre digits post, LastVersion path pre digits post → ∀ c ∈ versionCandidates digits,
    numberToText c ≠ digits
  segments : ∀ s ∈ switchedSegments path, replace path s (case.upper s) ≠ path
  slashes : unit '/' ∈ path

lemma self_not_mem_pathTexts_iff : path ∉ pathTexts case path ↔ PathChanges case path := by
  constructor
  · intro h
    refine ⟨?_, ?_, ?_, ?_⟩
    · intro pre run post hlast c hc heq
      have hself := (replace_eq_self_iff hlast.nonempty hlast.path
        (dollar_not_mem_numberToText c)).mpr heq
      have hmem : replace path run (numberToText c) ∈ pathTexts case path :=
        mem_pathTexts_of_id hlast hc
      rw [hself] at hmem
      exact h hmem
    · intro pre digits post hlast c hc heq
      have hself := (replace_eq_self_iff (List.cons_ne_nil _ _) hlast.path
        (dollar_not_mem_version c)).mpr (congrArg (vee :: ·) heq)
      have hmem : replace path (vee :: digits) (vee :: numberToText c) ∈ pathTexts case path :=
        mem_pathTexts_of_version hlast hc
      rw [hself] at hmem
      exact h hmem
    · intro s hs hself
      have hmem : replace path s (case.upper s) ∈ pathTexts case path :=
        mem_pathTexts_of_segment hs
      rw [hself] at hmem
      exact h hmem
    · by_contra hslash
      have hmem : doubleSlashes path ∈ pathTexts case path := mem_pathTexts_of_doubled
      rw [doubleSlashes_eq_self_iff.mpr hslash] at hmem
      exact h hmem
  · intro h hmem
    obtain ⟨p, hp, hmade⟩ : ∃ p, p = path ∧ PathText case path p :=
      ⟨_, rfl, pathText_of_mem hmem⟩
    cases hmade with
    | id hlast hc =>
      exact h.ids _ _ _ hlast _ hc ((replace_eq_self_iff hlast.nonempty hlast.path
        (dollar_not_mem_numberToText _)).mp hp)
    | version hlast hc =>
      have heq := (replace_eq_self_iff (List.cons_ne_nil _ _) hlast.path
        (dollar_not_mem_version _)).mp hp
      exact h.versions _ _ _ hlast _ hc (List.cons.inj heq).2
    | segment hs => exact h.segments _ hs hp
    | doubled => exact doubleSlashes_eq_self_iff.mp hp h.slashes
    | appended ht => exact ht (List.append_right_eq_self.mp hp)

end self

end SecurityScanner

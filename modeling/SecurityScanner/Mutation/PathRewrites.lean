import SecurityScanner.Mutation.PathParts

/-!
# Where path mutations rewrite the path

A strategy chooses a part of the path by one scan and rewrites the first place that has the
same text. The two places agree unless an earlier part of the path contains the text.
-/

namespace SecurityScanner

open JavaScript PathMutator

section properties

/-- The numbers that stand in for the id of a path. -/
def idCandidates (run : Text) : List Float :=
  [parseInt run - 1, parseInt run + 1, 0, 1, 9999]

/-- The numbers that stand in for its version. -/
def versionCandidates (digits : Text) : List Float :=
  [parseInt digits - 1, parseInt digits + 1, parseInt digits + 2, parseInt digits + 5, 9999]

/-- The segments whose case is switched. -/
def switchedSegments (path : Text) : List Text :=
  ((split (unit '/') path).filter (· ≠ [])).filter (fun s => (textToNumber s).isNone) |>.filter
    (!endsWithVersion ·)

/-- Only the last run of digits is replaced, once by each candidate. -/
def RewritesId (path : Text) : Prop :=
  ((∀ u ∈ path, isDigit u = false) → idEnumeration path = []) ∧
    ∀ pre run post, LastDigits path pre run post →
      (idEnumeration path).map (·.path) =
        (idCandidates run).map fun c => some (pre ++ numberToText c ++ post)

/-- Only the last version is replaced, once by each candidate. -/
def RewritesVersion (path : Text) : Prop :=
  (¬HasVersion path → versionSwitching path = []) ∧
    ∀ pre digits post, LastVersion path pre digits post →
      (versionSwitching path).map (·.path) =
        (versionCandidates digits).map fun c => some (pre ++ vee :: numberToText c ++ post)

/-- One occurrence of the chosen segment is put in upper case. -/
def RewritesSegments (case : CaseMap) (path : Text) : Prop :=
  List.Forall₂ (fun segment m => ∃ pre post, WholeSegment path pre segment post ∧
      m.path = some (pre ++ case.upper segment ++ post))
    (switchedSegments path) (caseSwitching case path)

/-- Nothing before the last run of digits contains its text. -/
def IdIsFirst (path : Text) : Prop :=
  ∀ pre run post, LastDigits path pre run post → includes pre run = false

/-- Nothing before the last version contains its text. -/
def VersionIsFirst (path : Text) : Prop :=
  ∀ pre digits post, LastVersion path pre digits post → includes pre (vee :: digits) = false

/-- The first occurrence of each segment is a whole one, unless its case does not change, and
its upper case has no special meaning in a replacement. -/
def SegmentsAreFirst (case : CaseMap) (path : Text) : Prop :=
  ∀ segment ∈ switchedSegments path, ∀ before after,
    cutFirst segment path = some (before, after) →
      substitution before segment after (case.upper segment) = case.upper segment ∧
        (case.upper segment = segment ∨ WholeSegment path before segment after)

end properties

section ids

variable {path pre run post : Text}

lemma idEnumeration_paths (h : LastDigits path pre run post) :
    (idEnumeration path).map (·.path) =
      (idCandidates run).map fun c => some (replace path run (numberToText c)) := by
  unfold idEnumeration
  rw [getLast?_digitRuns h]
  rfl

lemma idEnumeration_of_none (h : ∀ u ∈ path, isDigit u = false) : idEnumeration path = [] := by
  unfold idEnumeration
  rw [digitRuns_of_none h, if_pos rfl]
  rfl

/-- No digit stands next to the run, so that an earlier occurrence ends before it. -/
lemma LastDigits.before_not_mem (h : LastDigits path pre run post) :
    ∀ u ∈ pre.getLast?, u ∉ run := by
  intro u hu hmem
  have hdigit := h.digits u hmem
  rw [h.before u hu] at hdigit
  cases hdigit

lemma replace_id (h : LastDigits path pre run post) (hfirst : includes pre run = false)
    (c : Float) : replace path run (numberToText c) = pre ++ numberToText c ++ post := by
  rw [h.path, replace_of_first h.nonempty, substitution_number]
  intro b a heq
  by_contra hlt
  obtain ⟨between, hpre, -⟩ := earlier_of_getLast heq.symm (by omega) h.before_not_mem
  have hincludes : includes pre run = true := includes_iff.mpr ⟨b, between, hpre.symm⟩
  rw [hfirst] at hincludes
  cases hincludes

/-- An earlier occurrence keeps the chosen run in the path, behind the replacement. -/
lemma swap_of_replace_id (h : LastDigits path pre run post) (hincludes : includes pre run = true) :
    ∃ between, ∀ c : Float, replace path run (numberToText c) = pre ++ numberToText c ++ post →
      numberToText c ++ between ++ run = run ++ between ++ numberToText c := by
  obtain ⟨before, after, hcut, heq, hlt⟩ := cutFirst_of_includes h.nonempty hincludes post
  obtain ⟨between, hpre, hafter⟩ := earlier_of_getLast heq hlt h.before_not_mem
  rw [← h.path] at hcut
  refine ⟨between, fun c hc => ?_⟩
  rw [replace_of_cutFirst hcut, substitution_number] at hc
  exact swap_of_replaced hpre hafter hc

theorem rewritesId_iff (path : Text) : RewritesId path ↔ IdIsFirst path := by
  constructor
  · rintro ⟨-, hid⟩ pre run post h
    rw [← Bool.not_eq_true]
    intro hincludes
    obtain ⟨between, hswap⟩ := swap_of_replace_id h hincludes
    have hpaths := (idEnumeration_paths h).symm.trans (hid pre run post h)
    have hreplace := List.map_inj_left.mp hpaths
    have hlast (c : Float) (hc : c ∈ idCandidates run) :
        (numberToText c ++ between ++ run).getLast? =
          (run ++ between ++ numberToText c).getLast? :=
      congrArg List.getLast? (hswap c (Option.some.inj (hreplace c hc)))
    have hzero := hlast 0 (by simp [idCandidates])
    have hone := hlast 1 (by simp [idCandidates])
    have hzeroText : numberToText 0 = js "0" := by decide +kernel
    have honeText : numberToText 1 = js "1" := by decide +kernel
    rw [List.getLast?_append_of_ne_nil _ h.nonempty] at hzero hone
    rw [hzeroText, List.getLast?_append_of_ne_nil _ (by decide)] at hzero
    rw [honeText, List.getLast?_append_of_ne_nil _ (by decide), hzero] at hone
    exact absurd hone (by decide)
  · intro hfirst
    refine ⟨idEnumeration_of_none, fun pre run post h => ?_⟩
    rw [idEnumeration_paths h]
    apply List.map_congr_left
    intro c _
    rw [replace_id h (hfirst pre run post h)]

end ids

section versions

variable {path pre digits post : Text}

lemma versionSwitching_paths (h : LastVersion path pre digits post) :
    (versionSwitching path).map (·.path) = (versionCandidates digits).map fun c =>
      some (replace path (vee :: digits) (vee :: numberToText c)) := by
  unfold versionSwitching
  rw [getLast?_versionTokens h]
  rfl

lemma versionSwitching_of_none (h : ¬HasVersion path) : versionSwitching path = [] := by
  unfold versionSwitching
  rw [versionTokens_of_none h fun _ _ => Or.inr rfl]
  rfl

lemma vee_not_mem_numberToText (c : Float) : vee ∉ numberToText c := by
  intro h
  have hmem := numberToText_subset c h
  revert hmem
  decide

lemma LastVersion.vee_not_mem (h : LastVersion path pre digits post) : vee ∉ digits := by
  intro hmem
  have hdigit := h.digits vee hmem
  rw [isDigit_vee] at hdigit
  cases hdigit

lemma substitution_version (before matched after : Text) (c : Float) :
    substitution before matched after (vee :: numberToText c) = vee :: numberToText c := by
  apply substitution_of_not_mem
  rintro (_ | ⟨_, h⟩)
  have hmem := numberToText_subset c h
  revert hmem
  decide

lemma replace_version (h : LastVersion path pre digits post)
    (hfirst : includes pre (vee :: digits) = false) (c : Float) :
    replace path (vee :: digits) (vee :: numberToText c) =
      pre ++ vee :: numberToText c ++ post := by
  rw [h.path, replace_of_first (List.cons_ne_nil _ _), substitution_version]
  intro b a heq
  by_contra hlt
  obtain ⟨between, hpre, -⟩ := earlier_of_head h.vee_not_mem heq.symm (by omega)
  have hincludes : includes pre (vee :: digits) = true := includes_iff.mpr ⟨b, between, hpre.symm⟩
  rw [hfirst] at hincludes
  cases hincludes

/-- Tokens that can be exchanged around a text are equal: what one of them has more would be
made of copies of the other, with a `v` among its digits. -/
lemma token_eq_of_swap {u : UInt16} {x y between : Text} (hx : u ∉ x) (hy : u ∉ y)
    (h : u :: x ++ between ++ u :: y = u :: y ++ between ++ u :: x) : x = y := by
  have hshift {s t rest : Text} (hrest : u ∉ rest) (ht : t = s ++ rest)
      (hswap : u :: s ++ between ++ u :: t = u :: t ++ between ++ u :: s) : s = t := by
    by_cases hnil : rest = []
    · rw [ht, hnil, List.append_nil]
    · rw [ht, List.append_assoc, ← List.cons_append, List.append_assoc, List.append_assoc] at hswap
      have hcancel := List.append_cancel_left hswap
      have hcommute : rest ++ (between ++ u :: s) = (between ++ u :: s) ++ rest := by
        rw [← hcancel, List.append_assoc]
      have hmem : u ∈ between ++ u :: s := List.mem_append_right _ List.mem_cons_self
      exact absurd (mem_of_commute hcommute hnil u hmem) hrest
  have hsplit : x ++ (between ++ u :: y) = y ++ (between ++ u :: x) := by
    rw [List.append_assoc, List.append_assoc] at h
    exact List.tail_eq_of_cons_eq h
  rcases List.append_eq_append_iff.mp hsplit with ⟨rest, hyx, -⟩ | ⟨rest, hxy, -⟩
  · refine hshift ?_ hyx h
    rw [hyx] at hy
    exact fun hmem => hy (List.mem_append_right _ hmem)
  · refine (hshift ?_ hxy h.symm).symm
    rw [hxy] at hx
    exact fun hmem => hx (List.mem_append_right _ hmem)

/-- With an earlier occurrence, only the version itself leaves the path as it should be. -/
lemma digits_eq_of_replace_version (h : LastVersion path pre digits post)
    (hincludes : includes pre (vee :: digits) = true) {c : Float}
    (hc : replace path (vee :: digits) (vee :: numberToText c) =
      pre ++ vee :: numberToText c ++ post) : numberToText c = digits := by
  obtain ⟨before, after, hcut, heq, hlt⟩ :=
    cutFirst_of_includes (List.cons_ne_nil vee digits) hincludes post
  obtain ⟨between, hpre, hafter⟩ := earlier_of_head h.vee_not_mem heq hlt
  rw [← h.path] at hcut
  rw [replace_of_cutFirst hcut, substitution_version] at hc
  exact token_eq_of_swap (vee_not_mem_numberToText c) h.vee_not_mem
    (swap_of_replaced hpre hafter hc)

theorem rewritesVersion_iff (path : Text) : RewritesVersion path ↔ VersionIsFirst path := by
  constructor
  · rintro ⟨-, hversion⟩ pre digits post h
    rw [← Bool.not_eq_true]
    intro hincludes
    have hpaths := (versionSwitching_paths h).symm.trans (hversion pre digits post h)
    have hreplace := List.map_inj_left.mp hpaths
    have hdigits (c : Float) (hc : c ∈ versionCandidates digits) : numberToText c = digits :=
      digits_eq_of_replace_version h hincludes (Option.some.inj (hreplace c hc))
    have hlast : numberToText 9999 = digits := hdigits 9999 (by simp [versionCandidates])
    have htext : numberToText 9999 = js "9999" := by decide +kernel
    have hfirst : numberToText (parseInt (js "9999") - 1) = js "9999" := by
      have hmem : parseInt digits - 1 ∈ versionCandidates digits := List.mem_cons_self
      have hprevious := hdigits _ hmem
      rwa [← hlast, htext] at hprevious
    exact absurd hfirst (by decide +kernel)
  · intro hfirst
    refine ⟨versionSwitching_of_none, fun pre digits post h => ?_⟩
    rw [versionSwitching_paths h]
    apply List.map_congr_left
    intro c _
    rw [replace_version h (hfirst pre digits post h)]

end versions

section segments

variable {case : CaseMap} {path : Text}

lemma caseSwitching_eq (case : CaseMap) (path : Text) :
    caseSwitching case path = (switchedSegments path).map fun segment =>
      mutation "case_switching:"
        (js "Testing if different case of " ++ segment ++ js " in path is accepted by server")
        (replace path segment (case.upper segment)) := rfl

lemma mem_split_of_switched {segment : Text} (h : segment ∈ switchedSegments path) :
    segment ∈ split (unit '/') path ∧ segment ≠ [] := by
  unfold switchedSegments at h
  have hne := List.mem_filter.mp (List.mem_of_mem_filter (List.mem_of_mem_filter h))
  exact ⟨hne.1, of_decide_eq_true hne.2⟩

lemma rewritesSegments_eq (case : CaseMap) (path : Text) :
    RewritesSegments case path ↔ ∀ segment ∈ switchedSegments path, ∃ pre post,
      WholeSegment path pre segment post ∧
        replace path segment (case.upper segment) = pre ++ case.upper segment ++ post := by
  unfold RewritesSegments
  rw [caseSwitching_eq, List.forall₂_map_right_iff, List.forall₂_same]
  constructor
  · intro h segment hsegment
    obtain ⟨pre, post, hwhole, hpath⟩ := h segment hsegment
    exact ⟨pre, post, hwhole, Option.some.inj hpath⟩
  · intro h segment hsegment
    obtain ⟨pre, post, hwhole, hpath⟩ := h segment hsegment
    exact ⟨pre, post, hwhole, congrArg some hpath⟩

lemma replace_first_segment {segment before after : Text}
    (hcut : cutFirst segment path = some (before, after))
    (hmeans : substitution before segment after (case.upper segment) = case.upper segment) :
    replace path segment (case.upper segment) = before ++ case.upper segment ++ after := by
  rw [replace_of_cutFirst hcut, hmeans]

/-- The rewritten occurrence is the chosen one, or its case does not change. -/
lemma first_of_replace_segment (hcase : ∀ t, unit '/' ∉ t → unit '/' ∉ case.upper t)
    {segment before after pre post : Text} (hslash : unit '/' ∉ segment) (hne : segment ≠ [])
    (hcut : cutFirst segment path = some (before, after))
    (hwhole : WholeSegment path pre segment post)
    (hreplace : replace path segment (case.upper segment) = pre ++ case.upper segment ++ post) :
    substitution before segment after (case.upper segment) = case.upper segment ∧
      (case.upper segment = segment ∨ WholeSegment path before segment after) := by
  obtain ⟨before', after', hcut', heq, hle⟩ := cutFirst_spec hne pre post
  rw [← hwhole.path, hcut] at hcut'
  obtain ⟨rfl, rfl⟩ := Prod.mk.inj (Option.some.inj hcut')
  rw [replace_of_cutFirst hcut] at hreplace
  rcases Nat.eq_or_lt_of_le hle with hlen | hlt
  · have heq' : before ++ (segment ++ after) = pre ++ (segment ++ post) := by
      rw [← List.append_assoc, ← List.append_assoc, heq]
    obtain ⟨rfl, hrest⟩ := List.append_inj heq' hlen
    have hpost : after = post := List.append_cancel_left hrest
    rw [hpost] at hreplace ⊢
    exact ⟨List.append_cancel_left (List.append_cancel_right hreplace), Or.inr hwhole⟩
  · have hlast : ∀ u ∈ pre.getLast?, u ∉ segment := by
      intro u hu
      rw [hwhole.starts u hu]
      exact hslash
    obtain ⟨between, hpre, hafter⟩ := earlier_of_getLast heq.symm hlt hlast
    have hswap := swap_of_replaced hpre hafter hreplace
    -- the slash before the chosen segment ends the text between the two occurrences
    obtain ⟨between', rfl⟩ : ∃ between', between = between' ++ [unit '/'] := by
      rcases List.eq_nil_or_concat' between with rfl | ⟨between', u, rfl⟩
      · have hmem : segment.getLast hne ∈ pre.getLast? := by
          rw [hpre, List.append_nil, List.getLast?_append_of_ne_nil _ hne,
            List.getLast?_eq_getLast_of_ne_nil hne]
          rfl
        exact absurd (List.getLast_mem hne) (hlast _ hmem)
      · refine ⟨between', ?_⟩
        have hu : u = unit '/' := hwhole.starts u <| by
          rw [hpre, ← List.append_assoc, List.getLast?_concat]
          rfl
        rw [hu]
    have hslashes : substitution before segment after (case.upper segment) ++ between' ++
        unit '/' :: segment = segment ++ between' ++ unit '/' :: case.upper segment := by
      simpa only [List.append_assoc, List.singleton_append] using hswap
    obtain ⟨hbefore, hsegment⟩ := append_cons_inj_of_last hslash (hcase _ hslash) hslashes
    rw [← hsegment]
    rw [← hsegment] at hbefore
    exact ⟨List.append_cancel_right hbefore, Or.inl rfl⟩

theorem rewritesSegments_iff (hcase : ∀ t, unit '/' ∉ t → unit '/' ∉ case.upper t)
    (path : Text) : RewritesSegments case path ↔ SegmentsAreFirst case path := by
  rw [rewritesSegments_eq]
  constructor
  · intro h segment hsegment before after hcut
    obtain ⟨pre, post, hwhole, hreplace⟩ := h segment hsegment
    obtain ⟨hsplit, hne⟩ := mem_split_of_switched hsegment
    exact first_of_replace_segment hcase (not_mem_of_mem_split hsplit) hne hcut hwhole hreplace
  · intro h segment hsegment
    obtain ⟨hsplit, hne⟩ := mem_split_of_switched hsegment
    obtain ⟨pre, post, hwhole⟩ := exists_wholeSegment hsplit
    obtain ⟨before, after, hcut, heq, -⟩ := cutFirst_spec hne pre post
    rw [← hwhole.path] at hcut heq
    obtain ⟨hmeans, hupper | hfirst⟩ := h segment hsegment before after hcut
    · refine ⟨pre, post, hwhole, ?_⟩
      rw [replace_first_segment hcut hmeans, hupper, ← heq, ← hwhole.path]
    · exact ⟨before, after, hfirst, replace_first_segment hcut hmeans⟩

end segments

/-- Each strategy rewrites the part of the path that it chose exactly when no other place of the
path takes its text. -/
theorem path_rewrites_iff {case : CaseMap}
    (hcase : ∀ t, unit '/' ∉ t → unit '/' ∉ case.upper t) (path : Text) :
    RewritesId path ∧ RewritesVersion path ∧ RewritesSegments case path ↔
      IdIsFirst path ∧ VersionIsFirst path ∧ SegmentsAreFirst case path := by
  rw [rewritesId_iff, rewritesVersion_iff, rewritesSegments_iff hcase]

lemma slash_not_mem_asciiCase_upper (t : Text) (h : unit '/' ∉ t) :
    unit '/' ∉ asciiCase.upper t := by
  intro hmem
  obtain ⟨u, hu, hupper⟩ := List.mem_map.mp hmem
  split at hupper
  · rename_i hlower
    have hslash : u = unit '/' + 32 := by rw [← hupper, UInt16.sub_add_cancel]
    rw [hslash] at hlower
    revert hlower
    decide
  · exact h (hupper ▸ hu)

lemma count_eq_zero_of_count_le_one {u : UInt16} {path pre rest : Text}
    (hpath : path = pre ++ rest) (hcount : path.count u ≤ 1) (hmem : u ∈ rest) : u ∉ pre := by
  have hrest := List.count_pos_iff.mpr hmem
  rw [hpath, List.count_append] at hcount
  exact List.count_eq_zero.mp (by omega)

lemma distinct_parts_first :
    IdIsFirst (js "/v2/users/17") ∧ VersionIsFirst (js "/v2/users/17") ∧
      SegmentsAreFirst asciiCase (js "/v2/users/17") := by
  refine ⟨fun pre run post h => ?_, fun pre digits post h => ?_, ?_⟩
  · have hrun : run = js "17" := by
      have hlast : (digitRuns [] (js "/v2/users/17")).getLast? = some (js "17") := by decide +kernel
      exact Option.some.inj ((getLast?_digitRuns h).symm.trans hlast)
    have hnot : unit '7' ∉ pre := count_eq_zero_of_count_le_one
      (h.path.trans (List.append_assoc ..)) (by decide +kernel)
      (List.mem_append_left _ (hrun ▸ by decide))
    refine Bool.eq_false_iff.mpr fun hincludes => hnot ?_
    exact (includes_iff.mp hincludes).subset (hrun ▸ by decide)
  · have hnot : vee ∉ pre := count_eq_zero_of_count_le_one
      (h.path.trans (List.append_assoc ..)) (by decide +kernel) List.mem_cons_self
    refine Bool.eq_false_iff.mpr fun hincludes => hnot ?_
    exact (includes_iff.mp hincludes).subset List.mem_cons_self
  · intro segment hsegment before after hcut
    have hswitched : switchedSegments (js "/v2/users/17") = [js "users"] := by decide +kernel
    rw [hswitched, List.mem_singleton] at hsegment
    subst hsegment
    have hfound : cutFirst (js "users") (js "/v2/users/17") = some (js "/v2/", js "/17") := by
      decide +kernel
    obtain ⟨rfl, rfl⟩ := Prod.mk.inj (Option.some.inj (hfound.symm.trans hcut))
    have hstart : (js "/v2/").getLast? = some (unit '/') := by decide
    have hend : (js "/17").head? = some (unit '/') := by decide
    exact ⟨by decide +kernel, Or.inr ⟨by decide +kernel,
      fun u hu => Option.some.inj (hu.symm.trans hstart),
      fun u hu => Option.some.inj (hu.symm.trans hend)⟩⟩

/-- For a path whose numbers and names all differ. -/
theorem path_rewrites_of_distinct_parts :
    (IdIsFirst (js "/v2/users/17") ∧ VersionIsFirst (js "/v2/users/17") ∧
      SegmentsAreFirst asciiCase (js "/v2/users/17")) ∧
    RewritesId (js "/v2/users/17") ∧ RewritesVersion (js "/v2/users/17") ∧
      RewritesSegments asciiCase (js "/v2/users/17") :=
  ⟨distinct_parts_first, (path_rewrites_iff slash_not_mem_asciiCase_upper _).mpr
    distinct_parts_first⟩

/-- The id of the tenant is rewritten instead of the chosen id of the user. -/
theorem path_rewrites_another_id :
    ¬(RewritesId (js "/tenants/1/users/1") ∧ RewritesVersion (js "/tenants/1/users/1") ∧
      RewritesSegments asciiCase (js "/tenants/1/users/1")) := by
  rintro ⟨hid, -, -⟩
  have hbefore : ∀ u ∈ (js "/tenants/1/users/").getLast?, isDigit u = false := by
    rintro u ⟨⟩
    rfl
  have hparts : LastDigits (js "/tenants/1/users/1") (js "/tenants/1/users/") (js "1") [] :=
    ⟨by decide, by decide, by decide, hbefore, by decide⟩
  have hfirst := (rewritesId_iff _).mp hid _ _ _ hparts
  revert hfirst
  decide

end SecurityScanner

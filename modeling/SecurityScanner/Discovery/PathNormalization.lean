import SecurityScanner.Discovery.ParserEntries
import SecurityScanner.Lib.Segments

/-!
# Normalized paths

What `_normalize_path` keeps of a path is its segments: each of its rewrites leaves them as
they are, and after the last one the path is the canonical text of its segments. So `parse`
takes two entries for one exactly if they have the same method and the same segments.
-/

namespace SecurityScanner.OpenAPIParser

open Segments

/-- The non-empty segments of a path. -/
def segmentsOf (path : String) : List (List Char) := segments '/' path.toList

section collapse

variable {t : List Char}

lemma collapse_slash_slash (t : List Char) :
    collapseSlashes ('/' :: '/' :: t) = collapseSlashes ('/' :: t) := by
  rw [collapseSlashes, if_pos ⟨rfl, rfl⟩]

lemma collapse_cons {c : Char} (h : ¬(c = '/' ∧ t.head? = some '/')) :
    collapseSlashes (c :: t) = c :: collapseSlashes t := by
  rw [collapseSlashes, if_neg h]

/-- A path starts with two slashes or its first character stays. -/
lemma collapse_cases (c : Char) (t : List Char) :
    (∃ t', c = '/' ∧ t = '/' :: t') ∨ collapseSlashes (c :: t) = c :: collapseSlashes t := by
  by_cases h : c = '/' ∧ t.head? = some '/'
  · obtain ⟨hc, hhead⟩ := h
    obtain ⟨t', rfl⟩ := List.head?_eq_some_iff.mp hhead
    exact .inl ⟨t', hc, rfl⟩
  · exact .inr (collapse_cons h)

lemma head?_collapse (t : List Char) : (collapseSlashes t).head? = t.head? := by
  induction t with
  | nil => rfl
  | cons c t ih =>
    rcases collapse_cases c t with ⟨t', rfl, rfl⟩ | h
    · rw [collapse_slash_slash, ih]
      rfl
    · rw [h]
      rfl

/-- Collapsing keeps the first part, and the segments behind it. -/
lemma splitOn_collapse (t : List Char) : ∃ first rest rest',
    t.splitOn '/' = first :: rest ∧ (collapseSlashes t).splitOn '/' = first :: rest' ∧
      rest.filter (· ≠ []) = rest'.filter (· ≠ []) := by
  induction t with
  | nil => exact ⟨[], [], [], rfl, rfl, rfl⟩
  | cons c t ih =>
    obtain ⟨first, rest, rest', ht, hcollapse, hrest⟩ := ih
    rcases collapse_cases c t with ⟨t', rfl, rfl⟩ | h
    · have hfirst : first = [] := by
        rw [splitOn_sep] at ht
        exact (List.cons.inj ht).1.symm
      refine ⟨[], first :: rest, rest', ?_, ?_, ?_⟩
      · rw [splitOn_sep, ht]
      · rw [collapse_slash_slash, hcollapse, hfirst]
      · rw [hfirst]
        exact hrest
    · rw [h]
      by_cases hc : c = '/'
      · refine ⟨[], first :: rest, first :: rest', ?_, ?_, ?_⟩
        · rw [hc, splitOn_sep, ht]
        · rw [hc, splitOn_sep, hcollapse]
        · rw [List.filter_cons, List.filter_cons, hrest]
      · refine ⟨c :: first, rest, rest', ?_, ?_, hrest⟩
        · rw [splitOn_cons hc, ht]
          rfl
        · rw [splitOn_cons hc, hcollapse]
          rfl

lemma segments_collapse (t : List Char) : segments '/' (collapseSlashes t) = segments '/' t := by
  obtain ⟨first, rest, rest', ht, hcollapse, hrest⟩ := splitOn_collapse t
  exact (segments_congr ht hcollapse hrest).symm

/-- Before a text without doubled slashes a character doubles a slash only at its start. -/
lemma single_cons {c : Char} (ht : ¬['/', '/'] <:+: t) (h : ¬(c = '/' ∧ t.head? = some '/')) :
    ¬['/', '/'] <:+: c :: t := by
  intro hpart
  rcases List.infix_cons_iff.mp hpart with hprefix | hpart
  · obtain ⟨rest, hrest⟩ := hprefix
    obtain ⟨hc, hhead⟩ := List.cons.inj hrest
    exact h ⟨hc.symm, by rw [← hhead]; rfl⟩
  · exact ht hpart

lemma single_collapse (t : List Char) : ¬['/', '/'] <:+: collapseSlashes t := by
  induction t with
  | nil => decide
  | cons c t ih =>
    by_cases h : c = '/' ∧ t.head? = some '/'
    · rw [collapseSlashes, if_pos h]
      exact ih
    · rw [collapse_cons h]
      refine single_cons ih ?_
      rw [head?_collapse]
      exact h

end collapse

section normalize

/-- The path without slashes at its end, unless it is a slash. -/
def stripped (path : String) : List Char :=
  let normalized := collapseSlashes path.toList
  if 1 < normalized.length ∧ normalized.getLast? = some '/' then
    normalized.rdropWhile (· = '/')
  else normalized

lemma segments_stripped (path : String) : segments '/' (stripped path) = segmentsOf path := by
  unfold stripped segmentsOf
  dsimp only
  split
  · rw [segments_rdropWhile, segments_collapse]
  · rw [segments_collapse]

lemma single_stripped (path : String) : ¬['/', '/'] <:+: stripped path := by
  unfold stripped
  dsimp only
  split
  · exact fun h => single_collapse _ (h.trans (List.rdropWhile_prefix _ _).isInfix)
  · exact single_collapse _

lemma last_stripped {path : String} (h : (stripped path).getLast? = some '/') :
    stripped path = ['/'] := by
  unfold stripped at h ⊢
  dsimp only at h ⊢
  split at h
  · have hne : (collapseSlashes path.toList).rdropWhile (· = '/') ≠ [] := by
      intro hnil
      rw [hnil] at h
      cases h
    have hlast := List.rdropWhile_last_not _ _ hne
    rw [List.getLast?_eq_some_getLast hne] at h
    exact absurd (decide_eq_true (Option.some.inj h)) hlast
  · rename_i hguard
    rw [if_neg hguard]
    have hlength : (collapseSlashes path.toList).length ≤ 1 := by
      by_contra hlt
      exact hguard ⟨by omega, h⟩
    cases hcs : collapseSlashes path.toList with
    | nil =>
      rw [hcs] at h
      cases h
    | cons c cs =>
      rw [hcs] at h hlength
      obtain rfl : cs = [] := List.length_eq_zero_iff.mp (by simpa using hlength)
      obtain rfl : c = '/' := Option.some.inj h
      rfl

lemma toList_normalizePath (path : String) : (normalizePath path).toList =
    if (stripped path).head? = some '/' then stripped path else '/' :: stripped path := by
  unfold normalizePath
  by_cases hempty : path = ""
  · rw [if_pos hempty, hempty]
    rfl
  · rw [if_neg hempty, String.toList_ofList]
    rfl

lemma segmentsOf_normalizePath (path : String) :
    segmentsOf (normalizePath path) = segmentsOf path := by
  unfold segmentsOf
  rw [toList_normalizePath]
  split
  · exact segments_stripped path
  · rw [segments_sep]
    exact segments_stripped path

lemma canonical_normalizePath (path : String) : Canonical '/' (normalizePath path).toList := by
  rw [toList_normalizePath]
  split
  · rename_i hhead
    exact ⟨hhead, single_stripped path, last_stripped⟩
  · rename_i hhead
    refine ⟨rfl, single_cons (single_stripped path) fun h => hhead h.2, fun hlast => ?_⟩
    by_cases hnil : stripped path = []
    · rw [hnil]
    · rw [List.getLast?_cons_of_ne_nil hnil] at hlast
      exact absurd (by rw [last_stripped hlast]; rfl) hhead

lemma normalizePath_eq_iff {path other : String} :
    normalizePath path = normalizePath other ↔ segmentsOf path = segmentsOf other := by
  rw [← String.toList_inj, (canonical_normalizePath path).eq_iff (canonical_normalizePath other)]
  change segmentsOf (normalizePath path) = segmentsOf (normalizePath other) ↔ _
  rw [segmentsOf_normalizePath, segmentsOf_normalizePath]

/-- The normalized path is a slash followed by the segments of the path, joined by slashes. -/
theorem normalizePath_canonical (path : String) :
    (normalizePath path).toList = '/' :: ['/'].intercalate (segmentsOf path) ∧
    normalizePath (normalizePath path) = normalizePath path ∧
    ¬['/', '/'] <:+: (normalizePath path).toList ∧
    ((normalizePath path).toList.getLast? = some '/' → normalizePath path = "/") ∧
    ∀ other, normalizePath path = normalizePath other ↔ segmentsOf path = segmentsOf other := by
  have hcanonical := canonical_normalizePath path
  have htext : (normalizePath path).toList = '/' :: ['/'].intercalate (segmentsOf path) := by
    rw [← segmentsOf_normalizePath path]
    exact hcanonical.eq
  refine ⟨htext, ?_, hcanonical.single, fun hlast => ?_, fun _ => normalizePath_eq_iff⟩
  · rw [normalizePath_eq_iff, segmentsOf_normalizePath]
  · rw [← String.toList_inj]
    exact hcanonical.last hlast

end normalize

section entries

variable {I : Python.Interpreter} {spec : Json} {e e' : Entry}

/-- The path of an entry is a normalized one. -/
lemma exists_normalizePath (he : e ∈ entriesOf I spec) : ∃ p, e.path = normalizePath p := by
  obtain ⟨fields, paths, -, -, ⟨p, value⟩, -, he⟩ := mem_entriesOf.mp he
  obtain ⟨methods, -, m, -, hm⟩ := mem_pathEntries.mp he
  obtain ⟨-, -, -, hpath⟩ := mem_methodEntry.mp hm
  exact ⟨p, hpath.symm⟩

/-- Two entries of a specification are one endpoint exactly if they have the same method and
the same segments. -/
theorem key_eq_iff_segmentsOf (he : e ∈ entriesOf I spec) (he' : e' ∈ entriesOf I spec) :
    e.key = e'.key ↔ e.method = e'.method ∧ segmentsOf e.path = segmentsOf e'.path := by
  obtain ⟨p, hp⟩ := exists_normalizePath he
  obtain ⟨p', hp'⟩ := exists_normalizePath he'
  have hpath : e.path = e'.path ↔ segmentsOf e.path = segmentsOf e'.path := by
    rw [hp, hp', normalizePath_eq_iff, segmentsOf_normalizePath, segmentsOf_normalizePath]
  unfold Entry.key
  rw [Prod.mk.injEq, hpath]

end entries

end SecurityScanner.OpenAPIParser

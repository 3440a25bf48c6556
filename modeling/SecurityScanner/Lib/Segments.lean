import Mathlib.Data.List.DropRight
import Mathlib.Tactic.Common

/-!
# Segments of a text

The non-empty parts of a list between its separators. A list that starts with a separator,
has no two in a row and ends with one only if it is nothing else is written from its segments.
-/

namespace Segments

variable {α : Type} [DecidableEq α]

/-- The non-empty parts between the separators. -/
def segments (sep : α) (t : List α) : List (List α) := (t.splitOn sep).filter (· ≠ [])

/-- One separator before each segment and none besides, but for the text without segments. -/
structure Canonical (sep : α) (t : List α) : Prop where
  head : t.head? = some sep
  single : ¬[sep, sep] <:+: t
  last : t.getLast? = some sep → t = [sep]

variable {sep : α} {t : List α}

section splitting

lemma splitOn_sep (sep : α) (t : List α) : (sep :: t).splitOn sep = [] :: t.splitOn sep := by
  rw [List.splitOn_cons_eq_if_modifyHead, if_pos (beq_self_eq_true sep)]

lemma splitOn_cons {c : α} (hc : c ≠ sep) (t : List α) :
    (c :: t).splitOn sep = (t.splitOn sep).modifyHead (List.cons c) := by
  rw [List.splitOn_cons_eq_if_modifyHead, if_neg (by simpa using hc)]

@[simp] lemma segments_nil (sep : α) : segments sep [] = [] := by
  simp [segments]

@[simp] lemma segments_sep (sep : α) (t : List α) : segments sep (sep :: t) = segments sep t := by
  unfold segments
  rw [splitOn_sep]
  rfl

lemma segments_append_sep (sep : α) (t : List α) :
    segments sep (t ++ [sep]) = segments sep t := by
  unfold segments
  rw [List.splitOn_append_cons_self, List.filter_append]
  simp

/-- Separators at the end do not count. -/
lemma segments_rdropWhile (sep : α) (t : List α) :
    segments sep (t.rdropWhile (· = sep)) = segments sep t := by
  induction t using List.reverseRecOn with
  | nil => rfl
  | append_singleton t c ih =>
    by_cases hc : c = sep
    · rw [hc, List.rdropWhile_concat_pos _ _ _ (by simp), ih, segments_append_sep]
    · rw [List.rdropWhile_concat_neg _ _ _ (by simpa using hc)]

/-- Lists with the same first part and the same segments behind it have the same segments. -/
lemma segments_congr {u : List α} {first : List α} {rest rest' : List (List α)}
    (ht : t.splitOn sep = first :: rest) (hu : u.splitOn sep = first :: rest')
    (h : rest.filter (· ≠ []) = rest'.filter (· ≠ [])) : segments sep t = segments sep u := by
  unfold segments
  rw [ht, hu, List.filter_cons, List.filter_cons, h]

end splitting

section joining

/-- Before its first part a list has no separator. -/
lemma head_splitOn (hne : t ≠ []) (hhead : t.head? ≠ some sep) :
    ∃ first rest, t.splitOn sep = first :: rest ∧ first ≠ [] := by
  cases t with
  | nil => exact absurd rfl hne
  | cons c t =>
    have hc : c ≠ sep := fun h => hhead (congrArg some h)
    obtain ⟨first, rest, hsplit⟩ := List.exists_cons_of_ne_nil (List.splitOn_ne_nil sep t)
    refine ⟨c :: first, rest, ?_, List.cons_ne_nil c first⟩
    rw [splitOn_cons hc, hsplit]
    rfl

/-- Only two separators in a row, or one at the end, make an empty part behind the first. -/
lemma nonempty_of_mem_tail (hsingle : ¬[sep, sep] <:+: t) (hlast : t.getLast? ≠ some sep) :
    ∀ part ∈ (t.splitOn sep).tail, part ≠ [] := by
  induction t with
  | nil => simp
  | cons c t ih =>
    have htail : ¬[sep, sep] <:+: t := fun h => hsingle (h.trans (List.suffix_cons c t).isInfix)
    by_cases hnil : t = []
    · subst hnil
      have hc : c ≠ sep := fun h => hlast (by rw [h]; rfl)
      rw [splitOn_cons hc]
      simp
    have hlast' : t.getLast? ≠ some sep := by
      rwa [List.getLast?_cons_of_ne_nil hnil] at hlast
    by_cases hc : c = sep
    · have hhead : t.head? ≠ some sep := by
        intro h
        obtain ⟨d, t', rfl⟩ := List.exists_cons_of_ne_nil hnil
        obtain rfl := Option.some.inj h
        exact hsingle ⟨[], t', by rw [hc]; rfl⟩
      obtain ⟨first, rest, hsplit, hfirst⟩ := head_splitOn hnil hhead
      have ih' := ih htail hlast'
      rw [hsplit] at ih'
      rw [hc, splitOn_sep, hsplit]
      exact List.forall_mem_cons.mpr ⟨hfirst, ih'⟩
    · rw [splitOn_cons hc, List.tail_modifyHead]
      exact ih htail hlast'

lemma intercalate_segments (hhead : t.head? ≠ some sep) (hsingle : ¬[sep, sep] <:+: t)
    (hlast : t.getLast? ≠ some sep) : [sep].intercalate (segments sep t) = t := by
  by_cases hnil : t = []
  · rw [hnil, segments_nil]
    rfl
  · obtain ⟨first, rest, hsplit, hfirst⟩ := head_splitOn hnil hhead
    have hrest := nonempty_of_mem_tail hsingle hlast
    rw [hsplit] at hrest
    have hall : segments sep t = t.splitOn sep := by
      unfold segments
      rw [hsplit]
      refine List.filter_eq_self.mpr fun part hpart => decide_eq_true ?_
      rcases List.mem_cons.mp hpart with rfl | hpart
      · exact hfirst
      · exact hrest part hpart
    rw [hall, List.intercalate_splitOn]

/-- A canonical list is written from its segments. -/
theorem Canonical.eq (h : Canonical sep t) : t = sep :: [sep].intercalate (segments sep t) := by
  cases t with
  | nil => exact absurd h.head (by simp)
  | cons c t =>
    obtain rfl := Option.some.inj h.head
    rw [segments_sep]
    by_cases hnil : t = []
    · rw [hnil, segments_nil]
      rfl
    have hhead : t.head? ≠ some c := by
      intro hc
      obtain ⟨d, t', rfl⟩ := List.exists_cons_of_ne_nil hnil
      obtain rfl := Option.some.inj hc
      exact h.single ⟨[], t', rfl⟩
    have hlast : t.getLast? ≠ some c := by
      intro hc
      rw [← List.getLast?_cons_of_ne_nil hnil] at hc
      exact hnil (List.cons.inj (h.last hc)).2
    have hsingle : ¬[c, c] <:+: t := fun hc =>
      h.single (hc.trans (List.suffix_cons c t).isInfix)
    rw [intercalate_segments hhead hsingle hlast]

/-- Canonical lists are told apart by their segments. -/
theorem Canonical.eq_iff {u : List α} (ht : Canonical sep t) (hu : Canonical sep u) :
    t = u ↔ segments sep t = segments sep u := by
  constructor
  · rintro rfl
    rfl
  · intro h
    rw [ht.eq, hu.eq, h]

end joining

end Segments

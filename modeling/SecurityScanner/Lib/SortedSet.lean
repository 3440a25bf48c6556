import Mathlib.Data.List.Nodup
import Mathlib.Order.Lattice
import Mathlib.Tactic.Common

/-!
# Sorted sets

A sorted set holds distinct members, each with a score, in the order of the scores. The
order of members with equal scores is given by `before` (the byte order of the members in
a real store); no result depends on it.
-/

namespace Storage

structure SortedSet (μ τ : Type) [LinearOrder τ] where
  entries : List (μ × τ)
  nodup : (entries.map Prod.fst).Nodup
  sorted : entries.Pairwise (fun a b => a.2 ≤ b.2)

namespace SortedSet

variable {μ τ : Type} [LinearOrder τ]

def empty : SortedSet μ τ := ⟨[], List.nodup_nil, List.Pairwise.nil⟩

def members (Z : SortedSet μ τ) : List μ := Z.entries.map Prod.fst

/-- The members with a score between `lo` and `hi`, in order. -/
def inRange (Z : SortedSet μ τ) (lo hi : τ) : List μ :=
  (Z.entries.filter (fun e => lo ≤ e.2 ∧ e.2 ≤ hi)).map Prod.fst

/-- `ZRANGEBYSCORE key lo hi LIMIT start num`. -/
def zrangebyscore (Z : SortedSet μ τ) (lo hi : τ) (start num : Nat) : List μ :=
  ((Z.inRange lo hi).drop start).take num

/-- `ZREMRANGEBYSCORE key lo hi`. -/
def zremrangebyscore (Z : SortedSet μ τ) (lo hi : τ) : SortedSet μ τ where
  entries := Z.entries.filter (fun e => ¬(lo ≤ e.2 ∧ e.2 ≤ hi))
  nodup := Z.nodup.sublist (List.filter_sublist.map _)
  sorted := Z.sorted.sublist List.filter_sublist

/-- Puts an entry behind those with a smaller score and those of the same score that come
before it. -/
def insertEntry (before : μ → μ → Bool) (m : μ) (s : τ) : List (μ × τ) → List (μ × τ)
  | [] => [(m, s)]
  | e :: es =>
    if e.2 < s ∨ (e.2 = s ∧ before e.1 m) then e :: insertEntry before m s es
    else (m, s) :: e :: es

lemma insertEntry_perm (before : μ → μ → Bool) (m : μ) (s : τ) (es : List (μ × τ)) :
    (insertEntry before m s es).Perm ((m, s) :: es) := by
  induction es with
  | nil => exact List.Perm.refl _
  | cons e es ih =>
    unfold insertEntry
    split
    · exact (ih.cons e).trans (List.Perm.swap _ _ _)
    · exact List.Perm.refl _

lemma insertEntry_sorted (before : μ → μ → Bool) (m : μ) (s : τ) {es : List (μ × τ)}
    (h : es.Pairwise (fun a b => a.2 ≤ b.2)) :
    (insertEntry before m s es).Pairwise (fun a b => a.2 ≤ b.2) := by
  induction es with
  | nil => exact List.pairwise_singleton _ _
  | cons e es ih =>
    rw [List.pairwise_cons] at h
    unfold insertEntry
    split
    · rename_i hlt
      have hes : e.2 ≤ s := hlt.elim le_of_lt (fun he => le_of_eq he.1)
      refine List.pairwise_cons.mpr ⟨fun x hx => ?_, ih h.2⟩
      rcases List.mem_cons.mp ((insertEntry_perm before m s es).mem_iff.mp hx) with rfl | hx
      · exact hes
      · exact h.1 x hx
    · rename_i hlt
      have hse : s ≤ e.2 := not_lt.mp (fun hc => hlt (Or.inl hc))
      refine List.pairwise_cons.mpr ⟨fun x hx => ?_, List.pairwise_cons.mpr h⟩
      rcases List.mem_cons.mp hx with rfl | hx
      · exact hse
      · exact le_trans hse (h.1 x hx)

lemma nodup_members (Z : SortedSet μ τ) : Z.members.Nodup := Z.nodup

lemma inRange_sublist (Z : SortedSet μ τ) (lo hi : τ) : (Z.inRange lo hi).Sublist Z.members :=
  List.filter_sublist.map _

lemma nodup_inRange (Z : SortedSet μ τ) (lo hi : τ) : (Z.inRange lo hi).Nodup :=
  Z.nodup.sublist (Z.inRange_sublist lo hi)

lemma mem_inRange_iff_of_mem {Z : SortedSet μ τ} {e : μ × τ} (he : e ∈ Z.entries) {lo hi : τ} :
    e.1 ∈ Z.inRange lo hi ↔ lo ≤ e.2 ∧ e.2 ≤ hi := by
  constructor
  · intro h
    obtain ⟨e', he', heq⟩ := List.mem_map.mp h
    obtain ⟨hmem, hr⟩ := List.mem_filter.mp he'
    rw [← List.inj_on_of_nodup_map Z.nodup hmem he heq]
    exact of_decide_eq_true hr
  · intro h
    exact List.mem_map_of_mem (List.mem_filter.mpr ⟨he, decide_eq_true h⟩)

/-- The read of a whole range. -/
lemma zrangebyscore_eq_inRange {Z : SortedSet μ τ} {lo hi : τ} {num : Nat}
    (h : (Z.inRange lo hi).length ≤ num) : Z.zrangebyscore lo hi 0 num = Z.inRange lo hi := by
  simp [zrangebyscore, List.take_of_length_le h]

lemma zrangebyscore_sublist (Z : SortedSet μ τ) (lo hi : τ) (start num : Nat) :
    (Z.zrangebyscore lo hi start num).Sublist (Z.inRange lo hi) :=
  (List.take_sublist _ _).trans (List.drop_sublist _ _)

lemma nodup_zrangebyscore (Z : SortedSet μ τ) (lo hi : τ) (start num : Nat) :
    (Z.zrangebyscore lo hi start num).Nodup :=
  (Z.nodup_inRange lo hi).sublist (Z.zrangebyscore_sublist lo hi start num)

/-- A removal by score takes out the members of the range and no others. -/
lemma members_perm_zremrangebyscore (Z : SortedSet μ τ) (lo hi : τ) :
    Z.members.Perm (Z.inRange lo hi ++ (Z.zremrangebyscore lo hi).members) := by
  unfold members inRange zremrangebyscore
  rw [← List.map_append]
  refine (List.Perm.symm ?_).map _
  have h := List.filter_append_perm (fun e : μ × τ => decide (lo ≤ e.2 ∧ e.2 ≤ hi)) Z.entries
  simpa only [decide_not] using h

lemma mem_entries_zremrangebyscore {Z : SortedSet μ τ} {lo hi : τ} {e : μ × τ} :
    e ∈ (Z.zremrangebyscore lo hi).entries ↔ e ∈ Z.entries ∧ ¬(lo ≤ e.2 ∧ e.2 ≤ hi) := by
  simp only [zremrangebyscore, List.mem_filter, decide_eq_true_eq]

lemma inRange_zremrangebyscore_self (Z : SortedSet μ τ) (lo hi : τ) :
    (Z.zremrangebyscore lo hi).inRange lo hi = [] := by
  rw [List.eq_nil_iff_forall_not_mem]
  intro m hm
  obtain ⟨e, he, rfl⟩ := List.mem_map.mp hm
  obtain ⟨he, hr⟩ := List.mem_filter.mp he
  exact (mem_entries_zremrangebyscore.mp he).2 (of_decide_eq_true hr)

lemma mem_members_zremrangebyscore {Z : SortedSet μ τ} {lo hi : τ} {m : μ} :
    m ∈ (Z.zremrangebyscore lo hi).members ↔ m ∈ Z.members ∧ m ∉ Z.inRange lo hi := by
  have hperm := Z.members_perm_zremrangebyscore lo hi
  have hdisj := List.disjoint_of_nodup_append (hperm.nodup_iff.mp Z.nodup_members)
  rw [hperm.mem_iff, List.mem_append]
  constructor
  · intro hm
    exact ⟨Or.inr hm, fun hr => hdisj hr hm⟩
  · rintro ⟨hm | hm, hr⟩
    · exact absurd hm hr
    · exact hm

variable [DecidableEq μ]

/-- `ZADD key s m`: a member that is there already gets the new score. -/
def zadd (before : μ → μ → Bool) (m : μ) (s : τ) (Z : SortedSet μ τ) : SortedSet μ τ where
  entries := insertEntry before m s (Z.entries.filter (fun e => e.1 ≠ m))
  nodup := by
    rw [((insertEntry_perm before m s _).map Prod.fst).nodup_iff, List.map_cons,
      List.nodup_cons]
    refine ⟨fun h => ?_, Z.nodup.sublist (List.filter_sublist.map _)⟩
    obtain ⟨e, he, rfl⟩ := List.mem_map.mp h
    simpa using (List.mem_filter.mp he).2
  sorted := insertEntry_sorted before m s (Z.sorted.sublist List.filter_sublist)

lemma members_zadd_perm (before : μ → μ → Bool) (m : μ) (s : τ) (Z : SortedSet μ τ) :
    (Z.zadd before m s).members.Perm (m :: Z.members.erase m) := by
  have h : (Z.entries.filter (fun e => e.1 ≠ m)).map Prod.fst = Z.members.erase m := by
    rw [Z.nodup_members.erase_eq_filter, members, List.filter_map]
    congr 1
    refine List.filter_congr fun e _ => ?_
    simp [bne, BEq.beq]
  exact h ▸ (insertEntry_perm before m s _).map Prod.fst

end SortedSet

end Storage

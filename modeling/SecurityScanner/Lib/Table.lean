import Mathlib.Data.List.Nodup
import Mathlib.Tactic.Common

/-!
# Tables with a primary key

A table is a list of rows whose keys are distinct; the primary key is part of the type, so
an operation that would repeat a key cannot be stated.
-/

namespace Storage

/-- Rows of type `ρ` with the primary key `key`. -/
structure Table (ρ κ : Type) (key : ρ → κ) where
  rows : List ρ
  nodup : (rows.map key).Nodup

namespace Table

variable {ρ κ : Type} {key : ρ → κ}

def empty : Table ρ κ key := ⟨[], List.nodup_nil⟩

def single (r : ρ) : Table ρ κ key := ⟨[r], List.nodup_singleton (key r)⟩

variable [DecidableEq κ]

/-- The row with the key `k`. -/
def find? (T : Table ρ κ key) (k : κ) : Option ρ := T.rows.find? (fun r => key r = k)

/-- Rewrites the row with the key `k` by an `f` that leaves keys alone. -/
def modify (T : Table ρ κ key) (k : κ) (f : ρ → ρ) (hf : ∀ r, key (f r) = key r) :
    Table ρ κ key where
  rows := T.rows.map (fun r => if key r = k then f r else r)
  nodup := by
    have h : key ∘ (fun r => if key r = k then f r else r) = key := by
      funext r
      by_cases hr : key r = k <;> simp [hr, hf]
    rw [List.map_map, h]
    exact T.nodup

/-- Adds a row, unless its key is taken. -/
def insert? (T : Table ρ κ key) (r : ρ) : Option (Table ρ κ key) :=
  if h : key r ∈ T.rows.map key then none
  else some
    { rows := T.rows ++ [r]
      nodup := by
        rw [List.map_append, List.nodup_append]
        refine ⟨T.nodup, List.nodup_singleton _, fun a ha b hb => ?_⟩
        rw [List.mem_singleton.mp hb]
        exact fun he => h (he ▸ ha) }

/-- Keeps the rows that meet `f`. -/
def filter (T : Table ρ κ key) (f : ρ → Bool) : Table ρ κ key where
  rows := T.rows.filter f
  nodup := T.nodup.sublist (List.filter_sublist.map _)

lemma find?_eq_some_iff {T : Table ρ κ key} {k : κ} {r : ρ} :
    T.find? k = some r ↔ r ∈ T.rows ∧ key r = k := by
  constructor
  · intro h
    exact ⟨List.mem_of_find?_eq_some h, by simpa using List.find?_some h⟩
  · rintro ⟨hr, rfl⟩
    have hsome : (T.find? (key r)).isSome := List.find?_isSome.mpr ⟨r, hr, by simp⟩
    obtain ⟨r', hr'⟩ := Option.isSome_iff_exists.mp hsome
    have hk : key r' = key r := by simpa using List.find?_some hr'
    rw [hr', List.inj_on_of_nodup_map T.nodup (List.mem_of_find?_eq_some hr') hr hk]

lemma find?_key_of_mem {T : Table ρ κ key} {r : ρ} (h : r ∈ T.rows) : T.find? (key r) = some r :=
  find?_eq_some_iff.mpr ⟨h, rfl⟩

lemma find?_eq_none_iff {T : Table ρ κ key} {k : κ} :
    T.find? k = none ↔ k ∉ T.rows.map key := by
  simp [find?, List.find?_eq_none]

lemma find?_modify (T : Table ρ κ key) (k k' : κ) (f : ρ → ρ) (hf) :
    (T.modify k f hf).find? k' = if k' = k then (T.find? k').map f else T.find? k' := by
  unfold find? modify
  simp only [List.find?_map]
  have hkey : (fun r => decide (key r = k')) ∘ (fun r => if key r = k then f r else r) =
      fun r => decide (key r = k') := by
    funext r
    by_cases hr : key r = k <;> simp [hr, hf]
  rw [hkey]
  by_cases hk : k' = k
  · subst hk
    cases h : T.rows.find? (fun r => key r = k') with
    | none => simp
    | some r =>
      have hr : key r = k' := by simpa using List.find?_some h
      simp [hr]
  · cases h : T.rows.find? (fun r => key r = k') with
    | none => simp [hk]
    | some r =>
      have hr : key r = k' := by simpa using List.find?_some h
      simp [hk, hr]

lemma insert?_of_find?_eq_none {T : Table ρ κ key} {r : ρ} (h : T.find? (key r) = none) :
    ∃ T', T.insert? r = some T' ∧ T'.rows = T.rows ++ [r] := by
  unfold insert?
  rw [dif_neg (find?_eq_none_iff.mp h)]
  exact ⟨_, rfl, rfl⟩

lemma insert?_of_find?_eq_some {T : Table ρ κ key} {r r' : ρ} (h : T.find? (key r) = some r') :
    T.insert? r = none := by
  unfold insert?
  rw [dif_pos]
  obtain ⟨hm, hk⟩ := find?_eq_some_iff.mp h
  exact hk ▸ List.mem_map_of_mem hm

lemma rows_insert? {T T' : Table ρ κ key} {r : ρ} (h : T.insert? r = some T') :
    T'.rows = T.rows ++ [r] := by
  unfold insert? at h
  split at h
  · cases h
  · rw [← Option.some.inj h]

lemma find?_insert? {T T' : Table ρ κ key} {r : ρ} (h : T.insert? r = some T') (k : κ) :
    T'.find? k = if k = key r then some r else T.find? k := by
  unfold insert? at h
  split at h
  · cases h
  · rename_i hr
    obtain rfl := (Option.some.inj h).symm
    simp only [find?, List.find?_append]
    by_cases hk : k = key r
    · subst hk
      rw [if_pos rfl, ← find?, find?_eq_none_iff.mpr hr]
      simp
    · rw [if_neg hk]
      simp [Ne.symm hk]

lemma find?_insert?_of_ne {T T' : Table ρ κ key} {r : ρ} (h : T.insert? r = some T') {k : κ}
    (hk : k ≠ key r) : T'.find? k = T.find? k := by
  rw [find?_insert? h, if_neg hk]

lemma find?_filter {T : Table ρ κ key} {f : ρ → Bool} {k : κ} {r : ρ} :
    (T.filter f).find? k = some r ↔ T.find? k = some r ∧ f r = true := by
  rw [find?_eq_some_iff, find?_eq_some_iff, filter, List.mem_filter]
  exact and_right_comm

lemma find?_filter_eq_none {T : Table ρ κ key} {f : ρ → Bool} {k : κ}
    (h : ∀ r, T.find? k = some r → f r = false) : (T.filter f).find? k = none := by
  cases hk : (T.filter f).find? k with
  | none => rfl
  | some r =>
    obtain ⟨hr, hf⟩ := find?_filter.mp hk
    exact absurd (hf.symm.trans (h r hr)) (by decide)

lemma find?_filter_of_eq_none {T : Table ρ κ key} {k : κ} (h : T.find? k = none) (f : ρ → Bool) :
    (T.filter f).find? k = none := by
  apply find?_filter_eq_none
  intro r hr
  cases h.symm.trans hr

lemma find?_modify_eq_none {T : Table ρ κ key} {k k' : κ} {f : ρ → ρ} (hf : ∀ r, key (f r) = key r)
    (h : T.find? k' = none) : (T.modify k f hf).find? k' = none := by
  rw [find?_modify, h]
  split <;> rfl

end Table

end Storage

import Mathlib.Tactic.Common
import SecurityScanner.Lib.JavaScript

/-!
# Reading the properties of an object

What an object has under a key after an assignment or a deletion. The value of a key is the
first one in the list. With distinct keys the list is determined by its keys and values.
-/

namespace JavaScript.Obj

variable {o : Obj} {key k : Text} {v w : Value}

lemma lookup_cons : List.lookup k ((key, v) :: o) = if k = key then some v else o.lookup k := by
  rw [List.lookup_cons]
  by_cases h : k = key
  · rw [if_pos h, beq_iff_eq.mpr h]
  · rw [if_neg h, beq_eq_false_iff_ne.mpr h]

lemma has_eq_isSome : o.has key = (o.lookup key).isSome := by
  induction o with
  | nil => rfl
  | cons kv rest ih =>
    obtain ⟨l, w⟩ := kv
    rw [lookup_cons]
    unfold has at ih ⊢
    rw [List.any_cons, ih]
    by_cases h : key = l
    · simp [h]
    · simp [h, Ne.symm h]

lemma lookup_insert (h : o.lookup key = none) :
    List.lookup k (insert key v o) = if k = key then some v else o.lookup k := by
  induction o with
  | nil => exact lookup_cons
  | cons kv rest ih =>
    obtain ⟨l, w⟩ := kv
    have hl : key ≠ l := by
      rintro rfl
      rw [lookup_cons, if_pos rfl] at h
      cases h
    rw [lookup_cons, if_neg hl] at h
    have hbehind : List.lookup k ((l, w) :: insert key v rest) =
        if k = key then some v else List.lookup k ((l, w) :: rest) := by
      rw [lookup_cons, lookup_cons, ih h]
      by_cases hk : k = key
      · subst hk
        rw [if_neg hl, if_pos rfl, if_pos rfl]
      · rw [if_neg hk, if_neg hk]
    unfold insert
    split
    · split
      · exact lookup_cons
      · exact hbehind
    · exact lookup_cons
    · exact hbehind

lemma lookup_map_value (h : k ≠ key) :
    List.lookup k (o.map fun kv => if kv.1 = key then (key, v) else kv) = o.lookup k := by
  induction o with
  | nil => rfl
  | cons kv rest ih =>
    obtain ⟨l, w⟩ := kv
    rw [List.map_cons, lookup_cons]
    by_cases hl : l = key
    · rw [if_pos hl, lookup_cons, if_neg h, if_neg (hl ▸ h), ih]
    · rw [if_neg hl, lookup_cons, ih]

lemma lookup_map_self (h : o.has key = true) :
    List.lookup key (o.map fun kv => if kv.1 = key then (key, v) else kv) = some v := by
  induction o with
  | nil => cases h
  | cons kv rest ih =>
    obtain ⟨l, w⟩ := kv
    rw [List.map_cons]
    by_cases hl : l = key
    · rw [if_pos hl, lookup_cons, if_pos rfl]
    · have hrest : has rest key = true := by
        simpa [has, hl] using h
      rw [if_neg hl, lookup_cons, if_neg (Ne.symm hl), ih hrest]

/-- `{ ...o, [key]: v }` has the value under the key and what `o` has elsewhere. -/
lemma lookup_set : List.lookup k (o.set key v) = if k = key then some v else o.lookup k := by
  unfold set
  by_cases hkey : o.has key = true
  · rw [if_pos hkey]
    by_cases hk : k = key
    · rw [if_pos hk, hk, lookup_map_self hkey]
    · rw [if_neg hk, lookup_map_value hk]
  · rw [if_neg hkey]
    apply lookup_insert
    rwa [has_eq_isSome, Option.not_isSome_iff_eq_none] at hkey

/-- `delete` takes away the key and nothing else. -/
lemma lookup_delete : List.lookup k (o.delete key) = if k = key then none else o.lookup k := by
  unfold delete
  induction o with
  | nil => simp
  | cons kv rest ih =>
    obtain ⟨l, w⟩ := kv
    by_cases hl : l = key
    · rw [List.filter_cons_of_neg (by simpa using hl), ih, lookup_cons]
      by_cases hk : k = key
      · rw [if_pos hk, if_pos hk]
      · rw [if_neg hk, if_neg hk, if_neg (hl ▸ hk)]
    · rw [List.filter_cons_of_pos (by simpa using hl), lookup_cons, lookup_cons, ih]
      by_cases hk : k = key
      · rw [if_pos hk, if_neg (hk ▸ Ne.symm hl), if_pos hk]
      · rw [if_neg hk, if_neg hk]

section distinct

/-- No key occurs twice, as in the objects of the language. -/
def Distinct (o : Obj) : Prop := (o.map Prod.fst).Nodup

lemma mem_of_lookup (h : o.lookup key = some v) : (key, v) ∈ o := by
  induction o with
  | nil => cases h
  | cons kv rest ih =>
    obtain ⟨l, w⟩ := kv
    rw [lookup_cons] at h
    split at h
    · rename_i hkey
      rw [hkey, Option.some.inj h]
      exact List.mem_cons_self
    · exact List.mem_cons_of_mem _ (ih h)

lemma lookup_of_mem (hd : Distinct o) (h : (key, v) ∈ o) : o.lookup key = some v := by
  induction o with
  | nil => cases h
  | cons kv rest ih =>
    obtain ⟨l, w⟩ := kv
    obtain ⟨hl, hrest⟩ := List.nodup_cons.mp hd
    rw [lookup_cons]
    rcases List.mem_cons.mp h with heq | h
    · obtain ⟨rfl, rfl⟩ := Prod.mk.inj heq
      rw [if_pos rfl]
    · have hne : key ≠ l := by
        intro heq
        have hmem : key ∈ rest.map Prod.fst := List.mem_map_of_mem h
        exact hl (heq ▸ hmem)
      rw [if_neg hne, ih hrest h]

lemma eq_of_key {f g : Text × Value} (hd : Distinct o) (hf : f ∈ o) (hg : g ∈ o)
    (hkey : f.1 = g.1) : f = g := by
  have hvalue := lookup_of_mem hd hf
  rw [hkey, lookup_of_mem hd hg] at hvalue
  exact Prod.ext hkey (Option.some.inj hvalue).symm

/-- An object keeps its list when it gets a value that it has. -/
lemma set_of_lookup (hd : Distinct o) (h : o.lookup key = some v) : o.set key v = o := by
  have hhas : o.has key = true := by
    rw [has_eq_isSome, h]
    rfl
  unfold set
  rw [if_pos hhas]
  conv => rhs; rw [← List.map_id o]
  apply List.map_congr_left
  rintro ⟨l, w⟩ hmem
  dsimp only [id]
  split
  · rename_i hl
    rw [hl] at hmem ⊢
    have hw := lookup_of_mem hd hmem
    rw [h] at hw
    rw [Option.some.inj hw]
  · rfl

lemma delete_of_lookup (h : o.lookup key = none) : o.delete key = o := by
  unfold delete
  apply List.filter_eq_self.mpr
  rintro ⟨l, w⟩ hmem
  rw [decide_eq_true_iff]
  rintro rfl
  have hhas : o.has l = true := List.any_eq_true.mpr ⟨(l, w), hmem, by simp⟩
  rw [has_eq_isSome, h] at hhas
  cases hhas

lemma keys_set_of_has (h : o.has key = true) : (o.set key v).map Prod.fst = o.map Prod.fst := by
  unfold set
  rw [if_pos h, List.map_map]
  apply List.map_congr_left
  rintro ⟨l, w⟩ -
  dsimp only [Function.comp]
  split
  · rename_i hl
    exact hl.symm
  · rfl

/-- With the same keys in the same order, the values tell the list. -/
lemma eq_of_lookup {o' : Obj} (hd : Distinct o) (hkeys : o'.map Prod.fst = o.map Prod.fst)
    (h : ∀ k, o'.lookup k = o.lookup k) : o' = o := by
  have hd' : Distinct o' := by
    unfold Distinct
    rwa [hkeys]
  apply List.ext_getElem
  · rw [← List.length_map Prod.fst, hkeys, List.length_map]
  · intro i hi hi'
    have hkey : o'[i].1 = o[i].1 := by
      have hget := List.getElem_of_eq hkeys (i := i) (by rwa [List.length_map])
      rwa [List.getElem_map, List.getElem_map] at hget
    have hleft : o'.lookup o'[i].1 = some o'[i].2 := lookup_of_mem hd' (List.getElem_mem hi)
    have hright : o.lookup o[i].1 = some o[i].2 := lookup_of_mem hd (List.getElem_mem hi')
    rw [h, hkey, hright] at hleft
    exact Prod.ext hkey (Option.some.inj hleft).symm

end distinct

section fields

variable {fields : List (Text × Value)}

lemma lookup_foldl_set_of_ne (h : ∀ f ∈ fields, k ≠ f.1) :
    List.lookup k (fields.foldl (fun o f => Obj.set o f.1 f.2) o) = o.lookup k := by
  induction fields generalizing o with
  | nil => rfl
  | cons f rest ih =>
    rw [List.foldl_cons, ih fun g hg => h g (List.mem_cons_of_mem f hg), lookup_set,
      if_neg (h f List.mem_cons_self)]

/-- Fields that the object has keep its keys. -/
lemma keys_foldl_set (h : ∀ f ∈ fields, o.has f.1 = true) :
    (fields.foldl (fun o f => Obj.set o f.1 f.2) o).map Prod.fst = o.map Prod.fst := by
  induction fields generalizing o with
  | nil => rfl
  | cons f rest ih =>
    have hkeys : (o.set f.1 f.2).map Prod.fst = o.map Prod.fst :=
      keys_set_of_has (h f List.mem_cons_self)
    rw [List.foldl_cons, ih, hkeys]
    intro g hg
    have hhas := h g (List.mem_cons_of_mem f hg)
    rw [has_eq_isSome, lookup_set]
    split
    · rfl
    · rwa [← has_eq_isSome]

/-- `{ ...o, ...fields }` has all the fields. -/
lemma lookup_foldl_set_of_mem (hdistinct : (fields.map Prod.fst).Nodup) {f : Text × Value}
    (hf : f ∈ fields) :
    List.lookup f.1 (fields.foldl (fun o f => Obj.set o f.1 f.2) o) = some f.2 := by
  induction fields generalizing o with
  | nil => cases hf
  | cons g rest ih =>
    rw [List.map_cons, List.nodup_cons] at hdistinct
    rw [List.foldl_cons]
    rcases List.mem_cons.mp hf with rfl | hf
    · rw [lookup_foldl_set_of_ne, lookup_set, if_pos rfl]
      intro g hg heq
      exact hdistinct.1 (heq ▸ List.mem_map_of_mem hg)
    · exact ih hdistinct.2 hf

end fields

end JavaScript.Obj

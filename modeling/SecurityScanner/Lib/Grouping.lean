import Mathlib.Data.List.Perm.Basic
import Mathlib.Data.List.Perm.Subperm
import SecurityScanner.Lib.Python

/-!
# Grouping by a key

`groups = defaultdict(list)`, filled by `groups[key(x)].append(x)`. A group holds the elements
of its key in their order, and there is a group for each key that occurs, so the order of the
elements changes the groups' order and the order within a group, and nothing else.
-/

namespace Python

variable {κ ν : Type} [DecidableEq κ]

namespace Dict

/-- `d[k].append(v)` on a `defaultdict(list)`. -/
def append (d : Dict κ (List ν)) (k : κ) (v : ν) : Dict κ (List ν) :=
  d.set k ((d.get? k).getD [] ++ [v])

/-- The items are the keys with what they are mapped to. -/
lemma items_eq (d : Dict κ (List ν)) : d.items = d.keys.map fun k => (k, (d.get? k).getD []) := by
  unfold keys
  rw [List.map_map]
  have hid : d.items = d.items.map id := (List.map_id _).symm
  conv_lhs => rw [hid]
  apply List.map_congr_left
  intro x hx
  rw [Function.comp_apply, get?, lookup_of_mem d.nodup hx]
  rfl

end Dict

/-- The groups of the elements with the same key. -/
def groupBy (key : ν → κ) (xs : List ν) : Dict κ (List ν) :=
  xs.foldl (fun d x => d.append (key x) x) .empty

section groupBy

variable {key : ν → κ}

lemma groupBy_concat (xs : List ν) (x : ν) :
    groupBy key (xs ++ [x]) = (groupBy key xs).append (key x) x := by
  simp [groupBy]

lemma mem_keys_groupBy {xs : List ν} {k : κ} :
    k ∈ (groupBy key xs).keys ↔ ∃ x ∈ xs, key x = k := by
  induction xs using List.reverseRecOn with
  | nil => simp [groupBy, Dict.empty, Dict.keys]
  | append_singleton xs x ih =>
    rw [groupBy_concat, Dict.append, Dict.mem_keys_set, ih]
    constructor
    · rintro (rfl | ⟨y, hy, rfl⟩)
      · exact ⟨x, by simp, rfl⟩
      · exact ⟨y, by simp [hy], rfl⟩
    · rintro ⟨y, hy, rfl⟩
      rcases List.mem_append.mp hy with hy | hy
      · exact Or.inr ⟨y, hy, rfl⟩
      · exact Or.inl (by rw [List.mem_singleton.mp hy])

/-- A group has the elements of its key, in their order. -/
lemma getD_groupBy (xs : List ν) (k : κ) :
    ((groupBy key xs).get? k).getD [] = xs.filter (key · = k) := by
  induction xs using List.reverseRecOn with
  | nil => rfl
  | append_singleton xs x ih =>
    rw [groupBy_concat, Dict.append, Dict.get?_set, List.filter_append]
    by_cases h : k = key x
    · subst h
      simp [ih]
    · have hne : ¬key x = k := fun he => h he.symm
      simp [h, hne, ih]

lemma items_groupBy (xs : List ν) :
    (groupBy key xs).items = (groupBy key xs).keys.map fun k => (k, xs.filter (key · = k)) := by
  rw [Dict.items_eq]
  apply List.map_congr_left
  intro k _
  rw [getD_groupBy]

lemma values_groupBy (xs : List ν) :
    (groupBy key xs).values = (groupBy key xs).keys.map fun k => xs.filter (key · = k) := by
  unfold Dict.values
  rw [items_groupBy, List.map_map]
  rfl

lemma mem_values_groupBy {xs group : List ν} :
    group ∈ (groupBy key xs).values ↔ ∃ x ∈ xs, group = xs.filter (key · = key x) := by
  rw [values_groupBy, List.mem_map]
  constructor
  · rintro ⟨k, hk, rfl⟩
    obtain ⟨x, hx, rfl⟩ := mem_keys_groupBy.mp hk
    exact ⟨x, hx, rfl⟩
  · rintro ⟨x, hx, rfl⟩
    exact ⟨key x, mem_keys_groupBy.mpr ⟨x, hx, rfl⟩, rfl⟩

lemma keys_groupBy_perm {xs ys : List ν} (h : xs.Perm ys) :
    (groupBy key xs).keys.Perm (groupBy key ys).keys := by
  refine (List.perm_ext_iff_of_nodup (groupBy key xs).nodup (groupBy key ys).nodup).mpr ?_
  intro k
  change k ∈ (groupBy key xs).keys ↔ k ∈ (groupBy key ys).keys
  rw [mem_keys_groupBy, mem_keys_groupBy]
  simp only [h.mem_iff]

/-- Work on the groups that does not depend on the order in a group does not depend on the
order of the elements. -/
lemma flatMap_groupBy_perm {β : Type} {xs ys : List ν} (h : xs.Perm ys) {f : List ν → List β}
    (hf : ∀ k, (f (xs.filter (key · = k))).Perm (f (ys.filter (key · = k)))) :
    ((groupBy key xs).values.flatMap f).Perm ((groupBy key ys).values.flatMap f) := by
  rw [values_groupBy, values_groupBy, List.flatMap_map, List.flatMap_map]
  exact (keys_groupBy_perm h).flatMap fun k _ => hf k

end groupBy

section growth

variable {β : Type}

/-- The same list, or a longer one. -/
def Grows (xs ys : List β) : Prop := xs = ys ∨ xs.length < ys.length

lemma Grows.trans {xs ys zs : List β} (h : Grows xs ys) (h' : Grows ys zs) : Grows xs zs := by
  rcases h with rfl | h
  · exact h'
  · rcases h' with rfl | h'
    · exact Or.inr h
    · exact Or.inr (h.trans h')

lemma Grows.of_sublist {xs ys : List β} (h : xs.Sublist ys) : Grows xs ys := by
  rcases h.length_le.lt_or_eq with hlt | heq
  · exact Or.inr hlt
  · exact Or.inl (h.eq_of_length heq)

lemma Grows.append {xs ys xs' ys' : List β} (h : Grows xs ys) (h' : Grows xs' ys') :
    Grows (xs ++ xs') (ys ++ ys') := by
  rcases h with rfl | h
  · rcases h' with rfl | h'
    · exact Or.inl rfl
    · exact Or.inr (by simpa using h')
  · have hle : xs'.length ≤ ys'.length := by
      rcases h' with rfl | h'
      · exact le_rfl
      · exact h'.le
    exact Or.inr (by rw [List.length_append, List.length_append]; omega)

lemma Grows.eq_of_length {xs ys : List β} (h : Grows xs ys) (heq : xs.length = ys.length) :
    xs = ys := by
  rcases h with rfl | h
  · rfl
  · omega

lemma Grows.flatMap {f g : ν → List β} {xs : List ν} (h : ∀ x ∈ xs, Grows (f x) (g x)) :
    Grows (xs.flatMap f) (xs.flatMap g) := by
  induction xs with
  | nil => exact Or.inl rfl
  | cons x xs ih =>
    rw [List.flatMap_cons, List.flatMap_cons]
    exact (h x (by simp)).append (ih fun y hy => h y (List.mem_cons_of_mem x hy))

/-- What grows with each element of a group grows with the elements. -/
theorem flatMap_groupBy_grows {key : ν → κ} {f : List ν → List β}
    (hf : ∀ group x, Grows (f group) (f (group ++ [x]))) (xs ys : List ν) :
    Grows ((groupBy key xs).values.flatMap f) ((groupBy key (xs ++ ys)).values.flatMap f) := by
  induction ys using List.reverseRecOn with
  | nil => exact Or.inl (by rw [List.append_nil])
  | append_singleton ys y ih =>
    refine ih.trans ?_
    rw [← List.append_assoc, values_groupBy, values_groupBy, groupBy_concat, Dict.append,
      Dict.keys_set, List.flatMap_map, List.flatMap_map]
    have hgroup : ∀ k, Grows (f ((xs ++ ys).filter (key · = k)))
        (f ((xs ++ ys ++ [y]).filter (key · = k))) := by
      intro k
      rw [List.filter_append _ [y]]
      by_cases hk : key y = k
      · rw [List.filter_cons_of_pos (by simpa using hk), List.filter_nil]
        exact hf _ y
      · rw [List.filter_cons_of_neg (by simpa using hk), List.filter_nil, List.append_nil]
        exact Or.inl rfl
    split
    · exact Grows.flatMap fun k _ => hgroup k
    · rw [List.flatMap_append]
      refine (Grows.flatMap fun k _ => hgroup k).trans (Grows.of_sublist ?_)
      exact List.sublist_append_left _ _

end growth

section accumulate

variable {σ : Type} (key : ν → κ) (step : σ → ν → σ) (init : σ)

/-- The value of the key of each element, `init` at first, takes the element in. -/
def accumulate (xs : List ν) : Dict κ σ :=
  xs.foldl (fun d x => d.set (key x) (step ((d.get? (key x)).getD init) x)) .empty

lemma accumulate_concat (xs : List ν) (x : ν) :
    accumulate key step init (xs ++ [x]) =
      let d := accumulate key step init xs
      d.set (key x) (step ((d.get? (key x)).getD init) x) := by
  simp [accumulate]

lemma setItems_map {f : List ν → σ} (k : κ) (v : List ν) (items : List (κ × List ν)) :
    Dict.setItems k (f v) (items.map fun g => (g.1, f g.2)) =
      (Dict.setItems k v items).map fun g => (g.1, f g.2) := by
  induction items with
  | nil => rfl
  | cons g rest ih =>
    rw [List.map_cons, Dict.setItems, Dict.setItems]
    by_cases h : g.1 = k
    · rw [if_pos h, if_pos h, List.map_cons]
    · rw [if_neg h, if_neg h, List.map_cons, ih]

lemma lookup_map {f : List ν → σ} (k : κ) (items : List (κ × List ν)) :
    (items.map fun g => (g.1, f g.2)).lookup k = (items.lookup k).map f := by
  induction items with
  | nil => rfl
  | cons g rest ih =>
    obtain ⟨l, v⟩ := g
    rw [List.map_cons, Dict.lookup_cons_ite, Dict.lookup_cons_ite, ih]
    by_cases h : k = l
    · rw [if_pos h, if_pos h, Option.map_some]
    · rw [if_neg h, if_neg h]

/-- What is accumulated under a key comes from its group. -/
theorem items_accumulate (xs : List ν) :
    (accumulate key step init xs).items =
      (groupBy key xs).items.map fun g => (g.1, g.2.foldl step init) := by
  induction xs using List.reverseRecOn with
  | nil => rfl
  | append_singleton xs x ih =>
    have hget : ((accumulate key step init xs).get? (key x)).getD init =
        (((groupBy key xs).get? (key x)).getD []).foldl step init := by
      unfold Dict.get?
      rw [ih, lookup_map (f := fun g => g.foldl step init)]
      cases (groupBy key xs).items.lookup (key x) <;> rfl
    have hstep : step ((((groupBy key xs).get? (key x)).getD []).foldl step init) x =
        (((groupBy key xs).get? (key x)).getD [] ++ [x]).foldl step init := by
      rw [List.foldl_append]
      rfl
    rw [accumulate_concat, groupBy_concat]
    change Dict.setItems _ _ _ = (Dict.setItems _ _ _).map _
    rw [hget, hstep, ih]
    exact setItems_map (f := fun g => g.foldl step init) _ _ _

end accumulate

section coarser

variable {κ' : Type} [DecidableEq κ'] {key : ν → κ} {f : κ → κ'} {xs : List ν}

/-- The function tells the keys of the elements apart. -/
def Separates (f : κ → κ') (key : ν → κ) (xs : List ν) : Prop :=
  ∀ x ∈ xs, ∀ y ∈ xs, f (key x) = f (key y) → key x = key y

lemma keys_groupBy_of_separates (h : Separates f key xs) :
    (groupBy (fun x => f (key x)) xs).keys = (groupBy key xs).keys.map f := by
  induction xs using List.reverseRecOn with
  | nil => rfl
  | append_singleton xs x ih =>
    have hxs : Separates f key xs := fun y hy z hz =>
      h y (List.mem_append_left _ hy) z (List.mem_append_left _ hz)
    rw [groupBy_concat, groupBy_concat, Dict.append, Dict.append, Dict.keys_set, Dict.keys_set,
      ih hxs]
    have hmem : f (key x) ∈ (groupBy key xs).keys.map f ↔ key x ∈ (groupBy key xs).keys := by
      rw [List.mem_map]
      constructor
      · rintro ⟨k, hk, heq⟩
        obtain ⟨y, hy, rfl⟩ := mem_keys_groupBy.mp hk
        have hkey := h y (List.mem_append_left _ hy) x (by simp) heq
        exact hkey ▸ hk
      · exact fun hk => ⟨_, hk, rfl⟩
    by_cases hk : key x ∈ (groupBy key xs).keys
    · rw [if_pos hk, if_pos (hmem.mpr hk)]
    · rw [if_neg hk, if_neg (mt hmem.mp hk), List.map_append]
      rfl

/-- A key that is seen through such a function makes the same groups in the same order. -/
theorem values_groupBy_of_separates (h : Separates f key xs) :
    (groupBy (fun x => f (key x)) xs).values = (groupBy key xs).values := by
  rw [values_groupBy, values_groupBy, keys_groupBy_of_separates h, List.map_map]
  apply List.map_congr_left
  intro k hk
  obtain ⟨y, hy, rfl⟩ := mem_keys_groupBy.mp hk
  apply List.filter_congr
  intro x hx
  have hiff : f (key x) = f (key y) ↔ key x = key y :=
    ⟨h x hx y hy, congrArg f⟩
  simp only [hiff]

/-- Keys that tell the same elements apart make the same groups in the same order. -/
theorem values_groupBy_congr {key' : ν → κ'}
    (h : ∀ x ∈ xs, ∀ y ∈ xs, key x = key y ↔ key' x = key' y) :
    (groupBy key xs).values = (groupBy key' xs).values := by
  have hleft : Separates Prod.fst (fun x => (key x, key' x)) xs := fun x hx y hy heq =>
    Prod.ext heq ((h x hx y hy).mp heq)
  have hright : Separates Prod.snd (fun x => (key x, key' x)) xs := fun x hx y hy heq =>
    Prod.ext ((h x hx y hy).mpr heq) heq
  exact (values_groupBy_of_separates hleft).trans (values_groupBy_of_separates hright).symm

end coarser

end Python

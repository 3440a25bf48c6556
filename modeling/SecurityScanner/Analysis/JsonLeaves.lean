import SecurityScanner.Analysis.ReportService

/-!
# The leaves of a JSON value

A value as a tree: the children of an object are under its keys and those of an array under
their indices. Two values in which every object and array holds something are equal for
Python exactly when they have equal leaves at the same positions.
-/

namespace SecurityScanner

open Python

namespace Json

/-- A step down into an object or an array. -/
inductive Step where
  | field (k : String)
  | item (i : Nat)
  deriving DecidableEq, Repr

/-- Not an object and not an array. -/
def isLeaf : Json → Bool
  | .arr _ => false
  | .obj _ => false
  | _ => true

def child : Json → Step → Option Json
  | .obj fields, .field k => fields.lookup k
  | .arr xs, .item i => xs[i]?
  | _, _ => none

/-- A child is an item of an array or a field of an object. -/
lemma child_cases {v w : Json} {s : Step} (hw : v.child s = some w) :
    (∃ xs i, v = .arr xs ∧ s = .item i ∧ xs[i]? = some w) ∨
      ∃ fields k, v = .obj fields ∧ s = .field k ∧ fields.lookup k = some w := by
  cases v with
  | arr xs =>
    cases s with
    | field k => cases hw
    | item i => exact .inl ⟨xs, i, rfl, rfl, hw⟩
  | obj fields =>
    cases s with
    | field k => exact .inr ⟨fields, k, rfl, rfl, hw⟩
    | item i => cases hw
  | _ => cases hw

/-- The leaf at a position. -/
def leafAt : Json → List Step → Option Json
  | v, [] => if v.isLeaf then some v else none
  | v, s :: p => (v.child s).bind fun w => leafAt w p

section all

variable (P : Json → Bool)

mutual

/-- The value and all that it holds satisfy `P`. -/
def all : Json → Bool
  | .arr xs => P (.arr xs) && allItems xs
  | .obj fields => P (.obj fields) && allFields fields
  | v => P v

def allItems : List Json → Bool
  | [] => true
  | x :: xs => all x && allItems xs

def allFields : List (String × Json) → Bool
  | [] => true
  | (_, x) :: rest => all x && allFields rest

end

variable {P}

lemma allItems_iff {xs : List Json} : allItems P xs = true ↔ ∀ x ∈ xs, all P x = true := by
  induction xs with
  | nil => simp [allItems]
  | cons x xs ih => simp [allItems, ih]

lemma allFields_iff {fields : List (String × Json)} :
    allFields P fields = true ↔ ∀ f ∈ fields, all P f.2 = true := by
  induction fields with
  | nil => simp [allFields]
  | cons f fields ih => simp [allFields, ih]

lemma self_of_all {v : Json} (h : all P v = true) : P v = true := by
  cases v with
  | arr xs => exact (Bool.and_eq_true_iff.mp h).1
  | obj fields => exact (Bool.and_eq_true_iff.mp h).1
  | _ => exact h

lemma all_child {v w : Json} {s : Step} (h : all P v = true) (hw : v.child s = some w) :
    all P w = true := by
  rcases child_cases hw with ⟨xs, i, rfl, -, hw⟩ | ⟨fields, k, rfl, -, hw⟩
  · exact allItems_iff.mp (Bool.and_eq_true_iff.mp h).2 w (List.mem_of_getElem? hw)
  · exact allFields_iff.mp (Bool.and_eq_true_iff.mp h).2 (k, w) (Dict.mem_of_lookup hw)

end all

/-- No object has a key twice. -/
def distinctKeys : Json → Bool :=
  all fun
    | .obj fields => decide (fields.map Prod.fst).Nodup
    | _ => true

/-- No object and no array is empty. -/
def filled : Json → Bool :=
  all fun
    | .arr xs => !xs.isEmpty
    | .obj fields => !fields.isEmpty
    | _ => true

section child

variable {v w : Json} {s : Step} {p : List Step}

lemma child_of_isLeaf (h : v.isLeaf = true) (s : Step) : v.child s = none := by
  cases v with
  | arr xs => exact absurd h Bool.false_ne_true
  | obj fields => exact absurd h Bool.false_ne_true
  | _ => rfl

lemma isLeaf_of_leafAt (h : v.leafAt p = some w) : w.isLeaf = true := by
  induction p generalizing v with
  | nil =>
    obtain ⟨hl, hw⟩ := Option.ite_none_right_eq_some.mp h
    exact Option.some.inj hw ▸ hl
  | cons s p ih =>
    obtain ⟨u, -, hu⟩ := Option.bind_eq_some_iff.mp h
    exact ih hu

lemma distinctKeys_child (h : v.distinctKeys = true) (hw : v.child s = some w) :
    w.distinctKeys = true :=
  all_child h hw

lemma filled_child (h : v.filled = true) (hw : v.child s = some w) : w.filled = true :=
  all_child h hw

lemma sizeOf_child (hw : v.child s = some w) : sizeOf w < sizeOf v := by
  rcases child_cases hw with ⟨xs, i, rfl, -, hw⟩ | ⟨fields, k, rfl, -, hw⟩
  · have hlt := List.sizeOf_lt_of_mem (List.mem_of_getElem? hw)
    rw [Json.arr.sizeOf_spec]
    omega
  · have hlt := List.sizeOf_lt_of_mem (Dict.mem_of_lookup hw)
    rw [Prod.mk.sizeOf_spec] at hlt
    rw [Json.obj.sizeOf_spec]
    omega

/-- Induction down the tree. -/
@[elab_as_elim]
lemma child_induction {motive : Json → Prop}
    (h : ∀ v, (∀ s w, v.child s = some w → motive w) → motive v) (v : Json) : motive v := by
  induction hn : sizeOf v using Nat.strong_induction_on generalizing v with
  | _ n ih =>
    subst hn
    exact h v fun s w hw => ih (sizeOf w) (sizeOf_child hw) w rfl

/-- A value that is no leaf and holds something has a child. -/
lemma exists_child (hf : v.filled = true) (hv : v.isLeaf = false) : ∃ s w, v.child s = some w := by
  have hself := self_of_all hf
  cases v with
  | arr xs =>
    cases xs with
    | nil => exact absurd hself Bool.false_ne_true
    | cons x xs => exact ⟨.item 0, x, rfl⟩
  | obj fields =>
    cases fields with
    | nil => exact absurd hself Bool.false_ne_true
    | cons f fields =>
      obtain ⟨k, x⟩ := f
      exact ⟨.field k, x, List.lookup_cons_self⟩
  | _ => exact absurd hv.symm Bool.false_ne_true

lemma exists_leafAt (hf : v.filled = true) : ∃ p x, v.leafAt p = some x := by
  induction v using child_induction with
  | h v ih =>
    by_cases hv : v.isLeaf = true
    · exact ⟨[], v, if_pos hv⟩
    · obtain ⟨s, w, hw⟩ := exists_child hf (Bool.eq_false_iff.mpr hv)
      obtain ⟨p, x, hx⟩ := ih s w hw (filled_child hf hw)
      exact ⟨s :: p, x, by rw [leafAt, hw]; exact hx⟩

end child

section leaves

mutual

/-- The leaves with their positions, in the order of the text. -/
def leaves : Json → List (List Step × Json)
  | .arr xs => leavesItems xs 0
  | .obj fields => leavesFields fields
  | v => [([], v)]

def leavesItems : List Json → Nat → List (List Step × Json)
  | [], _ => []
  | x :: xs, i => (leaves x).map (fun l => (.item i :: l.1, l.2)) ++ leavesItems xs (i + 1)

def leavesFields : List (String × Json) → List (List Step × Json)
  | [] => []
  | (k, x) :: rest => (leaves x).map (fun l => (.field k :: l.1, l.2)) ++ leavesFields rest

end

variable {v x : Json} {s : Step} {p : List Step}

lemma mem_leavesItems {xs : List Json} {i : Nat} :
    (p, x) ∈ leavesItems xs i ↔
      ∃ j w q, xs[j]? = some w ∧ p = .item (i + j) :: q ∧ (q, x) ∈ w.leaves := by
  induction xs generalizing i with
  | nil => simp [leavesItems]
  | cons y ys ih =>
    simp only [leavesItems, List.mem_append, List.mem_map, Prod.mk.injEq, ih]
    constructor
    · rintro (⟨⟨q, z⟩, hq, rfl, rfl⟩ | ⟨j, w, q, hw, rfl, hq⟩)
      · exact ⟨0, y, q, rfl, rfl, hq⟩
      · exact ⟨j + 1, w, q, hw, by rw [Nat.add_right_comm, Nat.add_assoc], hq⟩
    · rintro ⟨j, w, q, hw, rfl, hq⟩
      cases j with
      | zero =>
        obtain rfl := Option.some.inj hw
        exact .inl ⟨(q, x), hq, rfl, rfl⟩
      | succ j => exact .inr ⟨j, w, q, hw, by rw [Nat.add_right_comm, Nat.add_assoc], hq⟩

lemma mem_leavesFields {fields : List (String × Json)} :
    (p, x) ∈ leavesFields fields ↔
      ∃ k w q, (k, w) ∈ fields ∧ p = .field k :: q ∧ (q, x) ∈ w.leaves := by
  induction fields with
  | nil => simp [leavesFields]
  | cons f fields ih =>
    obtain ⟨l, y⟩ := f
    simp only [leavesFields, List.mem_append, List.mem_map, Prod.mk.injEq, ih, List.mem_cons]
    constructor
    · rintro (⟨⟨q, z⟩, hq, rfl, rfl⟩ | ⟨k, w, q, hw, rfl, hq⟩)
      · exact ⟨l, y, q, .inl ⟨rfl, rfl⟩, rfl, hq⟩
      · exact ⟨k, w, q, .inr hw, rfl, hq⟩
    · rintro ⟨k, w, q, ⟨rfl, rfl⟩ | hw, rfl, hq⟩
      · exact .inl ⟨(q, x), hq, rfl, rfl⟩
      · exact .inr ⟨k, w, q, hw, rfl, hq⟩

lemma mem_leaves_nil : ([], x) ∈ v.leaves ↔ v.isLeaf = true ∧ x = v := by
  cases v <;> simp [leaves, isLeaf, mem_leavesItems, mem_leavesFields]

lemma mem_leaves_cons (hv : v.distinctKeys = true) :
    (s :: p, x) ∈ v.leaves ↔ ∃ w, v.child s = some w ∧ (p, x) ∈ w.leaves := by
  cases v with
  | arr xs =>
    rw [leaves, mem_leavesItems]
    constructor
    · rintro ⟨j, w, q, hw, hp, hq⟩
      obtain ⟨rfl, rfl⟩ := List.cons.inj hp
      rw [Nat.zero_add]
      exact ⟨w, hw, hq⟩
    · rintro ⟨w, hw, hq⟩
      cases s with
      | field k => simp [child] at hw
      | item i => exact ⟨i, w, p, hw, by rw [Nat.zero_add], hq⟩
  | obj fields =>
    have hnodup : (fields.map Prod.fst).Nodup := of_decide_eq_true (self_of_all hv)
    rw [leaves, mem_leavesFields]
    constructor
    · rintro ⟨k, w, q, hw, hp, hq⟩
      obtain ⟨rfl, rfl⟩ := List.cons.inj hp
      exact ⟨w, Dict.lookup_of_mem hnodup hw, hq⟩
    · rintro ⟨w, hw, hq⟩
      cases s with
      | field k => exact ⟨k, w, p, Dict.mem_of_lookup hw, rfl, hq⟩
      | item i => simp [child] at hw
  | _ => simp [leaves, child]

/-- The list of the leaves and the walk to a position name the same leaves. -/
lemma mem_leaves (hv : v.distinctKeys = true) : (p, x) ∈ v.leaves ↔ v.leafAt p = some x := by
  induction p generalizing v with
  | nil =>
    rw [mem_leaves_nil, leafAt]
    by_cases hl : v.isLeaf = true
    · simp [hl, eq_comm]
    · simp [hl]
  | cons s p ih =>
    rw [mem_leaves_cons hv, leafAt, Option.bind_eq_some_iff]
    constructor
    · rintro ⟨w, hw, hx⟩
      exact ⟨w, hw, (ih (distinctKeys_child hv hw)).mp hx⟩
    · rintro ⟨w, hw, hx⟩
      exact ⟨w, hw, (ih (distinctKeys_child hv hw)).mpr hx⟩

end leaves

section pyEq

/-- Both absent, or both there and equal for Python. -/
def Alike : Option Json → Option Json → Prop := Option.Rel fun x y => pyEq x y = true

lemma alike_none : Alike none none := .none

lemma alike_some_some {x y : Json} : Alike (some x) (some y) ↔ x.pyEq y = true :=
  Option.rel_some_some

lemma alike_some {x : Json} {o : Option Json} :
    Alike (some x) o ↔ ∃ y, o = some y ∧ x.pyEq y = true := by
  cases o with
  | none => simp [Alike]
  | some y => simp [alike_some_some]

lemma Alike.isSome_eq {o o' : Option Json} (h : Alike o o') : o.isSome = o'.isSome := by
  cases h <;> rfl

lemma pyEqList_iff {xs ys : List Json} :
    pyEqList xs ys = true ↔ ∀ i : Nat, Alike xs[i]? ys[i]? := by
  induction xs generalizing ys with
  | nil =>
    cases ys with
    | nil => simp [pyEqList, alike_none]
    | cons y ys =>
      refine ⟨fun h => absurd h Bool.false_ne_true, fun h => ?_⟩
      cases h 0
  | cons x xs ih =>
    cases ys with
    | nil =>
      refine ⟨fun h => absurd h Bool.false_ne_true, fun h => ?_⟩
      cases h 0
    | cons y ys =>
      rw [pyEqList, Bool.and_eq_true, ih]
      constructor
      · rintro ⟨h, hs⟩ i
        cases i with
        | zero => exact alike_some_some.mpr h
        | succ i => exact hs i
      · intro h
        exact ⟨alike_some_some.mp (h 0), fun i => h (i + 1)⟩

lemma pyEqFields_iff {fields fields' : List (String × Json)} :
    pyEqFields fields fields' = true ↔ ∀ f ∈ fields, Alike (some f.2) (fields'.lookup f.1) := by
  induction fields with
  | nil => simp [pyEqFields]
  | cons f fields ih => simp [pyEqFields, ih, alike_some, Option.any_eq_true]

/-- Objects without a repeated key are equal when they have the same keys with equal values. -/
lemma pyEq_obj {fields fields' : List (String × Json)} (hn : (fields.map Prod.fst).Nodup)
    (hn' : (fields'.map Prod.fst).Nodup) :
    (obj fields).pyEq (obj fields') = true ↔
      ∀ k, Alike (fields.lookup k) (fields'.lookup k) := by
  rw [pyEq, Bool.and_eq_true, beq_iff_eq, pyEqFields_iff]
  constructor
  · rintro ⟨hlen, hall⟩ k
    cases hx : fields.lookup k with
    | some x => exact hall (k, x) (Dict.mem_of_lookup hx)
    | none =>
      -- As many keys on both sides and those of the first among the second: the same keys.
      have hsub : fields.map Prod.fst ⊆ fields'.map Prod.fst := by
        intro l hl
        obtain ⟨f, hf, rfl⟩ := List.mem_map.mp hl
        exact Dict.mem_map_fst_iff.mpr (hall f hf).isSome_eq.symm
      have hperm : (fields.map Prod.fst).Perm (fields'.map Prod.fst) :=
        (List.subperm_of_subset hn hsub).perm_of_length_le (by simp [hlen])
      have hk : k ∉ fields'.map Prod.fst := by
        rw [← hperm.mem_iff, Dict.mem_map_fst_iff, hx]
        exact Bool.false_ne_true
      rw [Dict.mem_map_fst_iff, Option.not_isSome_iff_eq_none] at hk
      rw [hk]
      exact alike_none
  · intro h
    constructor
    · have hperm : (fields.map Prod.fst).Perm (fields'.map Prod.fst) := by
        apply (List.perm_ext_iff_of_nodup hn hn').mpr
        intro k
        rw [Dict.mem_map_fst_iff, Dict.mem_map_fst_iff, (h k).isSome_eq]
      simpa using hperm.length_eq
    · intro f hf
      rw [← Dict.lookup_of_mem hn hf]
      exact h f.1

variable {a b : Json}

lemma pyEq_of_isLeaf (ha : a.isLeaf = true) :
    a.pyEq b = true ↔ b.isLeaf = true ∧ leafEq a b = true := by
  cases a with
  | arr xs => exact absurd ha Bool.false_ne_true
  | obj fields => exact absurd ha Bool.false_ne_true
  | _ => cases b <;> simp [pyEq, leafEq, number?, isLeaf]

lemma isLeaf_eq_of_pyEq (h : a.pyEq b = true) : a.isLeaf = b.isLeaf := by
  cases a with
  | arr xs => cases b <;> simp_all [pyEq, leafEq, number?, isLeaf]
  | obj fields => cases b <;> simp_all [pyEq, leafEq, number?, isLeaf]
  | _ => exact ((pyEq_of_isLeaf rfl).mp h).1.symm

/-- Equal values have equal children. -/
lemma alike_child (ha : a.distinctKeys = true) (hb : b.distinctKeys = true)
    (h : a.pyEq b = true) (s : Step) : Alike (a.child s) (b.child s) := by
  cases a with
  | arr xs =>
    cases b with
    | arr ys =>
      cases s with
      | field k => exact alike_none
      | item i => exact pyEqList_iff.mp h i
    | _ => simp [pyEq, leafEq, number?] at h
  | obj fields =>
    cases b with
    | obj fields' =>
      cases s with
      | field k =>
        have hn := of_decide_eq_true (self_of_all ha)
        have hn' := of_decide_eq_true (self_of_all hb)
        exact (pyEq_obj hn hn').mp h k
      | item i => exact alike_none
    | _ => simp [pyEq, leafEq, number?] at h
  | _ =>
    have hl := (pyEq_of_isLeaf rfl).mp h
    rw [child_of_isLeaf rfl, child_of_isLeaf hl.1]
    exact alike_none

/-- Values with equal children are equal, when a common child shows that they are of one kind. -/
lemma pyEq_of_alike_child (ha : a.distinctKeys = true) (hb : b.distinctKeys = true) {s : Step}
    {w w' : Json} (hw : a.child s = some w) (hw' : b.child s = some w')
    (h : ∀ s, Alike (a.child s) (b.child s)) : a.pyEq b = true := by
  rcases child_cases hw with ⟨xs, i, rfl, rfl, -⟩ | ⟨fields, k, rfl, rfl, -⟩
  · rcases child_cases hw' with ⟨ys, j, rfl, -, -⟩ | ⟨fields', l, -, hl, -⟩
    · exact pyEqList_iff.mpr fun j => h (.item j)
    · cases hl
  · rcases child_cases hw' with ⟨ys, j, -, hj, -⟩ | ⟨fields', l, rfl, -, -⟩
    · cases hj
    · have hn := of_decide_eq_true (self_of_all ha)
      have hn' := of_decide_eq_true (self_of_all hb)
      exact (pyEq_obj hn hn').mpr fun l => h (.field l)

/-- Equal values have equal leaves at the same positions. -/
theorem alike_leafAt (ha : a.distinctKeys = true) (hb : b.distinctKeys = true)
    (h : a.pyEq b = true) (p : List Step) : Alike (a.leafAt p) (b.leafAt p) := by
  induction p generalizing a b with
  | nil =>
    rw [leafAt, leafAt, ← isLeaf_eq_of_pyEq h]
    by_cases hl : a.isLeaf = true
    · simpa [hl] using alike_some_some.mpr h
    · simpa [hl] using alike_none
  | cons s p ih =>
    have hs := alike_child ha hb h s
    rw [leafAt, leafAt]
    cases hw : a.child s with
    | none =>
      rw [hw] at hs
      cases hw' : b.child s with
      | none => exact alike_none
      | some w' => rw [hw'] at hs; cases hs
    | some w =>
      rw [hw] at hs
      obtain ⟨w', hw', heq⟩ := alike_some.mp hs
      rw [hw']
      exact ih (distinctKeys_child ha hw) (distinctKeys_child hb hw') heq

/-- Where the leaves of a child are, the other value has a child as well. -/
lemma exists_child_of_leaves {s : Step} {w : Json} (hf : a.filled = true)
    (h : ∀ p, (a.leafAt p).isSome = (b.leafAt p).isSome) (hw : a.child s = some w) :
    ∃ w', b.child s = some w' := by
  obtain ⟨p, x, hx⟩ := exists_leafAt (filled_child hf hw)
  have hp := h (s :: p)
  rw [leafAt, hw, Option.bind_some, hx, leafAt] at hp
  obtain ⟨y, hy⟩ := Option.isSome_iff_exists.mp hp.symm
  obtain ⟨w', hw', -⟩ := Option.bind_eq_some_iff.mp hy
  exact ⟨w', hw'⟩

/-- Values that hold something everywhere are equal when their leaves are. -/
theorem pyEq_of_alike_leafAt (ha : a.distinctKeys = true) (hb : b.distinctKeys = true)
    (hfa : a.filled = true) (hfb : b.filled = true)
    (h : ∀ p, Alike (a.leafAt p) (b.leafAt p)) : a.pyEq b = true := by
  induction a using child_induction generalizing b with
  | h a ih =>
    by_cases hl : a.isLeaf = true
    · have hroot := h []
      rw [leafAt, if_pos hl] at hroot
      obtain ⟨y, hy, heq⟩ := alike_some.mp hroot
      have hb' : b = y := by
        rw [leafAt] at hy
        exact Option.some.inj (Option.ite_none_right_eq_some.mp hy).2
      rw [hb']
      exact heq
    · have hsame : ∀ p, (a.leafAt p).isSome = (b.leafAt p).isSome := fun p => (h p).isSome_eq
      have hchildren : ∀ s, Alike (a.child s) (b.child s) := by
        intro s
        cases hw : a.child s with
        | none =>
          cases hw' : b.child s with
          | none => exact alike_none
          | some w' =>
            obtain ⟨w, hw''⟩ := exists_child_of_leaves hfb (fun p => (hsame p).symm) hw'
            rw [hw] at hw''
            cases hw''
        | some w =>
          obtain ⟨w', hw'⟩ := exists_child_of_leaves hfa hsame hw
          rw [hw']
          apply alike_some_some.mpr
          apply ih s w hw (distinctKeys_child ha hw) (distinctKeys_child hb hw')
            (filled_child hfa hw) (filled_child hfb hw')
          intro p
          have hp := h (s :: p)
          rwa [leafAt, leafAt, hw, hw'] at hp
      obtain ⟨s, w, hw⟩ := exists_child hfa (Bool.eq_false_iff.mpr hl)
      obtain ⟨w', hw'⟩ := exists_child_of_leaves hfa hsame hw
      exact pyEq_of_alike_child ha hb hw hw' hchildren

end pyEq

end Json

end SecurityScanner

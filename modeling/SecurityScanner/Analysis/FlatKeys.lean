import SecurityScanner.Analysis.FieldDiff

/-!
# The keys of a flat dictionary

`_flatten_json` writes the positions of the leaves as keys and escapes nothing, so two leaves
can come to one key. Below an array and below different documents this cannot happen: it takes
an object with two keys of which one goes on as the text of a position below the other.
-/

namespace SecurityScanner

open Python

open Json (Step)

namespace Json

/-- The value at a position. -/
def valueAt : Json → List Step → Option Json
  | v, [] => some v
  | v, s :: p => (v.child s).bind fun w => valueAt w p

/-- What a position below the key `k` adds to it. At the top an empty key leaves no text, so
that the position is written as from the root. -/
def textBelow (top : Bool) (k : String) (p : List Step) : List Char :=
  if top = true ∧ k = "" then (write "" p).toList else stepsText p

/-- A leaf below a key is written like a leaf below a longer key of the object. -/
def Shadowed (top : Bool) (fields : List (String × Json)) : Prop :=
  ∃ k x l y u p q, (k, x) ∈ fields ∧ (l, y) ∈ fields ∧ u ≠ [] ∧ l.toList = k.toList ++ u ∧
    (x.leafAt p).isSome = true ∧ (y.leafAt q).isSome = true ∧
    textBelow top k p = u ++ stepsText q

/-- Each leaf has an entry of its own, and there are no other entries. -/
structure KeepsLeaves (v : Json) : Prop where
  distinct : ∀ p q, (v.leafAt p).isSome = true → (v.leafAt q).isSome = true →
    write "" p = write "" q → p = q
  value : ∀ p x, v.leafAt p = some x → (flattenJson v "").get? (write "" p) = some x
  only : ∀ key x, (flattenJson v "").get? key = some x →
    ∃ p, v.leafAt p = some x ∧ write "" p = key

section positions

variable {v w x : Json} {c p q : List Step}

lemma write_append (pfx : String) (c p : List Step) :
    write pfx (c ++ p) = write (write pfx c) p := by
  induction c generalizing pfx with
  | nil => rfl
  | cons s c ih => exact ih (s.extend pfx)

lemma leafAt_append (h : v.valueAt c = some w) (p : List Step) :
    v.leafAt (c ++ p) = w.leafAt p := by
  induction c generalizing v with
  | nil =>
    obtain rfl := Option.some.inj h
    rfl
  | cons s c ih =>
    obtain ⟨u, hu, hw⟩ := Option.bind_eq_some_iff.mp h
    change (v.child s).bind (fun w => w.leafAt (c ++ p)) = w.leafAt p
    rw [hu]
    exact ih hw

lemma self_of_valueAt {P : Json → Bool} (hv : all P v = true) (h : v.valueAt c = some w) :
    P w = true := by
  induction c generalizing v with
  | nil =>
    obtain rfl := Option.some.inj h
    exact self_of_all hv
  | cons s c ih =>
    obtain ⟨u, hu, hw⟩ := Option.bind_eq_some_iff.mp h
    exact ih (all_child hv hu) hw

end positions

section texts

variable {p q : List Step} {k l : String} {pfx : String}

/-- The text before a key. -/
def beforeKey (pfx : String) : List Char := if pfx = "" then [] else pfx.toList ++ ['.']

lemma toList_write_key (pfx k : String) (p : List Step) :
    (write pfx (.field k :: p)).toList =
      beforeKey pfx ++ (k.toList ++ textBelow (decide (pfx = "")) k p) := by
  unfold beforeKey textBelow
  by_cases hpfx : pfx = ""
  · subst hpfx
    by_cases hk : k = ""
    · subst hk
      rfl
    · have hbelow : ¬(decide ("" = "") = true ∧ k = "") := fun h => hk h.2
      rw [toList_write_field hk, if_neg hbelow]
      rfl
  · rw [toList_write hpfx, if_neg hpfx, if_neg (by simp [hpfx]), List.append_assoc]
    rfl

lemma toList_write_index (pfx : String) (i : Nat) (p : List Step) :
    (write pfx (.item i :: p)).toList = pfx.toList ++ stepsText (.item i :: p) := by
  by_cases hpfx : pfx = ""
  · rw [hpfx, toList_write_item]
    rfl
  · exact toList_write hpfx

lemma textBelow_of_ne (top : Bool) (hk : k ≠ "") (p : List Step) :
    textBelow top k p = stepsText p := if_neg fun h => hk h.2

/-- Of two different keys that are written alike, with what stands below them, one goes on
where the other ends. -/
lemma longer_of_write_eq (hne : k ≠ l)
    (h : write pfx (.field k :: p) = write pfx (.field l :: q)) :
    ∃ u, u ≠ [] ∧
      (l.toList = k.toList ++ u ∧ textBelow (decide (pfx = "")) k p = u ++ stepsText q ∨
        k.toList = l.toList ++ u ∧ textBelow (decide (pfx = "")) l q = u ++ stepsText p) := by
  have htext := congrArg String.toList h
  rw [toList_write_key, toList_write_key, List.append_cancel_left_eq] at htext
  have hlonger {m n : String} {u : List Char} (hu : n.toList = m.toList ++ u) (hmn : m ≠ n) :
      u ≠ [] ∧ n ≠ "" := by
    have hune : u ≠ [] := by
      rintro rfl
      rw [List.append_nil] at hu
      exact hmn (String.toList_inj.mp hu.symm)
    refine ⟨hune, ?_⟩
    rintro rfl
    exact hune (List.append_eq_nil_iff.mp hu.symm).2
  rcases List.append_eq_append_iff.mp htext with ⟨u, hl, hp⟩ | ⟨u, hk, hq⟩
  · obtain ⟨hu, hlne⟩ := hlonger hl hne
    rw [textBelow_of_ne _ hlne] at hp
    exact ⟨u, hu, .inl ⟨hl, hp⟩⟩
  · obtain ⟨hu, hkne⟩ := hlonger hk hne.symm
    rw [textBelow_of_ne _ hkne] at hq
    exact ⟨u, hu, .inr ⟨hk, hq⟩⟩

lemma shadowed_of_write_eq {fields : List (String × Json)} {x y : Json} (hne : k ≠ l)
    (hx : (k, x) ∈ fields) (hy : (l, y) ∈ fields) (hp : (x.leafAt p).isSome = true)
    (hq : (y.leafAt q).isSome = true)
    (h : write pfx (.field k :: p) = write pfx (.field l :: q)) :
    Shadowed (decide (pfx = "")) fields := by
  obtain ⟨u, hu, ⟨hl, htext⟩ | ⟨hk, htext⟩⟩ := longer_of_write_eq hne h
  · exact ⟨k, x, l, y, u, p, q, hx, hy, hu, hl, hp, hq, htext⟩
  · exact ⟨l, y, k, x, u, q, p, hy, hx, hu, hk, hq, hp, htext⟩

end texts

section keeping

variable {v : Json}

/-- Two leaves of the value are written differently below the key `pfx`. -/
def DistinctBelow (pfx : String) (v : Json) : Prop :=
  ∀ p q, (v.leafAt p).isSome = true → (v.leafAt q).isSome = true →
    write pfx p = write pfx q → p = q

/-- No object in the value, which has the key `pfx`, shadows a leaf. -/
def Unshadowed (pfx : String) (v : Json) : Prop :=
  ∀ c fields, v.valueAt c = some (.obj fields) → ¬Shadowed (decide (write pfx c = "")) fields

lemma Unshadowed.child {pfx : String} {s : Step} {w : Json} (h : Unshadowed pfx v)
    (hw : v.child s = some w) : Unshadowed (s.extend pfx) w := fun c fields hc =>
  h (s :: c) fields (Option.bind_eq_some_iff.mpr ⟨w, hw, hc⟩)

lemma leafAt_cons {s : Step} {p : List Step} (h : (v.leafAt (s :: p)).isSome = true) :
    ∃ w, v.child s = some w ∧ (w.leafAt p).isSome = true := by
  obtain ⟨x, hx⟩ := Option.isSome_iff_exists.mp h
  obtain ⟨w, hw, hp⟩ := Option.bind_eq_some_iff.mp hx
  exact ⟨w, hw, by rw [hp]; rfl⟩

lemma isLeaf_of_leafAt_nil (h : (v.leafAt []).isSome = true) : v.isLeaf = true := by
  obtain ⟨x, hx⟩ := Option.isSome_iff_exists.mp h
  exact (Option.ite_none_right_eq_some.mp hx).1

lemma leafAt_cons_of_isLeaf (hv : v.isLeaf = true) (s : Step) (p : List Step) :
    ¬(v.leafAt (s :: p)).isSome = true := by
  intro h
  obtain ⟨w, hw, -⟩ := leafAt_cons h
  rw [child_of_isLeaf hv] at hw
  cases hw

/-- Two children of a value are written differently, unless one of two keys goes on where the
other ends. -/
lemma step_eq_of_write_eq {pfx : String} {s t : Step} {w w' : Json} {p q : List Step}
    (h : Unshadowed pfx v) (hw : v.child s = some w) (hw' : v.child t = some w')
    (hp : (w.leafAt p).isSome = true) (hq : (w'.leafAt q).isSome = true)
    (htext : write pfx (s :: p) = write pfx (t :: q)) : s = t := by
  rcases child_cases hw with ⟨xs, i, rfl, rfl, -⟩ | ⟨fields, k, rfl, rfl, hx⟩
  · rcases child_cases hw' with ⟨-, j, -, rfl, -⟩ | ⟨fields, l, hobj, -, -⟩
    · have hlist := congrArg String.toList htext
      rw [toList_write_index, toList_write_index, List.append_cancel_left_eq] at hlist
      rw [(item_inj hlist).1]
    · cases hobj
  · rcases child_cases hw' with ⟨xs, j, harr, -, -⟩ | ⟨fields', l, hobj, rfl, hy⟩
    · cases harr
    · cases hobj
      by_contra hne
      have hkl : k ≠ l := fun heq => hne (by rw [heq])
      exact h [] fields rfl (shadowed_of_write_eq hkl (Dict.mem_of_lookup hx)
        (Dict.mem_of_lookup hy) hp hq htext)

lemma Unshadowed.distinctBelow (pfx : String) (h : Unshadowed pfx v) : DistinctBelow pfx v := by
  induction v using child_induction generalizing pfx with
  | h v ih =>
    intro p q hp hq htext
    cases p with
    | nil =>
      cases q with
      | nil => rfl
      | cons t q => exact absurd hq (leafAt_cons_of_isLeaf (isLeaf_of_leafAt_nil hp) t q)
    | cons s p =>
      cases q with
      | nil => exact absurd hp (leafAt_cons_of_isLeaf (isLeaf_of_leafAt_nil hq) s p)
      | cons t q =>
        obtain ⟨w, hw, hp'⟩ := leafAt_cons hp
        obtain ⟨w', hw', hq'⟩ := leafAt_cons hq
        obtain rfl := step_eq_of_write_eq h hw hw' hp' hq' htext
        obtain rfl : w = w' := Option.some.inj (hw.symm.trans hw')
        rw [ih s w hw (s.extend pfx) (h.child hw) p q hp' hq' htext]

/-- A shadowed leaf is written like the leaf that shadows it. -/
lemma DistinctBelow.unshadowed {pfx : String} (hv : v.distinctKeys = true)
    (h : DistinctBelow pfx v) : Unshadowed pfx v := by
  rintro c fields hc ⟨k, x, l, y, u, p, q, hx, hy, hu, hl, hp, hq, htext⟩
  have hnodup : (fields.map Prod.fst).Nodup := of_decide_eq_true (self_of_valueAt hv hc)
  have hleaf (m : String) (z : Json) (r : List Step) (hz : (m, z) ∈ fields)
      (hr : (z.leafAt r).isSome = true) : (v.leafAt (c ++ .field m :: r)).isSome = true := by
    rw [leafAt_append hc, leafAt]
    change ((fields.lookup m).bind fun w => w.leafAt r).isSome = true
    rw [Dict.lookup_of_mem hnodup hz]
    exact hr
  have hlne : l ≠ "" := by
    rintro rfl
    exact hu (List.append_eq_nil_iff.mp hl.symm).2
  have hwrite : write pfx (c ++ .field k :: p) = write pfx (c ++ .field l :: q) := by
    rw [write_append, write_append, ← String.toList_inj, toList_write_key, toList_write_key,
      htext, textBelow_of_ne _ hlne, hl, List.append_assoc]
  have heq := h _ _ (hleaf k x p hx hp) (hleaf l y q hy hq) hwrite
  have hkl : k = l := Step.field.inj (List.cons.inj (List.append_cancel_left heq)).1
  rw [hkl] at hl
  exact hu (List.self_eq_append_right.mp hl)

lemma keepsLeaves_iff_distinctBelow (hv : v.distinctKeys = true) :
    v.KeepsLeaves ↔ DistinctBelow "" v := by
  constructor
  · exact KeepsLeaves.distinct
  · intro h
    have honly (key : String) (x : Json) (hx : (flattenJson v "").get? key = some x) :
        ∃ p, v.leafAt p = some x ∧ write "" p = key := by
      rw [flattenJson_eq] at hx
      rcases Dict.get?_update_eq_some hx with hempty | hmem
      · cases hempty
      · obtain ⟨⟨p, y⟩, hl, he⟩ := List.mem_map.mp hmem
        obtain ⟨rfl, rfl⟩ := Prod.mk.inj he
        exact ⟨p, (mem_leaves hv).mp hl, rfl⟩
    refine ⟨h, fun p x hp => ?_, honly⟩
    have hkey : ((flattenJson v "").get? (write "" p)).isSome = true := by
      have hmem : (write "" p, x) ∈ written "" v.leaves :=
        List.mem_map_of_mem ((mem_leaves hv).mpr hp)
      rw [flattenJson_eq, ← Dict.mem_keys_iff, Dict.mem_keys_update]
      exact .inr (List.mem_map_of_mem hmem)
    obtain ⟨y, hy⟩ := Option.isSome_iff_exists.mp hkey
    obtain ⟨q, hq, hwrite⟩ := honly _ y hy
    have hpq := h q p (by rw [hq]; rfl) (by rw [hp]; rfl) hwrite
    rw [hpq, hp] at hq
    rw [hy, hq]

/-- A key that goes on where another ends starts a step of a position there. -/
lemma unshadowed_of_plainKeys (hv : v.plainKeys = true) (pfx : String) : Unshadowed pfx v := by
  rintro c fields hc ⟨k, x, l, y, u, p, q, hx, hy, hu, hl, -, -, htext⟩
  have hplain := List.all_eq_true.mp (self_of_valueAt hv hc)
  obtain ⟨hk, -⟩ := keyChars_of_plain (hplain _ hx)
  obtain ⟨-, hchars⟩ := keyChars_of_plain (hplain _ hy)
  rw [textBelow_of_ne _ hk] at htext
  obtain ⟨d, u', rfl⟩ := List.exists_cons_of_ne_nil hu
  have hstop : isKeyChar d = false := head?_stepsText d (by rw [htext]; rfl)
  rw [hchars d (by simp [hl])] at hstop
  cases hstop

/-- Each leaf keeps its entry exactly if in no object a leaf below a key is written like a leaf
below a longer key. -/
theorem flattenJson_keeps_leaves_iff (hv : v.distinctKeys = true) :
    v.KeepsLeaves ↔ Unshadowed "" v := by
  rw [keepsLeaves_iff_distinctBelow hv]
  exact ⟨fun h => h.unshadowed hv, fun h => Unshadowed.distinctBelow "" h⟩

theorem flattenJson_keeps_leaves_user :
    (Json.obj [("user", .obj [("id", .int 1), ("tags", .arr [.null, .str "x"])])]).KeepsLeaves :=
  (flattenJson_keeps_leaves_iff (by decide +kernel)).mpr
    (unshadowed_of_plainKeys (by decide +kernel) "")

/-- Two leaves with one key, and the id of the first is gone. -/
theorem flattenJson_merges_leaves :
    let v : Json := .obj [("user.id", .int 1), ("user", .obj [("id", .int 2)])]
    v.leaves = [([.field "user.id"], .int 1), ([.field "user", .field "id"], .int 2)] ∧
      (flattenJson v "").items = [("user.id", .int 2)] ∧ ¬v.KeepsLeaves := by
  intro v
  have hsame : write "" [.field "user.id"] = write "" [.field "user", .field "id"] := by
    decide +kernel
  refine ⟨by decide +kernel, by decide +kernel, fun h => ?_⟩
  have heq := h.distinct _ _ (by decide +kernel) (by decide +kernel) hsame
  exact absurd heq (by decide)

end keeping

end Json

end SecurityScanner

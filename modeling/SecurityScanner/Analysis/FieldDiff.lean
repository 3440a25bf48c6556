import SecurityScanner.Analysis.JsonLeaves

/-!
# The field diff

`_field_diff` of `diff_engine.py` compares two bodies by their flat dictionaries. A flat
dictionary has the leaves of a body under their positions written as text, so it does not
show a container that holds nothing, and two positions written the same share one entry.
-/

namespace SecurityScanner

open Python

open Json (Step Alike)

namespace Json

/-- The key of a child, from the key of its parent. -/
def Step.extend (pfx : String) : Step → String
  | .field k => if pfx ≠ "" then pfx ++ "." ++ k else k
  | .item i => pfx ++ "[" ++ toString i ++ "]"

/-- A position as `_flatten_json` writes it. -/
def write : String → List Step → String
  | pfx, [] => pfx
  | pfx, s :: p => write (s.extend pfx) p

/-- The leaves under the keys that are written for them. -/
def written (pfx : String) (ls : List (List Step × Json)) : List (String × Json) :=
  ls.map fun l => (write pfx l.1, l.2)

lemma written_append (pfx : String) (ls ls' : List (List Step × Json)) :
    written pfx (ls ++ ls') = written pfx ls ++ written pfx ls' :=
  List.map_append

lemma written_step (pfx : String) (s : Step) (ls : List (List Step × Json)) :
    written pfx (ls.map fun l => (s :: l.1, l.2)) = written (s.extend pfx) ls := by
  simp [written, write, Function.comp_def]

end Json

open Json

section flatten

/-- What the loops do with a child: its leaves go under its key, before those of the rest. -/
lemma update_child (s : Step) {v : Json} {pfx : String} {result : Dict String Json}
    {rest : List (List Step × Json)}
    (h : flattenJson v (s.extend pfx) = Dict.empty.update (written (s.extend pfx) v.leaves)) :
    (result.update (flattenJson v (s.extend pfx)).items).update (written pfx rest) =
      result.update (written pfx (v.leaves.map (fun l => (s :: l.1, l.2)) ++ rest)) := by
  rw [h, Dict.update_items_update, written_append, written_step, Dict.update_append]
  rfl

mutual

/-- The flat dictionary is made of the leaves, each under its written position. -/
lemma flattenJson_eq : ∀ (v : Json) (pfx : String),
    flattenJson v pfx = Dict.empty.update (written pfx v.leaves)
  | .obj fields, pfx => by rw [flattenJson, flattenFields_eq, leaves]
  | .arr xs, pfx => by rw [flattenJson, flattenItems_eq, leaves]
  | .null, pfx => rfl
  | .bool _, pfx => rfl
  | .int _, pfx => rfl
  | .float _, pfx => rfl
  | .str _, pfx => rfl

lemma flattenFields_eq : ∀ (fields : List (String × Json)) (pfx : String)
    (result : Dict String Json),
    flattenFields fields pfx result = result.update (written pfx (leavesFields fields))
  | [], pfx, result => rfl
  | (k, v) :: rest, pfx, result => by
    rw [flattenFields, flattenFields_eq rest, leavesFields]
    exact update_child (.field k) (flattenJson_eq v _)

lemma flattenItems_eq : ∀ (xs : List Json) (pfx : String) (i : Nat)
    (result : Dict String Json),
    flattenItems xs pfx i result = result.update (written pfx (leavesItems xs i))
  | [], pfx, i, result => rfl
  | v :: rest, pfx, i, result => by
    rw [flattenItems, flattenItems_eq rest, leavesItems]
    exact update_child (.item i) (flattenJson_eq v _)

end

end flatten

/-- The leaf of a body at a position, as the diff reads it: a falsy body has none. -/
def Json.fieldAt (v : Json) (p : List Step) : Option Json :=
  if v.truthy then v.leafAt p else none

section flatOf

variable {v x : Json} {k : String} {p : List Step}

lemma isLeaf_of_fieldAt (h : v.fieldAt p = some x) : x.isLeaf = true :=
  isLeaf_of_leafAt (Option.ite_none_right_eq_some.mp h).2

lemma get?_flatOf_eq_some (hv : v.distinctKeys = true) (h : (flatOf v).get? k = some x) :
    ∃ p, v.fieldAt p = some x ∧ write "" p = k := by
  unfold flatOf at h
  by_cases ht : v.truthy = true
  · rw [if_pos ht, flattenJson_eq] at h
    rcases Dict.get?_update_eq_some h with hempty | hmem
    · cases hempty
    · obtain ⟨⟨p, y⟩, hl, he⟩ := List.mem_map.mp hmem
      obtain ⟨rfl, rfl⟩ := Prod.mk.inj he
      refine ⟨p, ?_, rfl⟩
      rw [fieldAt, if_pos ht]
      exact (mem_leaves hv).mp hl
  · rw [if_neg ht] at h
    cases h

lemma get?_flatOf_eq_none (hv : v.distinctKeys = true)
    (h : ∀ p, (v.fieldAt p).isSome = true → write "" p ≠ k) : (flatOf v).get? k = none := by
  cases hx : (flatOf v).get? k with
  | none => rfl
  | some x =>
    obtain ⟨p, hp, hw⟩ := get?_flatOf_eq_some hv hx
    exact absurd hw (h p (by rw [hp]; rfl))

/-- Each leaf has an entry under its key. -/
lemma isSome_get?_flatOf (hv : v.distinctKeys = true) (h : v.fieldAt p = some x) :
    ((flatOf v).get? (write "" p)).isSome = true := by
  obtain ⟨ht, hx⟩ := Option.ite_none_right_eq_some.mp h
  have hmem : (write "" p, x) ∈ written "" v.leaves :=
    List.mem_map_of_mem ((mem_leaves hv).mpr hx)
  rw [flatOf, if_pos ht, flattenJson_eq, ← Dict.mem_keys_iff, Dict.mem_keys_update]
  exact .inr (List.mem_map_of_mem hmem)

end flatOf

section diff

variable {I : Interpreter} {a b : Json}

/-- Nothing is added, removed or changed. -/
def FieldDiff.Unchanged (d : FieldDiff) : Prop :=
  d.added = [] ∧ d.removed = [] ∧ d.valueChanges = []

instance (d : FieldDiff) : Decidable d.Unchanged :=
  inferInstanceAs (Decidable (_ ∧ _ ∧ _))

/-- No key of the first dictionary is left over when all are keys of the second. -/
lemma leftover_eq_nil {d e : Dict String Json} :
    I.setOrder (d.keys.filter (· ∉ e.keys)) = [] ↔ ∀ k ∈ d.keys, k ∈ e.keys := by
  rw [I.setOrder_eq_nil_iff, List.filter_eq_nil_iff]
  simp

/-- The leaves of two flat dictionaries are compared as values. -/
lemma alike_leaf {x y : Json} (hx : x.isLeaf = true) (hy : y.isLeaf = true) :
    Alike (some x) (some y) ↔ leafEq x y = true := by
  rw [alike_some_some, pyEq_of_isLeaf hx]
  exact and_iff_right hy

lemma valueChanges_eq_nil : (fieldDiff I a b).valueChanges = [] ↔
    ∀ k x y, (flatOf a).get? k = some x → (flatOf b).get? k = some y → leafEq x y = true := by
  simp only [fieldDiff, List.filterMap_eq_nil_iff, (I.setOrder_perm _).mem_iff, List.mem_filter,
    decide_eq_true_eq]
  constructor
  · intro h k x y hx hy
    have hk : k ∈ (flatOf a).keys ∧ k ∈ (flatOf b).keys := by
      simp [Dict.mem_keys_iff, hx, hy]
    have hnone := h k hk
    rw [hx, hy] at hnone
    simpa using hnone
  · rintro h k ⟨hka, hkb⟩
    obtain ⟨x, hx⟩ := Option.isSome_iff_exists.mp (Dict.mem_keys_iff.mp hka)
    obtain ⟨y, hy⟩ := Option.isSome_iff_exists.mp (Dict.mem_keys_iff.mp hkb)
    simp [hx, hy, h k x y hx hy]

lemma unchanged_fieldDiff (ha : a.distinctKeys = true) (hb : b.distinctKeys = true) :
    (fieldDiff I a b).Unchanged ↔ ∀ k, Alike ((flatOf a).get? k) ((flatOf b).get? k) := by
  have hadded : (fieldDiff I a b).added = [] ↔ ∀ k ∈ (flatOf b).keys, k ∈ (flatOf a).keys :=
    leftover_eq_nil
  have hremoved : (fieldDiff I a b).removed = [] ↔ ∀ k ∈ (flatOf a).keys, k ∈ (flatOf b).keys :=
    leftover_eq_nil
  have hleaf : ∀ {k x y}, (flatOf a).get? k = some x → (flatOf b).get? k = some y →
      (Alike (some x) (some y) ↔ leafEq x y = true) := by
    intro k x y hx hy
    obtain ⟨p, hp, -⟩ := get?_flatOf_eq_some ha hx
    obtain ⟨q, hq, -⟩ := get?_flatOf_eq_some hb hy
    exact alike_leaf (isLeaf_of_fieldAt hp) (isLeaf_of_fieldAt hq)
  rw [FieldDiff.Unchanged, hadded, hremoved, valueChanges_eq_nil]
  simp only [Dict.mem_keys_iff]
  constructor
  · rintro ⟨hba, hab, hval⟩ k
    cases hx : (flatOf a).get? k with
    | none =>
      cases hy : (flatOf b).get? k with
      | none => exact alike_none
      | some y =>
        have hk := hba k (by rw [hy]; rfl)
        rw [hx] at hk
        cases hk
    | some x =>
      obtain ⟨y, hy⟩ := Option.isSome_iff_exists.mp (hab k (by rw [hx]; rfl))
      rw [hy]
      exact (hleaf hx hy).mpr (hval k x y hx hy)
  · intro h
    refine ⟨fun k hk => by rwa [(h k).isSome_eq], fun k hk => by rwa [← (h k).isSome_eq], ?_⟩
    intro k x y hx hy
    have hk := h k
    rw [hx, hy] at hk
    exact (hleaf hx hy).mp hk

/-- Two positions of the bodies are written differently. -/
def Unambiguous (a b : Json) : Prop :=
  ∀ p q, (a.fieldAt p).isSome = true ∨ (b.fieldAt p).isSome = true →
    (a.fieldAt q).isSome = true ∨ (b.fieldAt q).isSome = true →
      write "" p = write "" q → p = q

lemma Unambiguous.symm (h : Unambiguous a b) : Unambiguous b a :=
  fun p q hp hq => h p q hp.symm hq.symm

/-- Without ambiguity an entry is found where it was put. -/
lemma Unambiguous.get?_write (h : Unambiguous a b) (ha : a.distinctKeys = true) {p : List Step}
    (hp : (a.fieldAt p).isSome = true ∨ (b.fieldAt p).isSome = true) :
    (flatOf a).get? (write "" p) = a.fieldAt p := by
  cases hx : (flatOf a).get? (write "" p) with
  | some x =>
    obtain ⟨q, hq, hw⟩ := get?_flatOf_eq_some ha hx
    have hpq := h p q hp (.inl (by rw [hq]; rfl)) hw.symm
    rw [hpq, hq]
  | none =>
    cases hx' : a.fieldAt p with
    | none => rfl
    | some x =>
      have hsome := isSome_get?_flatOf ha hx'
      rw [hx] at hsome
      cases hsome

/-- The bodies have equal leaves at the same positions. -/
def SameLeaves (a b : Json) : Prop := ∀ p, Alike (a.fieldAt p) (b.fieldAt p)

lemma unchanged_iff_sameLeaves (ha : a.distinctKeys = true) (hb : b.distinctKeys = true)
    (h : Unambiguous a b) : (fieldDiff I a b).Unchanged ↔ SameLeaves a b := by
  rw [unchanged_fieldDiff ha hb]
  constructor
  · intro hk p
    by_cases hp : (a.fieldAt p).isSome = true ∨ (b.fieldAt p).isSome = true
    · rw [← h.get?_write ha hp, ← h.symm.get?_write hb hp.symm]
      exact hk (write "" p)
    · simp only [not_or, Option.not_isSome_iff_eq_none] at hp
      rw [hp.1, hp.2]
      exact alike_none
  · intro hp k
    by_cases hk : ∃ p, write "" p = k ∧
        ((a.fieldAt p).isSome = true ∨ (b.fieldAt p).isSome = true)
    · obtain ⟨p, rfl, hsome⟩ := hk
      rw [h.get?_write ha hsome, h.symm.get?_write hb hsome.symm]
      exact hp p
    · rw [get?_flatOf_eq_none ha fun p hsome hw => hk ⟨p, hw, .inl hsome⟩,
        get?_flatOf_eq_none hb fun p hsome hw => hk ⟨p, hw, .inr hsome⟩]
      exact alike_none

lemma truthy_of_number {v : Json} {q : ℚ} (h : number? v = some q) :
    v.truthy = decide (q ≠ 0) := by
  cases v with
  | bool b => cases b <;> simp_all [number?, Json.truthy, eq_comm]
  | int n =>
    obtain rfl := Option.some.inj h
    exact Bool.eq_iff_iff.mpr (by simp [Json.truthy])
  | float r =>
    obtain rfl := Option.some.inj h
    exact Bool.eq_iff_iff.mpr (by simp [Json.truthy])
  | _ => cases h

lemma leafEq_cases (h : leafEq a b = true) :
    (∃ q, number? a = some q ∧ number? b = some q) ∨ a = b := by
  unfold leafEq at h
  split at h
  · next p q hp hq =>
    obtain rfl := of_decide_eq_true h
    exact .inl ⟨p, hp, hq⟩
  · exact .inr (of_decide_eq_true h)
  · exact absurd h Bool.false_ne_true

lemma truthy_eq_of_pyEq (h : a.pyEq b = true) : a.truthy = b.truthy := by
  have hleaf : leafEq a b = true → a.truthy = b.truthy := by
    intro hab
    rcases leafEq_cases hab with ⟨q, hp, hq⟩ | rfl
    · rw [truthy_of_number hp, truthy_of_number hq]
    · rfl
  cases a with
  | arr xs =>
    cases b with
    | arr ys => cases xs <;> cases ys <;> simp_all [Json.pyEq, pyEqList, Json.truthy]
    | _ => exact hleaf h
  | obj fields =>
    cases b with
    | obj fields' =>
      have hlen : fields.length = fields'.length := by
        simpa using (Bool.and_eq_true_iff.mp h).1
      cases fields <;> cases fields' <;> simp_all [Json.truthy]
    | _ => exact hleaf h
  | _ => exact hleaf ((pyEq_of_isLeaf rfl).mp h).2

lemma fieldAt_of_truthy (h : a.truthy = true) (p : List Step) : a.fieldAt p = a.leafAt p :=
  if_pos h

lemma fieldAt_of_falsy (h : a.truthy = false) (p : List Step) : a.fieldAt p = none :=
  if_neg (Bool.eq_false_iff.mp h)

lemma sameLeaves_of_pyEq (ha : a.distinctKeys = true) (hb : b.distinctKeys = true)
    (h : a.pyEq b = true) : SameLeaves a b := by
  intro p
  have ht := truthy_eq_of_pyEq h
  cases hta : a.truthy with
  | false =>
    rw [fieldAt_of_falsy hta, fieldAt_of_falsy (ht ▸ hta)]
    exact alike_none
  | true =>
    rw [fieldAt_of_truthy hta, fieldAt_of_truthy (ht ▸ hta)]
    exact alike_leafAt ha hb h p

/-- With the leaves of a body that is not empty, the other body is not read as empty. -/
lemma truthy_of_leaves (h : ∀ p, (a.fieldAt p).isSome = (b.fieldAt p).isSome)
    (hf : a.filled = true) (ha : a.truthy = true) : b.truthy = true := by
  obtain ⟨p, x, hx⟩ := exists_leafAt hf
  have hp := h p
  rw [fieldAt_of_truthy ha, hx] at hp
  obtain ⟨y, hy⟩ := Option.isSome_iff_exists.mp hp.symm
  exact (Option.ite_none_right_eq_some.mp hy).1

lemma SameLeaves.pyEq (h : SameLeaves a b) (ha : a.distinctKeys = true)
    (hb : b.distinctKeys = true) (hfa : a.filled = true) (hfb : b.filled = true)
    (hta : a.truthy = true) (htb : b.truthy = true) : a.pyEq b = true := by
  apply pyEq_of_alike_leafAt ha hb hfa hfb
  intro p
  rw [← fieldAt_of_truthy hta, ← fieldAt_of_truthy htb]
  exact h p

section plain

/-- Not a character that starts the next step of a written position. -/
def isKeyChar (c : Char) : Bool := c ≠ '.' && c ≠ '['

def plainKey (k : String) : Bool := k ≠ "" && k.toList.all isKeyChar

/-- No key is empty or holds one of the characters `.` and `[`. -/
def Json.plainKeys : Json → Bool :=
  all fun
    | .obj fields => fields.all fun f => plainKey f.1
    | _ => true

def Json.Step.plain : Step → Bool
  | .field k => plainKey k
  | .item _ => true

/-- What a position adds to the key of its parent. -/
def stepsText : List Step → List Char
  | [] => []
  | .field k :: p => '.' :: (k.toList ++ stepsText p)
  | .item i :: p => '[' :: ((toString i).toList ++ ']' :: stepsText p)

variable {p q : List Step}

lemma plain_of_child {v w : Json} {s : Step} (hv : v.plainKeys = true) (hw : v.child s = some w) :
    s.plain = true := by
  rcases child_cases hw with ⟨xs, i, -, rfl, -⟩ | ⟨fields, k, rfl, rfl, hw⟩
  · rfl
  · exact List.all_eq_true.mp (self_of_all hv) (k, w) (Dict.mem_of_lookup hw)

lemma plain_of_leafAt {v x : Json} (hv : v.plainKeys = true) (hx : v.leafAt p = some x) :
    ∀ s ∈ p, s.plain = true := by
  induction p generalizing v with
  | nil => simp
  | cons s p ih =>
    obtain ⟨w, hw, hx⟩ := Option.bind_eq_some_iff.mp hx
    exact List.forall_mem_cons.mpr ⟨plain_of_child hv hw, ih (all_child hv hw) hx⟩

lemma toList_write {pfx : String} (h : pfx ≠ "") : (write pfx p).toList = pfx.toList ++ stepsText p := by
  induction p generalizing pfx with
  | nil => simp [write, stepsText]
  | cons s p ih =>
    have hne : s.extend pfx ≠ "" := by
      cases s <;> simp [Step.extend, h]
    rw [write, ih hne]
    cases s <;> simp [Step.extend, h, stepsText]

/-- At the root a key stands without its `.`. -/
lemma toList_write_field {k : String} (h : k ≠ "") :
    (write "" (.field k :: p)).toList = k.toList ++ stepsText p := by
  rw [write]
  exact toList_write h

lemma toList_write_item (i : Nat) :
    (write "" (.item i :: p)).toList = stepsText (.item i :: p) := by
  have hne : (Step.item i).extend "" ≠ "" := by simp [Step.extend]
  rw [write, toList_write hne]
  simp [Step.extend, stepsText]

/-- Two texts that both end at the first character of another kind end at the same place. -/
lemma append_inj_of_stop {P : Char → Bool} {k l r t : List Char} (hk : ∀ c ∈ k, P c = true)
    (hl : ∀ c ∈ l, P c = true) (hr : ∀ c ∈ r.head?, P c = false)
    (ht : ∀ c ∈ t.head?, P c = false) (h : k ++ r = l ++ t) : k = l ∧ r = t := by
  have hstop : ∀ {m u : List Char}, (∀ c ∈ m, P c = true) → (∀ c ∈ u.head?, P c = false) →
      (m ++ u).takeWhile P = m := by
    intro m u hm hu
    rw [List.takeWhile_append_of_pos hm]
    cases u with
    | nil => simp
    | cons c u => simp [hu c rfl]
  have hkl : k = l := by rw [← hstop hk hr, h, hstop hl ht]
  subst hkl
  exact ⟨rfl, List.append_cancel_left h⟩

lemma head?_stepsText : ∀ c ∈ (stepsText p).head?, isKeyChar c = false := by
  cases p with
  | nil => simp [stepsText]
  | cons s p => cases s <;> simp [stepsText, isKeyChar]

lemma keyChars_of_plain {k : String} (h : plainKey k = true) :
    k ≠ "" ∧ ∀ c ∈ k.toList, isKeyChar c = true := by
  simpa [plainKey] using h

lemma digits_ne_bracket (i : Nat) : ∀ c ∈ (toString i).toList, (c != ']') = true := by
  intro c hc
  rw [Nat.toString_eq_repr, Nat.toList_repr] at hc
  have hdigit := Nat.isDigit_of_mem_toDigits (by decide) (by decide) hc
  rw [bne_iff_ne]
  rintro rfl
  exact absurd hdigit (by decide)

lemma item_inj {i j : Nat} (h : stepsText (.item i :: p) = stepsText (.item j :: q)) :
    i = j ∧ stepsText p = stepsText q := by
  have happ := List.tail_eq_of_cons_eq h
  obtain ⟨hij, hrest⟩ := append_inj_of_stop (digits_ne_bracket i) (digits_ne_bracket j)
    (by simp) (by simp) happ
  have hdigits : Nat.toDigits 10 i = Nat.toDigits 10 j := by
    rwa [Nat.toString_eq_repr, Nat.toString_eq_repr, Nat.toList_repr, Nat.toList_repr] at hij
  have hread := congrArg (fun ds => Nat.ofDigitChars 10 ds 0) hdigits
  exact ⟨by simpa using hread, List.tail_eq_of_cons_eq hrest⟩

lemma field_inj {k l : String} (hk : plainKey k = true) (hl : plainKey l = true)
    (h : k.toList ++ stepsText p = l.toList ++ stepsText q) : k = l ∧ stepsText p = stepsText q := by
  obtain ⟨hkl, hrest⟩ := append_inj_of_stop (keyChars_of_plain hk).2 (keyChars_of_plain hl).2
    head?_stepsText head?_stepsText h
  exact ⟨String.toList_inj.mp hkl, hrest⟩

lemma stepsText_injective (hp : ∀ s ∈ p, s.plain = true) (hq : ∀ s ∈ q, s.plain = true)
    (h : stepsText p = stepsText q) : p = q := by
  induction p generalizing q with
  | nil =>
    cases q with
    | nil => rfl
    | cons t q => cases t <;> cases h
  | cons s p ih =>
    cases q with
    | nil => cases s <;> cases h
    | cons t q =>
      obtain ⟨hs, hps⟩ := List.forall_mem_cons.mp hp
      obtain ⟨ht, hqs⟩ := List.forall_mem_cons.mp hq
      cases s with
      | field k =>
        cases t with
        | field l =>
          obtain ⟨rfl, htail⟩ := field_inj hs ht (List.tail_eq_of_cons_eq h)
          rw [ih hps hqs htail]
        | item j => simp [stepsText] at h
      | item i =>
        cases t with
        | field l => simp [stepsText] at h
        | item j =>
          obtain ⟨rfl, htail⟩ := item_inj h
          rw [ih hps hqs htail]

/-- A plain key starts with a character that no text after a key starts with. -/
lemma field_ne_stepsText {k : String} (hk : plainKey k = true) {cs : List Char} :
    k.toList ++ cs ≠ stepsText q := by
  obtain ⟨hne, hall⟩ := keyChars_of_plain hk
  intro h
  cases hcs : k.toList with
  | nil => exact hne (String.toList_eq_nil_iff.mp hcs)
  | cons c ks =>
    rw [hcs, List.cons_append] at h
    have hstop : isKeyChar c = false := head?_stepsText c (by rw [← h]; rfl)
    rw [hall c (by simp [hcs])] at hstop
    cases hstop

lemma toList_write_root (p : List Step) :
    (∃ k r, p = .field k :: r) ∨ (write "" p).toList = stepsText p := by
  cases p with
  | nil => exact .inr rfl
  | cons s p =>
    cases s with
    | field k => exact .inl ⟨k, p, rfl⟩
    | item i => exact .inr (toList_write_item i)

/-- Positions with plain keys are written differently. -/
theorem write_injective (hp : ∀ s ∈ p, s.plain = true) (hq : ∀ s ∈ q, s.plain = true)
    (h : write "" p = write "" q) : p = q := by
  have htext := congrArg String.toList h
  rcases toList_write_root p with ⟨k, p', rfl⟩ | hp'
  · obtain ⟨hk, hps⟩ := List.forall_mem_cons.mp hp
    rw [toList_write_field (keyChars_of_plain hk).1] at htext
    rcases toList_write_root q with ⟨l, q', rfl⟩ | hq'
    · obtain ⟨hl, hqs⟩ := List.forall_mem_cons.mp hq
      rw [toList_write_field (keyChars_of_plain hl).1] at htext
      obtain ⟨rfl, htail⟩ := field_inj hk hl htext
      rw [stepsText_injective hps hqs htail]
    · rw [hq'] at htext
      exact absurd htext (field_ne_stepsText hk)
  · rw [hp'] at htext
    rcases toList_write_root q with ⟨l, q', rfl⟩ | hq'
    · have hl := (List.forall_mem_cons.mp hq).1
      rw [toList_write_field (keyChars_of_plain hl).1] at htext
      exact absurd htext.symm (field_ne_stepsText hl)
    · rw [hq'] at htext
      exact stepsText_injective hp hq htext

/-- When no key is empty or holds one of the separators, no two positions are written alike. -/
lemma unambiguous_of_plainKeys {a b : Json} (ha : a.plainKeys = true) (hb : b.plainKeys = true) :
    Unambiguous a b := by
  have hplain : ∀ p, (a.fieldAt p).isSome = true ∨ (b.fieldAt p).isSome = true →
      ∀ s ∈ p, s.plain = true := by
    rintro p (hp | hp)
    · obtain ⟨x, hx⟩ := Option.isSome_iff_exists.mp hp
      exact plain_of_leafAt ha (Option.ite_none_right_eq_some.mp hx).2
    · obtain ⟨x, hx⟩ := Option.isSome_iff_exists.mp hp
      exact plain_of_leafAt hb (Option.ite_none_right_eq_some.mp hx).2
  exact fun p q hp hq h => write_injective (hplain p hp) (hplain q hq) h

end plain

/-- The field diff is empty when the bodies have equal leaves at the same positions. -/
theorem fieldDiff_unchanged_iff (I : Interpreter) {a b : Json} (ha : a.distinctKeys = true)
    (hb : b.distinctKeys = true) (h : Unambiguous a b) :
    ((fieldDiff I a b).Unchanged ↔ SameLeaves a b) ∧
      (a.pyEq b = true → (fieldDiff I a b).Unchanged) ∧
      (a.filled = true → b.filled = true → (a.truthy = true ∨ b.truthy = true) →
        (fieldDiff I a b).Unchanged → a.pyEq b = true) := by
  have hiff := unchanged_iff_sameLeaves (I := I) ha hb h
  refine ⟨hiff, fun heq => hiff.mpr (sameLeaves_of_pyEq ha hb heq), ?_⟩
  intro hfa hfb ht hun
  have hsame := hiff.mp hun
  have hsome : ∀ p, (a.fieldAt p).isSome = (b.fieldAt p).isSome := fun p => (hsame p).isSome_eq
  rcases ht with hta | htb
  · exact hsame.pyEq ha hb hfa hfb hta (truthy_of_leaves hsome hfa hta)
  · exact hsame.pyEq ha hb hfa hfb (truthy_of_leaves (fun p => (hsome p).symm) hfb htb) htb

/-- Two bodies that differ in the order of the keys and in `True` for `1`. -/
theorem fieldDiff_unchanged_iff_reordered :
    let a : Json := .obj [("id", .int 1), ("tags", .arr [.str "x", .obj [("k", .bool true)]])]
    let b : Json := .obj [("tags", .arr [.str "x", .obj [("k", .int 1)]]), ("id", .int 1)]
    (fieldDiff ascii a b).Unchanged ∧ SameLeaves a b ∧ a.pyEq b = true := by
  intro a b
  have hplain : Unambiguous a b := unambiguous_of_plainKeys (by decide +kernel) (by decide +kernel)
  obtain ⟨hiff, hof, hto⟩ :=
    fieldDiff_unchanged_iff ascii (by decide +kernel) (by decide +kernel) hplain
  have hun := hof (by decide +kernel)
  exact ⟨hun, hiff.mp hun, hto (by decide +kernel) (by decide +kernel) (.inl rfl) hun⟩

/-- Different bodies with nothing in them, with one falsy value for another and with keys that
are written alike have an empty diff; equal bodies with such keys have none. -/
theorem fieldDiff_not_exact :
    ((fieldDiff ascii (.obj [("a", .obj [])]) (.obj [("b", .obj [])])).Unchanged ∧
      (Json.obj [("a", .obj [])]).pyEq (.obj [("b", .obj [])]) = false) ∧
    ((fieldDiff ascii (.int 0) (.str "")).Unchanged ∧ (Json.int 0).pyEq (.str "") = false) ∧
    ((fieldDiff ascii (.obj [("a.b", .int 1)]) (.obj [("a", .obj [("b", .int 1)])])).Unchanged ∧
      (Json.obj [("a.b", .int 1)]).pyEq (.obj [("a", .obj [("b", .int 1)])]) = false) ∧
    (¬(fieldDiff ascii (.obj [("a.b", .int 1), ("a", .obj [("b", .int 2)])])
        (.obj [("a", .obj [("b", .int 2)]), ("a.b", .int 1)])).Unchanged ∧
      (Json.obj [("a.b", .int 1), ("a", .obj [("b", .int 2)])]).pyEq
        (.obj [("a", .obj [("b", .int 2)]), ("a.b", .int 1)]) = true) := by
  decide +kernel

end diff

end SecurityScanner

import Mathlib.Data.List.Infix
import SecurityScanner.Lib.Binary64

/-!
# Built-ins of Python

Strings, dictionaries and the rounding of floats. `Interpreter` holds what the documentation
of the language leaves to a table or to the implementation: the Unicode database and the
order in which a set is walked.
-/

namespace Python

open Binary64

structure Interpreter where
  lower : String → String
  upper : String → String
  isDecimal : Char → Bool
  /-- The order of a set, given its elements in the order they were added. -/
  setOrder : List String → List String
  setOrder_perm : ∀ xs, (setOrder xs).Perm xs

lemma Interpreter.setOrder_eq_nil_iff (I : Interpreter) {xs : List String} :
    I.setOrder xs = [] ↔ xs = [] := by
  rw [← List.length_eq_zero_iff, (I.setOrder_perm xs).length_eq, List.length_eq_zero_iff]

/-- Only ASCII has case and digits, and a set keeps the order of its elements. -/
def ascii : Interpreter where
  lower s := s.map Char.toLower
  upper s := s.map Char.toUpper
  isDecimal := Char.isDigit
  setOrder := id
  setOrder_perm := List.Perm.refl

/-- The exceptions of operations on values of the wrong type, or with the wrong content. -/
inductive PyError where
  | attributeError | typeError | valueError
  deriving DecidableEq, Repr

section text

def isSpace (c : Char) : Bool :=
  let n := c.toNat
  (9 ≤ n && n ≤ 13) || (28 ≤ n && n ≤ 32) || n = 0x85 || n = 0xa0 || n = 0x1680 ||
    (0x2000 ≤ n && n ≤ 0x200a) || n = 0x2028 || n = 0x2029 || n = 0x202f || n = 0x205f ||
    n = 0x3000

/-- `s.strip()`. -/
def strip (s : String) : List Char :=
  ((s.toList.dropWhile isSpace).reverse.dropWhile isSpace).reverse

/-- `sub in s`. -/
def contains (s sub : String) : Bool := decide (sub.toList <:+: s.toList)

/-- The text of an optional string in an f-string. -/
def text : Option String → String
  | some s => s
  | none => "None"

/-- The truth value of an optional string. -/
def truthy : Option String → Bool
  | some s => s != ""
  | none => false

end text

section dict

variable {κ ν : Type}

/-- A dictionary keeps the order in which its keys came. -/
structure Dict (κ ν : Type) where
  items : List (κ × ν)
  nodup : (items.map Prod.fst).Nodup

namespace Dict

def empty : Dict κ ν := ⟨[], List.nodup_nil⟩

def keys (d : Dict κ ν) : List κ := d.items.map Prod.fst

def values (d : Dict κ ν) : List ν := d.items.map Prod.snd

lemma ext_items {d e : Dict κ ν} (h : d.items = e.items) : d = e := by
  cases d
  cases e
  cases h
  rfl

variable [DecidableEq κ]

def get? (d : Dict κ ν) (k : κ) : Option ν := d.items.lookup k

/-- The items after `d[k] = v`: a key that is there keeps its place. -/
def setItems (k : κ) (v : ν) : List (κ × ν) → List (κ × ν)
  | [] => [(k, v)]
  | (k', v') :: rest => if k' = k then (k, v) :: rest else (k', v') :: setItems k v rest

lemma mem_keys_setItems {k k' : κ} {v : ν} {xs : List (κ × ν)} :
    k' ∈ (setItems k v xs).map Prod.fst ↔ k' = k ∨ k' ∈ xs.map Prod.fst := by
  induction xs with
  | nil => simp [setItems]
  | cons x xs ih =>
    unfold setItems
    by_cases h : x.1 = k
    · simp [h]
    · simp only [h, if_false, List.map_cons, List.mem_cons, ih]
      exact or_left_comm

lemma nodup_setItems {k : κ} {v : ν} {xs : List (κ × ν)} (h : (xs.map Prod.fst).Nodup) :
    ((setItems k v xs).map Prod.fst).Nodup := by
  induction xs with
  | nil => simp [setItems]
  | cons x xs ih =>
    obtain ⟨hx, hxs⟩ := List.nodup_cons.mp h
    unfold setItems
    by_cases hk : x.1 = k
    · subst hk
      simpa using h
    · simp only [hk, if_false, List.map_cons]
      apply List.nodup_cons.mpr ⟨?_, ih hxs⟩
      rw [mem_keys_setItems]
      rintro (h' | h')
      · exact hk h'
      · exact hx h'

/-- `d[k] = v`. -/
def set (d : Dict κ ν) (k : κ) (v : ν) : Dict κ ν :=
  ⟨setItems k v d.items, nodup_setItems d.nodup⟩

/-- `d.update(d')`, for the items of `d'`. -/
def update (d : Dict κ ν) (items : List (κ × ν)) : Dict κ ν :=
  items.foldl (fun d kv => d.set kv.1 kv.2) d

lemma lookup_cons_ite (k k' : κ) (v : ν) (xs : List (κ × ν)) :
    ((k, v) :: xs).lookup k' = if k' = k then some v else xs.lookup k' := by
  rw [List.lookup_cons]
  by_cases h : k' = k
  · rw [if_pos h, beq_iff_eq.mpr h]
  · rw [if_neg h, beq_eq_false_iff_ne.mpr h]

lemma lookup_setItems (k k' : κ) (v : ν) (xs : List (κ × ν)) :
    (setItems k v xs).lookup k' = if k' = k then some v else xs.lookup k' := by
  induction xs with
  | nil => exact lookup_cons_ite k k' v []
  | cons x xs ih =>
    obtain ⟨y, w⟩ := x
    unfold setItems
    by_cases hy : y = k
    · subst hy
      rw [if_pos rfl, lookup_cons_ite, lookup_cons_ite]
      by_cases h : k' = y <;> simp [h]
    · rw [if_neg hy, lookup_cons_ite, lookup_cons_ite, ih]
      by_cases h : k' = y
      · subst h
        simp [hy]
      · simp [h]

lemma get?_set (d : Dict κ ν) (k k' : κ) (v : ν) :
    (d.set k v).get? k' = if k' = k then some v else d.get? k' :=
  lookup_setItems k k' v d.items

lemma mem_keys_set {d : Dict κ ν} {k k' : κ} {v : ν} :
    k' ∈ (d.set k v).keys ↔ k' = k ∨ k' ∈ d.keys :=
  mem_keys_setItems

/-- A new key goes to the end. -/
lemma map_fst_setItems (k : κ) (v : ν) (xs : List (κ × ν)) :
    (setItems k v xs).map Prod.fst =
      if k ∈ xs.map Prod.fst then xs.map Prod.fst else xs.map Prod.fst ++ [k] := by
  induction xs with
  | nil => simp [setItems]
  | cons x xs ih =>
    unfold setItems
    by_cases h : x.1 = k
    · simp [h]
    · rw [if_neg h, List.map_cons, ih, List.map_cons]
      by_cases hk : k ∈ xs.map Prod.fst
      · rw [if_pos hk, if_pos (List.mem_cons_of_mem _ hk)]
      · rw [if_neg hk, if_neg (List.not_mem_cons_of_ne_of_not_mem (Ne.symm h) hk),
          List.cons_append]

lemma keys_set (d : Dict κ ν) (k : κ) (v : ν) :
    (d.set k v).keys = if k ∈ d.keys then d.keys else d.keys ++ [k] :=
  map_fst_setItems k v d.items

lemma mem_map_fst_iff {xs : List (κ × ν)} {k : κ} :
    k ∈ xs.map Prod.fst ↔ (xs.lookup k).isSome = true := by
  simp

lemma mem_of_lookup {xs : List (κ × ν)} {k : κ} {v : ν} (h : xs.lookup k = some v) :
    (k, v) ∈ xs := by
  obtain ⟨before, after, rfl, -⟩ := List.lookup_eq_some_iff.mp h
  exact List.mem_append_right before List.mem_cons_self

lemma lookup_of_mem {xs : List (κ × ν)} (h : (xs.map Prod.fst).Nodup) {x : κ × ν} (hx : x ∈ xs) :
    xs.lookup x.1 = some x.2 := by
  induction xs with
  | nil => cases hx
  | cons y xs ih =>
    obtain ⟨hy, hxs⟩ := List.nodup_cons.mp h
    rw [lookup_cons_ite]
    rcases List.mem_cons.mp hx with rfl | hx
    · simp
    · have hne : x.1 ≠ y.1 := by
        intro he
        exact hy (he ▸ List.mem_map_of_mem hx)
      rw [if_neg hne, ih hxs hx]

lemma mem_keys_iff {d : Dict κ ν} {k : κ} : k ∈ d.keys ↔ (d.get? k).isSome = true :=
  mem_map_fst_iff

lemma update_append (d : Dict κ ν) (xs ys : List (κ × ν)) :
    d.update (xs ++ ys) = (d.update xs).update ys :=
  List.foldl_append

lemma mem_keys_update {d : Dict κ ν} {xs : List (κ × ν)} {k : κ} :
    k ∈ (d.update xs).keys ↔ k ∈ d.keys ∨ k ∈ xs.map Prod.fst := by
  induction xs generalizing d with
  | nil => simp [update]
  | cons x xs ih =>
    have hcons : d.update (x :: xs) = (d.set x.1 x.2).update xs := rfl
    rw [hcons, ih, mem_keys_set, List.map_cons, List.mem_cons, or_assoc, or_left_comm]

/-- What the dictionary holds after an update was there before, or is one of the items. -/
lemma get?_update_eq_some {d : Dict κ ν} {xs : List (κ × ν)} {k : κ} {v : ν}
    (h : (d.update xs).get? k = some v) : d.get? k = some v ∨ (k, v) ∈ xs := by
  induction xs generalizing d with
  | nil => exact .inl h
  | cons x xs ih =>
    rcases ih (d := d.set x.1 x.2) h with h | h
    · rw [get?_set] at h
      by_cases hk : k = x.1
      · rw [if_pos hk] at h
        have hx : (k, v) = x := Prod.ext hk (Option.some.inj h).symm
        exact .inr (hx ▸ List.mem_cons_self)
      · rw [if_neg hk] at h
        exact .inl h
    · exact .inr (List.mem_cons_of_mem x h)

/-- Two keys can be set in either order when one of them has its place already. -/
lemma setItems_comm {k k' : κ} {v v' : ν} (hne : k ≠ k') :
    ∀ {xs : List (κ × ν)}, k ∈ xs.map Prod.fst →
      setItems k v (setItems k' v' xs) = setItems k' v' (setItems k v xs)
  | [], h => by simp at h
  | (l, w) :: xs, h => by
    by_cases hl : l = k
    · subst hl
      simp [setItems, hne]
    · have hmem : k ∈ xs.map Prod.fst := by simpa [Ne.symm hl] using h
      by_cases hl' : l = k'
      · subst hl'
        simp [setItems, hl]
      · simp [setItems, hl, hl', setItems_comm hne hmem]

lemma setItems_setItems (k : κ) (v v' : ν) :
    ∀ xs : List (κ × ν), setItems k v (setItems k v' xs) = setItems k v xs
  | [] => by simp [setItems]
  | (l, w) :: xs => by
    by_cases hl : l = k
    · simp [setItems, hl]
    · simp [setItems, hl, setItems_setItems k v v' xs]

lemma set_set (d : Dict κ ν) (k : κ) (v v' : ν) : (d.set k v').set k v = d.set k v :=
  ext_items (setItems_setItems k v v' d.items)

/-- A key that has its place can be set before an update of other keys. -/
lemma set_update {d : Dict κ ν} {k : κ} (v : ν) {xs : List (κ × ν)} (hk : k ∈ d.keys)
    (hxs : k ∉ xs.map Prod.fst) : (d.update xs).set k v = (d.set k v).update xs := by
  induction xs generalizing d with
  | nil => rfl
  | cons x xs ih =>
    have hne : k ≠ x.1 := List.ne_of_not_mem_cons hxs
    have hswap : (d.set x.1 x.2).set k v = (d.set k v).set x.1 x.2 :=
      ext_items (setItems_comm hne hk)
    calc ((d.set x.1 x.2).update xs).set k v
        = ((d.set x.1 x.2).set k v).update xs :=
          ih (mem_keys_set.mpr (.inr hk)) (List.not_mem_of_not_mem_cons hxs)
      _ = ((d.set k v).set x.1 x.2).update xs := by rw [hswap]

lemma update_setItems (d : Dict κ ν) (k : κ) (v : ν) {xs : List (κ × ν)}
    (h : (xs.map Prod.fst).Nodup) : d.update (setItems k v xs) = (d.update xs).set k v := by
  induction xs generalizing d with
  | nil => rfl
  | cons x xs ih =>
    obtain ⟨hx, hxs⟩ := List.nodup_cons.mp h
    by_cases hk : x.1 = k
    · subst hk
      have hitems : setItems x.1 v (x :: xs) = (x.1, v) :: xs := by simp [setItems]
      rw [hitems]
      calc (d.set x.1 v).update xs
          = ((d.set x.1 x.2).set x.1 v).update xs := by rw [set_set]
        _ = ((d.set x.1 x.2).update xs).set x.1 v :=
          (set_update v (mem_keys_set.mpr (.inl rfl)) hx).symm
    · have hitems : setItems k v (x :: xs) = x :: setItems k v xs := by simp [setItems, hk]
      rw [hitems]
      exact ih (d.set x.1 x.2) hxs

/-- To update with a dictionary is to update with all that was put into it. -/
lemma update_items_update (d e : Dict κ ν) (xs : List (κ × ν)) :
    d.update (e.update xs).items = (d.update e.items).update xs := by
  induction xs generalizing e with
  | nil => rfl
  | cons x xs ih =>
    have hset : d.update (e.set x.1 x.2).items = (d.update e.items).set x.1 x.2 :=
      update_setItems d x.1 x.2 e.nodup
    calc d.update ((e.set x.1 x.2).update xs).items
        = (d.update (e.set x.1 x.2).items).update xs := ih (e.set x.1 x.2)
      _ = ((d.update e.items).set x.1 x.2).update xs := by rw [hset]

end Dict

end dict

section rounding

/-- `round(x, 4)` for an `x` whose ten-thousandths fit a float. -/
def round4 (x : Float) : Float := Float.ofInt (roundHalfEven (exact x * 10000)) / 10000

/-- `round(x, 2)`. -/
def round2 (x : Float) : Float :=
  if x.isNaN || x.isInf then x
  else
    let hundredths := ofDecimal (roundHalfEven (exact x * 100)).natAbs (-2)
    if x < 0 then -hundredths else hundredths

/-- `f"{x:.0%}"`. -/
def percent (x : Float) : String := toString (roundHalfEven (exact (x * 100))) ++ "%"

/-- The decimal `s * 10 ^ e` as `repr` writes it. -/
def decimalRepr (s : Nat) (e : Int) : List Char :=
  let digits := Nat.toDigits 10 s
  let point := digits.length + e
  let zeros (m : Int) := List.replicate m.toNat '0'
  if -4 < point ∧ point ≤ 0 then '0' :: '.' :: zeros (-point) ++ digits
  else if 0 < point ∧ point < digits.length then
    digits.take point.toNat ++ '.' :: digits.drop point.toNat
  else if 0 < point ∧ point ≤ 16 then digits ++ zeros e ++ ['.', '0']
  else
    let exponent := (point - 1).natAbs
    digits.take 1 ++ (if digits.length = 1 then [] else '.' :: digits.drop 1) ++
      'e' :: (if point ≤ 0 then '-' else '+') :: (if exponent < 10 then ['0'] else []) ++
      Nat.toDigits 10 exponent

/-- `repr(x)`. -/
def floatRepr (x : Float) : List Char :=
  if x.isNaN then "nan".toList
  else
    let size := if x.toBits.toNat < 2 ^ 63 then x else -x
    (if x.toBits.toNat < 2 ^ 63 then [] else ['-']) ++
      if x.isInf then "inf".toList
      else if x == 0 then "0.0".toList
      else decimalRepr (shortest size).1 (shortest size).2

example : floatRepr 12.5 = "12.5".toList := by decide +kernel

end rounding

end Python

import Mathlib.Data.List.Nodup
import SecurityScanner.Lib.Fallible

/-!
# Loops that keep the first of each key

A loop that skips an element whose key it has seen, and otherwise makes something of it that
may fail, works on the first elements of their keys and on no others.
-/

namespace FirstWins

open Fallible

variable {α β κ ε : Type} [DecidableEq κ] {key : α → κ}

section firsts

/-- The elements before which no element has their key. -/
def firsts (key : α → κ) : List α → List α
  | [] => []
  | x :: xs => x :: (firsts key xs).filter (key · ≠ key x)

lemma firsts_sublist (xs : List α) : (firsts key xs).Sublist xs := by
  induction xs with
  | nil => exact List.Sublist.refl _
  | cons x xs ih => exact (List.filter_sublist.trans ih).cons_cons x

lemma nodup_firsts (xs : List α) : ((firsts key xs).map key).Nodup := by
  induction xs with
  | nil => exact List.nodup_nil
  | cons x xs ih =>
    apply List.nodup_cons.mpr
    constructor
    · rw [List.mem_map]
      rintro ⟨y, hy, hkey⟩
      exact of_decide_eq_true (List.mem_filter.mp hy).2 hkey
    · exact ih.sublist (List.filter_sublist.map key)

/-- Every key has a first element. -/
lemma exists_mem_firsts {xs : List α} {x : α} (hx : x ∈ xs) : ∃ y ∈ firsts key xs, key y = key x := by
  induction xs with
  | nil => cases hx
  | cons z xs ih =>
    by_cases hz : key z = key x
    · exact ⟨z, List.mem_cons_self, hz⟩
    · rcases List.mem_cons.mp hx with rfl | hx
      · exact absurd rfl hz
      · obtain ⟨y, hy, hkey⟩ := ih hx
        refine ⟨y, List.mem_cons_of_mem _ (List.mem_filter.mpr ⟨hy, ?_⟩), hkey⟩
        rw [hkey]
        simpa using fun h => hz h.symm

lemma mem_firsts {xs : List α} {x : α} :
    x ∈ firsts key xs ↔ ∃ before after, xs = before ++ x :: after ∧ ∀ y ∈ before, key y ≠ key x := by
  induction xs with
  | nil => simp [firsts]
  | cons z xs ih =>
    unfold firsts
    rw [List.mem_cons, List.mem_filter, ih]
    constructor
    · rintro (rfl | ⟨⟨before, after, rfl, hbefore⟩, hz⟩)
      · exact ⟨[], xs, rfl, by simp⟩
      · refine ⟨z :: before, after, rfl, ?_⟩
        intro y hy
        rcases List.mem_cons.mp hy with rfl | hy
        · exact fun h => of_decide_eq_true hz h.symm
        · exact hbefore y hy
    · rintro ⟨before, after, hxs, hbefore⟩
      cases before with
      | nil => exact Or.inl (List.cons.inj hxs).1.symm
      | cons w before =>
        obtain ⟨rfl, rfl⟩ := List.cons.inj hxs
        have hz : key z ≠ key x := hbefore z List.mem_cons_self
        refine Or.inr ⟨⟨before, after, rfl, fun y hy => hbefore y (List.mem_cons_of_mem _ hy)⟩, ?_⟩
        simpa using fun h => hz h.symm

lemma mem_of_mem_firsts {xs : List α} {x : α} (h : x ∈ firsts key xs) : x ∈ xs :=
  (firsts_sublist xs).subset h

lemma firsts_concat (xs : List α) (x : α) :
    firsts key (xs ++ [x]) = firsts key xs ++ if key x ∈ xs.map key then [] else [x] := by
  induction xs with
  | nil => rfl
  | cons z xs ih =>
    rw [List.cons_append, firsts, firsts, ih, List.filter_append, List.cons_append, List.map_cons]
    congr 2
    by_cases hz : key x = key z
    · rw [if_pos (List.mem_cons.mpr (Or.inl hz))]
      split
      · rfl
      · rw [List.filter_cons_of_neg (by simpa using hz), List.filter_nil]
    · simp only [List.mem_cons, hz, false_or]
      split
      · rfl
      · rw [List.filter_cons_of_pos (by simpa using hz), List.filter_nil]

/-- An element adds nothing if another one has its key. -/
lemma firsts_concat_eq_iff {xs : List α} {x : α} :
    firsts key (xs ++ [x]) = firsts key xs ↔ key x ∈ xs.map key := by
  rw [firsts_concat]
  constructor
  · intro h
    by_contra hx
    rw [if_neg hx] at h
    exact List.cons_ne_nil x [] (List.append_right_eq_self.mp h)
  · intro hx
    rw [if_pos hx, List.append_nil]

/-- The first elements of a list are first in a longer one. -/
lemma firsts_append_subset (xs ys : List α) : firsts key xs ⊆ firsts key (xs ++ ys) := by
  intro x hx
  obtain ⟨before, after, rfl, hbefore⟩ := mem_firsts.mp hx
  exact mem_firsts.mpr ⟨before, after ++ ys, by simp, hbefore⟩

/-- A key that the first part of a list has is kept there. -/
lemma mem_firsts_left {xs ys : List α} {x y : α} (hx : x ∈ firsts key (xs ++ ys)) (hy : y ∈ xs)
    (hkey : key x = key y) : x ∈ firsts key xs := by
  obtain ⟨z, hz, hzkey⟩ : ∃ z ∈ firsts key xs, key z = key y := exists_mem_firsts hy
  have heq : x = z := List.inj_on_of_nodup_map (nodup_firsts (xs ++ ys)) hx
    (firsts_append_subset xs ys hz) (hkey.trans hzkey.symm)
  rwa [heq]

lemma firsts_map {γ : Type} {key' : γ → κ} {f : γ → α} (h : ∀ c, key (f c) = key' c)
    (xs : List γ) : firsts key (xs.map f) = (firsts key' xs).map f := by
  induction xs with
  | nil => rfl
  | cons x xs ih =>
    rw [List.map_cons, firsts, firsts, ih, List.map_cons, List.filter_map]
    congr 2
    apply List.filter_congr
    intro y _
    simp only [Function.comp_apply, h]

/-- What is dropped has a related element before it that is kept, and the kept ones are not
related, if and only if the keys tell unrelated elements apart. -/
theorem drops_related_iff {R : α → α → Prop} (hR : Equivalence R) {xs : List α}
    (hkey : ∀ x ∈ xs, ∀ y ∈ xs, R x y → key x = key y) :
    ((∀ pre x post, xs = pre ++ x :: post → firsts key (pre ++ [x]) = firsts key pre →
        ∃ y ∈ firsts key pre, R y x) ∧ (firsts key xs).Pairwise fun x y => ¬R x y) ↔
      ∀ x ∈ xs, ∀ y ∈ xs, key x = key y → R x y := by
  constructor
  · rintro ⟨hdropped, -⟩ x hx y hy hxy
    obtain ⟨z, hz, hzx⟩ : ∃ z ∈ firsts key xs, key z = key x := exists_mem_firsts hx
    have hrelated {x : α} (hx : x ∈ xs) (hzx : key z = key x) : R z x := by
      obtain ⟨before, after, hxs, hbefore⟩ := mem_firsts.mp hz
      rw [hxs] at hx
      rcases List.mem_append.mp hx with hx | hx
      · exact absurd hzx.symm (hbefore x hx)
      rcases List.mem_cons.mp hx with rfl | hx
      · exact hR.refl _
      obtain ⟨between, post, rfl⟩ := List.append_of_mem hx
      have hsplit : xs = (before ++ z :: between) ++ x :: post := by
        rw [hxs, List.append_assoc, List.cons_append]
      have hmem : z ∈ before ++ z :: between := List.mem_append_right _ List.mem_cons_self
      have hseen : key x ∈ (before ++ z :: between).map key := by
        rw [← hzx]
        exact List.mem_map_of_mem hmem
      obtain ⟨y, hy, hyx⟩ := hdropped _ _ _ hsplit (firsts_concat_eq_iff.mpr hseen)
      have hfirst : z ∈ firsts key (before ++ z :: between) :=
        mem_firsts.mpr ⟨before, between, rfl, hbefore⟩
      have hyxs : y ∈ xs := by
        rw [hsplit]
        exact List.mem_append_left _ (mem_of_mem_firsts hy)
      have hxxs : x ∈ xs := by
        rw [hsplit]
        exact List.mem_append_right _ List.mem_cons_self
      have heq : y = z := List.inj_on_of_nodup_map (nodup_firsts _) hy hfirst
        ((hkey y hyxs x hxxs hyx).trans hzx.symm)
      rwa [← heq]
    exact hR.trans (hR.symm (hrelated hx hzx)) (hrelated hy (hzx.trans hxy))
  · intro h
    constructor
    · rintro pre x post rfl hdropped
      obtain ⟨y, hy, hyx⟩ := List.mem_map.mp (firsts_concat_eq_iff.mp hdropped)
      obtain ⟨z, hz, hzy⟩ : ∃ z ∈ firsts key pre, key z = key y := exists_mem_firsts hy
      refine ⟨z, hz, h z ?_ x ?_ (hzy.trans hyx)⟩
      · exact List.mem_append_left _ (mem_of_mem_firsts hz)
      · exact List.mem_append_right _ List.mem_cons_self
    · have hkeys : (firsts key xs).Pairwise fun x y => key x ≠ key y :=
        List.pairwise_map.mp (nodup_firsts xs)
      refine hkeys.imp_of_mem fun hx hy hne hrelated => hne ?_
      exact hkey _ (mem_of_mem_firsts hx) _ (mem_of_mem_firsts hy) hrelated

end firsts

section collect

/-- The loop: what it makes of the elements whose keys it has not seen. -/
def collect (key : α → κ) (extract : α → Except ε β) : List κ → List α → Except ε (List β)
  | _, [] => pure []
  | seen, x :: xs =>
    if key x ∈ seen then collect key extract seen xs
    else do
      let b ← extract x
      let bs ← collect key extract (seen ++ [key x]) xs
      pure (b :: bs)

variable {extract : α → Except ε β}

lemma collect_cons (seen : List κ) (x : α) (xs : List α) :
    collect key extract seen (x :: xs) =
      if key x ∈ seen then collect key extract seen xs
      else extract x >>= fun b =>
        collect key extract (seen ++ [key x]) xs >>= fun bs => pure (b :: bs) := rfl

lemma collect_eq_filter (seen : List κ) (xs : List α) :
    collect key extract seen xs = ((firsts key xs).filter (key · ∉ seen)).mapM extract := by
  induction xs generalizing seen with
  | nil => rfl
  | cons x xs ih =>
    rw [collect_cons]
    unfold firsts
    by_cases hseen : key x ∈ seen
    · rw [if_pos hseen, ih, List.filter_cons_of_neg (by simpa using hseen), List.filter_filter]
      congr 1
      apply List.filter_congr
      intro y _
      by_cases hy : key y = key x
      · simp [hy, hseen]
      · simp [hy]
    · rw [if_neg hseen, ih, List.filter_cons_of_pos (by simpa using hseen), List.mapM_cons,
        List.filter_filter]
      have hrest : (firsts key xs).filter (key · ∉ seen ++ [key x]) =
          (firsts key xs).filter fun y => decide (key y ∉ seen) && decide (key y ≠ key x) := by
        apply List.filter_congr
        intro y _
        simp
      rw [hrest]

/-- The loop works on the first elements of their keys. -/
theorem collect_eq (xs : List α) : collect key extract [] xs = (firsts key xs).mapM extract := by
  rw [collect_eq_filter]
  simp

/-- A loop in two parts; `name` is the key of what the loop makes of an element. -/
lemma collect_append {name : β → κ} (hname : ∀ x b, extract x = .ok b → name b = key x)
    (seen : List κ) (xs ys : List α) :
    collect key extract seen (xs ++ ys) = (do
      let bs ← collect key extract seen xs
      let cs ← collect key extract (seen ++ bs.map name) ys
      pure (bs ++ cs)) := by
  induction xs generalizing seen with
  | nil =>
    have hnil : collect key extract seen [] = .ok [] := rfl
    rw [List.nil_append, hnil, ok_bind, List.map_nil, List.append_nil]
    cases collect key extract seen ys <;> rfl
  | cons x xs ih =>
    rw [List.cons_append, collect_cons, collect_cons]
    by_cases hseen : key x ∈ seen
    · rw [if_pos hseen, if_pos hseen, ih]
    · rw [if_neg hseen, if_neg hseen]
      cases hx : extract x with
      | error e => rfl
      | ok b =>
        rw [ok_bind, ok_bind, ih]
        cases collect key extract (seen ++ [key x]) xs with
        | error e => rfl
        | ok bs =>
          have hseen' : seen ++ (b :: bs).map name = seen ++ [key x] ++ bs.map name := by
            rw [List.map_cons, hname x b hx]
            simp
          rw [ok_bind, ok_bind]
          change _ = (collect key extract (seen ++ (b :: bs).map name) ys >>= fun cs =>
            pure (b :: bs ++ cs))
          rw [hseen']
          cases collect key extract (seen ++ [key x] ++ bs.map name) ys <;> rfl

end collect

end FirstWins

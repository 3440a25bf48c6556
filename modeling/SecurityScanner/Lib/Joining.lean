import Mathlib.Data.List.DropRight
import Mathlib.Data.List.TakeWhile

/-!
# Joining texts at a separator

A base and a path put together with one separator between them, however many the base ends
in and the path starts with.
-/

namespace Joining

variable {α : Type} [DecidableEq α] (a : α)

section definitions

/-- How many separators the text starts with. -/
def leading (t : List α) : Nat := (t.takeWhile (· = a)).length

/-- How many separators the text ends in. -/
def trailing (t : List α) : Nat := leading a t.reverse

def lstrip (t : List α) : List α := t.dropWhile (· = a)

def rstrip (t : List α) : List α := (lstrip a t.reverse).reverse

def join (base path : List α) : List α := rstrip a base ++ a :: lstrip a path

end definitions

section strips

variable {a}

lemma leading_append_lstrip (t : List α) : List.replicate (leading a t) a ++ lstrip a t = t := by
  have hall : t.takeWhile (· = a) = List.replicate (leading a t) a := by
    rw [List.eq_replicate_iff]
    refine ⟨rfl, fun b hb => ?_⟩
    have heq := List.mem_takeWhile_imp hb
    simpa using heq
  rw [← hall]
  exact List.takeWhile_append_dropWhile

lemma rstrip_append_trailing (t : List α) :
    rstrip a t ++ List.replicate (trailing a t) a = t := by
  have h := congrArg List.reverse (leading_append_lstrip (a := a) t.reverse)
  rwa [List.reverse_append, List.reverse_replicate, List.reverse_reverse] at h

lemma lstrip_lstrip (t : List α) : lstrip a (lstrip a t) = lstrip a t :=
  List.dropWhile_idempotent (· = a) t

lemma rstrip_rstrip (t : List α) : rstrip a (rstrip a t) = rstrip a t := by
  unfold rstrip
  rw [List.reverse_reverse, lstrip_lstrip]

lemma lstrip_replicate (n : Nat) : lstrip a (List.replicate n a) = [] := by
  unfold lstrip
  simp

lemma rstrip_replicate (n : Nat) : rstrip a (List.replicate n a) = [] := by
  unfold rstrip
  rw [List.reverse_replicate, lstrip_replicate, List.reverse_nil]

end strips

section join

variable {a}

/-- Two texts put together as they are have one separator between them. -/
theorem append_eq_join (base path : List α) :
    base ++ path = join a base path ↔ trailing a base + leading a path = 1 := by
  have hsplit : base ++ path = rstrip a base ++
      (List.replicate (trailing a base + leading a path) a ++ lstrip a path) := by
    calc base ++ path
        = (rstrip a base ++ List.replicate (trailing a base) a) ++
            (List.replicate (leading a path) a ++ lstrip a path) := by
          rw [rstrip_append_trailing, leading_append_lstrip]
      _ = _ := by
          rw [← List.replicate_append_replicate, List.append_assoc, List.append_assoc]
  unfold join
  rw [hsplit, List.append_cancel_left_eq]
  constructor
  · intro h
    have hlen := congrArg List.length h
    rw [List.length_append, List.length_replicate, List.length_cons] at hlen
    omega
  · intro h
    rw [h]
    rfl

/-- Joins with one path agree as far as their bases do without their separators. -/
theorem join_right_inj (base base' path : List α) :
    join a base path = join a base' path ↔ rstrip a base = rstrip a base' :=
  List.append_left_inj _

/-- A path is its own join with a base that is nothing but separators. -/
theorem eq_join (base path : List α) :
    path = join a base path ↔ rstrip a base = [] ∧ leading a path = 1 := by
  constructor
  · intro h
    have hcancel : List.replicate (leading a path) a = rstrip a base ++ [a] := by
      have happend : List.replicate (leading a path) a ++ lstrip a path =
          rstrip a base ++ [a] ++ lstrip a path := by
        rw [leading_append_lstrip, List.append_assoc]
        exact h
      exact List.append_cancel_right happend
    have hlen := congrArg List.length hcancel
    rw [List.length_replicate, List.length_append, List.length_singleton] at hlen
    have hbase : rstrip a base = List.replicate (rstrip a base).length a := by
      rw [List.eq_replicate_iff]
      refine ⟨rfl, fun b hb => ?_⟩
      apply List.eq_of_mem_replicate (n := leading a path)
      rw [hcancel]
      exact List.mem_append_left _ hb
    have hnil : rstrip a base = [] := by
      rw [← rstrip_rstrip, hbase, rstrip_replicate]
    rw [hnil, List.length_nil] at hlen
    exact ⟨hnil, by omega⟩
  · rintro ⟨hbase, hpath⟩
    have h := leading_append_lstrip (a := a) path
    rw [hpath] at h
    unfold join
    rw [hbase]
    exact h.symm

end join

end Joining

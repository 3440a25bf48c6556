import Mathlib.Data.List.Basic
import Mathlib.Tactic.Common

/-!
# JSON pointers

The tokens of a pointer stand between slashes, with `~` and `/` inside of a token escaped.
-/

namespace JsonPointer

def escape (c : Char) : List Char :=
  if c = '~' then ['~', '0'] else if c = '/' then ['~', '1'] else [c]

def encode (token : List Char) : List Char := token.flatMap escape

/-- The tokens, joined by slashes. -/
def pointer (tokens : List (List Char)) : List Char := ['/'].intercalate (tokens.map encode)

/-- A token that is its own encoding. -/
def Plain (token : List Char) : Prop := '~' ∉ token ∧ '/' ∉ token

instance (token : List Char) : Decidable (Plain token) := inferInstanceAs (Decidable (_ ∧ _))

lemma slash_not_mem_escape (c : Char) : '/' ∉ escape c := by
  unfold escape
  by_cases htilde : c = '~'
  · rw [if_pos htilde]
    decide
  · rw [if_neg htilde]
    by_cases hslash : c = '/'
    · rw [if_pos hslash]
      decide
    · rw [if_neg hslash, List.mem_singleton]
      exact Ne.symm hslash

lemma slash_not_mem_encode (token : List Char) : '/' ∉ encode token := by
  intro h
  obtain ⟨c, -, hc⟩ := List.mem_flatMap.mp h
  exact slash_not_mem_escape c hc

lemma encode_of_plain {token : List Char} (h : Plain token) : encode token = token := by
  unfold encode
  induction token with
  | nil => rfl
  | cons c rest ih =>
    obtain ⟨htilde, hslash⟩ := h
    have hescape : escape c = [c] := by
      unfold escape
      rw [if_neg (Ne.symm (List.ne_of_not_mem_cons htilde)),
        if_neg (Ne.symm (List.ne_of_not_mem_cons hslash))]
    rw [List.flatMap_cons, hescape,
      ih ⟨List.not_mem_of_not_mem_cons htilde, List.not_mem_of_not_mem_cons hslash⟩]
    rfl

/-- A pointer that is split at the slashes gives the encoded tokens. -/
theorem splitOn_pointer {tokens : List (List Char)} (h : tokens ≠ []) :
    (pointer tokens).splitOn '/' = tokens.map encode := by
  apply List.splitOn_intercalate
  · intro t ht
    obtain ⟨token, -, rfl⟩ := List.mem_map.mp ht
    exact slash_not_mem_encode token
  · simpa using h

end JsonPointer

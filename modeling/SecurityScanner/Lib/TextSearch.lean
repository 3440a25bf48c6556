import Mathlib.Data.List.Infix
import Mathlib.Tactic.Common
import SecurityScanner.Lib.JavaScript

/-!
# Searching and replacing in texts

Where `replace` finds its pattern, and what it puts there. An occurrence that starts before
another one either ends before it or overlaps with it.
-/

namespace JavaScript

section occurrences

variable {sub pre post before after t : Text}

/-- The search finds an occurrence that no other one precedes. -/
lemma cutFirst_spec (hsub : sub ≠ []) (pre post : Text) :
    ∃ before after, cutFirst sub (pre ++ sub ++ post) = some (before, after) ∧
      pre ++ sub ++ post = before ++ sub ++ after ∧ before.length ≤ pre.length := by
  induction pre with
  | nil =>
    obtain ⟨u, rest, rfl⟩ := List.exists_cons_of_ne_nil hsub
    have hprefix : (u :: rest).isPrefixOf (u :: (rest ++ post)) = true :=
      List.isPrefixOf_iff_prefix.mpr ⟨post, rfl⟩
    refine ⟨[], post, ?_, rfl, le_refl _⟩
    rw [List.nil_append, List.cons_append, cutFirst, if_pos hprefix]
    simp
  | cons u pre ih =>
    rw [List.cons_append, List.cons_append, cutFirst]
    by_cases hprefix : sub.isPrefixOf (u :: (pre ++ sub ++ post)) = true
    · obtain ⟨rest, hrest⟩ := List.isPrefixOf_iff_prefix.mp hprefix
      refine ⟨[], rest, ?_, hrest.symm, Nat.zero_le _⟩
      rw [if_pos hprefix, ← hrest, List.drop_left]
    · obtain ⟨before, after, hcut, heq, hle⟩ := ih
      refine ⟨u :: before, after, ?_, ?_, Nat.succ_le_succ hle⟩
      · rw [if_neg hprefix, hcut]
        rfl
      · rw [heq]
        rfl

/-- An occurrence that no other one precedes is the one that the search finds. -/
lemma cutFirst_of_first (hsub : sub ≠ [])
    (hfirst : ∀ b a, pre ++ sub ++ post = b ++ sub ++ a → pre.length ≤ b.length) :
    cutFirst sub (pre ++ sub ++ post) = some (pre, post) := by
  obtain ⟨before, after, hcut, heq, hle⟩ := cutFirst_spec hsub pre post
  have hlen : pre.length = before.length := le_antisymm (hfirst before after heq) hle
  have heq' : pre ++ (sub ++ post) = before ++ (sub ++ after) := by
    rw [← List.append_assoc, ← List.append_assoc, heq]
  obtain ⟨hpre, hrest⟩ := List.append_inj heq' hlen
  rw [hcut, hpre, List.append_cancel_left hrest]

/-- An occurrence that starts earlier ends earlier as well, or shares a part with this one. -/
lemma earlier_occurrence (heq : before ++ sub ++ after = pre ++ sub ++ post)
    (hlt : before.length < pre.length) :
    (∃ between, pre = before ++ sub ++ between ∧ after = between ++ sub ++ post) ∨
      ∃ shared rest, shared ≠ [] ∧ rest ≠ [] ∧ sub = shared ++ rest ∧ pre = before ++ shared ∧
        rest ++ after = sub ++ post := by
  rw [List.append_assoc, List.append_assoc, List.append_eq_append_iff] at heq
  rcases heq with ⟨e, rfl, heq⟩ | ⟨e, rfl, -⟩
  · have hne : e ≠ [] := by
      rintro rfl
      simp at hlt
    rw [List.append_eq_append_iff] at heq
    rcases heq with ⟨d, rfl, hafter⟩ | ⟨d, hsub, hrest⟩
    · left
      exact ⟨d, (List.append_assoc _ _ _).symm, hafter.trans (List.append_assoc _ _ _).symm⟩
    · by_cases hd : d = []
      · left
        rw [hd, List.append_nil] at hsub
        rw [hd, List.nil_append] at hrest
        exact ⟨[], by rw [hsub, List.append_nil], hrest.symm⟩
      · right
        exact ⟨e, d, hne, hd, hsub, rfl, hrest.symm⟩
  · rw [List.length_append] at hlt
    omega

/-- A text that has none of what `pre` ends in does not overlap with it. -/
lemma earlier_of_getLast (heq : before ++ sub ++ after = pre ++ sub ++ post)
    (hlt : before.length < pre.length) (hlast : ∀ u ∈ pre.getLast?, u ∉ sub) :
    ∃ between, pre = before ++ sub ++ between ∧ after = between ++ sub ++ post := by
  rcases earlier_occurrence heq hlt with h | ⟨shared, rest, hshared, -, hsub, hpre, -⟩
  · exact h
  · have hmem : shared.getLast hshared ∈ pre.getLast? := by
      rw [hpre, List.getLast?_append_of_ne_nil _ hshared, List.getLast?_eq_getLast_of_ne_nil hshared]
      rfl
    exact absurd (hsub ▸ List.mem_append_left rest (List.getLast_mem hshared)) (hlast _ hmem)

/-- A text that has its first unit nowhere else does not overlap with itself. -/
lemma earlier_of_head {u : UInt16} {rest : Text} (hu : u ∉ rest)
    (heq : before ++ u :: rest ++ after = pre ++ u :: rest ++ post)
    (hlt : before.length < pre.length) :
    ∃ between, pre = before ++ u :: rest ++ between ∧ after = between ++ u :: rest ++ post := by
  rcases earlier_occurrence heq hlt with h | ⟨shared, rest', hshared, hrest', hsub, -, hover⟩
  · exact h
  · obtain ⟨v, shared, rfl⟩ := List.exists_cons_of_ne_nil hshared
    obtain ⟨w, rest', rfl⟩ := List.exists_cons_of_ne_nil hrest'
    obtain ⟨-, hrest⟩ := List.cons.inj hsub
    obtain ⟨rfl, -⟩ := List.cons.inj hover
    exact absurd (hrest ▸ List.mem_append_right shared List.mem_cons_self) hu

lemma includes_iff : includes t sub = true ↔ sub <:+: t := by
  induction t with
  | nil => rw [includes, List.isEmpty_iff, List.infix_nil]
  | cons u t ih =>
    rw [includes, Bool.or_eq_true, ih, List.isPrefixOf_iff_prefix, List.infix_cons_iff]

/-- A text occurs before or after a unit that it does not have. -/
lemma includes_append_cons {u : UInt16} {s t w : Text} (hu : u ∉ w) :
    includes (s ++ u :: t) w = (includes s w || includes t w) := by
  rw [Bool.eq_iff_iff, Bool.or_eq_true, includes_iff, includes_iff, includes_iff]
  constructor
  · rintro ⟨a, b, hab⟩
    rcases List.append_eq_append_iff.mp hab with ⟨c, hs, -⟩ | ⟨c, hleft, hright⟩
    · exact Or.inl ⟨a, c, hs.symm⟩
    · cases c with
      | nil =>
        rw [List.append_nil] at hleft
        exact Or.inl ⟨a, [], by rw [List.append_nil, hleft]⟩
      | cons v c =>
        obtain ⟨rfl, ht⟩ := List.cons.inj hright
        rcases List.append_eq_append_iff.mp hleft with ⟨d, -, hw⟩ | ⟨d, -, hd⟩
        · rw [hw] at hu
          exact absurd (List.mem_append_right d List.mem_cons_self) hu
        · cases d with
          | nil =>
            rw [List.nil_append] at hd
            rw [← hd] at hu
            exact absurd List.mem_cons_self hu
          | cons v d =>
            obtain ⟨-, hc⟩ := List.cons.inj hd
            exact Or.inr ⟨d, b, by rw [ht, hc]; rfl⟩
  · rintro (h | h)
    · exact h.trans (List.prefix_append s _).isInfix
    · exact h.trans ((List.suffix_cons u t).trans (List.suffix_append s _)).isInfix

/-- A text does not matter to the search for a word that does not start in it. -/
lemma includes_append_of_tails {s t w : Text}
    (h : ∀ rest ∈ s.tails, rest ≠ [] → ¬rest <+: w ∧ ¬w <+: rest) :
    includes (s ++ t) w = includes t w := by
  induction s with
  | nil => rfl
  | cons u s ih =>
    have hnot : w.isPrefixOf (u :: (s ++ t)) = false := by
      rw [← Bool.not_eq_true, List.isPrefixOf_iff_prefix]
      intro hprefix
      obtain ⟨hstarts, hwithin⟩ := h (u :: s) List.mem_cons_self (List.cons_ne_nil u s)
      rcases List.prefix_or_prefix_of_prefix hprefix (List.prefix_append (u :: s) t) with hw | hs
      · exact hwithin hw
      · exact hstarts hs
    rw [List.cons_append, includes, hnot, Bool.false_or]
    exact ih fun rest hrest => h rest (List.mem_cons_of_mem _ hrest)

/-- The last occurrence of a unit is in one place. -/
lemma append_cons_inj_of_last {u : UInt16} {a b x y : Text} (hx : u ∉ x) (hy : u ∉ y)
    (h : a ++ u :: x = b ++ u :: y) : a = b ∧ x = y := by
  have hlonger {d s t : Text} (hs : u ∉ s) (heq : u :: s = d ++ u :: t) : d = [] := by
    cases d with
    | nil => rfl
    | cons v d =>
      obtain ⟨-, hrest⟩ := List.cons.inj heq
      rw [hrest] at hs
      exact absurd (List.mem_append_right d List.mem_cons_self) hs
  rcases List.append_eq_append_iff.mp h with ⟨d, hb, hrest⟩ | ⟨d, ha, hrest⟩
  · have hd := hlonger hx hrest
    rw [hd] at hb hrest
    exact ⟨by rw [hb, List.append_nil], List.tail_eq_of_cons_eq hrest⟩
  · have hd := hlonger hy hrest
    rw [hd] at ha hrest
    exact ⟨by rw [ha, List.append_nil], (List.tail_eq_of_cons_eq hrest).symm⟩

/-- The search does not get to an occurrence that has another one before it. -/
lemma cutFirst_of_includes (hsub : sub ≠ []) (h : includes pre sub = true) (post : Text) :
    ∃ before after, cutFirst sub (pre ++ sub ++ post) = some (before, after) ∧
      before ++ sub ++ after = pre ++ sub ++ post ∧ before.length < pre.length := by
  obtain ⟨a, b, hab⟩ := includes_iff.mp h
  have hoccurs : pre ++ sub ++ post = a ++ sub ++ (b ++ sub ++ post) := by
    rw [← hab]
    simp only [List.append_assoc]
  have hlt : a.length < pre.length := by
    have hpos := List.length_pos_iff.mpr hsub
    rw [← hab, List.length_append, List.length_append]
    omega
  obtain ⟨before, after, hcut, heq, hle⟩ := cutFirst_spec hsub a (b ++ sub ++ post)
  rw [← hoccurs] at hcut heq
  exact ⟨before, after, hcut, heq.symm, lt_of_le_of_lt hle hlt⟩

end occurrences

section replacement

variable {before after matched sub pre post r : Text}

/-- A text without `$` goes in as it is. -/
lemma substitution_of_not_mem : ∀ {t : Text}, unit '$' ∉ t → substitution before matched after t = t
  | [], _ => rfl
  | [_], _ => rfl
  | u :: v :: t, h => by
    have hu : u ≠ unit '$' := Ne.symm (List.ne_of_not_mem_cons h)
    rw [substitution, if_neg hu, substitution_of_not_mem (List.not_mem_of_not_mem_cons h)]

lemma replace_of_cutFirst {t : Text} (h : cutFirst sub t = some (before, after)) :
    replace t sub r = before ++ substitution before sub after r ++ after := by
  unfold replace
  rw [h]

lemma replace_of_first (hsub : sub ≠ [])
    (hfirst : ∀ b a, pre ++ sub ++ post = b ++ sub ++ a → pre.length ≤ b.length) :
    replace (pre ++ sub ++ post) sub r = pre ++ substitution pre sub post r ++ post :=
  replace_of_cutFirst (cutFirst_of_first hsub hfirst)

/-- The first occurrence is replaced by what the replacement means there. -/
lemma replace_of_occurrence {t : Text} (hsub : sub ≠ []) (h : t = pre ++ sub ++ post) :
    ∃ before after, t = before ++ sub ++ after ∧ ∀ r,
      replace t sub r = before ++ substitution before sub after r ++ after := by
  obtain ⟨before, after, hcut, heq, -⟩ := cutFirst_spec hsub pre post
  rw [← h] at hcut heq
  exact ⟨before, after, heq, fun r => replace_of_cutFirst hcut⟩

/-- A text stays as it is only if its part is replaced by itself. -/
lemma replace_eq_self_iff {t : Text} (hsub : sub ≠ []) (h : t = pre ++ sub ++ post)
    (hr : unit '$' ∉ r) : replace t sub r = t ↔ r = sub := by
  obtain ⟨before, after, heq, hreplace⟩ := replace_of_occurrence hsub h
  rw [hreplace, substitution_of_not_mem hr]
  constructor
  · intro hself
    rw [heq] at hself
    exact List.append_cancel_left (List.append_cancel_right hself)
  · rintro rfl
    exact heq.symm

lemma replace_ne_nil {t : Text} (hsub : sub ≠ []) (h : t = pre ++ sub ++ post)
    (hr : unit '$' ∉ r) (hne : r ≠ []) : replace t sub r ≠ [] := by
  obtain ⟨before, after, -, hreplace⟩ := replace_of_occurrence hsub h
  rw [hreplace, substitution_of_not_mem hr]
  exact List.append_ne_nil_of_left_ne_nil (List.append_ne_nil_of_right_ne_nil _ hne) _

/-- With two occurrences, a replacement of the first one looks like one of the second only if
the texts around the middle part can be exchanged. -/
lemma swap_of_replaced {s between : Text} (hpre : pre = before ++ sub ++ between)
    (hafter : after = between ++ sub ++ post) (h : before ++ s ++ after = pre ++ r ++ post) :
    s ++ between ++ sub = sub ++ between ++ r := by
  rw [hpre, hafter] at h
  simp only [List.append_assoc] at h
  have hrest := List.append_cancel_left h
  simp only [← List.append_assoc] at hrest
  exact List.append_cancel_right hrest

end replacement

/-- A word that commutes with another one is made of the units of that one. -/
lemma mem_of_commute {z w : Text} (h : z ++ w = w ++ z) (hz : z ≠ []) : ∀ u ∈ w, u ∈ z := by
  induction hn : w.length using Nat.strong_induction_on generalizing w with
  | _ n ih =>
    intro u hu
    have hcases := List.append_eq_append_iff.mp h
    rcases hcases with ⟨rest, hw, hw'⟩ | ⟨rest, hz', -⟩
    · have hlen : rest.length < n := by
        have hpos : 0 < z.length := List.length_pos_iff.mpr hz
        rw [← hn, hw, List.length_append]
        omega
      rw [hw] at hu
      rcases List.mem_append.mp hu with hu | hu
      · exact hu
      · exact ih rest.length hlen (hw.symm.trans hw') rfl u hu
    · rw [hz']
      exact List.mem_append_left rest hu

section numerals

/-- The units that occur in the texts of numbers. -/
def numeralUnits : Text := js "0123456789.e+-NaInfity"

/-- The units of those that are finite. -/
def decimalUnits : Text := js "0123456789.e+-"

lemma isDigit_of_mem_natToText {n : Nat} {u : UInt16} (h : u ∈ natToText n) : isDigit u = true := by
  obtain ⟨c, hc, hu⟩ := List.mem_flatMap.mp h
  have htext : (toString n).toList = Nat.toDigits 10 n := by
    rw [Nat.toString_eq_repr, Nat.toList_repr]
  rw [htext] at hc
  have hdigit : c.isDigit = true := Nat.isDigit_of_mem_toDigits (by decide) (by decide) hc
  have hbounds : 48 ≤ c.toNat ∧ c.toNat ≤ 57 := Char.isDigit_iff_toNat.mp hdigit
  unfold encodeChar at hu
  dsimp only at hu
  rw [if_pos (by omega), List.mem_singleton] at hu
  have hnat : u.toNat = c.toNat := by
    rw [hu]
    exact Nat.mod_eq_of_lt (by omega)
  unfold isDigit
  rw [Bool.and_eq_true, decide_eq_true_iff, decide_eq_true_iff, UInt16.le_iff_toNat_le,
    UInt16.le_iff_toNat_le, hnat]
  exact hbounds

lemma mem_digits_of_isDigit {u : UInt16} (h : isDigit u = true) : u ∈ js "0123456789" := by
  have hall : ∀ n : Fin 10, (48 + n.val).toUInt16 ∈ js "0123456789" := by decide
  unfold isDigit at h
  rw [Bool.and_eq_true, decide_eq_true_iff, decide_eq_true_iff, UInt16.le_iff_toNat_le,
    UInt16.le_iff_toNat_le] at h
  obtain ⟨hlow, hhigh⟩ : 48 ≤ u.toNat ∧ u.toNat ≤ 57 := h
  have hu : u = (48 + (⟨u.toNat - 48, by omega⟩ : Fin 10).val).toUInt16 := by
    apply UInt16.toNat_inj.mp
    change u.toNat = (48 + (u.toNat - 48)) % 65536
    omega
  rw [hu]
  exact hall _

lemma mem_decimalUnits_of_isDigit {u : UInt16} (h : isDigit u = true) : u ∈ decimalUnits := by
  have hsubset : js "0123456789" ⊆ decimalUnits := by decide
  exact hsubset (mem_digits_of_isDigit h)

lemma natToText_subset (n : Nat) : natToText n ⊆ decimalUnits :=
  fun _ hu => mem_decimalUnits_of_isDigit (isDigit_of_mem_natToText hu)

lemma zeros_subset (n : Nat) : List.replicate n (unit '0') ⊆ decimalUnits := by
  intro u hu
  rw [List.eq_of_mem_replicate hu]
  decide

lemma positiveToText_subset (x : Float) : positiveToText x ⊆ decimalUnits := by
  have hpoint : js "." ⊆ decimalUnits := by decide
  have hzero : js "0." ⊆ decimalUnits := by decide
  have hsign (n : Int) : (if 0 < n then js "e+" else js "e-") ⊆ decimalUnits := by
    split <;> decide
  unfold positiveToText
  rcases Binary64.shortest x with ⟨s, e⟩
  have hdigits := natToText_subset s
  have htake (n : Nat) : (natToText s).take n ⊆ decimalUnits :=
    List.Subset.trans (List.take_subset _ _) hdigits
  have hdrop (n : Nat) : (natToText s).drop n ⊆ decimalUnits :=
    List.Subset.trans (List.drop_subset _ _) hdigits
  dsimp only
  split
  · exact List.append_subset.mpr ⟨hdigits, zeros_subset _⟩
  · split
    · exact List.append_subset.mpr ⟨List.append_subset.mpr ⟨htake _, hpoint⟩, hdrop _⟩
    · split
      · exact List.append_subset.mpr ⟨List.append_subset.mpr ⟨hzero, zeros_subset _⟩, hdigits⟩
      · split
        · exact List.append_subset.mpr
            ⟨List.append_subset.mpr ⟨hdigits, hsign _⟩, natToText_subset _⟩
        · exact List.append_subset.mpr ⟨List.append_subset.mpr ⟨List.append_subset.mpr
            ⟨List.append_subset.mpr ⟨htake _, hpoint⟩, hdrop _⟩, hsign _⟩, natToText_subset _⟩

/-- The text of a number has no units but these. -/
lemma numberToText_subset (x : Float) : numberToText x ⊆ numeralUnits := by
  have hdecimal : decimalUnits ⊆ numeralUnits := by decide
  have hpositive (x : Float) : positiveToText x ⊆ numeralUnits :=
    List.Subset.trans (positiveToText_subset x) hdecimal
  have hnan : js "NaN" ⊆ numeralUnits := by decide
  have hzero : js "0" ⊆ numeralUnits := by decide
  have hminus : js "-" ⊆ numeralUnits := by decide
  have hinfinity : js "Infinity" ⊆ numeralUnits := by decide
  unfold numberToText
  split
  · exact hnan
  · split
    · exact hzero
    · split
      · apply List.append_subset.mpr
        refine ⟨hminus, ?_⟩
        split
        · exact hinfinity
        · exact hpositive _
      · split
        · exact hinfinity
        · exact hpositive _

/-- Numbers have no unit with a special meaning in a replacement. -/
lemma substitution_number (before matched after : Text) (x : Float) :
    substitution before matched after (numberToText x) = numberToText x := by
  apply substitution_of_not_mem
  intro h
  have hmem := numberToText_subset x h
  revert hmem
  decide

end numerals

end JavaScript

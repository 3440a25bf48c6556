import Mathlib.Order.Compare
import SecurityScanner.Lib.TextSearch

/-!
# Numbers and their texts

Equal finite floats have the same bits, and the shortest decimal of a float reads as that
float. So a number can be told from its text.
-/

namespace Binary64

section equality

open Float.Model UnpackedFloat

lemma toNat_eq_parts (b : BitVec Format.binary64.numBits) :
    b.toNat = (unpackSign b).toNat * 2 ^ 63 + (unpackExponent b).toNat * 2 ^ 52 +
      (unpackMantissa b).toNat := by
  have hlt : b.toNat < 2 ^ 64 := b.isLt
  unfold unpackSign unpackExponent unpackMantissa
  simp only [BitVec.toNat_cast, BitVec.extractLsb_toNat, Nat.shiftRight_eq_div_pow]
  omega

/-- A finite float with its implicit bit, or a subnormal one. -/
lemma unpack_eq_finite {b : BitVec Format.binary64.numBits} {s : Sign} {m : Nat} {e : Int}
    {hm : 0 < m} (h : UnpackedFloat.unpack Format.binary64 b = .finite s m e hm) :
    s = Sign.ofBitVec (unpackSign b) ∧
      ((unpackExponent b).toNat ≠ 0 ∧ m = 2 ^ 52 + (unpackMantissa b).toNat ∧
          e = (unpackExponent b).toNat - 1075 ∨
        (unpackExponent b).toNat = 0 ∧ m = (unpackMantissa b).toNat ∧ e = -1074) := by
  unfold UnpackedFloat.unpack at h
  dsimp only at h
  by_cases hlast : unpackExponent b = -1#_
  · rw [if_pos hlast] at h
    by_cases hzero : unpackMantissa b = 0#_
    · rw [if_pos hzero] at h
      cases h
    · rw [if_neg hzero] at h
      cases h
  · rw [if_neg hlast] at h
    by_cases hexp : unpackExponent b = 0#_
    · rw [if_pos hexp] at h
      by_cases hzero : unpackMantissa b = 0#_
      · rw [dif_pos hzero] at h
        cases h
      · rw [dif_neg hzero] at h
        injection h with hsign hmantissa hexponent
        refine ⟨hsign.symm, Or.inr ⟨?_, hmantissa.symm, ?_⟩⟩
        · rw [hexp]
          rfl
        · rw [← hexponent, hexp]
          rfl
    · rw [if_neg hexp] at h
      injection h with hsign hmantissa hexponent
      refine ⟨hsign.symm, Or.inl ⟨?_, ?_, ?_⟩⟩
      · intro hnat
        exact hexp (BitVec.eq_of_toNat_eq hnat)
      · rw [← hmantissa, BitVec.toNat_append,
          ← Nat.shiftLeft_add_eq_or_of_lt (unpackMantissa b).isLt]
        rfl
      · rw [← hexponent]
        rfl

lemma sign_ofBitVec_inj {u v : BitVec 1} (h : Sign.ofBitVec u = Sign.ofBitVec v) : u = v := by
  rcases BitVec.eq_zero_or_eq_one u with rfl | rfl
  · rcases BitVec.eq_zero_or_eq_one v with rfl | rfl
    · rfl
    · cases h
  · rcases BitVec.eq_zero_or_eq_one v with rfl | rfl
    · cases h
    · rfl

lemma eq_of_unpack {a b : BitVec Format.binary64.numBits} {s : Sign} {m : Nat} {e : Int}
    {hm : 0 < m} (ha : UnpackedFloat.unpack Format.binary64 a = .finite s m e hm)
    (hb : UnpackedFloat.unpack Format.binary64 b = .finite s m e hm) : a = b := by
  obtain ⟨hsa, hpa⟩ := unpack_eq_finite ha
  obtain ⟨hsb, hpb⟩ := unpack_eq_finite hb
  have hsign : unpackSign a = unpackSign b := sign_ofBitVec_inj (hsa.symm.trans hsb)
  have hla : (unpackMantissa a).toNat < 2 ^ 52 := (unpackMantissa a).isLt
  have hlb : (unpackMantissa b).toNat < 2 ^ 52 := (unpackMantissa b).isLt
  apply BitVec.eq_of_toNat_eq
  rw [toNat_eq_parts a, toNat_eq_parts b, hsign]
  rcases hpa with hpa | hpa
  · rcases hpb with hpb | hpb
    · omega
    · omega
  · rcases hpb with hpb | hpb
    · omega
    · omega

lemma eq_of_compare {s : Sign} {m : Nat} {e : Int} {hm : 0 < m} {y : UnpackedFloat}
    (h : UnpackedFloat.compare (.finite s m e hm) y = some .eq) : y = .finite s m e hm := by
  cases y with
  | finite s' m' e' hm' =>
    have hfields (hexponent : e = e') (hmantissa : m = m') :
        UnpackedFloat.finite s m' e' hm' = .finite s m e hm := by
      subst hexponent hmantissa
      rfl
    cases s with
    | negative =>
      cases s' with
      | negative =>
        have hthen := Ordering.then_eq_eq.mp (Ordering.swap_eq_eq.mp (Option.some.inj h))
        exact hfields (compare_eq_iff_eq.mp hthen.1) (compare_eq_iff_eq.mp hthen.2)
      | positive => cases h
    | positive =>
      cases s' with
      | negative => cases h
      | positive =>
        have hthen := Ordering.then_eq_eq.mp (Option.some.inj h)
        exact hfields (compare_eq_iff_eq.mp hthen.1) (compare_eq_iff_eq.mp hthen.2)
  | infinity s' => cases s <;> cases s' <;> cases h
  | zero s' => cases s <;> cases h
  | notANumber => cases s <;> cases h

/-- A float that equals a finite one other than zero is the same float. -/
lemma eq_of_beq {x y : Float} (hx : ∃ s m e hm, x.toModel.unpack = .finite s m e hm)
    (h : (x == y) = true) : y = x := by
  obtain ⟨s, m, e, hm, hunpack⟩ := hx
  have hcompare : (UnpackedFloat.compare x.toModel.unpack y.toModel.unpack == some .eq) = true := h
  rw [beq_iff_eq, hunpack] at hcompare
  have hy : y.toModel.unpack = .finite s m e hm := eq_of_compare hcompare
  have hbits := eq_of_unpack hy hunpack
  obtain ⟨⟨bits, hvalid⟩⟩ := x
  obtain ⟨⟨bits', hvalid'⟩⟩ := y
  have heq : bits' = bits := UInt64.toBitVec_inj.mp hbits
  subst heq
  rfl

end equality

section shortest

/-- Trailing zeros move into the exponent. -/
lemma dropZeros_spec {fuel s s' : Nat} {e e' : Int} (h : dropZeros fuel s e = (s', e')) :
    ∃ j : Nat, j ≤ fuel ∧ s = s' * 10 ^ j ∧ e = e' - j := by
  induction fuel generalizing s e with
  | zero =>
    obtain ⟨rfl, rfl⟩ := Prod.mk.inj h
    exact ⟨0, le_refl 0, by omega, by omega⟩
  | succ fuel ih =>
    rw [dropZeros] at h
    split at h
    · rename_i hzero
      obtain ⟨j, hj, hs, he⟩ := ih h
      refine ⟨j + 1, Nat.succ_le_succ hj, ?_, by omega⟩
      rw [pow_succ, ← mul_assoc, ← hs]
      omega
    · obtain ⟨rfl, rfl⟩ := Prod.mk.inj h
      exact ⟨0, Nat.zero_le _, by omega, by omega⟩

lemma reads_of_digitsOfLength {x : Float} {q : ℚ} {n : Int} {k s : Nat} {e : Int}
    (h : digitsOfLength x q n k = some (s, e)) : (ofDecimal s e == x) = true := by
  unfold digitsOfLength at h
  obtain ⟨t, -, ht⟩ := List.exists_of_findSome?_eq_some h
  split at ht
  · rename_i hreads
    obtain ⟨rfl, rfl⟩ := Prod.mk.inj (Option.some.inj ht)
    exact hreads
  · cases ht

/-- The shortest decimal reads as the float, with the zeros that were dropped. -/
lemma shortest_reads {x : Float} {s : Nat} {e : Int} (h : shortest x = (s, e)) (hs : s ≠ 0) :
    ∃ j : Nat, j ≤ 20 ∧ (ofDecimal (s * 10 ^ j) (e - j) == x) = true := by
  unfold shortest at h
  generalize scaleDown 310 (exact x) 0 = down at h
  obtain ⟨q, n⟩ := down
  dsimp only at h
  generalize scaleUp 330 q n = up at h
  obtain ⟨q', n'⟩ := up
  dsimp only at h
  cases hfind : ((List.range 18).drop 1).findSome? (digitsOfLength x q' n') with
  | none =>
    rw [hfind] at h
    obtain ⟨j, -, hzero, -⟩ := dropZeros_spec h
    have hpos : 0 < 10 ^ j := Nat.pow_pos (by decide)
    have hmul := Nat.mul_eq_zero.mp hzero.symm
    omega
  | some p =>
    obtain ⟨s', e'⟩ := p
    rw [hfind] at h
    obtain ⟨k, -, hk⟩ := List.exists_of_findSome?_eq_some hfind
    obtain ⟨j, hj, hs', he'⟩ := dropZeros_spec h
    refine ⟨j, hj, ?_⟩
    rw [← hs', ← he']
    exact reads_of_digitsOfLength hk

end shortest

end Binary64

namespace JavaScript

open Binary64

section numbers

lemma decimalValue_natToText (n : Nat) : decimalValue (natToText n) = n := by
  have hunit : ∀ c ∈ Nat.toDigits 10 n, encodeChar c = [c.toNat.toUInt16] ∧
      digitValue c.toNat.toUInt16 = c.toNat - 48 := by
    intro c hc
    have hdigit : c.isDigit = true := Nat.isDigit_of_mem_toDigits (by decide) (by decide) hc
    have hbounds : 48 ≤ c.toNat ∧ c.toNat ≤ 57 := Char.isDigit_iff_toNat.mp hdigit
    constructor
    · unfold encodeChar
      dsimp only
      rw [if_pos (by omega)]
    · change c.toNat % 65536 - 48 = _
      omega
  have htext : natToText n = (Nat.toDigits 10 n).map fun c => c.toNat.toUInt16 := by
    unfold natToText js
    rw [Nat.toString_eq_repr, Nat.toList_repr, List.map_eq_flatMap]
    exact List.flatMap_congr fun c hc => (hunit c hc).1
  unfold decimalValue
  rw [htext, List.foldl_map]
  conv => rhs; rw [← Nat.ofDigitChars_ten_toDigits (n := n), Nat.ofDigitChars_eq_foldl]
  apply List.foldl_ext
  intro m c hc
  rw [(hunit c hc).2]
  rfl

/-- A text of digits other than zero is the text of its digits. -/
lemma shortest_of_positiveToText {x : Float} {t : Text} (ht : t ⊆ js "123456789")
    (h : positiveToText x = t) : ∃ s, shortest x = (s, 0) ∧ natToText s = t := by
  have hnot {u : UInt16} (hu : u ∈ t) (hno : u ∉ js "123456789") : False := hno (ht hu)
  unfold positiveToText at h
  generalize shortest x = d at h
  obtain ⟨s, e⟩ := d
  dsimp only at h
  split at h
  · rename_i hwhole
    have hzeros : ((natToText s).length + e - (natToText s).length : Int).toNat = 0 := by
      by_contra hpos
      have hmem : unit '0' ∈ t := by
        rw [← h]
        exact List.mem_append_right _ (List.mem_replicate.mpr ⟨hpos, rfl⟩)
      exact hnot hmem (by decide)
    have he : e = 0 := by omega
    rw [hzeros, List.replicate_zero, List.append_nil] at h
    exact ⟨s, by rw [he], h⟩
  · exfalso
    split at h
    · refine hnot (u := unit '.') ?_ (by decide)
      rw [← h]
      exact List.mem_append_left _ (List.mem_append_right _ List.mem_cons_self)
    · split at h
      · refine hnot (u := unit '.') ?_ (by decide)
        rw [← h]
        exact List.mem_append_left _ (List.mem_append_left _
          (List.mem_cons_of_mem _ List.mem_cons_self))
      · have hsign : unit 'e' ∈ (if 0 < (natToText s).length + e then js "e+" else js "e-") := by
          split <;> exact List.mem_cons_self
        refine hnot (u := unit 'e') ?_ (by decide)
        rw [← h]
        split
        · exact List.mem_append_left _ (List.mem_append_right _ hsign)
        · exact List.mem_append_left _ (List.mem_append_right _ hsign)

/-- Only one number has this text. -/
lemma eq_of_numberToText {x : Float} (h : numberToText x = js "99999") : x = 99999 := by
  have hpositive : positiveToText x = js "99999" := by
    unfold numberToText at h
    split at h
    · exact absurd h (by decide)
    · split at h
      · exact absurd h (by decide)
      · split at h
        · exact absurd (List.cons.inj h).1 (by decide)
        · split at h
          · exact absurd h (by decide)
          · exact h
  obtain ⟨s, hshortest, htext⟩ := shortest_of_positiveToText (by decide) hpositive
  have hs : s = 99999 := by
    rw [← decimalValue_natToText s, htext]
    decide
  subst hs
  obtain ⟨j, hj, hreads⟩ := shortest_reads hshortest (by decide)
  have hall : ∀ j : Fin 21, ofDecimal (99999 * 10 ^ j.val) (0 - j.val) = 99999 := by
    decide +kernel
  rw [hall ⟨j, by omega⟩] at hreads
  exact eq_of_beq ⟨.positive, 6871878954123264, -36, by decide, rfl⟩ hreads

end numbers

end JavaScript

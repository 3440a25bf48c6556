import Mathlib.Algebra.Group.Nat.Defs
import Mathlib.Data.List.Basic
import Mathlib.Tactic.Common

/-!
# Dates and times of Python

`datetime` with its fields, and the texts of `isoformat` and `strftime`. The offset from UTC
is in microseconds, and a naive time has none.
-/

namespace Python

section padding

/-- The last `w` decimal digits. -/
def pad : Nat → Nat → List Char
  | 0, _ => []
  | w + 1, n => pad w (n / 10) ++ [Nat.digitChar (n % 10)]

@[simp] lemma length_pad (w n : Nat) : (pad w n).length = w := by
  induction w generalizing n with
  | zero => rfl
  | succ w ih => simp [pad, ih]

lemma digitChar_inj {m n : Nat} (hm : m < 10) (hn : n < 10)
    (h : Nat.digitChar m = Nat.digitChar n) : m = n := by
  have hall : ∀ a < 10, ∀ b < 10, Nat.digitChar a = Nat.digitChar b → a = b := by decide
  exact hall m hm n hn h

lemma pad_inj {w m n : Nat} (hm : m < 10 ^ w) (hn : n < 10 ^ w) (h : pad w m = pad w n) :
    m = n := by
  induction w generalizing m n with
  | zero =>
    rw [Nat.pow_zero] at hm hn
    omega
  | succ w ih =>
    obtain ⟨hhigh, hlow⟩ := List.append_inj h (by rw [length_pad, length_pad])
    have hdigit : m % 10 = n % 10 :=
      digitChar_inj (Nat.mod_lt _ (by decide)) (Nat.mod_lt _ (by decide))
        (List.singleton_inj.mp hlow)
    have hdiv : m / 10 = n / 10 := by
      rw [Nat.pow_succ] at hm hn
      exact ih (by omega) (by omega) hhigh
    omega

/-- Texts that start with numbers of the same width are equal in number and rest. -/
lemma pad_append_inj {w m n : Nat} {s t : List Char} (hm : m < 10 ^ w) (hn : n < 10 ^ w)
    (h : pad w m ++ s = pad w n ++ t) : m = n ∧ s = t := by
  obtain ⟨hpad, hrest⟩ := List.append_inj h (by rw [length_pad, length_pad])
  exact ⟨pad_inj hm hn hpad, hrest⟩

end padding

/-- A number of microseconds of less than a day either way. -/
structure UtcOffset where
  microseconds : Int
  lt_day : microseconds.natAbs < 86400000000
  deriving DecidableEq

/-- A `datetime`. -/
structure DateTime where
  year : Fin 10000
  month : Fin 100
  day : Fin 100
  hour : Fin 24
  minute : Fin 60
  second : Fin 60
  microsecond : Fin 1000000
  utcOffset : Option UtcOffset

/-- A minute of the calendar and the clock. -/
structure CalendarMinute where
  year : Fin 10000
  month : Fin 100
  day : Fin 100
  hour : Fin 24
  minute : Fin 60
  utcOffset : Option UtcOffset
  deriving DecidableEq

namespace DateTime

def calendarMinute (t : DateTime) : CalendarMinute :=
  ⟨t.year, t.month, t.day, t.hour, t.minute, t.utcOffset⟩

/-- `t.replace(second=0, microsecond=0)`. -/
def startOfMinute (t : DateTime) : DateTime := { t with second := 0, microsecond := 0 }

/-- The seconds and microseconds of an offset, where it has any. -/
def offsetTail (n : Nat) : List Char :=
  if n % 60000000 = 0 then []
  else ':' :: pad 2 (n / 1000000 % 60) ++
    if n % 1000000 = 0 then [] else '.' :: pad 6 (n % 1000000)

/-- The offset at the end of `isoformat`. -/
def offsetText : Option UtcOffset → List Char
  | none => []
  | some offset =>
    let n := offset.microseconds.natAbs
    (if offset.microseconds < 0 then '-' else '+') :: pad 2 (n / 3600000000) ++
      ':' :: pad 2 (n / 60000000 % 60) ++ offsetTail n

/-- `t.isoformat()`. -/
def isoformat (t : DateTime) : String :=
  String.ofList <| pad 4 t.year ++ '-' :: pad 2 t.month ++ '-' :: pad 2 t.day ++
    'T' :: pad 2 t.hour ++ ':' :: pad 2 t.minute ++ ':' :: pad 2 t.second ++
    (if t.microsecond = 0 then [] else '.' :: pad 6 t.microsecond) ++ offsetText t.utcOffset

/-- `t.strftime("%H:%M")`. -/
def strftimeHM (t : DateTime) : String := String.ofList (pad 2 t.hour ++ ':' :: pad 2 t.minute)

/-- `t.strftime("%Y-%m-%d %H:%M UTC")`. -/
def strftimeUtc (t : DateTime) : String :=
  String.ofList <| pad 4 t.year ++ '-' :: pad 2 t.month ++ '-' :: pad 2 t.day ++
    ' ' :: pad 2 t.hour ++ ':' :: pad 2 t.minute ++ " UTC".toList

lemma strftimeHM_eq_iff {t u : DateTime} :
    t.strftimeHM = u.strftimeHM ↔ t.hour = u.hour ∧ t.minute = u.minute := by
  unfold strftimeHM
  rw [String.ofList_inj]
  constructor
  · intro h
    obtain ⟨hhour, hrest⟩ := pad_append_inj (by omega) (by omega) h
    have hminute := pad_inj (by omega) (by omega) (List.cons.inj hrest).2
    exact ⟨Fin.ext hhour, Fin.ext hminute⟩
  · rintro ⟨hhour, hminute⟩
    rw [hhour, hminute]

lemma offsetTail_inj {m n : Nat} (h : offsetTail m = offsetTail n) :
    m % 60000000 = n % 60000000 := by
  unfold offsetTail at h
  by_cases hm : m % 60000000 = 0
  · by_cases hn : n % 60000000 = 0
    · rw [hm, hn]
    · rw [if_pos hm, if_neg hn] at h
      cases h
  · by_cases hn : n % 60000000 = 0
    · rw [if_neg hm, if_pos hn] at h
      cases h
    · rw [if_neg hm, if_neg hn] at h
      obtain ⟨hseconds, hrest⟩ := pad_append_inj (by omega) (by omega) (List.cons.inj h).2
      have hmicro : m % 1000000 = n % 1000000 := by
        by_cases hm' : m % 1000000 = 0
        · by_cases hn' : n % 1000000 = 0
          · rw [hm', hn']
          · rw [if_pos hm', if_neg hn'] at hrest
            cases hrest
        · by_cases hn' : n % 1000000 = 0
          · rw [if_neg hm', if_pos hn'] at hrest
            cases hrest
          · rw [if_neg hm', if_neg hn'] at hrest
            exact pad_inj (by omega) (by omega) (List.cons.inj hrest).2
      omega

lemma offsetText_inj {o o' : Option UtcOffset} (h : offsetText o = offsetText o') : o = o' := by
  cases o with
  | none =>
    cases o' with
    | none => rfl
    | some offset' => cases h
  | some offset =>
    cases o' with
    | none => cases h
    | some offset' =>
      obtain ⟨m, hm⟩ := offset
      obtain ⟨n, hn⟩ := offset'
      unfold offsetText at h
      dsimp only at h
      rw [List.cons_append, List.cons_append, List.append_assoc, List.append_assoc] at h
      obtain ⟨hsign, hrest⟩ := List.cons.inj h
      obtain ⟨hhours, hrest⟩ := pad_append_inj (by omega) (by omega) hrest
      obtain ⟨hminutes, hrest⟩ := pad_append_inj (by omega) (by omega) (List.cons.inj hrest).2
      have htail := offsetTail_inj hrest
      have habs : m.natAbs = n.natAbs := by omega
      have hneg : m < 0 ↔ n < 0 := by
        by_cases hm' : m < 0
        · by_cases hn' : n < 0
          · exact iff_of_true hm' hn'
          · rw [if_pos hm', if_neg hn'] at hsign
            exact absurd hsign (by decide)
        · by_cases hn' : n < 0
          · rw [if_neg hm', if_pos hn'] at hsign
            exact absurd hsign (by decide)
          · exact iff_of_false hm' hn'
      have heq : m = n := by omega
      subst heq
      rfl

/-- The text of the start of a minute tells all minutes apart. -/
theorem isoformat_startOfMinute_eq_iff {t u : DateTime} :
    t.startOfMinute.isoformat = u.startOfMinute.isoformat ↔
      t.calendarMinute = u.calendarMinute := by
  have htext (v : DateTime) : v.startOfMinute.isoformat = String.ofList (pad 4 v.year ++
      '-' :: (pad 2 v.month ++ '-' :: (pad 2 v.day ++ 'T' :: (pad 2 v.hour ++
        ':' :: (pad 2 v.minute ++ ':' :: (pad 2 0 ++ offsetText v.utcOffset)))))) := by
    unfold isoformat startOfMinute
    simp
  rw [htext, htext, String.ofList_inj]
  constructor
  · intro h
    obtain ⟨hyear, h⟩ := pad_append_inj (by omega) (by omega) h
    obtain ⟨hmonth, h⟩ := pad_append_inj (by omega) (by omega) (List.cons.inj h).2
    obtain ⟨hday, h⟩ := pad_append_inj (by omega) (by omega) (List.cons.inj h).2
    obtain ⟨hhour, h⟩ := pad_append_inj (by omega) (by omega) (List.cons.inj h).2
    obtain ⟨hminute, h⟩ := pad_append_inj (by omega) (by omega) (List.cons.inj h).2
    obtain ⟨-, h⟩ := pad_append_inj (by decide) (by decide) (List.cons.inj h).2
    unfold calendarMinute
    rw [Fin.ext hyear, Fin.ext hmonth, Fin.ext hday, Fin.ext hhour, Fin.ext hminute,
      offsetText_inj h]
  · intro h
    obtain ⟨hyear, hmonth, hday, hhour, hminute, hoffset⟩ := CalendarMinute.mk.inj h
    rw [hyear, hmonth, hday, hhour, hminute, hoffset]

end DateTime

end Python

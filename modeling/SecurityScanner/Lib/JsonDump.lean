import SecurityScanner.Json
import Mathlib.Algebra.Order.Ring.Rat

/-!
# Writing JSON

`json.dumps` and the serializer of pydantic are one writer with different layouts: what stands
behind commas, colons and brackets, and which characters of a string are escaped. How a float is
printed is a parameter.
-/

namespace SecurityScanner.Json

section numerals

/-- The parts of a decimal numeral. An exponent is its sign and its digits. -/
structure Decimal where
  negative : Bool
  whole : ℕ
  fraction : List Char := []
  exponent : Option (List Char × List Char) := none

/-- Fraction and exponent are runs of digits, and one of them is there. -/
structure Decimal.WellFormed (d : Decimal) : Prop where
  fraction_digits : ∀ c ∈ d.fraction, c.isDigit = true
  exponent_sign : ∀ e ∈ d.exponent, e.1 = [] ∨ e.1 = ['+'] ∨ e.1 = ['-']
  exponent_digits : ∀ e ∈ d.exponent, e.2 ≠ [] ∧ ∀ c ∈ e.2, c.isDigit = true
  not_int : d.fraction ≠ [] ∨ d.exponent ≠ none

def fractionText (digits : List Char) : List Char := if digits = [] then [] else '.' :: digits

def exponentText : Option (List Char × List Char) → List Char
  | none => []
  | some (sign, digits) => 'e' :: (sign ++ digits)

def Decimal.text (d : Decimal) : List Char :=
  (if d.negative then ['-'] else []) ++
    (Nat.toDigits 10 d.whole ++ (fractionText d.fraction ++ exponentText d.exponent))

def intText : ℤ → List Char
  | .ofNat n => Nat.toDigits 10 n
  | .negSucc n => '-' :: Nat.toDigits 10 (n + 1)

/-- `float.__repr__` and `float` of a decimal, on the numbers that are floats. -/
structure FloatFormat where
  IsFloat : ℚ → Prop
  repr : ℚ → {d : Decimal // d.WellFormed}
  float : Decimal → Option ℚ
  float_repr : ∀ q, IsFloat q → float (repr q) = some q

/-- The floats without a fraction. -/
def FloatFormat.whole : FloatFormat where
  IsFloat q := q.den = 1
  repr q := ⟨⟨decide (q.num < 0), q.num.natAbs, ['0'], none⟩,
    by simp, by simp, by simp, Or.inl (by simp)⟩
  float d := some (if d.negative then -d.whole else d.whole)
  float_repr q hq := by
    have hnum : (q.num : ℚ) = q := Rat.coe_int_num_of_den_eq_one hq
    refine congrArg some ?_
    by_cases hneg : q.num < 0
    · have habs : ((q.num.natAbs : ℤ) : ℚ) = -q := by
        rw [Int.ofNat_natAbs_of_nonpos (Int.le_of_lt hneg), Int.cast_neg, hnum]
      simp only [hneg, decide_true, ↓reduceIte]
      rw [← Int.cast_natCast, habs, neg_neg]
    · have habs : ((q.num.natAbs : ℤ) : ℚ) = q := by
        rw [Int.natAbs_of_nonneg (Int.not_lt.mp hneg), hnum]
      simp only [hneg, decide_false, Bool.false_eq_true, ↓reduceIte]
      rw [← Int.cast_natCast, habs]

end numerals

section strings

/-- `ensure_ascii`, or only what JSON asks for. -/
inductive Escaping where
  | ascii | minimal
  deriving DecidableEq

/-- `\u` with four hexadecimal digits. -/
def unicodeEscape (n : ℕ) : List Char :=
  ['\\', 'u', Nat.digitChar (n / 4096), Nat.digitChar (n / 256 % 16),
    Nat.digitChar (n / 16 % 16), Nat.digitChar (n % 16)]

def escapeChar (escaping : Escaping) (c : Char) : List Char :=
  if c = '"' then ['\\', '"']
  else if c = '\\' then ['\\', '\\']
  else if c = '\n' then ['\\', 'n']
  else if c = '\r' then ['\\', 'r']
  else if c = '\t' then ['\\', 't']
  else if c = '\x0c' then ['\\', 'f']
  else if c = '\x08' then ['\\', 'b']
  else if c.toNat < 32 then unicodeEscape c.toNat
  else if escaping = .ascii ∧ 127 ≤ c.toNat then
    if c.toNat < 0x10000 then unicodeEscape c.toNat
    else
      -- two UTF-16 code units
      unicodeEscape (0xd800 + (c.toNat - 0x10000) / 1024) ++
        unicodeEscape (0xdc00 + (c.toNat - 0x10000) % 1024)
  else [c]

def quote (escaping : Escaping) (s : String) : List Char :=
  '"' :: (s.toList.flatMap (escapeChar escaping) ++ ['"'])

end strings

section values

def isBlank (c : Char) : Bool := c = ' ' || c = '\t' || c = '\n' || c = '\r'

/-- The blanks behind a comma and a colon, and those that begin a line at some depth. -/
structure Layout where
  escaping : Escaping
  itemGap : List Char
  keyGap : List Char
  line : ℕ → List Char
  itemGap_blank : ∀ c ∈ itemGap, isBlank c = true
  keyGap_blank : ∀ c ∈ keyGap, isBlank c = true
  line_blank : ∀ d, ∀ c ∈ line d, isBlank c = true

/-- `json.dumps(v)`. -/
def Layout.python : Layout where
  escaping := .ascii
  itemGap := [' ']
  keyGap := [' ']
  line _ := []
  itemGap_blank := by simp [isBlank]
  keyGap_blank := by simp [isBlank]
  line_blank := by simp

variable (F : FloatFormat) (L : Layout)

/-- A key with the text of its value. -/
def fieldText (k : String) (t : List Char) : List Char :=
  quote L.escaping k ++ ':' :: (L.keyGap ++ t)

mutual

/-- The text of a value at a depth. -/
def dump (d : ℕ) : Json → List Char
  | .null => ['n', 'u', 'l', 'l']
  | .bool true => ['t', 'r', 'u', 'e']
  | .bool false => ['f', 'a', 'l', 's', 'e']
  | .int n => intText n
  | .float q => (F.repr q).val.text
  | .str s => quote L.escaping s
  | .arr [] => ['[', ']']
  | .arr (x :: xs) => '[' :: (L.line (d + 1) ++ (dump (d + 1) x ++ dumpItems d xs))
  | .obj [] => ['\x7b', '\x7d']
  | .obj ((k, x) :: fields) =>
    '\x7b' :: (L.line (d + 1) ++ (fieldText L k (dump (d + 1) x) ++ dumpFields d fields))

/-- The items behind the first one, and the closing bracket. -/
def dumpItems (d : ℕ) : List Json → List Char
  | [] => L.line d ++ [']']
  | x :: xs => ',' :: (L.itemGap ++ (L.line (d + 1) ++ (dump (d + 1) x ++ dumpItems d xs)))

/-- The fields behind the first one, and the closing brace. -/
def dumpFields (d : ℕ) : List (String × Json) → List Char
  | [] => L.line d ++ ['\x7d']
  | (k, x) :: fields =>
    ',' :: (L.itemGap ++ (L.line (d + 1) ++
      (fieldText L k (dump (d + 1) x) ++ dumpFields d fields)))

end

/-- `json.dumps`. -/
def dumps (v : Json) : String := String.ofList (dump F L 0 v)

end values

section characters

/-- A printable character of ASCII. -/
def Printable (c : Char) : Prop := 32 ≤ c.toNat ∧ c.toNat < 127

instance (c : Char) : Decidable (Printable c) := inferInstanceAs (Decidable (_ ∧ _))

lemma printable_of_isDigit {c : Char} (h : c.isDigit = true) : Printable c := by
  obtain ⟨hlow, hhigh⟩ := Char.isDigit_iff_toNat.mp h
  exact ⟨le_trans (by decide) hlow, lt_of_le_of_lt hhigh (by decide)⟩

lemma printable_unicodeEscape {n : ℕ} (h : n < 0x10000) : ∀ c ∈ unicodeEscape n, Printable c := by
  have hdigit : ∀ n : Fin 16, Printable (Nat.digitChar n.val) := by decide
  have hfirst := hdigit ⟨n / 4096, by omega⟩
  have hsecond := hdigit ⟨n / 256 % 16, by omega⟩
  have hthird := hdigit ⟨n / 16 % 16, by omega⟩
  have hlast := hdigit ⟨n % 16, by omega⟩
  have hslash : Printable '\\' := by decide
  have hu : Printable 'u' := by decide
  simp [unicodeEscape, *]

/-- An escape is printable, and with `ensure_ascii` everything is escaped that is not. -/
lemma mem_escapeChar {escaping : Escaping} {c c' : Char} (h : c' ∈ escapeChar escaping c) :
    32 ≤ c'.toNat ∧ (escaping = .ascii → c'.toNat < 127) := by
  have hprintable : Printable c' → 32 ≤ c'.toNat ∧ (escaping = .ascii → c'.toNat < 127) :=
    fun h => ⟨h.1, fun _ => h.2⟩
  have hpair : ∀ {d : Char}, Printable d → c' ∈ ['\\', d] → Printable c' := by
    intro d hd hmem
    rcases List.mem_cons.mp hmem with rfl | hmem
    · decide
    · exact List.mem_singleton.mp hmem ▸ hd
  have hc := c.valid
  unfold escapeChar at h
  split_ifs at h with h1 h2 h3 h4 h5 h6 h7 hcontrol hascii hplane
  · exact hprintable (hpair (by decide) h)
  · exact hprintable (hpair (by decide) h)
  · exact hprintable (hpair (by decide) h)
  · exact hprintable (hpair (by decide) h)
  · exact hprintable (hpair (by decide) h)
  · exact hprintable (hpair (by decide) h)
  · exact hprintable (hpair (by decide) h)
  · exact hprintable (printable_unicodeEscape (by omega) c' h)
  · exact hprintable (printable_unicodeEscape hplane c' h)
  · have hlt : c.toNat < 0x110000 := by
      rcases hc with hc | ⟨-, hc⟩
      · exact lt_trans hc (by decide)
      · exact hc
    rcases List.mem_append.mp h with h | h
    · exact hprintable (printable_unicodeEscape (by omega) c' h)
    · exact hprintable (printable_unicodeEscape (by omega) c' h)
  · rw [List.mem_singleton.mp h]
    exact ⟨not_lt.mp hcontrol, fun he => not_le.mp fun hle => hascii ⟨he, hle⟩⟩

/-- All that a layout writes is of `P`. -/
structure Layout.Writes (L : Layout) (P : Char → Prop) : Prop where
  printable : ∀ c, Printable c → P c
  escape : ∀ c, ∀ c' ∈ escapeChar L.escaping c, P c'
  itemGap : ∀ c ∈ L.itemGap, P c
  keyGap : ∀ c ∈ L.keyGap, P c
  line : ∀ d, ∀ c ∈ L.line d, P c

variable {F : FloatFormat} {L : Layout} {P : Char → Prop}

lemma Layout.Writes.toDigits (h : L.Writes P) (n : ℕ) : ∀ c ∈ Nat.toDigits 10 n, P c := fun c hc =>
  h.printable c (printable_of_isDigit (Nat.isDigit_of_mem_toDigits (by decide) (by decide) hc))

lemma Layout.Writes.decimal (h : L.Writes P) {d : Decimal} (hd : d.WellFormed) :
    ∀ c ∈ d.text, P c := by
  have hfraction : ∀ c ∈ fractionText d.fraction, P c := by
    unfold fractionText
    split
    · simp
    · exact List.forall_mem_cons.mpr ⟨h.printable _ (by decide),
        fun c hc => h.printable c (printable_of_isDigit (hd.fraction_digits c hc))⟩
  have hexponent : ∀ c ∈ exponentText d.exponent, P c := by
    cases he : d.exponent with
    | none => simp [exponentText]
    | some e =>
      obtain ⟨-, hdigits⟩ := hd.exponent_digits e he
      refine List.forall_mem_cons.mpr ⟨h.printable _ (by decide),
        List.forall_mem_append.mpr ⟨fun c hc => h.printable c ?_,
          fun c hc => h.printable c (printable_of_isDigit (hdigits c hc))⟩⟩
      rcases hd.exponent_sign e he with hsign | hsign | hsign
      · rw [hsign] at hc
        cases hc
      · rw [hsign] at hc
        rw [List.mem_singleton.mp hc]
        decide
      · rw [hsign] at hc
        rw [List.mem_singleton.mp hc]
        decide
  unfold Decimal.text
  refine List.forall_mem_append.mpr ⟨?_, List.forall_mem_append.mpr ⟨h.toDigits _,
    List.forall_mem_append.mpr ⟨hfraction, hexponent⟩⟩⟩
  split
  · exact List.forall_mem_singleton.mpr (h.printable _ (by decide))
  · simp

lemma Layout.Writes.quote (h : L.Writes P) (s : String) : ∀ c ∈ quote L.escaping s, P c := by
  have hquote : P '"' := h.printable _ (by decide)
  refine List.forall_mem_cons.mpr ⟨hquote, List.forall_mem_append.mpr
    ⟨fun c' hc' => ?_, List.forall_mem_singleton.mpr hquote⟩⟩
  obtain ⟨c, -, hc⟩ := List.mem_flatMap.mp hc'
  exact h.escape c c' hc

lemma Layout.Writes.fieldText (h : L.Writes P) (k : String) {t : List Char} (ht : ∀ c ∈ t, P c) :
    ∀ c ∈ fieldText L k t, P c :=
  List.forall_mem_append.mpr ⟨h.quote k, List.forall_mem_cons.mpr ⟨h.printable _ (by decide),
    List.forall_mem_append.mpr ⟨h.keyGap, ht⟩⟩⟩

mutual

lemma Layout.Writes.dump (h : L.Writes P) : ∀ (v : Json) (d : ℕ), ∀ c ∈ dump F L d v, P c
  | .null, _ => fun c hc => h.printable c (by
      have hall : ∀ c ∈ ['n', 'u', 'l', 'l'], Printable c := by simp [Printable]
      exact hall c hc)
  | .bool true, _ => fun c hc => h.printable c (by
      have hall : ∀ c ∈ ['t', 'r', 'u', 'e'], Printable c := by simp [Printable]
      exact hall c hc)
  | .bool false, _ => fun c hc => h.printable c (by
      have hall : ∀ c ∈ ['f', 'a', 'l', 's', 'e'], Printable c := by simp [Printable]
      exact hall c hc)
  | .int (.ofNat n), _ => h.toDigits n
  | .int (.negSucc n), _ =>
    List.forall_mem_cons.mpr ⟨h.printable _ (by decide), h.toDigits (n + 1)⟩
  | .float q, _ => h.decimal (F.repr q).property
  | .str s, _ => h.quote s
  | .arr [], _ => fun c hc => h.printable c (by
      have hall : ∀ c ∈ ['[', ']'], Printable c := by simp [Printable]
      exact hall c hc)
  | .arr (x :: xs), d =>
    List.forall_mem_cons.mpr ⟨h.printable _ (by decide), List.forall_mem_append.mpr
      ⟨h.line (d + 1), List.forall_mem_append.mpr
        ⟨Layout.Writes.dump h x (d + 1), Layout.Writes.dumpItems h xs d⟩⟩⟩
  | .obj [], _ => fun c hc => h.printable c (by
      have hall : ∀ c ∈ ['\x7b', '\x7d'], Printable c := by simp [Printable]
      exact hall c hc)
  | .obj ((k, x) :: fields), d =>
    List.forall_mem_cons.mpr ⟨h.printable _ (by decide), List.forall_mem_append.mpr
      ⟨h.line (d + 1), List.forall_mem_append.mpr
        ⟨h.fieldText k (Layout.Writes.dump h x (d + 1)), Layout.Writes.dumpFields h fields d⟩⟩⟩

lemma Layout.Writes.dumpItems (h : L.Writes P) :
    ∀ (xs : List Json) (d : ℕ), ∀ c ∈ dumpItems F L d xs, P c
  | [], d => List.forall_mem_append.mpr
      ⟨h.line d, List.forall_mem_singleton.mpr (h.printable _ (by decide))⟩
  | x :: xs, d =>
    List.forall_mem_cons.mpr ⟨h.printable _ (by decide), List.forall_mem_append.mpr
      ⟨h.itemGap, List.forall_mem_append.mpr ⟨h.line (d + 1), List.forall_mem_append.mpr
        ⟨Layout.Writes.dump h x (d + 1), Layout.Writes.dumpItems h xs d⟩⟩⟩⟩

lemma Layout.Writes.dumpFields (h : L.Writes P) :
    ∀ (fields : List (String × Json)) (d : ℕ), ∀ c ∈ dumpFields F L d fields, P c
  | [], d => List.forall_mem_append.mpr
      ⟨h.line d, List.forall_mem_singleton.mpr (h.printable _ (by decide))⟩
  | (k, x) :: fields, d =>
    List.forall_mem_cons.mpr ⟨h.printable _ (by decide), List.forall_mem_append.mpr
      ⟨h.itemGap, List.forall_mem_append.mpr ⟨h.line (d + 1), List.forall_mem_append.mpr
        ⟨h.fieldText k (Layout.Writes.dump h x (d + 1)),
          Layout.Writes.dumpFields h fields d⟩⟩⟩⟩

end

lemma writes_python : Layout.python.Writes Printable where
  printable _ hc := hc
  escape _ _ hc' := ⟨(mem_escapeChar hc').1, (mem_escapeChar hc').2 rfl⟩
  itemGap := by simp [Layout.python, Printable]
  keyGap := by simp [Layout.python, Printable]
  line := by simp [Layout.python]

/-- `json.dumps` writes a line of ASCII. -/
lemma printable_dumps (v : Json) : ∀ c ∈ (dumps F .python v).toList, Printable c := by
  unfold dumps
  rw [String.toList_ofList]
  exact writes_python.dump v 0

end characters

end SecurityScanner.Json

import SecurityScanner.Lib.ObjectLookup
import SecurityScanner.Lib.TextSearch

/-!
# Texts of JSON

What can be read back from the text of a value. A scanner that counts brackets finds the end
of a value, and the characters of a string are read from its escapes.
-/

namespace JavaScript

section quoting

def hexValue (u : UInt16) : Nat := if isDigit u then u.toNat - 48 else u.toNat - 87

/-- The unit that an escape stands for, and what follows the escape. -/
def unescape : Text → UInt16 × Text
  | [] => (92, [])
  | u :: t =>
    if u = unit 'b' then (8, t) else if u = unit 't' then (9, t)
    else if u = unit 'n' then (10, t) else if u = unit 'f' then (12, t)
    else if u = unit 'r' then (13, t)
    else if u = unit 'u' then
      ((t.take 4).foldl (fun n u => 16 * n + hexValue u) 0 |>.toUInt16, t.drop 4)
    else (u, t)

/-- The string before the closing quote and what follows it, in at most so many units. -/
def unquote : Nat → Text → Text × Text
  | fuel + 1, u :: t =>
    if u = 34 then ([], t)
    else
      let next := if u = 92 then unescape t else (u, t)
      let (s, after) := unquote fuel next.2
      (next.1 :: s, after)
  | _, t => ([], t)

lemma hexValue_hexDigit {n : Nat} (h : n < 16) : hexValue (hexDigit n) = n := by
  have hall : ∀ n : Fin 16, hexValue (hexDigit n.val) = n.val := by decide
  exact hall ⟨n, h⟩

lemma unescape_escapeUnit (u : UInt16) (rest : Text) :
    unescape (unit 'u' :: [hexDigit (u.toNat / 4096), hexDigit (u.toNat / 256 % 16),
      hexDigit (u.toNat / 16 % 16), hexDigit (u.toNat % 16)] ++ rest) = (u, rest) := by
  have hlt : u.toNat < 65536 := u.toNat_lt
  have hvalue : 16 * (16 * (16 * (16 * 0 + hexValue (hexDigit (u.toNat / 4096))) +
      hexValue (hexDigit (u.toNat / 256 % 16))) + hexValue (hexDigit (u.toNat / 16 % 16))) +
      hexValue (hexDigit (u.toNat % 16)) = u.toNat := by
    rw [hexValue_hexDigit (by omega), hexValue_hexDigit (by omega), hexValue_hexDigit (by omega),
      hexValue_hexDigit (by omega)]
    omega
  change ((16 * (16 * (16 * (16 * 0 + hexValue (hexDigit (u.toNat / 4096))) +
      hexValue (hexDigit (u.toNat / 256 % 16))) + hexValue (hexDigit (u.toNat / 16 % 16))) +
      hexValue (hexDigit (u.toNat % 16))).toUInt16, rest) = (u, rest)
  rw [hvalue]
  exact congrArg (·, rest) (UInt16.ofNat_toNat)

lemma unquote_cons {u : UInt16} (hquote : u ≠ 34) (hslash : u ≠ 92) (fuel : Nat) (t : Text) :
    unquote (fuel + 1) (u :: t) = (u :: (unquote fuel t).1, (unquote fuel t).2) := by
  rw [unquote, if_neg hquote, if_neg hslash]

lemma unquote_escape {u : UInt16} {t rest : Text} (h : unescape t = (u, rest)) (fuel : Nat) :
    unquote (fuel + 1) (92 :: t) = (u :: (unquote fuel rest).1, (unquote fuel rest).2) := by
  have hquote : ¬(92 : UInt16) = 34 := by decide
  rw [unquote, if_neg hquote, if_pos rfl, h]

lemma unquote_quoteUnit (u : UInt16) (fuel : Nat) (rest : Text) :
    unquote (fuel + 1) (quoteUnits.quoteUnit u ++ rest) =
      (u :: (unquote fuel rest).1, (unquote fuel rest).2) := by
  unfold quoteUnits.quoteUnit
  split_ifs with h1 h2 h3 h4 h5 h6 h7 h8
  · exact unquote_escape (by rw [h1]; rfl) fuel
  · exact unquote_escape (by rw [h2]; rfl) fuel
  · exact unquote_escape (by rw [h3]; rfl) fuel
  · exact unquote_escape (by rw [h4]; rfl) fuel
  · exact unquote_escape (by rw [h5]; rfl) fuel
  · exact unquote_escape (by rw [h6]; rfl) fuel
  · exact unquote_escape (by rw [h7]; rfl) fuel
  · exact unquote_escape (unescape_escapeUnit u rest) fuel
  · exact unquote_cons h6 h7 fuel rest

lemma surrogate_plain {u : UInt16} (h : 0xd800 ≤ u) : u ≠ 34 ∧ u ≠ 92 := by
  constructor
  · rintro rfl
    revert h
    decide
  · rintro rfl
    revert h
    decide

lemma surrogates_plain {u v : UInt16}
    (h : 0xd800 ≤ u ∧ u < 0xdc00 ∧ 0xdc00 ≤ v ∧ v < 0xe000) :
    (u ≠ 34 ∧ u ≠ 92) ∧ v ≠ 34 ∧ v ≠ 92 := by
  have hlow : (0xd800 : UInt16) ≤ 0xdc00 := by decide
  exact ⟨surrogate_plain h.1, surrogate_plain (UInt16.le_trans hlow h.2.2.1)⟩

/-- A quoted string can be read back. -/
lemma unquote_quoteUnits (t s : Text) {fuel : Nat} (h : t.length < fuel) :
    unquote fuel (quoteUnits t ++ 34 :: s) = (t, s) := by
  induction t using quoteUnits.induct generalizing fuel with
  | case1 =>
    obtain ⟨n, rfl⟩ : ∃ n, fuel = n + 1 := ⟨fuel - 1, by omega⟩
    rw [quoteUnits, List.nil_append, unquote, if_pos rfl]
  | case2 u =>
    obtain ⟨n, rfl⟩ : ∃ n, fuel = n + 2 := ⟨fuel - 2, by rw [List.length_singleton] at h; omega⟩
    rw [quoteUnits, unquote_quoteUnit, unquote, if_pos rfl]
  | case3 u v t hpair ih =>
    obtain ⟨hu, hv⟩ := surrogates_plain hpair
    rw [List.length_cons, List.length_cons] at h
    obtain ⟨n, rfl⟩ : ∃ n, fuel = n + 2 := ⟨fuel - 2, by omega⟩
    rw [quoteUnits, if_pos hpair, List.cons_append, List.cons_append, unquote_cons hu.1 hu.2,
      unquote_cons hv.1 hv.2, ih (by omega)]
  | case4 u v t hpair ih =>
    rw [List.length_cons] at h
    obtain ⟨n, rfl⟩ : ∃ n, fuel = n + 1 := ⟨fuel - 1, by omega⟩
    rw [quoteUnits, if_neg hpair, List.append_assoc, unquote_quoteUnit, ih (by omega)]

lemma quote_append (t s : Text) : quote t ++ s = 34 :: (quoteUnits t ++ 34 :: s) := by
  unfold quote
  rw [List.append_assoc, List.append_assoc]
  rfl

/-- A string ends at its closing quote. -/
lemma quote_append_inj {t t' s s' : Text} (h : quote t ++ s = quote t' ++ s') :
    t = t' ∧ s = s' := by
  rw [quote_append, quote_append] at h
  have hunits := List.tail_eq_of_cons_eq h
  have hleft : unquote (t.length + t'.length + 1) (quoteUnits t ++ 34 :: s) = (t, s) :=
    unquote_quoteUnits t s (by omega)
  have hright : unquote (t.length + t'.length + 1) (quoteUnits t' ++ 34 :: s') = (t', s') :=
    unquote_quoteUnits t' s' (by omega)
  rw [hunits, hright] at hleft
  exact Prod.mk.inj hleft.symm

end quoting

section lexing

/-- Where a scanner is: between the tokens or inside a string, behind a backslash or not. -/
inductive LexMode where
  | plain | quoted | escaped
  deriving DecidableEq, Repr

/-- The units of JSON outside of strings. -/
def jsonUnits : Text := js "\x7b\x7d[],:\"" ++ numeralUnits ++ js "truefalsn"

def isDelimiter (u : UInt16) : Bool := u = unit ',' || u = unit '\x7d' || u = unit ']'

def isOpener (u : UInt16) : Bool := u = unit '\x7b' || u = unit '['

/-- A scanner that counts the open brackets. It stops where a value has to end, and at units
that do not occur outside of strings. -/
def lex : LexMode → Nat → Text → Option (LexMode × Nat)
  | mode, d, [] => some (mode, d)
  | .plain, d, u :: t =>
    if u ∉ jsonUnits ∨ (d = 0 ∧ isDelimiter u) then none
    else if u = 34 then lex .quoted d t
    else if isOpener u then lex .plain (d + 1) t
    else if isDelimiter u ∧ u ≠ unit ',' then lex .plain (d - 1) t
    else lex .plain d t
  | .quoted, d, u :: t =>
    if u = 34 then lex .plain d t else if u = 92 then lex .escaped d t else lex .quoted d t
  | .escaped, d, _ :: t => lex .quoted d t

lemma lex_append (mode : LexMode) (d : Nat) (s t : Text) :
    lex mode d (s ++ t) = (lex mode d s).bind fun p => lex p.1 p.2 t := by
  induction s generalizing mode d with
  | nil =>
    cases mode <;> rfl
  | cons u s ih =>
    cases mode with
    | plain =>
      rw [List.cons_append, lex, lex]
      split
      · rfl
      · split
        · exact ih _ _
        · split
          · exact ih _ _
          · split
            · exact ih _ _
            · exact ih _ _
    | quoted =>
      rw [List.cons_append, lex, lex]
      split
      · exact ih _ _
      · split
        · exact ih _ _
        · exact ih _ _
    | escaped =>
      rw [List.cons_append, lex, lex]
      exact ih _ _

lemma lex_append_of_eq {mode mode' : LexMode} {d d' : Nat} {s : Text}
    (h : lex mode d s = some (mode', d')) (t : Text) :
    lex mode d (s ++ t) = lex mode' d' t := by
  rw [lex_append, h]
  rfl

/-- A text without quotes, brackets and commas. -/
lemma lex_of_flat {t : Text} (h : ∀ u ∈ t, u ∈ jsonUnits ∧ u ≠ 34 ∧ isOpener u = false ∧
    isDelimiter u = false) (d : Nat) : lex .plain d t = some (.plain, d) := by
  induction t with
  | nil => rfl
  | cons u t ih =>
    obtain ⟨hmem, hquote, hopen, hclose⟩ := h u List.mem_cons_self
    have hgo : ¬(u ∉ jsonUnits ∨ (d = 0 ∧ isDelimiter u = true)) := by
      rw [hclose]
      rintro (hnot | ⟨-, ⟨⟩⟩)
      exact hnot hmem
    have hno : ¬isOpener u = true := by rw [hopen]; exact Bool.false_ne_true
    have hnc : ¬(isDelimiter u = true ∧ u ≠ unit ',') := by rw [hclose]; simp
    rw [lex, if_neg hgo, if_neg hquote, if_neg hno, if_neg hnc]
    exact ih fun v hv => h v (List.mem_cons_of_mem u hv)

lemma lex_numeral {t : Text} (h : t ⊆ numeralUnits) (d : Nat) :
    lex .plain d t = some (.plain, d) := by
  have hall : ∀ u ∈ numeralUnits, u ∈ jsonUnits ∧ u ≠ 34 ∧ isOpener u = false ∧
      isDelimiter u = false := by decide
  exact lex_of_flat (fun u hu => hall u (h hu)) d

lemma lex_quoted_of_plain {t : Text} (h : ∀ u ∈ t, u ≠ 34 ∧ u ≠ 92) (d : Nat) :
    lex .quoted d t = some (.quoted, d) := by
  induction t with
  | nil => rfl
  | cons u t ih =>
    obtain ⟨hquote, hslash⟩ := h u List.mem_cons_self
    rw [lex, if_neg hquote, if_neg hslash]
    exact ih fun v hv => h v (List.mem_cons_of_mem u hv)

/-- A backslash takes the next unit with it. -/
lemma lex_escape {u : UInt16} {t : Text} (h : ∀ v ∈ t, v ≠ 34 ∧ v ≠ 92) (d : Nat) :
    lex .quoted d (92 :: u :: t) = some (.quoted, d) := by
  have hquote : ¬(92 : UInt16) = 34 := by decide
  rw [lex, if_neg hquote, if_pos rfl, lex]
  exact lex_quoted_of_plain h d

lemma hexDigit_plain {n : Nat} (h : n < 16) : hexDigit n ≠ 34 ∧ hexDigit n ≠ 92 := by
  have hall : ∀ n : Fin 16, hexDigit n.val ≠ 34 ∧ hexDigit n.val ≠ 92 := by decide
  exact hall ⟨n, h⟩

lemma lex_escapeUnit (u : UInt16) (d : Nat) :
    lex .quoted d (escapeUnit u) = some (.quoted, d) := by
  have hlt : u.toNat < 65536 := u.toNat_lt
  change lex .quoted d (92 :: unit 'u' :: [hexDigit (u.toNat / 4096),
    hexDigit (u.toNat / 256 % 16), hexDigit (u.toNat / 16 % 16), hexDigit (u.toNat % 16)]) = _
  apply lex_escape
  intro v hv
  simp only [List.mem_cons, List.not_mem_nil, or_false] at hv
  rcases hv with rfl | rfl | rfl | rfl
  · exact hexDigit_plain (by omega)
  · exact hexDigit_plain (by omega)
  · exact hexDigit_plain (by omega)
  · exact hexDigit_plain (by omega)

lemma lex_quoteUnit (u : UInt16) (d : Nat) :
    lex .quoted d (quoteUnits.quoteUnit u) = some (.quoted, d) := by
  unfold quoteUnits.quoteUnit
  split_ifs with _ _ _ _ _ hquote hslash
  · exact lex_escape (by decide) d
  · exact lex_escape (by decide) d
  · exact lex_escape (by decide) d
  · exact lex_escape (by decide) d
  · exact lex_escape (by decide) d
  · exact lex_escape (by decide) d
  · exact lex_escape (by decide) d
  · exact lex_escapeUnit u d
  · apply lex_quoted_of_plain
    intro v hv
    rw [List.mem_singleton] at hv
    rw [hv]
    exact ⟨hquote, hslash⟩

/-- The scanner stays inside a string. -/
lemma lex_quoteUnits (t : Text) (d : Nat) :
    lex .quoted d (quoteUnits t) = some (.quoted, d) := by
  induction t using quoteUnits.induct with
  | case1 => rfl
  | case2 u => exact lex_quoteUnit u d
  | case3 u v t hpair ih =>
    rw [quoteUnits, if_pos hpair]
    obtain ⟨hu, hv⟩ := surrogates_plain hpair
    have hplain : ∀ w ∈ [u, v], w ≠ 34 ∧ w ≠ 92 := by
      rintro w (_ | ⟨_, hw⟩)
      · exact hu
      · rw [List.mem_singleton.mp hw]
        exact hv
    change lex .quoted d ([u, v] ++ quoteUnits t) = _
    rw [lex_append_of_eq (lex_quoted_of_plain hplain d), ih]
  | case4 u v t hpair ih =>
    rw [quoteUnits, if_neg hpair, lex_append_of_eq (lex_quoteUnit u d), ih]

lemma lex_quote (t : Text) (d : Nat) : lex .plain d (quote t) = some (.plain, d) := by
  have hopen : lex .plain d (js "\"") = some (.quoted, d) := by
    change lex .plain d [34] = _
    have hgo : ¬((34 : UInt16) ∉ jsonUnits ∨ (d = 0 ∧ isDelimiter 34 = true)) := by
      rintro (h | ⟨-, h⟩)
      · exact h (by decide)
      · exact absurd h (by decide)
    rw [lex, if_neg hgo, if_pos rfl, lex]
  unfold quote
  rw [List.append_assoc, lex_append_of_eq hopen, lex_append_of_eq (lex_quoteUnits t d)]
  rfl

/-- A comma stands between values inside of brackets only. -/
lemma lex_joinWith {ts : List Text} {d : Nat}
    (h : ∀ t ∈ ts, lex .plain (d + 1) t = some (.plain, d + 1)) :
    lex .plain (d + 1) (joinWith (js ",") ts) = some (.plain, d + 1) := by
  have hcomma : lex .plain (d + 1) (js ",") = some (.plain, d + 1) := by
    change lex .plain (d + 1) [unit ','] = _
    have hgo : ¬(unit ',' ∉ jsonUnits ∨ (d + 1 = 0 ∧ isDelimiter (unit ',') = true)) := by
      rintro (h | ⟨h, -⟩)
      · exact h (by decide)
      · cases h
    rw [lex, if_neg hgo]
    rfl
  induction ts using joinWith.induct with
  | case1 => rfl
  | case2 t => exact h t List.mem_cons_self
  | case3 t ts hne ih =>
    rw [joinWith, lex_append_of_eq (s := t ++ js ",")]
    · exact ih fun u hu => h u (List.mem_cons_of_mem t hu)
    · rw [lex_append_of_eq (h t List.mem_cons_self), hcomma]
    · exact hne

/-- A pair of brackets leaves the depth as it is. -/
lemma lex_bracketed {u v : UInt16} (hu : u ∈ jsonUnits ∧ u ≠ 34 ∧ isOpener u = true ∧
      isDelimiter u = false)
    (hv : v ∈ jsonUnits ∧ v ≠ 34 ∧ isOpener v = false ∧ isDelimiter v = true ∧ v ≠ unit ',')
    {t : Text} {d : Nat} (h : lex .plain (d + 1) t = some (.plain, d + 1)) :
    lex .plain d ([u] ++ t ++ [v]) = some (.plain, d) := by
  have hopen : lex .plain d [u] = some (.plain, d + 1) := by
    have hgo : ¬(u ∉ jsonUnits ∨ (d = 0 ∧ isDelimiter u = true)) := by simp [hu.1, hu.2.2.2]
    rw [lex, if_neg hgo, if_neg hu.2.1, if_pos hu.2.2.1, lex]
  have hclose : lex .plain (d + 1) [v] = some (.plain, d) := by
    have hgo : ¬(v ∉ jsonUnits ∨ (d + 1 = 0 ∧ isDelimiter v = true)) := by simp [hv.1]
    have hnot : ¬isOpener v = true := by rw [hv.2.2.1]; exact Bool.false_ne_true
    rw [lex, if_neg hgo, if_neg hv.2.1, if_neg hnot, if_pos hv.2.2.2, lex, Nat.add_sub_cancel]
  rw [List.append_assoc, lex_append_of_eq hopen, lex_append_of_eq h, hclose]

mutual

/-- The scanner gets over the text of a value. -/
lemma lex_stringify (d : Nat) : ∀ v : Value, lex .plain d (stringify v) = some (.plain, d)
  | .null => by
    rw [stringify]
    exact lex_of_flat (by decide) d
  | .bool b => by
    rw [stringify]
    cases b <;> exact lex_of_flat (by decide) d
  | .num x => by
    rw [stringify]
    split
    · exact lex_of_flat (by decide) d
    · exact lex_numeral (numberToText_subset x) d
  | .str t => by
    rw [stringify]
    exact lex_quote t d
  | .arr xs => by
    rw [stringify]
    exact lex_bracketed (by decide) (by decide) (lex_joinWith (lex_stringifyItems (d + 1) xs))
  | .obj fields => by
    rw [stringify]
    exact lex_bracketed (by decide) (by decide) (lex_joinWith (lex_stringifyFields (d + 1) fields))

lemma lex_stringifyItems (d : Nat) :
    ∀ xs : List Value, ∀ t ∈ stringifyItems xs, lex .plain d t = some (.plain, d)
  | [] => by
    rw [stringifyItems]
    rintro t ⟨⟩
  | x :: xs => by
    rw [stringifyItems]
    rintro t (_ | ⟨_, ht⟩)
    · exact lex_stringify d x
    · exact lex_stringifyItems d xs t ht

lemma lex_stringifyFields (d : Nat) :
    ∀ fields : List (Text × Value), ∀ t ∈ stringifyFields fields,
      lex .plain d t = some (.plain, d)
  | [] => by
    rw [stringifyFields]
    rintro t ⟨⟩
  | (k, v) :: fields => by
    have hcolon : lex .plain d (js ":") = some (.plain, d) := lex_of_flat (by decide) d
    rw [stringifyFields]
    rintro t (_ | ⟨_, ht⟩)
    · rw [List.append_assoc, lex_append_of_eq (lex_quote k d), lex_append_of_eq hcolon,
        lex_stringify d v]
    · exact lex_stringifyFields d fields t ht

end

end lexing

section decoding

/-- What can stand behind a value: nothing, or a unit that does not belong to it. -/
def EndsValue (s : Text) : Prop := ∀ u ∈ s.head?, u ∉ jsonUnits ∨ isDelimiter u = true

lemma lex_end {u : UInt16} (h : u ∉ jsonUnits ∨ isDelimiter u = true) (t : Text) :
    lex .plain 0 (u :: t) = none := by
  rw [lex, if_pos (h.imp_right fun hd => ⟨rfl, hd⟩)]

/-- No value continues behind the end of another one. -/
lemma eq_nil_of_stringify_append {v w : Value} {r s s' : Text} (hs : EndsValue s)
    (hr : s = r ++ s') (h : stringify w = stringify v ++ r) : r = [] := by
  cases r with
  | nil => rfl
  | cons u r =>
    rw [hr] at hs
    have hscan := lex_stringify 0 w
    rw [h, lex_append_of_eq (lex_stringify 0 v), lex_end (hs u rfl)] at hscan
    cases hscan

/-- The text of a value ends where the value does. -/
lemma stringify_append_inj {v w : Value} {s s' : Text} (hs : EndsValue s) (hs' : EndsValue s')
    (h : stringify v ++ s = stringify w ++ s') : stringify v = stringify w ∧ s = s' := by
  rcases List.append_eq_append_iff.mp h with ⟨r, hw, hr⟩ | ⟨r, hv, hr⟩
  · have hnil := eq_nil_of_stringify_append hs hr hw
    rw [hnil, List.append_nil] at hw
    exact ⟨hw.symm, by rw [hr, hnil]; rfl⟩
  · have hnil := eq_nil_of_stringify_append hs' hr hv
    rw [hnil, List.append_nil] at hv
    exact ⟨hv, by rw [hr, hnil]; rfl⟩

/-- Two fields with the same text. -/
def SameText (f g : Text × Value) : Prop := f.1 = g.1 ∧ stringify f.2 = stringify g.2

/-- The text of the fields behind the opening bracket. -/
def closing (fields : Obj) : Text := joinWith (js ",") (stringifyFields fields) ++ js "\x7d"

/-- What follows the value of a field. -/
def afterField (fields : Obj) : Text :=
  if fields = [] then js "\x7d" else js "," ++ closing fields

lemma closing_cons (f : Text × Value) (fields : Obj) :
    closing (f :: fields) = quote f.1 ++ (js ":" ++ (stringify f.2 ++ afterField fields)) := by
  obtain ⟨k, v⟩ := f
  unfold closing afterField
  rw [stringifyFields]
  cases fields with
  | nil =>
    rw [stringifyFields, joinWith, if_pos rfl]
    simp only [List.append_assoc]
  | cons g fields =>
    have hne : stringifyFields (g :: fields) = [] → False := List.cons_ne_nil _ _
    rw [joinWith, if_neg (List.cons_ne_nil g fields)]
    · unfold closing
      simp only [List.append_assoc]
    · exact hne

lemma stringify_obj (o : Obj) : stringify (.obj o) = js "\x7b" ++ closing o := by
  rw [stringify, List.append_assoc]
  rfl

lemma ends_afterField (fields : Obj) : EndsValue (afterField fields) := by
  unfold afterField
  split
  · rintro u hu
    cases hu
    exact Or.inr rfl
  · rintro u hu
    cases hu
    exact Or.inr rfl

/-- Objects with the same text have the same keys, and values with the same texts. -/
lemma sameText_of_closing {o o' : Obj} (h : closing o = closing o') :
    List.Forall₂ SameText o o' := by
  induction o generalizing o' with
  | nil =>
    cases o' with
    | nil => exact .nil
    | cons g fields =>
      rw [closing_cons, quote_append] at h
      exact absurd (List.cons.inj h).1 (by decide)
  | cons f fields ih =>
    cases o' with
    | nil =>
      rw [closing_cons, quote_append] at h
      exact absurd (List.cons.inj h).1 (by decide)
    | cons g fields' =>
      rw [closing_cons, closing_cons] at h
      obtain ⟨hkey, hrest⟩ := quote_append_inj h
      obtain ⟨hvalue, hafter⟩ := stringify_append_inj (ends_afterField fields)
        (ends_afterField fields') (List.append_cancel_left hrest)
      refine .cons ⟨hkey, hvalue⟩ (ih ?_)
      unfold afterField at hafter
      split at hafter
      · split at hafter
        · rename_i hfields hfields'
          rw [hfields, hfields']
        · exact absurd (List.cons.inj hafter).1 (by decide)
      · split at hafter
        · exact absurd (List.cons.inj hafter).1 (by decide)
        · exact List.append_cancel_left hafter

lemma sameText_of_stringify {o o' : Obj} (h : stringify (.obj o) = stringify (.obj o')) :
    List.Forall₂ SameText o o' := by
  rw [stringify_obj, stringify_obj] at h
  exact sameText_of_closing (List.append_cancel_left h)

lemma stringify_of_sameText {o o' : Obj} (h : List.Forall₂ SameText o o') :
    stringify (.obj o) = stringify (.obj o') := by
  have hclosing : closing o = closing o' := by
    induction h with
    | nil => rfl
    | @cons f g fields fields' hfirst hrest ih =>
      have hnil : fields = [] ↔ fields' = [] := by
        rw [← List.length_eq_zero_iff, ← List.length_eq_zero_iff, hrest.length_eq]
      rw [closing_cons, closing_cons, hfirst.1, hfirst.2]
      unfold afterField
      simp only [hnil, ih]
  rw [stringify_obj, stringify_obj, hclosing]

/-- The texts of two objects agree on what each of their keys has. -/
lemma lookup_text {o o' : Obj} (h : stringify (.obj o) = stringify (.obj o')) (k : Text) :
    (o.lookup k).map stringify = (o'.lookup k).map stringify := by
  induction sameText_of_stringify h with
  | nil => rfl
  | @cons f g fields fields' hfirst hrest ih =>
    obtain ⟨key, v⟩ := f
    obtain ⟨key', w⟩ := g
    obtain ⟨hkey, hvalue⟩ : key = key' ∧ stringify v = stringify w := hfirst
    rw [Obj.lookup_cons, Obj.lookup_cons, hkey]
    split
    · exact congrArg some hvalue
    · exact ih (stringify_of_sameText hrest)

/-- Keys in the same order and the texts of their values make the text of an object. -/
lemma stringify_of_lookup {o o' : Obj} (hd : o.Distinct)
    (hkeys : o.map Prod.fst = o'.map Prod.fst)
    (h : ∀ k, (o.lookup k).map stringify = (o'.lookup k).map stringify) :
    stringify (.obj o) = stringify (.obj o') := by
  apply stringify_of_sameText
  have hd' : o'.Distinct := by
    unfold Obj.Distinct
    rwa [← hkeys]
  have hlen : o.length = o'.length := by
    rw [← List.length_map Prod.fst, hkeys, List.length_map]
  apply List.forall₂_iff_get.mpr
  refine ⟨hlen, fun i hi hi' => ?_⟩
  have hkey : (o.get ⟨i, hi⟩).1 = (o'.get ⟨i, hi'⟩).1 := by
    have hget := List.getElem_of_eq hkeys (by rwa [List.length_map] : i < (o.map Prod.fst).length)
    rwa [List.getElem_map, List.getElem_map] at hget
  have hvalue := h (o.get ⟨i, hi⟩).1
  rw [Obj.lookup_of_mem hd (List.get_mem o _), hkey,
    Obj.lookup_of_mem hd' (List.get_mem o' _)] at hvalue
  exact ⟨hkey, Option.some.inj hvalue⟩

end decoding

section boundaries

lemma natToText_ne_nil (n : Nat) : natToText n ≠ [] := by
  intro h
  have hdigits : (toString n).toList = Nat.toDigits 10 n := by
    rw [Nat.toString_eq_repr, Nat.toList_repr]
  unfold natToText js at h
  rw [hdigits, List.flatMap_eq_nil_iff] at h
  obtain ⟨c, hc⟩ := List.exists_mem_of_ne_nil _ (Nat.toDigits_ne_nil : Nat.toDigits 10 n ≠ [])
  have hchar := h c hc
  unfold encodeChar at hchar
  dsimp only at hchar
  split at hchar <;> cases hchar

lemma positiveToText_ne_nil (x : Float) : positiveToText x ≠ [] := by
  unfold positiveToText
  rcases Binary64.shortest x with ⟨s, e⟩
  have hdigits := natToText_ne_nil s
  dsimp only
  split
  · exact List.append_ne_nil_of_left_ne_nil hdigits _
  · split
    · exact List.append_ne_nil_of_left_ne_nil
        (List.append_ne_nil_of_right_ne_nil _ (List.cons_ne_nil _ _)) _
    · split
      · exact List.append_ne_nil_of_right_ne_nil _ hdigits
      · split
        · exact List.append_ne_nil_of_right_ne_nil _ (natToText_ne_nil _)
        · exact List.append_ne_nil_of_right_ne_nil _ (natToText_ne_nil _)

lemma numberToText_ne_nil (x : Float) : numberToText x ≠ [] := by
  unfold numberToText
  split
  · exact List.cons_ne_nil _ _
  · split
    · exact List.cons_ne_nil _ _
    · split
      · exact List.append_ne_nil_of_left_ne_nil (List.cons_ne_nil _ _) _
      · split
        · exact List.cons_ne_nil _ _
        · exact positiveToText_ne_nil x

/-- No value ends with an opening brace. -/
lemma getLast?_stringify (v : Value) : ∃ u, (stringify v).getLast? = some u ∧ u ≠ unit '\x7b' := by
  cases v with
  | null => exact ⟨unit 'l', by rw [stringify]; rfl, by decide⟩
  | bool b =>
    refine ⟨unit 'e', ?_, by decide⟩
    rw [stringify]
    cases b <;> rfl
  | num x =>
    rw [stringify]
    split
    · exact ⟨unit 'l', rfl, by decide⟩
    · have hne := numberToText_ne_nil x
      refine ⟨(numberToText x).getLast hne, List.getLast?_eq_getLast_of_ne_nil hne, ?_⟩
      intro heq
      have hmem := numberToText_subset x (List.getLast_mem hne)
      rw [heq] at hmem
      revert hmem
      decide
  | str t =>
    rw [stringify]
    exact ⟨34, by unfold quote; exact List.getLast?_concat, by decide⟩
  | arr xs =>
    rw [stringify]
    exact ⟨unit ']', List.getLast?_concat, by decide⟩
  | obj fields =>
    rw [stringify]
    exact ⟨unit '\x7d', List.getLast?_concat, by decide⟩

/-- The text of an object with properties ends with a value and a brace. -/
lemma closing_eq {o : Obj} (h : o ≠ []) : ∃ t u,
    closing o = t ++ [u] ++ js "\x7d" ∧ u ≠ unit '\x7b' := by
  induction o with
  | nil => exact absurd rfl h
  | cons f fields ih =>
    rw [closing_cons]
    unfold afterField
    by_cases hnil : fields = []
    · obtain ⟨u, hlast, hu⟩ := getLast?_stringify f.2
      obtain ⟨t, ht⟩ := List.getLast?_eq_some_iff.mp hlast
      refine ⟨quote f.1 ++ (js ":" ++ t), u, ?_, hu⟩
      rw [if_pos hnil, ht]
      simp only [List.append_assoc]
    · obtain ⟨t, u, ht, hu⟩ := ih hnil
      refine ⟨quote f.1 ++ (js ":" ++ (stringify f.2 ++ (js "," ++ t))), u, ?_, hu⟩
      rw [if_neg hnil, ht]
      simp only [List.append_assoc]

/-- Only the empty object ends with a pair of braces. -/
lemma eq_nil_of_stringify_eq {o : Obj} {t : Text}
    (h : stringify (.obj o) = t ++ js "\x7b\x7d") : o = [] := by
  by_contra hne
  obtain ⟨s, u, hs, hu⟩ := closing_eq hne
  rw [stringify_obj, hs] at h
  have hsplit : (js "\x7b" ++ s ++ [u]) ++ js "\x7d" = (t ++ js "\x7b") ++ js "\x7d" := by
    have hbraces : js "\x7b\x7d" = js "\x7b" ++ js "\x7d" := rfl
    rw [hbraces] at h
    simpa only [List.append_assoc] using h
  have hlast := congrArg List.getLast? (List.append_cancel_right hsplit)
  rw [List.getLast?_concat] at hlast
  exact hu (Option.some.inj (hlast.trans List.getLast?_concat))

/-- The text of an object with properties goes on with a quote. -/
lemma stringify_head {o : Obj} (h : o ≠ []) : ∃ t, stringify (.obj o) = js "\x7b\"" ++ t := by
  obtain ⟨f, fields, rfl⟩ := List.exists_cons_of_ne_nil h
  rw [stringify_obj, closing_cons, quote_append]
  exact ⟨_, rfl⟩

lemma head?_natToText (n : Nat) : ∃ u, (natToText n).head? = some u ∧ isDigit u = true := by
  obtain ⟨u, t, ht⟩ := List.exists_cons_of_ne_nil (natToText_ne_nil n)
  have hmem : u ∈ natToText n := by
    rw [ht]
    exact List.mem_cons_self
  exact ⟨u, by rw [ht]; rfl, isDigit_of_mem_natToText hmem⟩

/-- A positive number starts with a digit. -/
lemma head?_positiveToText (x : Float) :
    ∃ u, (positiveToText x).head? = some u ∧ isDigit u = true := by
  unfold positiveToText
  generalize Binary64.shortest x = d
  obtain ⟨s, e⟩ := d
  obtain ⟨u, hhead, hu⟩ := head?_natToText s
  have hdigits (t : Text) : (natToText s ++ t).head? = some u := by
    rw [List.head?_append, hhead]
    rfl
  have htake {n : Nat} (hn : 0 < n) (t t' : Text) :
      ((natToText s).take n ++ t ++ t').head? = some u := by
    obtain ⟨m, rfl⟩ := Nat.exists_eq_succ_of_ne_zero (Nat.pos_iff_ne_zero.mp hn)
    obtain ⟨rest, hrest⟩ := List.head?_eq_some_iff.mp hhead
    rw [hrest]
    rfl
  dsimp only
  split
  · exact ⟨u, hdigits _, hu⟩
  · split
    · rename_i hpoint
      exact ⟨u, htake (by omega) _ _, hu⟩
    · split
      · exact ⟨unit '0', rfl, by decide⟩
      · split
        · refine ⟨u, ?_, hu⟩
          rw [List.append_assoc, hdigits]
        · refine ⟨u, ?_, hu⟩
          rw [List.append_assoc, List.append_assoc, htake Nat.one_pos]

/-- A number that JSON cannot write. -/
def NonFinite (v : Value) : Prop := ∃ x : Float, v = .num x ∧ (x.isNaN || x.isInf) = true

lemma head?_numberToText {x : Float} (h : (x.isNaN || x.isInf) = false) :
    ∃ u, (numberToText x).head? = some u ∧ u ∈ js "0123456789-" := by
  have hsubset : js "0123456789" ⊆ js "0123456789-" := by decide
  obtain ⟨hnan, hinf⟩ := Bool.or_eq_false_iff.mp h
  obtain ⟨u, hhead, hu⟩ := head?_positiveToText x
  unfold numberToText
  rw [hnan, hinf]
  split
  · contradiction
  · split
    · exact ⟨unit '0', rfl, by decide⟩
    · split
      · exact ⟨unit '-', rfl, by decide⟩
      · exact ⟨u, hhead, hsubset (mem_digits_of_isDigit hu)⟩

/-- The sorts of values that their first units tell apart. -/
def sort : Value → Fin 7
  | .null => 0
  | .bool b => if b then 1 else 2
  | .num x => if x.isNaN || x.isInf then 0 else 3
  | .str _ => 4
  | .arr _ => 5
  | .obj _ => 6

/-- The units that a value of the sort starts with. -/
def opening (n : Fin 7) : Text :=
  [js "n", js "t", js "f", js "0123456789-", js "\"", js "[", js "\x7b"].get n

lemma opening_disjoint : ∀ i j : Fin 7, i ≠ j → ∀ u ∈ opening i, u ∉ opening j := by decide

lemma exists_opening (v : Value) : ∃ u ∈ opening (sort v), (stringify v).head? = some u := by
  cases v with
  | null => exact ⟨unit 'n', by decide, by rw [stringify]; rfl⟩
  | bool b =>
    cases b with
    | false => exact ⟨unit 'f', by decide, by rw [stringify]; rfl⟩
    | true => exact ⟨unit 't', by decide, by rw [stringify]; rfl⟩
  | num x =>
    rw [stringify, sort]
    split
    · exact ⟨unit 'n', by decide, rfl⟩
    · rename_i h
      obtain ⟨u, hhead, hu⟩ := head?_numberToText (Bool.not_eq_true _ ▸ h)
      exact ⟨u, hu, hhead⟩
  | str t => exact ⟨34, by rw [sort]; decide, by rw [stringify]; rfl⟩
  | arr xs => exact ⟨unit '[', by rw [sort]; decide, by rw [stringify]; rfl⟩
  | obj fields => exact ⟨unit '\x7b', by rw [sort]; decide, by rw [stringify]; rfl⟩

lemma sort_of_text {v w : Value} (h : stringify v = stringify w) : sort v = sort w := by
  obtain ⟨u, hu, hhead⟩ := exists_opening v
  obtain ⟨u', hu', hhead'⟩ := exists_opening w
  rw [h, hhead'] at hhead
  rw [Option.some.inj hhead] at hu'
  by_contra hne
  exact opening_disjoint _ _ hne u hu hu'

/-- The values of a sort. -/
inductive Sorted : Fin 7 → Value → Prop
  | null : Sorted 0 .null
  | nonFinite {v : Value} : NonFinite v → Sorted 0 v
  | bool_true : Sorted 1 (.bool true)
  | bool_false : Sorted 2 (.bool false)
  | num (x : Float) : Sorted 3 (.num x)
  | str (t : Text) : Sorted 4 (.str t)
  | arr (xs : List Value) : Sorted 5 (.arr xs)
  | obj (fields : Obj) : Sorted 6 (.obj fields)

lemma sorted (v : Value) : Sorted (sort v) v := by
  cases v with
  | null => exact .null
  | bool b =>
    cases b with
    | false => exact .bool_false
    | true => exact .bool_true
  | num x =>
    rw [sort]
    split
    · rename_i h
      exact .nonFinite ⟨x, rfl, h⟩
    · exact .num x
  | str t => exact .str t
  | arr xs => exact .arr xs
  | obj fields => exact .obj fields

/-- Values with the same text, where only numbers have to be looked at. -/
inductive Printed : Value → Value → Prop
  | same (v : Value) : Printed v v
  | num (x y : Float) : stringify (.num x) = stringify (.num y) → Printed (.num x) (.num y)
  | arr (xs ys : List Value) : Printed (.arr xs) (.arr ys)
  | obj (fields fields' : Obj) : Printed (.obj fields) (.obj fields')
  | null_left {w : Value} : NonFinite w → Printed .null w
  | null_right {v : Value} : NonFinite v → Printed v .null

lemma printed_of_text {v w : Value} (h : stringify v = stringify w) : Printed v w := by
  have hv := sorted v
  have hw := sorted w
  rw [← sort_of_text h] at hw
  generalize sort v = n at hv hw
  cases hv with
  | null =>
    cases hw with
    | null => exact .same _
    | nonFinite hw => exact .null_left hw
  | nonFinite hv =>
    cases hw with
    | null => exact .null_right hv
    | nonFinite hw =>
      obtain ⟨x, rfl, -⟩ := hv
      obtain ⟨y, rfl, -⟩ := hw
      exact .num x y h
  | bool_true =>
    cases hw
    exact .same _
  | bool_false =>
    cases hw
    exact .same _
  | num x =>
    cases hw
    exact .num x _ h
  | str t =>
    cases hw with
    | str t' =>
      rw [stringify, stringify] at h
      have hquote : quote t ++ [] = quote t' ++ [] := by rw [h]
      rw [(quote_append_inj hquote).1]
      exact .same _
  | arr xs =>
    cases hw
    exact .arr xs _
  | obj fields =>
    cases hw
    exact .obj fields _

lemma eq_of_text_str {v : Value} {t : Text} (h : stringify v = stringify (.str t)) :
    v = .str t := by
  cases printed_of_text h with
  | same => rfl
  | null_left hw =>
    obtain ⟨x, hx, -⟩ := hw
    cases hx

/-- A bar stands inside a string, and a quote ends the string. -/
lemma stringify_ne_bar {v : Value} {s t : Text} {u : UInt16} (hu : u ∉ jsonUnits) :
    stringify v ≠ s ++ (js "|\x7b\"" ++ u :: t) := by
  intro h
  have hnone (mode : LexMode) (d : Nat) : lex mode d (js "|\x7b\"" ++ u :: t) = none := by
    have hbar : ¬(124 : UInt16) ∈ jsonUnits := by decide
    cases mode with
    | plain =>
      change lex .plain d (124 :: _) = _
      rw [lex, if_pos (Or.inl hbar)]
    | quoted =>
      change lex .plain d (u :: t) = _
      rw [lex, if_pos (Or.inl hu)]
    | escaped =>
      change lex .plain d (u :: t) = _
      rw [lex, if_pos (Or.inl hu)]
  have hscan := lex_stringify 0 v
  rw [h, lex_append] at hscan
  obtain ⟨p, -, hp⟩ := Option.bind_eq_some_iff.mp hscan
  rw [hnone] at hp
  cases hp

end boundaries

end JavaScript

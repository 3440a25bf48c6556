import SecurityScanner.Lib.JsonDump
import SecurityScanner.Lib.Python

/-!
# Reading JSON

The reader of RFC 8259 as `json.loads` and `JSON.parse` have it, and the round trip: every text of
the writer reads as the value that it was written for. A string that does not consist of
characters, with half of a surrogate pair, is rejected here, and so is a number beyond the floats.
-/

namespace SecurityScanner.Json

section reading

def skipBlanks (cs : List Char) : List Char := cs.dropWhile isBlank

def hexValue? (c : Char) : Option ℕ :=
  if c.isDigit then some (c.toNat - 48)
  else if 97 ≤ c.toNat ∧ c.toNat ≤ 102 then some (c.toNat - 87)
  else if 65 ≤ c.toNat ∧ c.toNat ≤ 70 then some (c.toNat - 55)
  else none

def scanHex : List Char → Option (ℕ × List Char)
  | a :: b :: c :: d :: cs => do
    let a ← hexValue? a
    let b ← hexValue? b
    let c ← hexValue? c
    let d ← hexValue? d
    pure (4096 * a + 256 * b + 16 * c + d, cs)
  | _ => none

/-- What follows `\u`; a high surrogate takes a low one with it. -/
def scanUnicode (cs : List Char) : Option (Char × List Char) := do
  let (n, cs) ← scanHex cs
  if 0xd800 ≤ n ∧ n < 0xdc00 then
    match cs with
    | '\\' :: 'u' :: cs =>
      let (m, cs) ← scanHex cs
      if 0xdc00 ≤ m ∧ m < 0xe000 then
        pure (Char.ofNat (0x10000 + 1024 * (n - 0xd800) + (m - 0xdc00)), cs)
      else none
    | _ => none
  else if 0xdc00 ≤ n ∧ n < 0xe000 then none
  else pure (Char.ofNat n, cs)

/-- What follows a backslash. -/
def scanEscape : List Char → Option (Char × List Char)
  | '"' :: cs => some ('"', cs)
  | '\\' :: cs => some ('\\', cs)
  | '/' :: cs => some ('/', cs)
  | 'b' :: cs => some ('\x08', cs)
  | 'f' :: cs => some ('\x0c', cs)
  | 'n' :: cs => some ('\n', cs)
  | 'r' :: cs => some ('\r', cs)
  | 't' :: cs => some ('\t', cs)
  | 'u' :: cs => scanUnicode cs
  | _ => none

/-- A string behind its opening quote, of fewer characters than the first argument. -/
def scanString : ℕ → List Char → Option (List Char × List Char)
  | n + 1, c :: cs =>
    if c = '"' then some ([], cs)
    else if c = '\\' then do
      let (c, cs) ← scanEscape cs
      let (s, cs) ← scanString n cs
      pure (c :: s, cs)
    else if c.toNat < 32 then none
    else do
      let (s, cs) ← scanString n cs
      pure (c :: s, cs)
  | _, _ => none

def scanDigits (cs : List Char) : List Char × List Char :=
  (cs.takeWhile Char.isDigit, cs.dropWhile Char.isDigit)

def scanMinus : List Char → Bool × List Char
  | '-' :: cs => (true, cs)
  | cs => (false, cs)

/-- A number has no leading zero. -/
def scanWhole : List Char → Option (ℕ × List Char)
  | '0' :: cs => some (0, cs)
  | cs =>
    match scanDigits cs with
    | ([], _) => none
    | (digits, cs) => some (Nat.ofDigitChars 10 digits 0, cs)

def scanFraction : List Char → List Char × List Char
  | '.' :: cs =>
    match scanDigits cs with
    | ([], _) => ([], '.' :: cs)
    | digits => digits
  | cs => ([], cs)

def scanSign : List Char → List Char × List Char
  | '+' :: cs => (['+'], cs)
  | '-' :: cs => (['-'], cs)
  | cs => ([], cs)

def scanExponent : List Char → Option (List Char × List Char) × List Char
  | c :: cs =>
    if c = 'e' ∨ c = 'E' then
      match scanDigits (scanSign cs).2 with
      | ([], _) => (none, c :: cs)
      | (digits, cs') => (some ((scanSign cs).1, digits), cs')
    else (none, c :: cs)
  | [] => (none, [])

variable (F : FloatFormat)

def scanNumber (cs : List Char) : Option (Json × List Char) := do
  let (negative, cs) := scanMinus cs
  let (whole, cs) ← scanWhole cs
  let (fraction, cs) := scanFraction cs
  let (exponent, cs) := scanExponent cs
  if fraction = [] ∧ exponent = none then
    pure (.int (if negative then -(whole : ℤ) else whole), cs)
  else
    let q ← F.float ⟨negative, whole, fraction, exponent⟩
    pure (.float q, cs)

/-- An object of pairs: the last value of a key counts, in the place of the first one. -/
def ofPairs (pairs : List (String × Json)) : Json :=
  .obj (Python.Dict.empty.update pairs).items

/-- A literal name, whose first character has been read. -/
def keyword (name : List Char) (v : Json) (cs : List Char) : Option (Json × List Char) :=
  if name.isPrefixOf cs then some (v, cs.drop name.length) else none

mutual

/-- A value at the start of a text, in so many nested or successive steps. -/
def parseValue : ℕ → List Char → Option (Json × List Char)
  | n + 1, c :: cs =>
    if c = '"' then do
      let (s, cs) ← scanString (cs.length + 1) cs
      pure (.str (String.ofList s), cs)
    else if c = '[' then
      if (skipBlanks cs).head? = some ']' then some (.arr [], (skipBlanks cs).tail)
      else do
        let (x, cs) ← parseValue n (skipBlanks cs)
        let (xs, cs) ← parseItems n cs
        pure (.arr (x :: xs), cs)
    else if c = '\x7b' then
      if (skipBlanks cs).head? = some '\x7d' then some (.obj [], (skipBlanks cs).tail)
      else do
        let (field, cs) ← parseField n (skipBlanks cs)
        let (fields, cs) ← parseFields n cs
        pure (ofPairs (field :: fields), cs)
    else if c = 'n' then keyword ['u', 'l', 'l'] .null cs
    else if c = 't' then keyword ['r', 'u', 'e'] (.bool true) cs
    else if c = 'f' then keyword ['a', 'l', 's', 'e'] (.bool false) cs
    else scanNumber F (c :: cs)
  | _, _ => none

/-- The items behind the first one. -/
def parseItems : ℕ → List Char → Option (List Json × List Char)
  | n + 1, cs =>
    match skipBlanks cs with
    | ']' :: cs => some ([], cs)
    | ',' :: cs => do
      let (x, cs) ← parseValue n (skipBlanks cs)
      let (xs, cs) ← parseItems n cs
      pure (x :: xs, cs)
    | _ => none
  | _, _ => none

/-- A key with its value. -/
def parseField : ℕ → List Char → Option ((String × Json) × List Char)
  | n + 1, '"' :: cs => do
    let (k, cs) ← scanString (cs.length + 1) cs
    match skipBlanks cs with
    | ':' :: cs =>
      let (x, cs) ← parseValue n (skipBlanks cs)
      pure ((String.ofList k, x), cs)
    | _ => none
  | _, _ => none

/-- The fields behind the first one. -/
def parseFields : ℕ → List Char → Option (List (String × Json) × List Char)
  | n + 1, cs =>
    match skipBlanks cs with
    | '\x7d' :: cs => some ([], cs)
    | ',' :: cs => do
      let (field, cs) ← parseField n (skipBlanks cs)
      let (fields, cs) ← parseFields n cs
      pure (field :: fields, cs)
    | _ => none
  | _, _ => none

end

/-- `json.loads`: a value and nothing else but blanks. -/
def loads (s : String) : Option Json :=
  match parseValue F s.length (skipBlanks s.toList) with
  | some (v, cs) => if skipBlanks cs = [] then some v else none
  | none => none

end reading


section strings

lemma skipBlanks_append {bs : List Char} (h : ∀ c ∈ bs, isBlank c = true) (cs : List Char) :
    skipBlanks (bs ++ cs) = skipBlanks cs := List.dropWhile_append_of_pos h

lemma skipBlanks_cons {c : Char} (h : isBlank c = false) (cs : List Char) :
    skipBlanks (c :: cs) = c :: cs := by
  unfold skipBlanks
  rw [List.dropWhile_cons, if_neg (by simp [h])]

lemma hexValue_digitChar {n : ℕ} (h : n < 16) : hexValue? (Nat.digitChar n) = some n := by
  have hall : ∀ n : Fin 16, hexValue? (Nat.digitChar n.val) = some n.val := by decide
  exact hall ⟨n, h⟩

lemma scanHex_unicodeEscape {n : ℕ} (h : n < 0x10000) (cs : List Char) :
    scanHex ((unicodeEscape n).drop 2 ++ cs) = some (n, cs) := by
  have hsum : 4096 * (n / 4096) + 256 * (n / 256 % 16) + 16 * (n / 16 % 16) + n % 16 = n := by
    omega
  have h3 : n / 4096 < 16 := by omega
  simp [unicodeEscape, scanHex, hexValue_digitChar h3,
    hexValue_digitChar (Nat.mod_lt _ (by decide : 0 < 16)), hsum]

/-- A character is no surrogate. -/
lemma not_surrogate (c : Char) : c.toNat < 0xd800 ∨ 0xe000 ≤ c.toNat ∧ c.toNat < 0x110000 := by
  rcases c.valid with h | ⟨h, h'⟩
  · exact Or.inl h
  · exact Or.inr ⟨h, h'⟩

lemma scanUnicode_unit {c : Char} (h : c.toNat < 0x10000) (cs : List Char) :
    scanUnicode ((unicodeEscape c.toNat).drop 2 ++ cs) = some (c, cs) := by
  have hc := not_surrogate c
  unfold scanUnicode
  rw [scanHex_unicodeEscape h]
  have hhigh : ¬(0xd800 ≤ c.toNat ∧ c.toNat < 0xdc00) := by omega
  have hlow : ¬(0xdc00 ≤ c.toNat ∧ c.toNat < 0xe000) := by omega
  simp [hhigh, hlow]

lemma scanUnicode_pair {c : Char} (h : 0x10000 ≤ c.toNat) (cs : List Char) :
    scanUnicode ((unicodeEscape (0xd800 + (c.toNat - 0x10000) / 1024)).drop 2 ++
      (unicodeEscape (0xdc00 + (c.toNat - 0x10000) % 1024) ++ cs)) = some (c, cs) := by
  have hc := not_surrogate c
  obtain ⟨n, hn⟩ : ∃ n, n = 0xd800 + (c.toNat - 0x10000) / 1024 := ⟨_, rfl⟩
  obtain ⟨m, hm⟩ : ∃ m, m = 0xdc00 + (c.toNat - 0x10000) % 1024 := ⟨_, rfl⟩
  rw [← hn, ← hm]
  have hhigh : 0xd800 ≤ n ∧ n < 0xdc00 := by omega
  have hlow : 0xdc00 ≤ m ∧ m < 0xe000 := by omega
  have hvalue : 0x10000 + 1024 * (n - 0xd800) + (m - 0xdc00) = c.toNat := by omega
  have hm' : scanHex ((unicodeEscape m).drop 2 ++ cs) = some (m, cs) :=
    scanHex_unicodeEscape (by omega) cs
  unfold scanUnicode
  rw [scanHex_unicodeEscape (by omega)]
  change (if 0xd800 ≤ n ∧ n < 0xdc00 then
    (do
      let (m, cs) ← scanHex ((unicodeEscape m).drop 2 ++ cs)
      if 0xdc00 ≤ m ∧ m < 0xe000 then
        pure (Char.ofNat (0x10000 + 1024 * (n - 0xd800) + (m - 0xdc00)), cs)
      else none : Option (Char × List Char)) else _) = _
  rw [if_pos hhigh, hm']
  simp [hlow, hvalue]

/-- What a character is written as reads as the character. -/
lemma scanString_escapeChar (escaping : Escaping) (c : Char) (n : ℕ) (cs : List Char) :
    scanString (n + 1) (escapeChar escaping c ++ cs) =
      (scanString n cs).map fun r => (c :: r.1, r.2) := by
  have hmap : ∀ r : Option (List Char × List Char),
      (do let (s, cs) ← r; pure (c :: s, cs)) = r.map fun r => (c :: r.1, r.2) := by
    rintro (_ | _) <;> rfl
  have hunit : ∀ d cs' cs, scanUnicode ((unicodeEscape d).drop 2 ++ cs') = some (c, cs) →
      scanString (n + 1) (unicodeEscape d ++ cs') =
        (scanString n cs).map fun r => (c :: r.1, r.2) := by
    intro d cs' cs h
    rw [← hmap]
    change (do
      let (c, cs) ← scanUnicode ((unicodeEscape d).drop 2 ++ cs')
      let (s, cs) ← scanString n cs
      pure (c :: s, cs)) = _
    rw [h]
    rfl
  unfold escapeChar
  by_cases hquote : c = '"'
  · subst hquote
    exact hmap _
  rw [if_neg hquote]
  by_cases hslash : c = '\\'
  · subst hslash
    exact hmap _
  rw [if_neg hslash]
  by_cases hn : c = '\n'
  · subst hn
    exact hmap _
  rw [if_neg hn]
  by_cases hr : c = '\r'
  · subst hr
    exact hmap _
  rw [if_neg hr]
  by_cases ht : c = '\t'
  · subst ht
    exact hmap _
  rw [if_neg ht]
  by_cases hf : c = '\x0c'
  · subst hf
    exact hmap _
  rw [if_neg hf]
  by_cases hb : c = '\x08'
  · subst hb
    exact hmap _
  rw [if_neg hb]
  by_cases hcontrol : c.toNat < 32
  · rw [if_pos hcontrol]
    exact hunit _ _ _ (scanUnicode_unit (by omega) cs)
  rw [if_neg hcontrol]
  by_cases hascii : escaping = .ascii ∧ 127 ≤ c.toNat
  · rw [if_pos hascii]
    by_cases hplane : c.toNat < 0x10000
    · rw [if_pos hplane]
      exact hunit _ _ _ (scanUnicode_unit hplane cs)
    · rw [if_neg hplane, List.append_assoc]
      exact hunit _ _ _ (scanUnicode_pair (not_lt.mp hplane) cs)
  · rw [if_neg hascii]
    change (if c = '"' then _ else if c = '\\' then _ else if c.toNat < 32 then _ else _) = _
    rw [if_neg hquote, if_neg hslash, if_neg hcontrol]
    exact hmap _

/-- A string ends at its closing quote. -/
lemma scanString_flatMap (escaping : Escaping) (s cs : List Char) {n : ℕ} (h : s.length < n) :
    scanString n (s.flatMap (escapeChar escaping) ++ '"' :: cs) = some (s, cs) := by
  induction s generalizing n with
  | nil =>
    obtain ⟨n, rfl⟩ : ∃ m, n = m + 1 := ⟨n - 1, by simp at h; omega⟩
    rfl
  | cons c s ih =>
    obtain ⟨n, rfl⟩ : ∃ m, n = m + 1 := ⟨n - 1, by simp at h; omega⟩
    rw [List.flatMap_cons, List.append_assoc, scanString_escapeChar,
      ih (Nat.lt_of_succ_lt_succ h)]
    rfl

/-- Every character is written, or a quote would be read as the end and as a character. -/
lemma escapeChar_ne_nil (escaping : Escaping) (c : Char) : escapeChar escaping c ≠ [] := by
  intro hnil
  have hread := scanString_escapeChar escaping c 1 ['"']
  rw [hnil] at hread
  cases hread

lemma length_le_flatMap (escaping : Escaping) (s : List Char) :
    s.length ≤ (s.flatMap (escapeChar escaping)).length := by
  induction s with
  | nil => exact le_rfl
  | cons c s ih =>
    have hc := List.length_pos_iff.mpr (escapeChar_ne_nil escaping c)
    rw [List.flatMap_cons, List.length_append, List.length_cons]
    omega

end strings

section numbers

/-- What can stand behind a number. -/
def Ends (cs : List Char) : Prop :=
  ∀ c ∈ cs.head?, c.isDigit = false ∧ c ≠ '.' ∧ c ≠ 'e' ∧ c ≠ 'E'

lemma scanDigits_append {digits cs : List Char} (h : ∀ c ∈ digits, c.isDigit = true)
    (hcs : ∀ c ∈ cs.head?, c.isDigit = false) : scanDigits (digits ++ cs) = (digits, cs) := by
  unfold scanDigits
  rw [List.takeWhile_append_of_pos h, List.dropWhile_append_of_pos h]
  cases cs with
  | nil => simp
  | cons c cs => simp [hcs c rfl]

lemma digits_toDigits (n : ℕ) : ∀ c ∈ Nat.toDigits 10 n, c.isDigit = true := fun _ hc =>
  Nat.isDigit_of_mem_toDigits (by decide) (by decide) hc

lemma head_toDigits {n : ℕ} (h : 0 < n) : ∀ c ∈ (Nat.toDigits 10 n).head?, c ≠ '0' := by
  induction n using Nat.strong_induction_on with
  | _ n ih =>
    by_cases hn : n < 10
    · rw [Nat.toDigits_of_lt_base hn]
      have hall : ∀ n : Fin 10, 0 < n.val → Nat.digitChar n.val ≠ '0' := by decide
      intro c hc
      rw [← Option.some.inj hc]
      exact hall ⟨n, hn⟩ h
    · have hpos : 0 < n / 10 := by omega
      rw [Nat.toDigits_of_base_le (by decide) (not_lt.mp hn),
        List.head?_append_of_ne_nil _ Nat.toDigits_ne_nil]
      exact ih (n / 10) (by omega) hpos

lemma scanWhole_toDigits (n : ℕ) {cs : List Char} (hcs : ∀ c ∈ cs.head?, c.isDigit = false) :
    scanWhole (Nat.toDigits 10 n ++ cs) = some (n, cs) := by
  by_cases hn : n = 0
  · subst hn
    rfl
  · have hdigits := scanDigits_append (digits_toDigits n) hcs
    have hhead := head_toDigits (Nat.pos_of_ne_zero hn)
    cases htext : Nat.toDigits 10 n with
    | nil => exact absurd htext Nat.toDigits_ne_nil
    | cons c digits =>
      rw [htext] at hdigits hhead
      have hc : c ≠ '0' := hhead c rfl
      have hvalue : Nat.ofDigitChars 10 (c :: digits) 0 = n := by
        rw [← htext]
        exact Nat.ofDigitChars_ten_toDigits
      rw [List.cons_append] at hdigits ⊢
      unfold scanWhole
      split
      · rename_i heq
        exact absurd (List.cons.inj heq).1 hc
      · rw [hdigits]
        simp only [hvalue]

/-- Nothing but a digit or a minus starts a number. -/
lemma scanMinus_toDigits (n : ℕ) (cs : List Char) :
    scanMinus (Nat.toDigits 10 n ++ cs) = (false, Nat.toDigits 10 n ++ cs) := by
  cases htext : Nat.toDigits 10 n with
  | nil => exact absurd htext Nat.toDigits_ne_nil
  | cons c digits =>
    have hc : c ≠ '-' := by
      rintro rfl
      have hdigit := digits_toDigits n '-' (by rw [htext]; exact List.mem_cons_self)
      exact absurd hdigit (by decide)
    rw [List.cons_append]
    unfold scanMinus
    split
    · rename_i heq
      exact absurd (List.cons.inj heq).1 hc
    · rfl

lemma scanFraction_of_ne {cs : List Char} (h : ∀ c ∈ cs.head?, c ≠ '.') :
    scanFraction cs = ([], cs) := by
  unfold scanFraction
  split
  · exact absurd rfl (h '.' rfl)
  · rfl

lemma scanFraction_digits {digits cs : List Char} (hne : digits ≠ [])
    (h : ∀ c ∈ digits, c.isDigit = true) (hcs : ∀ c ∈ cs.head?, c.isDigit = false) :
    scanFraction ('.' :: (digits ++ cs)) = (digits, cs) := by
  rw [scanFraction, scanDigits_append h hcs]
  cases digits with
  | nil => exact absurd rfl hne
  | cons c digits => rfl

lemma scanExponent_of_ne {cs : List Char} (h : ∀ c ∈ cs.head?, c ≠ 'e' ∧ c ≠ 'E') :
    scanExponent cs = (none, cs) := by
  cases cs with
  | nil => rfl
  | cons c cs =>
    obtain ⟨he, hE⟩ := h c rfl
    unfold scanExponent
    dsimp only
    rw [if_neg (not_or.mpr ⟨he, hE⟩)]

lemma scanExponent_digits {sign digits cs : List Char}
    (hsign : sign = [] ∨ sign = ['+'] ∨ sign = ['-']) (hne : digits ≠ [])
    (h : ∀ c ∈ digits, c.isDigit = true) (hcs : ∀ c ∈ cs.head?, c.isDigit = false) :
    scanExponent ('e' :: (sign ++ digits ++ cs)) = (some (sign, digits), cs) := by
  have hscan : scanSign (sign ++ digits ++ cs) = (sign, digits ++ cs) := by
    rcases hsign with rfl | rfl | rfl
    · cases digits with
      | nil => exact absurd rfl hne
      | cons c digits =>
        have hdigit := h c List.mem_cons_self
        have hplus : c ≠ '+' := by
          rintro rfl
          exact absurd hdigit (by decide)
        have hminus : c ≠ '-' := by
          rintro rfl
          exact absurd hdigit (by decide)
        rw [List.nil_append, List.cons_append]
        unfold scanSign
        split
        · rename_i heq
          exact absurd (List.cons.inj heq).1 hplus
        · rename_i heq
          exact absurd (List.cons.inj heq).1 hminus
        · rfl
    · rfl
    · rfl
  unfold scanExponent
  dsimp only
  rw [if_pos (Or.inl rfl), hscan, scanDigits_append h hcs]
  cases digits with
  | nil => exact absurd rfl hne
  | cons c digits => rfl

variable {F : FloatFormat}

lemma scanNumber_intText (n : ℤ) {cs : List Char} (hcs : Ends cs) :
    scanNumber F (intText n ++ cs) = some (.int n, cs) := by
  have hdigit : ∀ c ∈ cs.head?, c.isDigit = false := fun c hc => (hcs c hc).1
  have hfraction : scanFraction cs = ([], cs) := scanFraction_of_ne fun c hc => (hcs c hc).2.1
  have hexponent : scanExponent cs = (none, cs) := scanExponent_of_ne fun c hc => (hcs c hc).2.2
  cases n with
  | ofNat n =>
    unfold scanNumber intText
    rw [scanMinus_toDigits]
    simp [scanWhole_toDigits n hdigit, hfraction, hexponent]
  | negSucc n =>
    unfold scanNumber intText
    rw [List.cons_append]
    have hminus : ∀ t, scanMinus ('-' :: t) = (true, t) := fun _ => rfl
    rw [hminus]
    simp [scanWhole_toDigits (n + 1) hdigit, hfraction, hexponent, Int.negSucc_eq]

lemma scanExponent_text {exponent : Option (List Char × List Char)}
    (hsign : ∀ e ∈ exponent, e.1 = [] ∨ e.1 = ['+'] ∨ e.1 = ['-'])
    (hdigits : ∀ e ∈ exponent, e.2 ≠ [] ∧ ∀ c ∈ e.2, c.isDigit = true) {cs : List Char}
    (hcs : Ends cs) : scanExponent (exponentText exponent ++ cs) = (exponent, cs) := by
  cases exponent with
  | none => exact scanExponent_of_ne fun c hc => (hcs c hc).2.2
  | some e =>
    obtain ⟨hne, hdigits⟩ := hdigits e rfl
    exact scanExponent_digits (hsign e rfl) hne hdigits fun c hc => (hcs c hc).1

/-- No digit and no point stands in front of an exponent. -/
lemma head_exponentText (exponent : Option (List Char × List Char)) {cs : List Char}
    (hcs : Ends cs) :
    ∀ c ∈ (exponentText exponent ++ cs).head?, c.isDigit = false ∧ c ≠ '.' := by
  cases exponent with
  | none => exact fun c hc => ⟨(hcs c hc).1, (hcs c hc).2.1⟩
  | some e =>
    rintro c ⟨⟩
    decide

lemma scanFraction_text {fraction cs : List Char} (h : ∀ c ∈ fraction, c.isDigit = true)
    (hcs : ∀ c ∈ cs.head?, c.isDigit = false ∧ c ≠ '.') :
    scanFraction (fractionText fraction ++ cs) = (fraction, cs) ∧
      ∀ c ∈ (fractionText fraction ++ cs).head?, c.isDigit = false := by
  unfold fractionText
  by_cases hnil : fraction = []
  · rw [if_pos hnil, hnil]
    exact ⟨scanFraction_of_ne fun c hc => (hcs c hc).2, fun c hc => (hcs c hc).1⟩
  · rw [if_neg hnil]
    refine ⟨scanFraction_digits hnil h fun c hc => (hcs c hc).1, ?_⟩
    rintro c ⟨⟩
    decide

lemma scanNumber_decimal {d : Decimal} (hd : d.WellFormed) {cs : List Char} (hcs : Ends cs) :
    scanNumber F (d.text ++ cs) = (F.float d).map fun q => (.float q, cs) := by
  obtain ⟨negative, whole, fraction, exponent⟩ := d
  have hexponent := scanExponent_text hd.exponent_sign hd.exponent_digits hcs
  obtain ⟨hfraction, hhead⟩ := scanFraction_text hd.fraction_digits (head_exponentText exponent hcs)
  have hminus : ∀ t, scanMinus ((if negative then ['-'] else []) ++
      (Nat.toDigits 10 whole ++ t)) = (negative, Nat.toDigits 10 whole ++ t) := by
    cases negative with
    | true => exact fun _ => rfl
    | false => exact scanMinus_toDigits whole
  have hnot : ¬(fraction = [] ∧ exponent = none) := fun h =>
    hd.not_int.elim (fun hf => hf h.1) fun he => he h.2
  unfold scanNumber Decimal.text
  simp only [List.append_assoc, hminus, scanWhole_toDigits whole hhead, hfraction, hexponent,
    Option.bind_eq_bind, Option.bind_some, if_neg hnot]
  cases F.float ⟨negative, whole, fraction, exponent⟩ <;> rfl

end numbers

end SecurityScanner.Json

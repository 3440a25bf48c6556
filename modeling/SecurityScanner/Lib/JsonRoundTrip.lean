import SecurityScanner.Lib.JsonLoad

/-!
# The round trip of JSON

Every text of the writer reads as the value that it was written for, in every layout, if the
objects have distinct keys and the floats are floats. So the text determines the value.
-/

namespace SecurityScanner.Json

section dumpable

variable (F : FloatFormat)

mutual

/-- The floats are floats, and the keys of an object are distinct. -/
def Dumpable : Json → Prop
  | .float q => F.IsFloat q
  | .arr xs => DumpableItems xs
  | .obj fields => (fields.map Prod.fst).Nodup ∧ DumpableFields fields
  | _ => True

def DumpableItems : List Json → Prop
  | [] => True
  | x :: xs => Dumpable x ∧ DumpableItems xs

def DumpableFields : List (String × Json) → Prop
  | [] => True
  | (_, x) :: fields => Dumpable x ∧ DumpableFields fields

end

lemma setItems_of_notMem {k : String} {x : Json} {fields : List (String × Json)}
    (h : k ∉ fields.map Prod.fst) : Python.Dict.setItems k x fields = fields ++ [(k, x)] := by
  induction fields with
  | nil => rfl
  | cons field fields ih =>
    obtain ⟨hne, hrest⟩ := not_or.mp (mt List.mem_cons.mpr h)
    unfold Python.Dict.setItems
    rw [if_neg (Ne.symm hne), ih hrest, List.cons_append]

/-- Pairs with distinct keys are the object. -/
lemma ofPairs_of_nodup {fields : List (String × Json)} (h : (fields.map Prod.fst).Nodup) :
    ofPairs fields = .obj fields := by
  have hitems : ∀ (rest : List (String × Json)) (d : Python.Dict String Json),
      ((d.items ++ rest).map Prod.fst).Nodup → (d.update rest).items = d.items ++ rest := by
    intro rest
    induction rest with
    | nil => exact fun d _ => (List.append_nil _).symm
    | cons field rest ih =>
      intro d hd
      have hset : (d.set field.1 field.2).items = d.items ++ [field] := by
        refine setItems_of_notMem fun hmem => ?_
        rw [List.map_append, List.map_cons] at hd
        exact (List.nodup_append.mp hd).2.2 _ hmem _ List.mem_cons_self rfl
      change ((d.set field.1 field.2).update rest).items = _
      rw [ih _ (by rwa [hset, List.append_assoc, List.singleton_append]), hset, List.append_assoc,
        List.singleton_append]
  exact congrArg Json.obj (hitems fields Python.Dict.empty h)

end dumpable

section heads

lemma Ends.blanks {bs cs : List Char} (h : ∀ c ∈ bs, isBlank c = true) (hcs : Ends cs) :
    Ends (bs ++ cs) := by
  cases bs with
  | nil => exact hcs
  | cons b bs =>
    rintro c ⟨⟩
    have hb := h b List.mem_cons_self
    simp only [isBlank, Bool.or_eq_true, decide_eq_true_eq] at hb
    rcases hb with ((rfl | rfl) | rfl) | rfl <;> decide

/-- What the text of a number starts with. -/
def StartsNumber (c : Char) : Prop := c.isDigit = true ∨ c = '-'

lemma starts_toDigits (n : ℕ) (cs : List Char) :
    ∃ c t, Nat.toDigits 10 n ++ cs = c :: t ∧ StartsNumber c := by
  cases htext : Nat.toDigits 10 n with
  | nil => exact absurd htext Nat.toDigits_ne_nil
  | cons c digits =>
    exact ⟨c, digits ++ cs, rfl, Or.inl (digits_toDigits n c (by rw [htext]; exact List.mem_cons_self))⟩

lemma starts_intText (n : ℤ) : ∃ c t, intText n = c :: t ∧ StartsNumber c := by
  cases n with
  | ofNat n =>
    obtain ⟨c, t, htext, hc⟩ := starts_toDigits n []
    exact ⟨c, t, (List.append_nil _).symm.trans htext, hc⟩
  | negSucc n => exact ⟨'-', _, rfl, Or.inr rfl⟩

lemma starts_decimal (d : Decimal) : ∃ c t, d.text = c :: t ∧ StartsNumber c := by
  unfold Decimal.text
  cases d.negative with
  | true => exact ⟨'-', _, rfl, Or.inr rfl⟩
  | false => exact starts_toDigits d.whole _

lemma StartsNumber.ne {c : Char} (h : StartsNumber c) (c' : Char) (hdigit : c'.isDigit = false)
    (hminus : c' ≠ '-') : c ≠ c' := by
  rintro rfl
  rcases h with h | h
  · rw [hdigit] at h
    cases h
  · exact hminus h

lemma StartsNumber.not_blank {c : Char} (h : StartsNumber c) : isBlank c = false := by
  have hspace := h.ne ' ' (by decide) (by decide)
  have htab := h.ne '\t' (by decide) (by decide)
  have hnewline := h.ne '\n' (by decide) (by decide)
  have hreturn := h.ne '\r' (by decide) (by decide)
  simp [isBlank, hspace, htab, hnewline, hreturn]

variable {F : FloatFormat} {L : Layout}

/-- The text of a value starts with no blank and no bracket that closes. -/
lemma head_dump (d : ℕ) (v : Json) : ∃ c t, dump F L d v = c :: t ∧ isBlank c = false ∧ c ≠ ']' := by
  have hnumber : ∀ {cs : List Char}, (∃ c t, cs = c :: t ∧ StartsNumber c) →
      ∃ c t, cs = c :: t ∧ isBlank c = false ∧ c ≠ ']' := by
    rintro cs ⟨c, t, htext, hc⟩
    exact ⟨c, t, htext, hc.not_blank, hc.ne _ (by decide) (by decide)⟩
  cases v with
  | null => exact ⟨'n', _, rfl, by decide⟩
  | bool b =>
    cases b with
    | true => exact ⟨'t', _, rfl, by decide⟩
    | false => exact ⟨'f', _, rfl, by decide⟩
  | int n => exact hnumber (starts_intText n)
  | float q => exact hnumber (starts_decimal _)
  | str s => exact ⟨'"', _, rfl, by decide⟩
  | arr xs =>
    cases xs with
    | nil => exact ⟨'[', _, rfl, by decide⟩
    | cons x xs => exact ⟨'[', _, rfl, by decide⟩
  | obj fields =>
    cases fields with
    | nil => exact ⟨'\x7b', _, rfl, by decide⟩
    | cons field fields => exact ⟨'\x7b', _, rfl, by decide⟩

lemma skipBlanks_dump (d : ℕ) (v : Json) (cs : List Char) :
    skipBlanks (dump F L d v ++ cs) = dump F L d v ++ cs := by
  obtain ⟨c, t, htext, hc, -⟩ := head_dump (F := F) (L := L) d v
  rw [htext]
  exact skipBlanks_cons hc _

lemma ends_dumpItems (d : ℕ) (xs : List Json) (cs : List Char) :
    Ends (dumpItems F L d xs ++ cs) := by
  cases xs with
  | nil =>
    unfold dumpItems
    rw [List.append_assoc]
    exact Ends.blanks (L.line_blank d) (by rintro c ⟨⟩; decide)
  | cons x xs =>
    rintro c ⟨⟩
    decide

lemma ends_dumpFields (d : ℕ) (fields : List (String × Json)) (cs : List Char) :
    Ends (dumpFields F L d fields ++ cs) := by
  cases fields with
  | nil =>
    unfold dumpFields
    rw [List.append_assoc]
    exact Ends.blanks (L.line_blank d) (by rintro c ⟨⟩; decide)
  | cons field fields =>
    rintro c ⟨⟩
    decide

end heads

section values

variable {F : FloatFormat} {L : Layout}

lemma parseValue_number {c : Char} (hc : StartsNumber c) (n : ℕ) (cs : List Char) :
    parseValue F (n + 1) (c :: cs) = scanNumber F (c :: cs) := by
  have hquote := hc.ne '"' (by decide) (by decide)
  have hbracket := hc.ne '[' (by decide) (by decide)
  have hbrace := hc.ne '\x7b' (by decide) (by decide)
  have hnull := hc.ne 'n' (by decide) (by decide)
  have htrue := hc.ne 't' (by decide) (by decide)
  have hfalse := hc.ne 'f' (by decide) (by decide)
  rw [parseValue, if_neg hquote, if_neg hbracket, if_neg hbrace, if_neg hnull, if_neg htrue,
    if_neg hfalse]

lemma parseValue_quote (escaping : Escaping) (s : String) (n : ℕ) (cs : List Char) :
    parseValue F (n + 1) (quote escaping s ++ cs) = some (.str s, cs) := by
  have hlength := length_le_flatMap escaping s.toList
  have hscan := scanString_flatMap escaping s.toList cs
    (n := (s.toList.flatMap (escapeChar escaping) ++ '"' :: cs).length + 1)
    (by rw [List.length_append, List.length_cons]; omega)
  unfold quote
  rw [List.cons_append, parseValue, if_pos rfl, List.append_assoc, List.singleton_append, hscan]
  exact congrArg (fun s => some (Json.str s, cs)) String.ofList_toList

/-- A key is read with its value. -/
lemma parseField_fieldText {k : String} {x : Json} {t cs : List Char} {n : ℕ}
    (ht : skipBlanks (t ++ cs) = t ++ cs) (hx : parseValue F n (t ++ cs) = some (x, cs)) :
    parseField F (n + 1) (fieldText L k t ++ cs) = some ((k, x), cs) := by
  have hlength := length_le_flatMap L.escaping k.toList
  obtain ⟨rest, hrest⟩ : ∃ rest, rest = ':' :: (L.keyGap ++ (t ++ cs)) := ⟨_, rfl⟩
  have hscan := scanString_flatMap L.escaping k.toList rest
    (n := (k.toList.flatMap (escapeChar L.escaping) ++ '"' :: rest).length + 1)
    (by rw [List.length_append, List.length_cons]; omega)
  have htext : fieldText L k t ++ cs =
      '"' :: (k.toList.flatMap (escapeChar L.escaping) ++ '"' :: rest) := by
    rw [hrest]
    unfold fieldText quote
    simp only [List.cons_append, List.append_assoc, List.nil_append]
  have hcolon : skipBlanks rest = ':' :: (L.keyGap ++ (t ++ cs)) := by
    rw [hrest]
    exact skipBlanks_cons (by decide) _
  rw [htext, parseField, hscan]
  simp only [Option.bind_eq_bind, Option.bind_some, hcolon, skipBlanks_append L.keyGap_blank, ht,
    hx, String.ofList_toList, Option.pure_def]

lemma skipBlanks_fieldText (k : String) (t cs : List Char) :
    skipBlanks (fieldText L k t ++ cs) = fieldText L k t ++ cs := skipBlanks_cons (by decide) _

lemma length_fieldText (k : String) (t : List Char) : t.length + 3 ≤ (fieldText L k t).length := by
  unfold fieldText quote
  simp only [List.length_append, List.length_cons, List.length_nil]
  omega

mutual

/-- The text of a value, with anything behind it that can stand behind a value, reads as the value
and leaves the rest. -/
lemma parseValue_dump : ∀ v : Json, Dumpable F v → ∀ (d : ℕ) {n : ℕ} {t : List Char},
    (dump F L d v).length ≤ n → Ends t → parseValue F n (dump F L d v ++ t) = some (v, t)
  | .null, _, d, n + 1, cs, _, _ => rfl
  | .bool true, _, d, n + 1, cs, _, _ => rfl
  | .bool false, _, d, n + 1, cs, _, _ => rfl
  | .int k, _, d, n, cs, hn, hcs => by
    obtain ⟨c, t, htext, hc⟩ := starts_intText k
    have hscan := scanNumber_intText (F := F) k hcs
    rw [dump, htext] at hn ⊢
    obtain ⟨m, rfl⟩ : ∃ m, n = m + 1 := ⟨n - 1, by rw [List.length_cons] at hn; omega⟩
    rw [htext] at hscan
    exact (parseValue_number hc m _).trans hscan
  | .float q, hv, d, n, cs, hn, hcs => by
    obtain ⟨c, t, htext, hc⟩ := starts_decimal (F.repr q).val
    have hscan := scanNumber_decimal (F := F) (F.repr q).property hcs
    rw [F.float_repr q hv] at hscan
    rw [dump, htext] at hn ⊢
    obtain ⟨m, rfl⟩ : ∃ m, n = m + 1 := ⟨n - 1, by rw [List.length_cons] at hn; omega⟩
    rw [htext] at hscan
    exact (parseValue_number hc m _).trans hscan
  | .str s, _, d, n + 1, cs, _, _ => parseValue_quote L.escaping s n cs
  | .arr [], _, d, n + 1, cs, _, _ => rfl
  | .arr (x :: xs), hv, d, n + 1, cs, hn, hcs => by
    rw [dump, List.length_cons, List.length_append, List.length_append] at hn
    have hx := parseValue_dump x hv.1 (d + 1) (n := n) (t := dumpItems F L d xs ++ cs) (by omega)
      (ends_dumpItems d xs cs)
    have hxs := parseItems_dump xs hv.2 d (n := n) (t := cs) (by omega)
    have hblanks : skipBlanks (L.line (d + 1) ++ (dump F L (d + 1) x ++ (dumpItems F L d xs ++ cs)))
        = dump F L (d + 1) x ++ (dumpItems F L d xs ++ cs) := by
      rw [skipBlanks_append (L.line_blank _), skipBlanks_dump]
    have hhead : (dump F L (d + 1) x ++ (dumpItems F L d xs ++ cs)).head? ≠ some ']' := by
      obtain ⟨c, t, htext, -, hc⟩ := head_dump (F := F) (L := L) (d + 1) x
      rw [htext]
      exact fun h => hc (Option.some.inj h)
    rw [dump, List.cons_append, List.append_assoc, List.append_assoc, parseValue,
      if_neg (by decide), if_pos rfl, hblanks, if_neg hhead, hx]
    simp only [Option.bind_eq_bind, Option.bind_some, hxs, Option.pure_def]
  | .obj [], _, d, n + 1, cs, _, _ => rfl
  | .obj ((k, x) :: fields), hv, d, n + 1, cs, hn, hcs => by
    rw [dump, List.length_cons, List.length_append, List.length_append] at hn
    have hlength := length_fieldText (L := L) k (dump F L (d + 1) x)
    obtain ⟨m, rfl⟩ : ∃ m, n = m + 1 := ⟨n - 1, by omega⟩
    have hx := parseValue_dump x hv.2.1 (d + 1) (n := m) (t := dumpFields F L d fields ++ cs)
      (by omega) (ends_dumpFields d fields cs)
    have hfield := parseField_fieldText (L := L) (k := k) (skipBlanks_dump _ _ _) hx
    have hfields := parseFields_dump fields hv.2.2 d (n := m + 1) (t := cs) (by omega)
    rw [dump, List.cons_append, List.append_assoc, List.append_assoc, parseValue,
      if_neg (by decide), if_neg (by decide), if_pos rfl, skipBlanks_append (L.line_blank _),
      skipBlanks_fieldText, if_neg (by intro h; cases h), hfield]
    simp only [Option.bind_eq_bind, Option.bind_some, hfields, Option.pure_def]
    rw [ofPairs_of_nodup hv.1]

lemma parseItems_dump : ∀ xs : List Json, DumpableItems F xs → ∀ (d : ℕ) {n : ℕ} {t : List Char},
    (dumpItems F L d xs).length ≤ n → parseItems F n (dumpItems F L d xs ++ t) = some (xs, t)
  | [], _, d, n, cs, hn => by
    rw [dumpItems, List.length_append, List.length_singleton] at hn
    obtain ⟨m, rfl⟩ : ∃ m, n = m + 1 := ⟨n - 1, by omega⟩
    rw [dumpItems, List.append_assoc, parseItems, skipBlanks_append (L.line_blank _)]
    rfl
  | x :: xs, hv, d, n, cs, hn => by
    rw [dumpItems, List.length_cons, List.length_append, List.length_append, List.length_append] at hn
    obtain ⟨m, rfl⟩ : ∃ m, n = m + 1 := ⟨n - 1, by omega⟩
    have hx := parseValue_dump x hv.1 (d + 1) (n := m) (t := dumpItems F L d xs ++ cs) (by omega)
      (ends_dumpItems d xs cs)
    have hxs := parseItems_dump xs hv.2 d (n := m) (t := cs) (by omega)
    rw [dumpItems, List.cons_append, List.append_assoc, List.append_assoc, List.append_assoc,
      parseItems, skipBlanks_cons (by decide)]
    simp only [skipBlanks_append L.itemGap_blank, skipBlanks_append (L.line_blank _),
      skipBlanks_dump, hx, hxs, Option.bind_eq_bind, Option.bind_some, Option.pure_def]

lemma parseFields_dump : ∀ fields : List (String × Json), DumpableFields F fields →
    ∀ (d : ℕ) {n : ℕ} {t : List Char}, (dumpFields F L d fields).length ≤ n →
      parseFields F n (dumpFields F L d fields ++ t) = some (fields, t)
  | [], _, d, n, cs, hn => by
    rw [dumpFields, List.length_append, List.length_singleton] at hn
    obtain ⟨m, rfl⟩ : ∃ m, n = m + 1 := ⟨n - 1, by omega⟩
    rw [dumpFields, List.append_assoc, parseFields, skipBlanks_append (L.line_blank _)]
    rfl
  | (k, x) :: fields, hv, d, n, cs, hn => by
    rw [dumpFields, List.length_cons, List.length_append, List.length_append, List.length_append] at hn
    have hlength := length_fieldText (L := L) k (dump F L (d + 1) x)
    obtain ⟨m, rfl⟩ : ∃ m, n = m + 2 := ⟨n - 2, by omega⟩
    have hx := parseValue_dump x hv.1 (d + 1) (n := m) (t := dumpFields F L d fields ++ cs)
      (by omega) (ends_dumpFields d fields cs)
    have hfield := parseField_fieldText (L := L) (k := k) (skipBlanks_dump _ _ _) hx
    have hfields := parseFields_dump fields hv.2 d (n := m + 1) (t := cs) (by omega)
    rw [dumpFields, List.cons_append, List.append_assoc, List.append_assoc, List.append_assoc,
      parseFields, skipBlanks_cons (by decide)]
    simp only [skipBlanks_append L.itemGap_blank, skipBlanks_append (L.line_blank _),
      skipBlanks_fieldText, hfield, hfields, Option.bind_eq_bind, Option.bind_some, Option.pure_def]

end

end values

section results

variable {F : FloatFormat} {L : Layout}

/-- `json.loads(json.dumps(v)) == v`. -/
theorem loads_dumps {v : Json} (hv : Dumpable F v) : loads F (dumps F L v) = some v := by
  have hparse := parseValue_dump (L := L) v hv 0 (n := (dump F L 0 v).length) (t := []) le_rfl
    (fun _ hc => by cases hc)
  have hskip := skipBlanks_dump (F := F) (L := L) 0 v []
  rw [List.append_nil] at hparse hskip
  unfold loads dumps
  rw [String.toList_ofList, String.length_ofList, hskip, hparse]
  rfl

/-- The text determines the value. -/
lemma dumps_inj {v w : Json} (hv : Dumpable F v) (hw : Dumpable F w)
    (h : dumps F L v = dumps F L w) : v = w := by
  have hread := loads_dumps (L := L) hv
  rw [h, loads_dumps hw] at hread
  exact (Option.some.inj hread).symm

end results

end SecurityScanner.Json

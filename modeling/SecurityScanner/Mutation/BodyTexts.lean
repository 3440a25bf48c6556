import Mathlib.Data.List.Nodup
import SecurityScanner.Lib.NumberTexts
import SecurityScanner.Mutation.EditedObjects

/-!
# Which bodies look alike

Two mutated bodies with the same text are the same body, unless both have the text of the body
that was mutated. A mutation leaves that text as it is when it assigns a value that the body has,
or when it puts `null` in the place of a number that JSON cannot write.
-/

namespace SecurityScanner

open JavaScript Edit

namespace BodyMutator

/-- The field is one of the texts that the strategies assign to it. -/
def Repeated (kv : Text × Value) : Prop :=
  ∃ t ∈ idTexts kv.2 ++ injectTexts ++ nullTexts, kv.2 = .str t

/-- The body has all dangerous fields with their values. -/
def MassRepeated (body : Obj) : Prop :=
  ∀ field ∈ dangerousFields, body.lookup (js field.1) = some field.2

/-- Next to a number that JSON cannot write, nothing keeps the text of the body. -/
def BodiesApart (body : Obj) : Prop :=
  ∀ kv ∈ body, NonFinite kv.2 → ¬MassRepeated body ∧
    ∀ kv' ∈ body, NonFinite kv'.2 ∨ Repeated kv' → kv' = kv

section values

variable {kv : Text × Value} {e e' : Edit} {v v' : Value}

lemma value_textEdits (he : e ∈ textEdits kv) : e.value = none ∨
    ∃ t ∈ idTexts kv.2 ++ injectTexts ++ nullTexts, e.value = some (.str t) := by
  have hassigning {strategy : String} {detail : Text → Text} {texts : List Text}
      (hsub : texts ⊆ idTexts kv.2 ++ injectTexts ++ nullTexts)
      (he : e ∈ assigning strategy kv.1 detail texts) :
      ∃ t ∈ idTexts kv.2 ++ injectTexts ++ nullTexts, e.value = some (.str t) := by
    obtain ⟨t, ht, rfl⟩ := List.mem_map.mp he
    exact ⟨t, hsub ht, rfl⟩
  unfold textEdits at he
  simp only [List.mem_append, List.mem_singleton] at he
  rcases he with ((he | rfl) | he) | he
  · exact Or.inr (hassigning (fun t ht => by simp [ht]) he)
  · exact Or.inl rfl
  · exact Or.inr (hassigning (fun t ht => by simp [ht]) he)
  · exact Or.inr (hassigning (fun t ht => by simp [ht]) he)

lemma exists_textEdit {t : Text} (ht : t ∈ idTexts kv.2 ++ injectTexts ++ nullTexts) :
    ∃ e ∈ textEdits kv, e.key = kv.1 ∧ e.value = some (.str t) := by
  have hassigning (strategy : String) (detail : Text → Text) {texts : List Text} (ht : t ∈ texts)
      (hsub : assigning strategy kv.1 detail texts ⊆ textEdits kv) :
      ∃ e ∈ textEdits kv, e.key = kv.1 ∧ e.value = some (.str t) :=
    ⟨_, hsub (List.mem_map_of_mem ht), rfl, rfl⟩
  simp only [List.mem_append] at ht
  rcases ht with (ht | ht) | ht
  · exact hassigning "id_enum:" equals ht fun e he => by simp [textEdits, he]
  · exact hassigning "inject:" equalsQuoted ht fun e he => by simp [textEdits, he]
  · exact hassigning "nullify:" equalsQuoted ht fun e he => by simp [textEdits, he]

lemma key_of_mem_edits (he : e ∈ edits kv) : e.key = kv.1 := (allName_body e he).key_eq

lemma sort_42 : sort (.num 42) = 3 := by decide +kernel

lemma sort_1 : sort (.num 1) = 3 := by decide +kernel

/-- The new values of a field are of different sorts. -/
lemma nodup_sorts (v : Value) : ((variations v).map fun p => sort p.1).Nodup := by
  cases v with
  | str t =>
    change [sort (.num 42), 5, 6, 1].Nodup
    rw [sort_42]
    decide
  | num x =>
    change ([4, 5, 1, 0] : List (Fin 7)).Nodup
    decide
  | bool b =>
    change [sort (.num 1), 5, 4].Nodup
    rw [sort_1]
    decide
  | _ => exact List.nodup_nil

/-- A new value is of another sort than the field, unless JSON cannot write the field. -/
lemma variation_of_text {p : Value × String} (hp : p ∈ variations v)
    (h : stringify p.1 = stringify v) : p.1 = .null ∧ NonFinite v := by
  have hsort : sort v ∈ (variations v).map fun p => sort p.1 :=
    List.mem_map.mpr ⟨p, hp, sort_of_text h⟩
  cases v with
  | str t =>
    change 4 ∈ [sort (.num 42), 5, 6, 1] at hsort
    rw [sort_42] at hsort
    exact absurd hsort (by decide)
  | bool b =>
    cases b with
    | false =>
      change 2 ∈ [sort (.num 1), 5, 4] at hsort
      rw [sort_1] at hsort
      exact absurd hsort (by decide)
    | true =>
      change 1 ∈ [sort (.num 1), 5, 4] at hsort
      rw [sort_1] at hsort
      exact absurd hsort (by decide)
  | num x =>
    unfold variations at hp
    simp only [List.mem_cons, List.not_mem_nil, or_false] at hp
    rcases hp with rfl | rfl | rfl | rfl
    · cases eq_of_text_str h.symm
    · cases printed_of_text h
    · cases printed_of_text h
    · refine ⟨rfl, ?_⟩
      cases printed_of_text h with
      | null_left hx => exact hx
  | _ => cases hp

lemma exists_variation (he : e ∈ confusionEdits kv) :
    ∃ p ∈ variations kv.2, e.value = some p.1 := by
  obtain ⟨p, hp, rfl⟩ := List.mem_map.mp he
  exact ⟨p, hp, rfl⟩

/-- The values that a field gets differ in their texts. -/
lemma value_of_text (he : e ∈ edits kv) (he' : e' ∈ edits kv) (hv : e.value = some v)
    (hv' : e'.value = some v') (h : stringify v = stringify v') : v = v' := by
  rcases List.mem_append.mp he with he | he
  · rcases value_textEdits he with hnone | ⟨t, -, ht⟩
    · rw [hnone] at hv
      cases hv
    · rw [ht] at hv
      cases hv
      exact (eq_of_text_str h.symm).symm
  · rcases List.mem_append.mp he' with he' | he'
    · rcases value_textEdits he' with hnone | ⟨t, -, ht⟩
      · rw [hnone] at hv'
        cases hv'
      · rw [ht] at hv'
        cases hv'
        exact eq_of_text_str h
    · obtain ⟨p, hp, hpv⟩ := exists_variation he
      obtain ⟨q, hq, hqv⟩ := exists_variation he'
      rw [hpv] at hv
      rw [hqv] at hv'
      cases hv
      cases hv'
      have hpq : p = q := List.inj_on_of_nodup_map (nodup_sorts kv.2) hp hq (sort_of_text h)
      rw [hpq]

/-- No other value has the text of a dangerous field. -/
lemma constant_of_text {field : String × Value} (hfield : field ∈ dangerousFields)
    (h : stringify v = stringify field.2) : v = field.2 := by
  have htrue (h : stringify v = stringify (.bool true)) : v = .bool true := by
    cases printed_of_text h with
    | same => rfl
    | null_left hw =>
      obtain ⟨x, hx, -⟩ := hw
      cases hx
  have hnumber (h : stringify v = stringify (.num 99999)) : v = .num 99999 := by
    have htext : stringify (.num 99999) = js "99999" := by decide +kernel
    cases printed_of_text h with
    | same => rfl
    | num x y hxy =>
      rw [htext, stringify] at h
      split at h
      · exact absurd h (by decide)
      · rw [eq_of_numberToText h]
    | null_left hw => exact absurd (h.trans htext) (by decide)
  unfold dangerousFields at hfield
  simp only [List.mem_cons, List.not_mem_nil, or_false] at hfield
  rcases hfield with rfl | rfl | rfl | rfl | rfl | rfl | rfl
  · exact htrue h
  · exact eq_of_text_str h
  · exact htrue h
  · exact hnumber h
  · exact hnumber h
  · exact htrue h
  · exact eq_of_text_str h

end values

section bodies

variable {body o o' : Obj}

lemma massAssigns_massAssigned (body : Obj) :
    (∀ field ∈ dangerousFields, (massAssigned body).lookup (js field.1) = some field.2) ∧
      ∀ k, (∀ field ∈ dangerousFields, k ≠ js field.1) →
        (massAssigned body).lookup k = body.lookup k := by
  have hmem : mutation (massAssigned body) (js "mass_assignment:all")
      (js "Testing if server blindly saves extra fields") ∈ massAssignment body :=
    List.mem_singleton_self _
  obtain ⟨o', ho', -, hmass⟩ := massAssigns_massAssignment hmem
  cases ho'
  exact hmass

lemma mem_bodies : o ∈ bodies body ↔
    (∃ kv ∈ body, ∃ e ∈ edits kv, e.apply body = o) ∨ o = massAssigned body := by
  unfold bodies
  rw [List.mem_append, List.mem_singleton]
  simp only [List.mem_map, List.mem_flatMap]
  constructor
  · rintro (⟨e, ⟨kv, hkv, he⟩, rfl⟩ | rfl)
    · exact Or.inl ⟨kv, hkv, e, he, rfl⟩
    · exact Or.inr rfl
  · rintro (⟨kv, hkv, e, he, rfl⟩ | rfl)
    · exact Or.inl ⟨e, ⟨kv, hkv, he⟩, rfl⟩
    · exact Or.inr rfl

/-- The body keeps its keys when one of them gets a value. -/
lemma keys_apply {kv : Text × Value} {e : Edit} {v : Value} (hkv : kv ∈ body)
    (hkey : e.key = kv.1) (hv : e.value = some v) :
    (e.apply body).map Prod.fst = body.map Prod.fst := by
  have happly : e.apply body = body.set e.key v := by
    unfold Edit.apply
    rw [hv]
  rw [happly, hkey]
  exact Obj.keys_set_of_has (has_of_mem hkv)

lemma distinct_of_keys (hd : body.Distinct) (h : o.map Prod.fst = body.map Prod.fst) :
    o.Distinct := by
  unfold Obj.Distinct
  rwa [h]

lemma keys_massAssigned (h : ∀ field ∈ dangerousFields, body.has (js field.1) = true) :
    (massAssigned body).map Prod.fst = body.map Prod.fst := by
  have hfields : massAssigned body = (dangerousFields.map fun kv => (js kv.1, kv.2)).foldl
      (fun o f => Obj.set o f.1 f.2) body := by
    unfold massAssigned
    rw [List.foldl_map]
  rw [hfields]
  apply Obj.keys_foldl_set
  intro f hf
  obtain ⟨field, hfield, rfl⟩ := List.mem_map.mp hf
  exact h field hfield

/-- With the same keys, a body that has the dangerous fields is the one to which they were
assigned. -/
lemma eq_massAssigned (hd : body.Distinct) (ho : o.map Prod.fst = body.map Prod.fst)
    (hfields : ∀ field ∈ dangerousFields, o.lookup (js field.1) = some field.2)
    (hrest : ∀ k, (∀ field ∈ dangerousFields, k ≠ js field.1) → o.lookup k = body.lookup k) :
    o = massAssigned body := by
  obtain ⟨hmass, hkept⟩ := massAssigns_massAssigned body
  have hhas : ∀ field ∈ dangerousFields, body.has (js field.1) = true := by
    intro field hfield
    have hmem : js field.1 ∈ body.map Prod.fst := by
      rw [← ho]
      exact List.mem_map_of_mem (Obj.mem_of_lookup (hfields field hfield))
    obtain ⟨kv, hkv, heq⟩ := List.mem_map.mp hmem
    rw [← heq]
    exact has_of_mem hkv
  have hkeys := keys_massAssigned hhas
  apply Obj.eq_of_lookup (distinct_of_keys hd hkeys) (ho.trans hkeys.symm)
  intro k
  by_cases hk : ∃ field ∈ dangerousFields, k = js field.1
  · obtain ⟨field, hfield, rfl⟩ := hk
    rw [hfields field hfield, hmass field hfield]
  · push Not at hk
    rw [hrest k hk, hkept k hk]

lemma massAssigned_of_repeated (hd : body.Distinct) (h : MassRepeated body) :
    massAssigned body = body :=
  (eq_massAssigned hd rfl h fun _ _ => rfl).symm

/-- A new value with the text of the old one leaves the text of the body as it is. -/
lemma text_apply {kv : Text × Value} {e : Edit} {v : Value} (hd : body.Distinct) (hkv : kv ∈ body)
    (hkey : e.key = kv.1) (hv : e.value = some v) (h : stringify v = stringify kv.2) :
    stringify (.obj (e.apply body)) = stringify (.obj body) := by
  have hkeys := keys_apply hkv hkey hv
  apply stringify_of_lookup (distinct_of_keys hd hkeys) hkeys
  intro k
  rw [lookup_apply]
  by_cases hk : k = e.key
  · rw [if_pos hk, hk, hkey, hv, Obj.lookup_of_mem hd hkv]
    exact congrArg some h
  · rw [if_neg hk]

lemma value_of_map {value : Option Value} {v : Value}
    (h : value.map stringify = (some v).map stringify) :
    ∃ w, value = some w ∧ stringify w = stringify v :=
  Option.map_eq_some_iff.mp h

/-- Two edits with results of the same text. -/
lemma same_or_kept (hd : body.Distinct) {kv kv' : Text × Value} {e e' : Edit} (hkv : kv ∈ body)
    (hkv' : kv' ∈ body) (he : e ∈ edits kv) (he' : e' ∈ edits kv')
    (h : stringify (.obj (e.apply body)) = stringify (.obj (e'.apply body))) :
    e.apply body = e'.apply body ∨ stringify (.obj (e.apply body)) = stringify (.obj body) := by
  have hkey := key_of_mem_edits he
  have hkey' := key_of_mem_edits he'
  have htext := lookup_text h e.key
  rw [lookup_apply, lookup_apply, if_pos rfl] at htext
  by_cases heq : e.key = e'.key
  · left
    rw [if_pos heq] at htext
    obtain rfl : kv = kv' := Obj.eq_of_key hd hkv hkv' (hkey.symm.trans (heq.trans hkey'))
    have hvalue : e.value = e'.value := by
      cases hv : e'.value with
      | none =>
        rw [hv] at htext
        exact Option.map_eq_none_iff.mp htext
      | some v =>
        rw [hv] at htext
        obtain ⟨w, hw, hwv⟩ := value_of_map htext
        rw [hw, value_of_text he he' hw hv hwv]
    unfold Edit.apply
    rw [heq, hvalue]
  · right
    rw [if_neg heq, hkey, Obj.lookup_of_mem hd hkv] at htext
    obtain ⟨w, hw, hwv⟩ := value_of_map htext
    exact text_apply hd hkv hkey hw hwv

lemma same_or_kept_mass (hd : body.Distinct) {kv : Text × Value} {e : Edit} (hkv : kv ∈ body)
    (he : e ∈ edits kv) (h : stringify (.obj (e.apply body)) = stringify (.obj (massAssigned body))) :
    e.apply body = massAssigned body ∨
      stringify (.obj (e.apply body)) = stringify (.obj body) := by
  have hkey := key_of_mem_edits he
  obtain ⟨hmass, hkept⟩ := massAssigns_massAssigned body
  have htext := lookup_text h e.key
  rw [lookup_apply, if_pos rfl] at htext
  by_cases hdanger : ∃ field ∈ dangerousFields, e.key = js field.1
  · left
    obtain ⟨field, hfield, heq⟩ := hdanger
    rw [heq, hmass field hfield] at htext
    obtain ⟨w, hw, -⟩ := value_of_map htext
    apply eq_massAssigned hd (keys_apply hkv hkey hw)
    · intro field' hfield'
      have htext' := lookup_text h (js field'.1)
      rw [hmass field' hfield'] at htext'
      obtain ⟨w', hw', hwv⟩ := value_of_map htext'
      rw [hw', constant_of_text hfield' hwv]
    · intro k hk
      have hne : k ≠ e.key := by
        rw [heq]
        exact hk field hfield
      rw [lookup_apply, if_neg hne]
  · right
    push Not at hdanger
    rw [hkept e.key hdanger, hkey, Obj.lookup_of_mem hd hkv] at htext
    obtain ⟨w, hw, hwv⟩ := value_of_map htext
    exact text_apply hd hkv hkey hw hwv

/-- Mutated bodies with the same text are equal, or they have the text of the body. -/
lemma eq_or_kept (hd : body.Distinct) (ho : o ∈ bodies body) (ho' : o' ∈ bodies body)
    (h : stringify (.obj o) = stringify (.obj o')) :
    o = o' ∨ stringify (.obj o) = stringify (.obj body) := by
  rcases mem_bodies.mp ho with ⟨kv, hkv, e, he, rfl⟩ | rfl
  · rcases mem_bodies.mp ho' with ⟨kv', hkv', e', he', rfl⟩ | rfl
    · exact same_or_kept hd hkv hkv' he he' h
    · exact same_or_kept_mass hd hkv he h
  · rcases mem_bodies.mp ho' with ⟨kv', hkv', e', he', rfl⟩ | rfl
    · rcases same_or_kept_mass hd hkv' he' h.symm with heq | hkept
      · exact Or.inl heq.symm
      · exact Or.inr (h.trans hkept)
    · exact Or.inl rfl

/-- How an edit keeps the text of the body. -/
lemma kept_edit (hd : body.Distinct) {kv : Text × Value} {e : Edit} (hkv : kv ∈ body)
    (he : e ∈ edits kv) (h : stringify (.obj (e.apply body)) = stringify (.obj body)) :
    (e.apply body = body ∧ Repeated kv) ∨
      NonFinite kv.2 ∧ e.apply body = body.set kv.1 .null := by
  have hkey := key_of_mem_edits he
  have htext := lookup_text h e.key
  rw [lookup_apply, if_pos rfl, hkey, Obj.lookup_of_mem hd hkv] at htext
  obtain ⟨w, hw, hwv⟩ := value_of_map htext
  rcases List.mem_append.mp he with he | he
  · rcases value_textEdits he with hnone | ⟨t, ht, hvalue⟩
    · rw [hnone] at hw
      cases hw
    · rw [hvalue] at hw
      cases hw
      have hrepeated : kv.2 = .str t := eq_of_text_str hwv.symm
      refine Or.inl ⟨?_, t, ht, hrepeated⟩
      apply apply_of_lookup hd
      rw [hkey, Obj.lookup_of_mem hd hkv, hvalue, hrepeated]
  · obtain ⟨p, hp, hvalue⟩ := exists_variation he
    rw [hvalue] at hw
    cases hw
    obtain ⟨hnull, hnumber⟩ := variation_of_text hp hwv
    refine Or.inr ⟨hnumber, ?_⟩
    unfold Edit.apply
    rw [hvalue, hkey, hnull]

lemma massRepeated_of_text (h : stringify (.obj (massAssigned body)) = stringify (.obj body)) :
    MassRepeated body := by
  intro field hfield
  have htext := lookup_text h.symm (js field.1)
  rw [(massAssigns_massAssigned body).1 field hfield] at htext
  obtain ⟨w, hw, hwv⟩ := value_of_map htext
  rw [hw, constant_of_text hfield hwv]

/-- How a mutated body keeps the text of the body. -/
lemma kept_cases (hd : body.Distinct) (ho : o ∈ bodies body)
    (h : stringify (.obj o) = stringify (.obj body)) :
    (o = body ∧ ((∃ kv ∈ body, Repeated kv) ∨ MassRepeated body)) ∨
      ∃ kv ∈ body, NonFinite kv.2 ∧ o = body.set kv.1 .null := by
  rcases mem_bodies.mp ho with ⟨kv, hkv, e, he, rfl⟩ | rfl
  · rcases kept_edit hd hkv he h with ⟨heq, hrepeated⟩ | hnulled
    · exact Or.inl ⟨heq, Or.inl ⟨kv, hkv, hrepeated⟩⟩
    · exact Or.inr ⟨kv, hkv, hnulled⟩
  · have hrepeated := massRepeated_of_text h
    exact Or.inl ⟨massAssigned_of_repeated hd hrepeated, Or.inr hrepeated⟩

lemma exists_keeping_edit (hd : body.Distinct) {kv : Text × Value} (hkv : kv ∈ body)
    (h : Repeated kv) : ∃ e ∈ edits kv, e.apply body = body := by
  obtain ⟨t, ht, heq⟩ := h
  obtain ⟨e, he, hkey, hvalue⟩ := exists_textEdit ht
  refine ⟨e, List.mem_append_left _ he, ?_⟩
  apply apply_of_lookup hd
  rw [hkey, Obj.lookup_of_mem hd hkv, hvalue, heq]

lemma body_mem_of_repeated (hd : body.Distinct) {kv : Text × Value} (hkv : kv ∈ body)
    (h : Repeated kv) : body ∈ bodies body := by
  obtain ⟨e, he, happly⟩ := exists_keeping_edit hd hkv h
  exact mem_bodies.mpr (Or.inl ⟨kv, hkv, e, he, happly⟩)

lemma body_mem_of_massRepeated (hd : body.Distinct) (h : MassRepeated body) :
    body ∈ bodies body :=
  mem_bodies.mpr (Or.inr (massAssigned_of_repeated hd h).symm)

/-- The edit that puts `null` in the place of a number. -/
def nullEdit (kv : Text × Value) : Edit where
  strategy := "type_confusion:"
  key := kv.1
  value := some .null
  detail := equals (js "null")

lemma nullEdit_mem {kv : Text × Value} (h : NonFinite kv.2) : nullEdit kv ∈ confusionEdits kv := by
  obtain ⟨x, hx, -⟩ := h
  have hmem : ((.null, "null") : Value × String) ∈ variations kv.2 := by
    rw [hx]
    simp [variations]
  exact List.mem_map.mpr ⟨_, hmem, rfl⟩

lemma text_of_nonFinite {v : Value} (h : NonFinite v) : stringify .null = stringify v := by
  obtain ⟨x, rfl, hx⟩ := h
  rw [stringify, stringify, if_pos hx]

/-- `null` in the place of a number that JSON cannot write. -/
lemma nulled_mem (hd : body.Distinct) {kv : Text × Value} (hkv : kv ∈ body)
    (h : NonFinite kv.2) : body.set kv.1 .null ∈ bodies body ∧
      stringify (.obj (body.set kv.1 .null)) = stringify (.obj body) := by
  constructor
  · exact mem_bodies.mpr (Or.inl ⟨kv, hkv, nullEdit kv,
      List.mem_append_right _ (nullEdit_mem h), rfl⟩)
  · exact text_apply (e := nullEdit kv) hd hkv rfl rfl (text_of_nonFinite h)

lemma nulled_ne (hd : body.Distinct) {kv : Text × Value} (hkv : kv ∈ body) (h : NonFinite kv.2)
    (ho : o.lookup kv.1 = body.lookup kv.1) : o ≠ body.set kv.1 .null := by
  rintro rfl
  obtain ⟨x, hx, -⟩ := h
  rw [Obj.lookup_set, if_pos rfl, Obj.lookup_of_mem hd hkv, hx] at ho
  cases ho

lemma not_nonFinite_of_repeated {kv : Text × Value} (h : Repeated kv) : ¬NonFinite kv.2 := by
  obtain ⟨t, -, ht⟩ := h
  rintro ⟨x, hx, -⟩
  rw [ht] at hx
  cases hx

/-- An edit that keeps all values assigns the value of its field. -/
lemma repeated_of_same (hd : body.Distinct) {kv : Text × Value} {e : Edit} (hkv : kv ∈ body)
    (he : e ∈ edits kv) (h : ∀ k, (e.apply body).lookup k = body.lookup k) :
    e.apply body = body ∧ Repeated kv := by
  have hvalue : e.value = body.lookup e.key := by rw [← h e.key, lookup_apply, if_pos rfl]
  have happly := apply_of_lookup hd hvalue
  rcases kept_edit hd hkv he (by rw [happly]) with hkept | ⟨hnumber, hnulled⟩
  · exact hkept
  · exact absurd hnulled (nulled_ne hd hkv hnumber (h kv.1))

/-- The texts tell the mutated bodies apart. -/
lemma bodies_apart_iff (hd : body.Distinct) :
    (∀ o ∈ bodies body, ∀ o' ∈ bodies body, stringify (.obj o) = stringify (.obj o') → o = o') ↔
      BodiesApart body := by
  constructor
  · intro h kv hkv hnumber
    obtain ⟨hmem, htext⟩ := nulled_mem hd hkv hnumber
    have hbody : body ∉ bodies body := fun hbody =>
      nulled_ne hd hkv hnumber rfl (h body hbody _ hmem htext.symm)
    refine ⟨fun hmass => hbody (body_mem_of_massRepeated hd hmass), fun kv' hkv' hor => ?_⟩
    rcases hor with hnumber' | hrepeated
    · obtain ⟨hmem', htext'⟩ := nulled_mem hd hkv' hnumber'
      have heq := h _ hmem _ hmem' (htext.trans htext'.symm)
      by_contra hne
      have hkey : kv'.1 ≠ kv.1 := fun hkey => hne (Obj.eq_of_key hd hkv' hkv hkey)
      refine nulled_ne hd hkv' hnumber' ?_ heq
      rw [Obj.lookup_set, if_neg hkey]
    · exact absurd (body_mem_of_repeated hd hkv' hrepeated) hbody
  · intro h o ho o' ho' htext
    rcases eq_or_kept hd ho ho' htext with heq | hkept
    · exact heq
    · have hnot {kv kv' : Text × Value} (hkv : kv ∈ body) (hnumber : NonFinite kv.2)
          (hkv' : kv' ∈ body) : ¬Repeated kv' := by
        intro hrepeated
        have heq := (h kv hkv hnumber).2 kv' hkv' (Or.inr hrepeated)
        rw [← heq] at hnumber
        exact not_nonFinite_of_repeated hrepeated hnumber
      rcases kept_cases hd ho hkept with ⟨rfl, hrep⟩ | ⟨kv, hkv, hnumber, rfl⟩
      · rcases kept_cases hd ho' (htext.symm.trans hkept) with ⟨rfl, -⟩ | ⟨kv', hkv', hnumber', -⟩
        · rfl
        · rcases hrep with ⟨kv, hkv, hrepeated⟩ | hmass
          · exact absurd hrepeated (hnot hkv' hnumber' hkv)
          · exact absurd hmass (h kv' hkv' hnumber').1
      · rcases kept_cases hd ho' (htext.symm.trans hkept) with ⟨rfl, hrep⟩ | ⟨kv', hkv', hnumber', rfl⟩
        · rcases hrep with ⟨kv', hkv', hrepeated⟩ | hmass
          · exact absurd hrepeated (hnot hkv hnumber hkv')
          · exact absurd hmass (h kv hkv hnumber).1
        · rw [(h kv hkv hnumber).2 kv' hkv' (Or.inl hnumber')]

/-- Mutated bodies with the same values are the same list. -/
lemma eq_of_same_values (hd : body.Distinct) (ho : o ∈ bodies body) (ho' : o' ∈ bodies body)
    (h : ∀ k, o.lookup k = o'.lookup k) : o = o' := by
  have hmass {kv : Text × Value} {e : Edit} (hkv : kv ∈ body) (he : e ∈ edits kv)
      (h : ∀ k, (e.apply body).lookup k = (massAssigned body).lookup k) :
      e.apply body = massAssigned body := by
    obtain ⟨hfields, hkept⟩ := massAssigns_massAssigned body
    have hkey := key_of_mem_edits he
    have hvalue : ∃ v, e.value = some v := by
      have hlookup := h e.key
      rw [lookup_apply, if_pos rfl] at hlookup
      by_cases hdanger : ∃ field ∈ dangerousFields, e.key = js field.1
      · obtain ⟨field, hfield, heq⟩ := hdanger
        rw [heq, hfields field hfield] at hlookup
        exact ⟨_, hlookup⟩
      · push Not at hdanger
        rw [hkept e.key hdanger, hkey, Obj.lookup_of_mem hd hkv] at hlookup
        exact ⟨_, hlookup⟩
    obtain ⟨v, hv⟩ := hvalue
    apply eq_massAssigned hd (keys_apply hkv hkey hv)
    · intro field hfield
      rw [h, hfields field hfield]
    · intro k hk
      rw [h, hkept k hk]
  rcases mem_bodies.mp ho with ⟨kv, hkv, e, he, rfl⟩ | rfl
  · rcases mem_bodies.mp ho' with ⟨kv', hkv', e', he', rfl⟩ | rfl
    · exact apply_eq_of_lookup hd h
    · exact hmass hkv he h
  · rcases mem_bodies.mp ho' with ⟨kv', hkv', e', he', rfl⟩ | rfl
    · exact (hmass hkv' he' fun k => (h k).symm).symm
    · rfl

end bodies

end BodyMutator

end SecurityScanner

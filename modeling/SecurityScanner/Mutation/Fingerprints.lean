import SecurityScanner.Lib.JsonText
import SecurityScanner.Mutation.Changes

/-!
# Fingerprints of changes

A fingerprint joins five texts with bars, and a component that is missing looks like an empty
one. Two changes have the same fingerprint if they change the same component to the same text,
if both of them empty a component, or if the bars in a method and a path fit together.
-/

namespace SecurityScanner

open JavaScript MutationEngine

def Change.fingerprint (c : Change) : Text := generateFingerprint c.mutation

namespace Change

/-- The change leaves its component empty. -/
def Blank : Change → Prop
  | params o | headers o | body o => o = []
  | method t | path t => t = []
  | override _ => False

/-- The same component with the same text. -/
def SameText : Change → Change → Prop
  | params o, params o' | headers o, headers o' | body o, body o' =>
    stringify (.obj o) = stringify (.obj o')
  | method t, method t' | override t, override t' | path t, path t' => t = t'
  | _, _ => False

/-- The bar behind the method is that before the path. -/
def Bars : Change → Change → Prop
  | method t, path p => t ++ js "|" = js "|" ++ p
  | _, _ => False

/-- The method and the path in the fingerprint. -/
def texts : Change → Text × Text
  | params _ | headers _ | body _ => ([], [])
  | method t | override t => (t, [])
  | path t => ([], t)

/-- The parameters, the headers and the body in it. -/
def objects : Change → Obj × Obj × Obj
  | params o => (o, [], [])
  | headers o => ([], o, [])
  | body o => ([], [], o)
  | method _ | path _ => ([], [], [])
  | override _ => ([], overrideHeaders, [])

section parts

/-- The part of a fingerprint behind method and path. -/
def objectsText (os : Obj × Obj × Obj) : Text :=
  stringify (.obj os.1) ++ (js "|" ++ (stringify (.obj os.2.1) ++ (js "|" ++
    stringify (.obj os.2.2))))

lemma joinWith_five (a b c d e : Text) : joinWith (js "|") [a, b, c, d, e] =
    a ++ (js "|" ++ (b ++ (js "|" ++ (c ++ (js "|" ++ (d ++ (js "|" ++ e))))))) := by
  simp only [joinWith, List.append_assoc]

lemma fingerprint_eq (c : Change) : c.fingerprint =
    c.texts.1 ++ (js "|" ++ (c.texts.2 ++ (js "|" ++ objectsText c.objects))) := by
  cases c <;> exact joinWith_five _ _ _ _ _

lemma stringify_nil : stringify (.obj []) = js "\x7b\x7d" := by decide

lemma eq_nil_of_text {o : Obj} (h : stringify (.obj o) = stringify (.obj [])) : o = [] := by
  have hsame := sameText_of_stringify h
  cases hsame
  rfl

lemma ends_bar (t : Text) : EndsValue (js "|" ++ t) := by
  intro u hu
  cases hu
  exact Or.inl (by decide)

/-- A bar that separates two objects is not in the text of one of them. -/
lemma objectsText_inj {os os' : Obj × Obj × Obj} (h : objectsText os = objectsText os') :
    stringify (.obj os.1) = stringify (.obj os'.1) ∧
      stringify (.obj os.2.1) = stringify (.obj os'.2.1) ∧
      stringify (.obj os.2.2) = stringify (.obj os'.2.2) := by
  obtain ⟨hparams, hrest⟩ := stringify_append_inj (ends_bar _) (ends_bar _) h
  obtain ⟨hheaders, hbody⟩ :=
    stringify_append_inj (ends_bar _) (ends_bar _) (List.append_cancel_left hrest)
  exact ⟨hparams, hheaders, List.append_cancel_left hbody⟩

/-- An object whose text ends a text with two braces is empty. -/
lemma eq_nil_of_back {s s' : Text} {o : Obj}
    (h : s ++ stringify (.obj o) = s' ++ stringify (.obj [])) : o = [] := by
  rw [stringify_nil] at h
  rcases List.append_eq_append_iff.mp h with ⟨r, -, hr⟩ | ⟨r, -, hr⟩
  · exact eq_nil_of_stringify_eq hr
  · by_contra hne
    obtain ⟨rest, hrest⟩ := stringify_head hne
    have hlen : (js "\x7b\x7d").length = (r ++ (js "\x7b\"" ++ rest)).length := by rw [hr, hrest]
    have htwo : (js "\x7b\x7d").length = 2 ∧ (js "\x7b\"").length = 2 := by decide
    rw [List.length_append, List.length_append] at hlen
    have hr' : r = [] := by
      rw [← List.length_eq_zero_iff]
      omega
    rw [hr', List.nil_append, hrest] at hr
    have hsecond := (List.cons.inj (List.cons.inj hr).2).1
    exact absurd hsecond (by decide)

/-- Behind a text that ends with empty objects the objects are empty. -/
lemma objects_of_blank {s s' : Text} {os : Obj × Obj × Obj}
    (h : s ++ objectsText os = s' ++ objectsText ([], [], [])) : os = ([], [], []) ∧ s = s' := by
  obtain ⟨a, b, c⟩ := os
  unfold objectsText at h
  simp only [← List.append_assoc] at h
  obtain rfl : c = [] := eq_nil_of_back h
  have hb := List.append_cancel_right (List.append_cancel_right h)
  obtain rfl : b = [] := eq_nil_of_back hb
  have ha := List.append_cancel_right (List.append_cancel_right hb)
  obtain rfl : a = [] := eq_nil_of_back ha
  exact ⟨rfl, List.append_cancel_right ha⟩

end parts

section collisions

/-- The change carries no text, but parameters, headers or a body. -/
def IsObject : Change → Prop
  | params _ | headers _ | body _ => True
  | _ => False

variable {c d : Change}

lemma IsObject.texts (h : c.IsObject) : c.texts = ([], []) := by
  cases c with
  | params o => rfl
  | headers o => rfl
  | body o => rfl
  | _ => cases h

lemma IsObject.blank (h : c.IsObject) (ho : c.objects = ([], [], [])) : c.Blank := by
  cases c with
  | params o => exact congrArg Prod.fst ho
  | headers o => exact congrArg (·.2.1) ho
  | body o => exact congrArg (·.2.2) ho
  | _ => cases h

lemma alike_of_objects (hc : c.IsObject) (hd : d.IsObject) (h : c.fingerprint = d.fingerprint) :
    SameText c d ∨ Blank c ∧ Blank d := by
  rw [fingerprint_eq, fingerprint_eq, hc.texts, hd.texts] at h
  have hobjects : js "||" ++ objectsText c.objects = js "||" ++ objectsText d.objects := h
  obtain ⟨hparams, hheaders, hbody⟩ := objectsText_inj (List.append_cancel_left hobjects)
  cases c with
  | params o =>
    cases d with
    | params o' => exact Or.inl hparams
    | headers o' => exact Or.inr ⟨eq_nil_of_text hparams, eq_nil_of_text hheaders.symm⟩
    | body o' => exact Or.inr ⟨eq_nil_of_text hparams, eq_nil_of_text hbody.symm⟩
    | _ => cases hd
  | headers o =>
    cases d with
    | params o' => exact Or.inr ⟨eq_nil_of_text hheaders, eq_nil_of_text hparams.symm⟩
    | headers o' => exact Or.inl hheaders
    | body o' => exact Or.inr ⟨eq_nil_of_text hheaders, eq_nil_of_text hbody.symm⟩
    | _ => cases hd
  | body o =>
    cases d with
    | params o' => exact Or.inr ⟨eq_nil_of_text hbody, eq_nil_of_text hparams.symm⟩
    | headers o' => exact Or.inr ⟨eq_nil_of_text hbody, eq_nil_of_text hheaders.symm⟩
    | body o' => exact Or.inl hbody
    | _ => cases hd
  | _ => cases hc

/-- The fingerprint of an object with that of a text: both are empty. -/
lemma blank_of_method {t : Text} (hc : c.IsObject) (h : c.fingerprint = (method t).fingerprint) :
    Blank c ∧ Blank (method t) := by
  rw [fingerprint_eq, fingerprint_eq, hc.texts] at h
  have hsplit : js "||" ++ objectsText c.objects = (t ++ js "||") ++ objectsText ([], [], []) := by
    rw [List.append_assoc]
    exact h
  obtain ⟨hblank, htext⟩ := objects_of_blank hsplit
  have htext : [] ++ js "||" = t ++ js "||" := htext
  exact ⟨hc.blank hblank, (List.append_cancel_right htext).symm⟩

lemma blank_of_path {t : Text} (hc : c.IsObject) (h : c.fingerprint = (path t).fingerprint) :
    Blank c ∧ Blank (path t) := by
  rw [fingerprint_eq, fingerprint_eq, hc.texts] at h
  have hsplit : js "||" ++ objectsText c.objects =
      (js "|" ++ (t ++ js "|")) ++ objectsText ([], [], []) := by
    simp only [List.append_assoc]
    exact h
  obtain ⟨hblank, htext⟩ := objects_of_blank hsplit
  have htext : js "|" ++ ([] ++ js "|") = js "|" ++ (t ++ js "|") := htext
  have hpath := List.append_cancel_right (List.append_cancel_left htext)
  exact ⟨hc.blank hblank, hpath.symm⟩

/-- Where the headers are missing, they are not those of the override. -/
lemma override_ne_missing {s s' : Text} {a c : Obj} :
    s ++ objectsText ([], overrideHeaders, []) ≠ s' ++ objectsText (a, [], c) := by
  intro h
  unfold objectsText at h
  simp only [← List.append_assoc] at h
  obtain rfl : c = [] := eq_nil_of_back h.symm
  have hheaders := List.append_cancel_right (List.append_cancel_right h)
  have hnil : overrideHeaders = [] := eq_nil_of_back hheaders
  cases hnil

/-- Headers that another text precedes are not those of the override: their brace would stand
behind a bar, and so inside a string. -/
lemma override_ne_headers {t : Text} {o : Obj} (ht : t ≠ []) :
    (override t).fingerprint ≠ (headers o).fingerprint := by
  have hobjects (o : Obj) : js "|" ++ (js "|" ++ objectsText ([], o, [])) =
      js "||\x7b\x7d|" ++ stringify (.obj o) ++ js "|\x7b\x7d" := by
    unfold objectsText
    rw [stringify_nil, List.append_assoc]
    rfl
  intro h
  rw [fingerprint_eq, fingerprint_eq] at h
  have hfront : t ++ js "||\x7b\x7d|" ++ stringify (.obj overrideHeaders) =
      js "||\x7b\x7d|" ++ stringify (.obj o) := by
    change t ++ (js "|" ++ (js "|" ++ objectsText ([], overrideHeaders, []))) =
      js "|" ++ (js "|" ++ objectsText ([], o, [])) at h
    rw [hobjects, hobjects, ← List.append_assoc, ← List.append_assoc] at h
    exact List.append_cancel_right h
  rcases List.append_eq_append_iff.mp hfront with ⟨r, hr, -⟩ | ⟨r, hr, ho⟩
  · have hlen := congrArg List.length hr
    simp only [List.length_append] at hlen
    exact ht (List.length_eq_zero_iff.mp (by omega))
  · have hne : r ≠ [] := by
      rintro rfl
      have hlen := congrArg List.length hr
      simp only [List.length_append, List.length_nil] at hlen
      exact ht (List.length_eq_zero_iff.mp (by omega))
    have hlast : r.getLast? = some (unit '|') := by
      have hend := congrArg List.getLast? hr
      rw [List.getLast?_append_of_ne_nil _ hne] at hend
      rw [← hend]
      exact List.getLast?_append_of_ne_nil t (List.cons_ne_nil _ _)
    obtain ⟨r', rfl⟩ := List.getLast?_eq_some_iff.mp hlast
    have hheaders : stringify (.obj overrideHeaders) =
        js "\x7b\"" ++ unit 'X' :: js "-HTTP-Method-Override\":\"DELETE\"\x7d" := by decide
    rw [hheaders, List.append_assoc] at ho
    exact stringify_ne_bar (by decide) ho

lemma override_ne_object {t : Text} (ht : t ≠ []) (hd : d.IsObject) :
    (override t).fingerprint ≠ d.fingerprint := by
  have hmissing {a c : Obj} (hobjects : d.objects = (a, [], c)) :
      (override t).fingerprint ≠ d.fingerprint := by
    rw [fingerprint_eq, fingerprint_eq, hobjects]
    simp only [← List.append_assoc]
    exact override_ne_missing
  cases d with
  | params o => exact hmissing rfl
  | headers o => exact override_ne_headers ht
  | body o => exact hmissing rfl
  | _ => cases hd

lemma override_ne_text {t : Text} (hd : d.objects = ([], [], [])) :
    (override t).fingerprint ≠ d.fingerprint := by
  rw [fingerprint_eq, fingerprint_eq, hd]
  simp only [← List.append_assoc]
  exact override_ne_missing

lemma text_of_method {t t' : Text} (h : (method t).fingerprint = (method t').fingerprint) :
    t = t' := by
  rw [fingerprint_eq, fingerprint_eq] at h
  exact List.append_cancel_right h

lemma text_of_override {t t' : Text} (h : (override t).fingerprint = (override t').fingerprint) :
    t = t' := by
  rw [fingerprint_eq, fingerprint_eq] at h
  exact List.append_cancel_right h

lemma text_of_path {t t' : Text} (h : (path t).fingerprint = (path t').fingerprint) : t = t' := by
  rw [fingerprint_eq, fingerprint_eq] at h
  have hpath : js "|" ++ (t ++ (js "|" ++ objectsText ([], [], []))) =
      js "|" ++ (t' ++ (js "|" ++ objectsText ([], [], []))) := h
  exact List.append_cancel_right (List.append_cancel_left hpath)

lemma bars_of_method_path {t p : Text} (h : (method t).fingerprint = (path p).fingerprint) :
    Bars (method t) (path p) := by
  rw [fingerprint_eq, fingerprint_eq] at h
  have hsplit : (t ++ js "|") ++ (js "|" ++ objectsText ([], [], [])) =
      (js "|" ++ p) ++ (js "|" ++ objectsText ([], [], [])) := by
    rw [List.append_assoc, List.append_assoc]
    exact h
  exact List.append_cancel_right hsplit

/-- An override names its method. -/
def Live : Change → Prop
  | override t => t ≠ []
  | _ => True

lemma alike_of_object (hc : c.IsObject) (hd : d.Live) (h : c.fingerprint = d.fingerprint) :
    SameText c d ∨ Blank c ∧ Blank d := by
  cases d with
  | params o => exact alike_of_objects hc trivial h
  | headers o => exact alike_of_objects hc trivial h
  | body o => exact alike_of_objects hc trivial h
  | method t => exact Or.inr (blank_of_method hc h)
  | override t => exact absurd h.symm (override_ne_object hd hc)
  | path t => exact Or.inr (blank_of_path hc h)

/-- When two changes have the same fingerprint. -/
lemma alike_of_fingerprint (hc : c.Live) (hd : d.Live) (h : c.fingerprint = d.fingerprint) :
    SameText c d ∨ Blank c ∧ Blank d ∨ Bars c d ∨ Bars d c := by
  have hobject (hc : c.IsObject) : SameText c d ∨ Blank c ∧ Blank d ∨ Bars c d ∨ Bars d c :=
    (alike_of_object hc hd h).imp_right Or.inl
  cases c with
  | params o => exact hobject trivial
  | headers o => exact hobject trivial
  | body o => exact hobject trivial
  | method t =>
    cases d with
    | method t' => exact Or.inl (text_of_method h)
    | override t' => exact absurd h.symm (override_ne_text rfl)
    | path p => exact Or.inr (Or.inr (Or.inl (bars_of_method_path h)))
    | params o => exact Or.inr (Or.inl (blank_of_method (c := params o) trivial h.symm).symm)
    | headers o => exact Or.inr (Or.inl (blank_of_method (c := headers o) trivial h.symm).symm)
    | body o => exact Or.inr (Or.inl (blank_of_method (c := body o) trivial h.symm).symm)
  | override t =>
    cases d with
    | method t' => exact absurd h (override_ne_text rfl)
    | override t' => exact Or.inl (text_of_override h)
    | path p => exact absurd h (override_ne_text rfl)
    | _ => exact absurd h (override_ne_object hc trivial)
  | path p =>
    cases d with
    | method t => exact Or.inr (Or.inr (Or.inr (bars_of_method_path h.symm)))
    | override t => exact absurd h.symm (override_ne_text rfl)
    | path p' => exact Or.inl (text_of_path h)
    | params o => exact Or.inr (Or.inl (blank_of_path (c := params o) trivial h.symm).symm)
    | headers o => exact Or.inr (Or.inl (blank_of_path (c := headers o) trivial h.symm).symm)
    | body o => exact Or.inr (Or.inl (blank_of_path (c := body o) trivial h.symm).symm)

lemma fingerprint_of_blank (h : c.Blank) : c.fingerprint = (method []).fingerprint := by
  cases c with
  | params o => cases h; rfl
  | headers o => cases h; rfl
  | body o => cases h; rfl
  | method t => cases h; rfl
  | override t => cases h
  | path t => cases h; rfl

lemma fingerprint_of_bars {t p : Text} (h : Bars (method t) (path p)) :
    (method t).fingerprint = (path p).fingerprint := by
  have hbars : t ++ js "|" = js "|" ++ p := h
  rw [fingerprint_eq, fingerprint_eq]
  change t ++ (js "|" ++ (js "|" ++ objectsText ([], [], []))) =
    js "|" ++ (p ++ (js "|" ++ objectsText ([], [], [])))
  rw [← List.append_assoc t, hbars, List.append_assoc]

lemma fingerprint_of_bodyText {o o' : Obj} (h : stringify (.obj o) = stringify (.obj o')) :
    (body o).fingerprint = (body o').fingerprint := by
  rw [fingerprint_eq, fingerprint_eq]
  change js "|" ++ (js "|" ++ objectsText ([], [], o)) =
    js "|" ++ (js "|" ++ objectsText ([], [], o'))
  unfold objectsText
  dsimp only
  rw [h]

end collisions

end Change

end SecurityScanner

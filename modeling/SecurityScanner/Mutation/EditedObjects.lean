import SecurityScanner.Mutation.Fingerprints
import SecurityScanner.Mutation.LocalChanges

/-!
# Edited objects and their texts

Two edits of an object lead to the same object if the results have the same values, and most
of them if the results have the same text. Only a number that JSON cannot write has the text
of another value.
-/

namespace SecurityScanner

open JavaScript Edit

section fields

variable {o o' : Obj} {key : Text} {v : Value} {f : Text × Value}

lemma eq_of_sameText (h : List.Forall₂ SameText o o')
    (heq : ∀ f ∈ o, ∀ g ∈ o', SameText f g → f = g) : o = o' := by
  induction h with
  | nil => rfl
  | @cons f g fields fields' hfirst hrest ih =>
    have hhead := heq f List.mem_cons_self g List.mem_cons_self hfirst
    have htail := ih fun f' hf' g' hg' =>
      heq f' (List.mem_cons_of_mem f hf') g' (List.mem_cons_of_mem g hg')
    rw [hhead, htail]

lemma mem_insert (h : f ∈ Obj.insert key v o) : f = (key, v) ∨ f ∈ o := by
  induction o with
  | nil => exact Or.inl (List.mem_singleton.mp h)
  | cons kv rest ih =>
    obtain ⟨l, w⟩ := kv
    have hbehind (h : f ∈ (l, w) :: Obj.insert key v rest) : f = (key, v) ∨ f ∈ (l, w) :: rest := by
      rcases List.mem_cons.mp h with rfl | h
      · exact Or.inr List.mem_cons_self
      · exact (ih h).imp_right (List.mem_cons_of_mem _)
    unfold Obj.insert at h
    split at h
    · split at h
      · exact List.mem_cons.mp h
      · exact hbehind h
    · exact List.mem_cons.mp h
    · exact hbehind h

lemma mem_set (h : f ∈ o.set key v) : f = (key, v) ∨ f.1 ≠ key ∧ f ∈ o := by
  unfold Obj.set at h
  split at h
  · obtain ⟨kv, hkv, rfl⟩ := List.mem_map.mp h
    split
    · exact Or.inl rfl
    · rename_i hne
      exact Or.inr ⟨hne, hkv⟩
  · rename_i hhas
    rcases mem_insert h with heq | hmem
    · exact Or.inl heq
    · refine Or.inr ⟨?_, hmem⟩
      rintro rfl
      exact hhas (has_of_mem hmem)

/-- What an edited object has comes from the edit or from the object. -/
lemma mem_apply {e : Edit} (h : f ∈ e.apply o) :
    f.1 = e.key ∧ e.value = some f.2 ∨ f.1 ≠ e.key ∧ f ∈ o := by
  unfold Edit.apply at h
  cases hv : e.value with
  | some v =>
    rw [hv] at h
    rcases mem_set h with rfl | h
    · exact Or.inl ⟨rfl, rfl⟩
    · exact Or.inr h
  | none =>
    rw [hv] at h
    obtain ⟨hmem, hne⟩ := List.mem_filter.mp h
    exact Or.inr ⟨of_decide_eq_true hne, hmem⟩

/-- An edit that gives an object what it has leaves it as it is. -/
lemma apply_of_lookup {e : Edit} (hd : o.Distinct) (h : e.value = o.lookup e.key) :
    e.apply o = o := by
  unfold Edit.apply
  cases hv : e.value with
  | some v => exact Obj.set_of_lookup hd (h.symm.trans hv)
  | none => exact Obj.delete_of_lookup (h.symm.trans hv)

/-- Edits with the same values lead to the same object. -/
lemma apply_eq_of_lookup {e e' : Edit} (hd : o.Distinct)
    (h : ∀ k, (e.apply o).lookup k = (e'.apply o).lookup k) : e.apply o = e'.apply o := by
  have hkey := h e.key
  have hkey' := h e'.key
  rw [lookup_apply, lookup_apply, if_pos rfl] at hkey
  rw [lookup_apply, lookup_apply, if_pos rfl] at hkey'
  by_cases heq : e.key = e'.key
  · rw [if_pos heq] at hkey
    unfold Edit.apply
    rw [hkey, heq]
  · rw [if_neg heq] at hkey
    rw [if_neg (Ne.symm heq)] at hkey'
    rw [apply_of_lookup hd hkey, apply_of_lookup hd hkey'.symm]

end fields

section texts

variable {o : Obj}

/-- The edit takes its key away or puts a string there. -/
def SetsText (e : Edit) : Prop := e.value = none ∨ ∃ t, e.value = some (.str t)

/-- Edits of texts lead to the same object when the results have the same text. -/
lemma apply_eq_of_text {e e' : Edit} (hd : o.Distinct) (he : SetsText e) (he' : SetsText e')
    (h : stringify (.obj (e.apply o)) = stringify (.obj (e'.apply o))) :
    e.apply o = e'.apply o := by
  have hvalue {e : Edit} (he : SetsText e) {v w : Value} (hv : e.value = some v)
      (htext : stringify v = stringify w) : v = w := by
    rcases he with hnone | ⟨t, ht⟩
    · rw [hnone] at hv
      cases hv
    · rw [ht] at hv
      cases hv
      exact (eq_of_text_str htext.symm).symm
  apply eq_of_sameText (sameText_of_stringify h)
  rintro f hf g hg ⟨hkey, htext⟩
  apply Prod.ext hkey
  rcases mem_apply hf with ⟨-, hv⟩ | ⟨-, hf⟩
  · exact hvalue he hv htext
  · rcases mem_apply hg with ⟨-, hw⟩ | ⟨-, hg⟩
    · exact (hvalue he' hw htext.symm).symm
    · have hleft := Obj.lookup_of_mem hd hf
      rw [hkey, Obj.lookup_of_mem hd hg] at hleft
      exact (Option.some.inj hleft).symm

lemma setsText_assigning {strategy : String} {key : Text} {detail : Text → Text}
    {texts : List Text} {e : Edit} (he : e ∈ assigning strategy key detail texts) :
    SetsText e := by
  obtain ⟨t, -, rfl⟩ := List.mem_map.mp he
  exact Or.inr ⟨t, rfl⟩

lemma setsText_params {case : CaseMap} {kv : Text × Value} {e : Edit}
    (he : e ∈ ParameterMutator.edits case kv) : SetsText e := by
  unfold ParameterMutator.edits at he
  simp only [List.mem_append, List.mem_singleton] at he
  rcases he with ((he | rfl) | he) | he
  · exact setsText_assigning he
  · exact Or.inl rfl
  · exact setsText_assigning he
  · exact setsText_assigning he

lemma setsText_headers {case : CaseMap} {kv : Text × Value} {e : Edit}
    (he : e ∈ HeaderMutator.edits case kv) : SetsText e := by
  have hite {b : Bool} {es : List Edit} (hes : ∀ e ∈ es, SetsText e)
      (he : e ∈ if b then es else []) : SetsText e := by
    cases b with
    | false => cases he
    | true => exact hes e he
  have htenants : ∀ e ∈ (HeaderMutator.tenantTexts kv.2).map (fun p =>
      { strategy := "tenant_swap:", key := kv.1, value := some (.str p.1), detail := equals p.2 }),
      SetsText e := by
    intro e he
    obtain ⟨p, -, rfl⟩ := List.mem_map.mp he
    exact Or.inr ⟨p.1, rfl⟩
  unfold HeaderMutator.edits at he
  simp only [List.mem_append, List.mem_singleton] at he
  rcases he with ((((rfl | he) | he) | he) | he) | he
  · exact Or.inl rfl
  · exact setsText_assigning he
  · exact hite (fun _ => setsText_assigning) he
  · exact hite (fun _ => setsText_assigning) he
  · exact hite htenants he
  · exact hite (fun _ => setsText_assigning) he

lemma setsText_spoof {e : Edit} (he : e ∈ HeaderMutator.spoofEdits) : SetsText e := by
  obtain ⟨k, -, rfl⟩ := List.mem_map.mp he
  exact Or.inr ⟨_, rfl⟩

end texts

end SecurityScanner

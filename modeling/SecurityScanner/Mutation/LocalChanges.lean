import SecurityScanner.Mutation.ObjectEdits

/-!
# Mutations of objects are local

A mutation of the parameters, the headers or the body changes the key that its label names
and no other. The spoofed address and the mass assignment name no key of the object: they
set fixed fields, which the object can have as well.
-/

namespace SecurityScanner

open JavaScript Fallible Edit

/-- The object has the value under the key, or nothing, and keeps all other keys. -/
def SetsOnly (key : Text) (value : Option Value) (o o' : Obj) : Prop :=
  ∀ k, o'.lookup k = if k = key then value else o.lookup k

def removing : List String := ["remove_param:", "remove_header:", "remove_field:"]

/-- The strategies that put a value under a key and tell it in the label. -/
def assigningStrategies : List String :=
  ["id_enum:", "inject:", "nullify:", "garbage_token:", "privelege_esc:", "tenant_swap:",
    "type_swap:", "type_confusion:"]

/-- The object changes in one of its keys, which the label names. -/
inductive LocalChange (o : Obj) (label : Text) (o' : Obj) : Prop
  | removed (strategy : String) (key : Text) : strategy ∈ removing → o.has key = true →
      label = js strategy ++ key → SetsOnly key none o o' → LocalChange o label o'
  | blanked (key : Text) : o.has key = true → label = js "blanking_value:" ++ key →
      SetsOnly key (some (.str [])) o o' → LocalChange o label o'
  | assigned (strategy : String) (key detail : Text) (v : Value) :
      strategy ∈ assigningStrategies → o.has key = true →
      label = js strategy ++ key ++ js "=" ++ detail → SetsOnly key (some v) o o' →
      LocalChange o label o'

/-- One of the headers that stand for the address of the client is set to localhost. -/
def Spoofs (o : Obj) (label : Text) (o' : Obj) : Prop :=
  ∃ header ∈ ["X-Forwarded-For", "X-Original-IP", "X-Real-IP"],
    label = js "id_spoof:" ++ js header ++ js "=" ++ js "127.0.0.1" ∧
      SetsOnly (js header) (some (.str (js "127.0.0.1"))) o o'

/-- The dangerous fields are set, and all others are kept. -/
def MassAssigns (o : Obj) (label : Text) (o' : Obj) : Prop :=
  label = js "mass_assignment:all" ∧
    (∀ field ∈ BodyMutator.dangerousFields, o'.lookup (js field.1) = some field.2) ∧
    ∀ k, (∀ field ∈ BodyMutator.dangerousFields, k ≠ js field.1) → o'.lookup k = o.lookup k

section edits

variable {o : Obj} {kv : Text × Value}

/-- An edit of the key with a label of one of the three forms. -/
inductive NamesKey (key : Text) (e : Edit) : Prop
  | removal : e.key = key → e.strategy ∈ removing → e.value = none → e.detail = [] →
      NamesKey key e
  | blank : e.key = key → e.strategy = "blanking_value:" → e.value = some (.str []) →
      e.detail = [] → NamesKey key e
  | assignment (v : Value) (t : Text) : e.key = key → e.strategy ∈ assigningStrategies →
      e.value = some v → e.detail = js "=" ++ t → NamesKey key e

lemma setsOnly_apply (e : Edit) : SetsOnly e.key e.value o (e.apply o) := e.lookup_apply o

lemma NamesKey.localChange {key : Text} {e : Edit} (h : NamesKey key e) (hkey : o.has key = true) :
    LocalChange o e.label (e.apply o) := by
  have hsets : SetsOnly e.key e.value o (e.apply o) := setsOnly_apply e
  have hlabel : e.label = js e.strategy ++ e.key ++ e.detail := rfl
  cases h with
  | removal he hs hv hd =>
    rw [hd, List.append_nil] at hlabel
    rw [hv] at hsets
    exact .removed e.strategy e.key hs (he ▸ hkey) hlabel hsets
  | blank he hs hv hd =>
    rw [hd, hs, List.append_nil] at hlabel
    rw [hv] at hsets
    exact .blanked e.key (he ▸ hkey) hlabel hsets
  | assignment v t he hs hv hd =>
    rw [hd, ← List.append_assoc] at hlabel
    rw [hv] at hsets
    exact .assigned e.strategy e.key t v hs (he ▸ hkey) hlabel hsets

lemma NamesKey.key_eq {key : Text} {e : Edit} (h : NamesKey key e) : e.key = key := by
  cases h with
  | removal hkey => exact hkey
  | blank hkey => exact hkey
  | assignment _ _ hkey => exact hkey

/-- All edits of the list name the key. -/
def AllName (key : Text) (es : List Edit) : Prop := ∀ e ∈ es, NamesKey key e

lemma AllName.append {key : Text} {es fs : List Edit} (h : AllName key es) (h' : AllName key fs) :
    AllName key (es ++ fs) := by
  intro e he
  rcases List.mem_append.mp he with he | he
  · exact h e he
  · exact h' e he

lemma allName_nil {key : Text} : AllName key [] := fun _ he => nomatch he

lemma allName_ite {key : Text} {es : List Edit} {b : Bool} (h : AllName key es) :
    AllName key (if b then es else []) := by
  cases b with
  | false => exact allName_nil
  | true => exact h

lemma allName_removal {key : Text} {strategy : String} (h : strategy ∈ removing) :
    AllName key [{ strategy, key }] := by
  intro e he
  rw [List.mem_singleton.mp he]
  exact .removal rfl h rfl rfl

lemma allName_equals {key : Text} {strategy : String} (h : strategy ∈ assigningStrategies)
    (texts : List Text) : AllName key (assigning strategy key equals texts) := by
  intro e he
  obtain ⟨t, -, rfl⟩ := List.mem_map.mp he
  exact .assignment _ t rfl h rfl rfl

lemma allName_equalsQuoted {key : Text} {strategy : String} (h : strategy ∈ assigningStrategies)
    (texts : List Text) : AllName key (assigning strategy key equalsQuoted texts) := by
  intro e he
  obtain ⟨t, -, rfl⟩ := List.mem_map.mp he
  exact .assignment _ (quote t) rfl h rfl rfl

lemma allName_params (case : CaseMap) : AllName kv.1 (ParameterMutator.edits case kv) :=
  (((allName_equals (by decide) _).append (allName_removal (by decide))).append
    (allName_equalsQuoted (by decide) _)).append (allName_equalsQuoted (by decide) _)

lemma allName_headers (case : CaseMap) : AllName kv.1 (HeaderMutator.edits case kv) := by
  have hblank : AllName kv.1 (assigning "blanking_value:" kv.1 (fun _ => []) [[]]) := by
    intro e he
    rw [List.mem_singleton.mp he]
    exact .blank rfl rfl rfl rfl
  have htenants : AllName kv.1 (HeaderMutator.tenantEdits case kv) := by
    have hs : "tenant_swap:" ∈ assigningStrategies := by decide
    apply allName_ite
    intro e he
    obtain ⟨p, -, rfl⟩ := List.mem_map.mp he
    exact .assignment _ p.2 rfl hs rfl rfl
  exact (((((allName_removal (by decide)).append hblank).append
    (allName_ite (allName_equals (by decide) _))).append
    (allName_ite (allName_equals (by decide) _))).append htenants).append
    (allName_ite (allName_equals (by decide) _))

lemma allName_body : AllName kv.1 (BodyMutator.edits kv) := by
  have htexts : AllName kv.1 (BodyMutator.textEdits kv) :=
    (((allName_equals (by decide) _).append (allName_removal (by decide))).append
      (allName_equalsQuoted (by decide) _)).append (allName_equalsQuoted (by decide) _)
  have hs : "type_confusion:" ∈ assigningStrategies := by decide
  apply htexts.append
  intro e he
  obtain ⟨p, -, rfl⟩ := List.mem_map.mp he
  exact .assignment _ (js p.2) rfl hs rfl rfl

lemma has_of_mem (h : kv ∈ o) : o.has kv.1 = true :=
  List.any_eq_true.mpr ⟨kv, h, by simp⟩

/-- The edits of all keys are local. -/
lemma localChange_of_mem {edits : Text × Value → List Edit} (h : ∀ kv, AllName kv.1 (edits kv))
    {e : Edit} (he : e ∈ o.flatMap edits) : LocalChange o e.label (e.apply o) := by
  obtain ⟨kv, hkv, he⟩ := List.mem_flatMap.mp he
  exact (h kv e he).localChange (has_of_mem hkv)

lemma spoofs_of_mem {e : Edit} (he : e ∈ HeaderMutator.spoofEdits) :
    Spoofs o e.label (e.apply o) := by
  obtain ⟨header, hheader, rfl⟩ := List.mem_map.mp he
  exact ⟨header, hheader, (List.append_assoc _ _ _).symm, setsOnly_apply _⟩

lemma massAssigns_massAssignment {m : Mutation} (hm : m ∈ BodyMutator.massAssignment o) :
    ∃ o', m.body = some o' ∧ MassAssigns o m.strategy o' := by
  rw [List.mem_singleton.mp hm]
  have hfields : BodyMutator.dangerousFields.foldl (fun o kv => Obj.set o (js kv.1) kv.2) o =
      (BodyMutator.dangerousFields.map fun kv => (js kv.1, kv.2)).foldl
        (fun o f => Obj.set o f.1 f.2) o := by
    rw [List.foldl_map]
  refine ⟨_, rfl, rfl, ?_, ?_⟩
  · intro field hfield
    rw [hfields]
    apply Obj.lookup_foldl_set_of_mem (f := (js field.1, field.2))
    · decide +kernel
    · exact List.mem_map_of_mem hfield
  · intro k hk
    rw [hfields]
    apply Obj.lookup_foldl_set_of_ne
    intro f hf
    obtain ⟨field, hfield, rfl⟩ := List.mem_map.mp hf
    exact hk field hfield

end edits

/-- The values of the object are strings. -/
def TextValued (o : Obj) : Prop := ∀ kv ∈ o, IsText kv.2

section returning

variable {o : Obj}

lemma convertible_of_isText {v : Value} (h : IsText v) : Convertible v := by
  obtain ⟨t, rfl⟩ := h
  apply convertible_of_primitive
  · rintro xs ⟨⟩
  · rintro fields ⟨⟩

lemma paramsReturn (case : CaseMap) (h : TextValued o) :
    Returns (ParameterMutator.mutate case o) := by
  rw [returns_params]
  exact fun kv hkv => convertible_of_isText (h kv hkv)

lemma headersReturn (case : CaseMap) (h : TextValued o) :
    Returns (HeaderMutator.mutate case o) := by
  rw [returns_headers]
  intro kv hkv
  refine ⟨fun _ => ?_, fun _ => h kv hkv⟩
  obtain ⟨t, ht⟩ := h kv hkv
  rw [ht]
  trivial

lemma bodyReturns (h : TextValued o) : Returns (BodyMutator.mutate .bundled o) := by
  rw [returns_body]
  exact fun kv hkv => ⟨convertible_of_isText (h kv hkv), nofun⟩

end returning

section mutators

variable (case : CaseMap) (o : Obj)

def ParamsLocal : Prop :=
  ∃ ms, ParameterMutator.mutate case o = .ok ms ∧
    ∀ m ∈ ms, ∃ o', m.params = some o' ∧ LocalChange o m.strategy o'

def HeadersLocal : Prop :=
  ∃ ms, HeaderMutator.mutate case o = .ok ms ∧
    ∀ m ∈ ms, ∃ o', m.headers = some o' ∧ (LocalChange o m.strategy o' ∨ Spoofs o m.strategy o')

def BodyLocal : Prop :=
  ∃ ms, BodyMutator.mutate .bundled o = .ok ms ∧
    ∀ m ∈ ms, ∃ o', m.body = some o' ∧ (LocalChange o m.strategy o' ∨ MassAssigns o m.strategy o')

variable {o}

lemma paramsLocal (h : TextValued o) : ParamsLocal case o := by
  obtain ⟨ms, hms⟩ := paramsReturn case h
  refine ⟨ms, hms, fun m hm => ?_⟩
  obtain ⟨e, he, heq⟩ := (ParameterMutator.makes_mutate hms).exists_edit hm
  have hstrategy : m.strategy = e.label := congrArg Mutation.strategy heq
  refine ⟨e.apply o, congrArg Mutation.params heq, ?_⟩
  rw [hstrategy]
  exact localChange_of_mem (fun _ => allName_params case) he

lemma headersLocal (h : TextValued o) : HeadersLocal case o := by
  obtain ⟨ms, hms⟩ := headersReturn case h
  refine ⟨ms, hms, fun m hm => ?_⟩
  obtain ⟨e, he, heq⟩ := (HeaderMutator.makes_mutate hms).exists_edit hm
  have hstrategy : m.strategy = e.label := congrArg Mutation.strategy heq
  refine ⟨e.apply o, congrArg Mutation.headers heq, ?_⟩
  rw [hstrategy]
  rcases List.mem_append.mp he with he | he
  · exact Or.inl (localChange_of_mem (fun _ => allName_headers case) he)
  · exact Or.inr (spoofs_of_mem he)

lemma bodyLocal (h : TextValued o) : BodyLocal o := by
  obtain ⟨ms, hms⟩ := bodyReturns h
  refine ⟨ms, hms, fun m hm => ?_⟩
  obtain ⟨ns, rfl, hmakes⟩ := BodyMutator.makes_mutate hms
  rcases List.mem_append.mp hm with hm | hm
  · obtain ⟨e, he, heq⟩ := hmakes.exists_edit hm
    have hstrategy : m.strategy = e.label := congrArg Mutation.strategy heq
    refine ⟨e.apply o, congrArg Mutation.body heq, Or.inl ?_⟩
    rw [hstrategy]
    exact localChange_of_mem (fun _ => allName_body) he
  · obtain ⟨o', ho', hmass⟩ := massAssigns_massAssignment hm
    exact ⟨o', ho', Or.inr hmass⟩

end mutators

/-- Each mutation of an object of strings changes the key that its label names and nothing
else, but for the spoofed address and the mass assignment with their fixed fields. -/
theorem object_mutations_local (case : CaseMap) {params headers body : Obj}
    (hparams : TextValued params) (hheaders : TextValued headers) (hbody : TextValued body) :
    ParamsLocal case params ∧ HeadersLocal case headers ∧ BodyLocal body :=
  ⟨paramsLocal case hparams, headersLocal case hheaders, bodyLocal hbody⟩

lemma textValued_nil : TextValued [] := by
  intro kv hkv
  cases hkv

lemma textValued_cons {key t : Text} {o : Obj} (h : TextValued o) :
    TextValued ((key, .str t) :: o) := by
  intro kv hkv
  rcases List.mem_cons.mp hkv with rfl | hkv
  · exact ⟨t, rfl⟩
  · exact h kv hkv

/-- A spoofed header and a mass assigned field can be in the request already, beside keys that
every mutation of another label keeps. -/
theorem object_mutations_local_overlapping :
    ParamsLocal asciiCase
        [(js "user_id", .str (js "42")), (js "sort", .str (js "name"))] ∧
      HeadersLocal asciiCase
        [(js "X-Real-IP", .str (js "10.0.0.7")), (js "Accept", .str (js "text/html"))] ∧
      BodyLocal [(js "role", .str (js "user")), (js "name", .str (js "Ada"))] :=
  object_mutations_local asciiCase (textValued_cons (textValued_cons textValued_nil))
    (textValued_cons (textValued_cons textValued_nil))
    (textValued_cons (textValued_cons textValued_nil))

end SecurityScanner

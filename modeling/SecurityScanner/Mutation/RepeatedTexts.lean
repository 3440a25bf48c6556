import SecurityScanner.Mutation.Kept
import SecurityScanner.Mutation.PathTexts
import SecurityScanner.Mutation.Severity

/-!
# What labels repeat of a request

Behind the name of its strategy a label repeats a key, a value, a spelling of the method or a
path of the request. What else stands there has no word of a severity and makes none together
with its neighbours, so that the severity of a mutation is that of the name or that of the
repeated text.
-/

namespace SecurityScanner

open JavaScript Edit FirstWins Fallible MutationEngine PathMutator

/-- What a label of the strategy repeats of the request. -/
inductive Repeats (case : CaseMap) (request : MutationRequest) : Text → Text → Prop
  | param {name : String} {kv : Text × Value} :
      name ∈ ["id_enum", "remove_param", "inject", "nullify"] →
      kv ∈ request.params.getD [] → Repeats case request (js name) kv.1
  | header {name : String} {kv : Text × Value} : name ∈ ["remove_header", "blanking_value"] →
      kv ∈ request.headers.getD [] → Repeats case request (js name) kv.1
  | token {kv : Text × Value} {t : Text} : kv ∈ request.headers.getD [] →
      includes (case.lower kv.1) (js "authorization") → t ∈ HeaderMutator.garbageTexts kv.2 →
      Repeats case request (js "garbage_token") (kv.1 ++ equals t)
  | role {kv : Text × Value} : kv ∈ request.headers.getD [] →
      includes (case.lower kv.1) (js "x-user-role") →
      Repeats case request (js "privelege_esc") kv.1
  | type {kv : Text × Value} : kv ∈ request.headers.getD [] →
      includes (case.lower kv.1) (js "type") → Repeats case request (js "type_swap") kv.1
  | body {name : String} {kv : Text × Value} :
      name ∈ ["id_enum", "remove_field", "inject", "nullify", "type_confusion"] →
      kv ∈ request.body.getD [] → Repeats case request (js name) kv.1
  | method {t : Text} : t ∈ MethodMutator.caseVariants case (request.method.getD []) →
      Repeats case request (js "case_swap") t
  | path {name : String} :
      name ∈ ["path_id_enumeration", "added_extension", "adding_junk", "double_slashing",
        "path_traversal", "version_switching"] →
      trim (request.path.getD []) ≠ [] → Repeats case request (js name) (request.path.getD [])
  | segment {s : Text} : s ∈ switchedSegments (request.path.getD []) →
      Repeats case request (js "case_switching")
        (replace (request.path.getD []) s (case.upper s))
  | nothing {name : String} :
      name ∈ ["tenant_swap", "id_spoof", "mass_assignment", "method_switch", "garbage_method",
        "method_override"] → Repeats case request (js name) []

/-- Above the severity of the strategy itself, what its labels repeat of the requests has words
of the same severities, and what the label of an escalation repeats has one of the highest. -/
structure RepeatsAlike (case : CaseMap) (request request' : MutationRequest) : Prop where
  equal : ∀ name t t', Repeats case request name t → Repeats case request' name t' →
    ∀ tier, severityOf name < tier → (MentionsFrom tier t ↔ MentionsFrom tier t')
  escalation : ∀ t, Repeats case request (js "privelege_esc") t → mentions 5 t

section silence

/-- The units that words start with. -/
def wordHeads : Text := js "gimnprt"

/-- The text has no word: most of them have an underscore. -/
def Wordless (t : Text) : Prop :=
  unit '_' ∉ t ∧ ∀ word ∈ ["inject", "nullify", "tenant"], includes t (js word) = false

/-- No word starts in the text. -/
def Quiet (t : Text) : Prop :=
  ∀ tier, ∀ word ∈ severityWords tier, ∀ rest ∈ t.tails, rest ≠ [] →
    ¬rest <+: js word ∧ ¬js word <+: rest

/-- No word goes over from what stands before the text to what stands behind it. -/
def Gap (t : Text) : Prop := ∃ u s, t = u :: s ∧ u ∉ wordUnits ∧ Quiet s

/-- The text adds no word to what stands before it. -/
def Silent (t : Text) : Prop := ∀ s, severityOf (s ++ t) = severityOf s

variable {s t : Text}

lemma severityOf_of_mentions (h : ∀ tier, mentions tier s = mentions tier t) :
    severityOf s = severityOf t := by
  simp only [severityOf_eq, h]

instance (t : Text) : Decidable (Wordless t) :=
  inferInstanceAs (Decidable (_ ∧ _))

lemma Wordless.severityOf_eq_one (h : Wordless t) : severityOf t = 1 := by
  have hword : ∀ tier, ∀ word ∈ severityWords tier,
      unit '_' ∈ js word ∨ word ∈ ["inject", "nullify", "tenant"] := by
    intro tier
    unfold severityWords
    split <;> decide
  have hmentions : ∀ tier, mentions tier t = mentions tier [] := by
    intro tier
    rw [mentions_nil]
    unfold mentions
    rw [List.any_eq_false]
    intro word hmem hincludes
    rcases hword tier word hmem with hunderscore | hplain
    · exact h.1 ((includes_iff.mp hincludes).subset hunderscore)
    · rw [h.2 word hplain] at hincludes
      cases hincludes
  exact severityOf_of_mentions hmentions

lemma Wordless.severityOf_le (h : Wordless t) (s : Text) : severityOf t ≤ severityOf s := by
  rw [h.severityOf_eq_one]
  exact one_le_severityOf s

lemma head_word {tier : Nat} : ∀ word ∈ severityWords tier,
    ∃ v ∈ wordHeads, (js word).head? = some v := by
  unfold severityWords
  split <;> decide

lemma quiet_of_heads (h : ∀ u ∈ t, u ∉ wordHeads) : Quiet t := by
  intro tier word hword rest hrest hne
  obtain ⟨v, hv, hhead⟩ := head_word word hword
  obtain ⟨w, hw⟩ := List.head?_eq_some_iff.mp hhead
  obtain ⟨u, rest, rfl⟩ := List.exists_cons_of_ne_nil hne
  have hne : u ≠ v := by
    rintro rfl
    exact h u ((List.mem_tails _ _).mp hrest |>.subset List.mem_cons_self) hv
  rw [hw, List.cons_prefix_cons, List.cons_prefix_cons]
  exact ⟨fun hprefix => hne hprefix.1, fun hprefix => hne hprefix.1.symm⟩

lemma Quiet.mentions_append (h : Quiet s) (tier : Nat) (t : Text) :
    mentions tier (s ++ t) = mentions tier t := by
  have hword : ∀ word ∈ severityWords tier, includes (s ++ t) (js word) = includes t (js word) :=
    fun word hmem => includes_append_of_tails (h tier word hmem)
  unfold mentions
  rw [Bool.eq_iff_iff, List.any_eq_true, List.any_eq_true]
  exact exists_congr fun word => and_congr_right fun hmem => by rw [hword word hmem]

lemma Gap.mentions_between (h : Gap t) (tier : Nat) (pre post : Text) :
    mentions tier (pre ++ t ++ post) = (mentions tier pre || mentions tier post) := by
  obtain ⟨u, s, rfl, hu, hs⟩ := h
  rw [List.append_assoc, List.cons_append, mentions_append_cons hu, hs.mentions_append]

lemma silent_nil : Silent [] := fun s => by rw [List.append_nil]

lemma silent_cons {u : UInt16} (hu : u ∉ wordUnits) (h : severityOf t = 1) :
    Silent (u :: t) := by
  intro s
  rw [severityOf_append_cons hu, h, max_eq_left (one_le_severityOf s)]

lemma Gap.severityOf_eq_one (h : Gap t) : severityOf t = 1 := by
  rw [← severityOf_nil]
  apply severityOf_of_mentions
  intro tier
  have hmentions := h.mentions_between tier [] []
  rw [List.nil_append, List.append_nil] at hmentions
  rw [hmentions, mentions_nil, Bool.or_self]

lemma silent_equals (h : severityOf t = 1) : Silent (equals t) := silent_cons (by decide) h

lemma silent_equalsQuoted (h : severityOf (quote t) = 1) : Silent (equalsQuoted t) :=
  silent_cons (by decide) h

lemma gap_of_heads {u : UInt16} (hu : u ∉ wordUnits) (h : ∀ v ∈ t, v ∉ wordHeads) :
    Gap (u :: t) :=
  ⟨u, t, rfl, hu, quiet_of_heads h⟩

lemma digit_not_mem_wordUnits {u : UInt16} (hu : isDigit u = true) : u ∉ wordUnits := by
  have hunits : ∀ u ∈ js "0123456789", u ∉ wordUnits := by decide
  exact hunits u (mem_digits_of_isDigit hu)

lemma gap_of_isDigit (hne : t ≠ []) (h : ∀ u ∈ t, isDigit u = true) : Gap t := by
  have hheads : ∀ u ∈ js "0123456789", u ∉ wordHeads := by decide
  obtain ⟨u, s, rfl⟩ := List.exists_cons_of_ne_nil hne
  obtain ⟨hu, hs⟩ := List.forall_mem_cons.mp h
  exact gap_of_heads (digit_not_mem_wordUnits hu) fun v hv =>
    hheads v (mem_digits_of_isDigit (hs v hv))

lemma heads_positiveToText (x : Float) : ∀ u ∈ positiveToText x, u ∉ wordHeads := by
  have hheads : ∀ u ∈ decimalUnits, u ∉ wordHeads := by decide
  exact fun u hu => hheads u (positiveToText_subset x hu)

lemma gap_positiveToText (x : Float) : Gap (positiveToText x) := by
  obtain ⟨u, hhead, hu⟩ := head?_positiveToText x
  obtain ⟨s, hs⟩ := List.head?_eq_some_iff.mp hhead
  have hheads := heads_positiveToText x
  rw [hs] at hheads ⊢
  exact gap_of_heads (digit_not_mem_wordUnits hu) fun v hv => hheads v (List.mem_cons_of_mem u hv)

/-- The one text of a number that has heads of words, none of which goes on. -/
lemma quiet_infinity : Quiet (js "Infinity") := by
  intro tier
  unfold severityWords
  split <;> decide

lemma gap_infinity : Gap (js "Infinity") := by
  refine ⟨unit 'I', js "nfinity", rfl, by decide, fun tier word hword rest hrest => ?_⟩
  exact quiet_infinity tier word hword rest (List.mem_cons_of_mem _ hrest)

/-- The text of a number keeps the words on its two sides apart. -/
lemma gap_numberToText (x : Float) : Gap (numberToText x) := by
  unfold numberToText
  split
  · exact gap_of_heads (by decide) (by decide : ∀ v ∈ js "aN", v ∉ wordHeads)
  · split
    · exact gap_of_heads (by decide) (by decide : ∀ v ∈ [], v ∉ wordHeads)
    · split
      · refine ⟨unit '-', _, rfl, by decide, ?_⟩
        split
        · exact quiet_infinity
        · exact quiet_of_heads (heads_positiveToText _)
      · split
        · exact gap_infinity
        · exact gap_positiveToText x

end silence

section labels

variable {case : CaseMap} {request : MutationRequest}

/-- A label repeats a text of the request, which sets its severity with the strategy. -/
def Spells (case : CaseMap) (request : MutationRequest) (label : Text) : Prop :=
  ∃ t, Repeats case request (strategyName label) t ∧
    severityOf label = max (severityOf (strategyName label)) (severityOf t)

/-- No name of a strategy has a colon. -/
lemma Repeats.colon_not_mem {name t : Text} (h : Repeats case request name t) :
    unit ':' ∉ name := by
  have hnames {names : List String} {name : String} (hmem : name ∈ names)
      (h : ∀ name ∈ names, unit ':' ∉ js name) : unit ':' ∉ js name := h name hmem
  cases h with
  | param hmem => exact hnames hmem (by decide)
  | header hmem => exact hnames hmem (by decide)
  | body hmem => exact hnames hmem (by decide)
  | path hmem => exact hnames hmem (by decide)
  | nothing hmem => exact hnames hmem (by decide)
  | token | role | type | method | segment => decide

lemma strategyName_append {name rest : Text} (h : unit ':' ∉ name) :
    strategyName (name ++ unit ':' :: rest) = name := by
  have hall : ∀ u ∈ name, decide (u ≠ unit ':') = true := by
    intro u hu
    rw [decide_eq_true_iff]
    exact fun heq => h (heq ▸ hu)
  unfold strategyName
  rw [List.takeWhile_append_of_pos hall, List.takeWhile_cons_of_neg (by simp), List.append_nil]

lemma spells_of_subject (name : String) {strategy rest t : Text}
    (hname : strategy = js name ++ [unit ':']) (ht : Repeats case request (js name) t)
    (h : max (severityOf (js name)) (severityOf rest) =
      max (severityOf (js name)) (severityOf t)) : Spells case request (strategy ++ rest) := by
  have hcolon := ht.colon_not_mem
  have hlabel : strategy ++ rest = js name ++ unit ':' :: rest := by
    rw [hname, List.append_assoc, List.singleton_append]
  rw [hlabel]
  refine ⟨t, ?_, ?_⟩
  · rwa [strategyName_append hcolon]
  · rw [strategyName_append hcolon, severityOf_append_cons colon_not_mem_wordUnits, h]

/-- A label repeats the text that stands before a silent one. -/
lemma spells_of_silent (name : String) {strategy t detail : Text}
    (hname : strategy = js name ++ [unit ':']) (ht : Repeats case request (js name) t)
    (hdetail : Silent detail) :
    Spells case request (strategy ++ t ++ detail) := by
  rw [List.append_assoc]
  exact spells_of_subject name hname ht (by rw [hdetail t])

lemma spells_of_nothing (name : String) {strategy rest : Text}
    (hname : strategy = js name ++ [unit ':']) (ht : Repeats case request (js name) [])
    (h : severityOf rest ≤ severityOf (js name)) : Spells case request (strategy ++ rest) := by
  apply spells_of_subject name hname ht
  rw [max_eq_left h, severityOf_nil, max_eq_left (one_le_severityOf _)]

lemma spells_assigning (name : String) {strategy : String} {key : Text} {detail : Text → Text}
    {texts : List Text} (hname : js strategy = js name ++ [unit ':'])
    (ht : Repeats case request (js name) key) (hdetail : ∀ t ∈ texts, Silent (detail t)) :
    ∀ e ∈ assigning strategy key detail texts, Spells case request e.label := by
  intro e he
  obtain ⟨t, hmem, rfl⟩ := List.mem_map.mp he
  exact spells_of_silent name hname ht (hdetail t hmem)

lemma spells_removing (name : String) {strategy : String} {key : Text}
    (hname : js strategy = js name ++ [unit ':']) (ht : Repeats case request (js name) key) :
    Spells case request ({ strategy, key } : Edit).label :=
  spells_of_silent name hname ht silent_nil

lemma silent_idTexts {v : Value} : ∀ t ∈ idTexts v, Silent (equals t) := by
  intro t ht
  apply silent_equals
  unfold idTexts at ht
  split at ht
  · obtain ⟨x, -, rfl⟩ := List.mem_map.mp ht
    exact (gap_numberToText x).severityOf_eq_one
  · cases ht

lemma silent_quoted {texts : List String} (h : ∀ text ∈ texts, Wordless (quote (js text))) :
    ∀ t ∈ texts.map js, Silent (equalsQuoted t) := by
  intro t ht
  obtain ⟨text, hmem, rfl⟩ := List.mem_map.mp ht
  exact silent_equalsQuoted (h text hmem).severityOf_eq_one

lemma silent_nullTexts : ∀ t ∈ nullTexts, Silent (equalsQuoted t) :=
  silent_quoted (by decide)

lemma silent_equals_of_mem {texts : List String} (h : ∀ text ∈ texts, Wordless (js text)) :
    ∀ t ∈ texts.map js, Silent (equals t) := by
  intro t ht
  obtain ⟨text, hmem, rfl⟩ := List.mem_map.mp ht
  exact silent_equals (h text hmem).severityOf_eq_one

lemma wordless_specialChars (k : Text) :
    ∀ payload ∈ ParameterMutator.specialChars k, Wordless (quote (js payload)) := by
  unfold ParameterMutator.specialChars
  dsimp only
  split_ifs <;> decide

lemma spells_params {kv : Text × Value} (hkv : kv ∈ request.params.getD []) :
    ∀ e ∈ ParameterMutator.edits case kv, Spells case request e.label := by
  intro e he
  simp only [ParameterMutator.edits, List.mem_append] at he
  rcases he with ((hids | hremove) | hinject) | hnullify
  · exact spells_assigning "id_enum" rfl (.param (by decide) hkv)
      silent_idTexts e hids
  · rw [List.mem_singleton.mp hremove]
    exact spells_removing "remove_param" rfl (.param (by decide) hkv)
  · exact spells_assigning "inject" rfl (.param (by decide) hkv)
      (silent_quoted (wordless_specialChars _)) e hinject
  · exact spells_assigning "nullify" rfl (.param (by decide) hkv)
      silent_nullTexts e hnullify

lemma silent_typeTexts : ∀ t ∈ HeaderMutator.typeTexts, Silent (equals t) :=
  silent_equals_of_mem (by decide)

lemma silent_roleTexts : ∀ t ∈ HeaderMutator.roleTexts, Silent (equals t) :=
  silent_equals_of_mem (by decide)

lemma spells_garbage {kv : Text × Value} (hkv : kv ∈ request.headers.getD []) :
    ∀ e ∈ HeaderMutator.garbageEdits case kv, Spells case request e.label := by
  intro e he
  unfold HeaderMutator.garbageEdits at he
  split_ifs at he with hkey
  · obtain ⟨t, ht, rfl⟩ := List.mem_map.mp he
    have hlabel : js "garbage_token:" ++ kv.1 ++ equals t =
        js "garbage_token:" ++ (kv.1 ++ equals t) ++ [] := by
      rw [List.append_nil, List.append_assoc]
    unfold Edit.label
    rw [hlabel]
    exact spells_of_silent "garbage_token" rfl (.token hkv hkey ht) silent_nil
  · cases he

lemma spells_tenant {kv : Text × Value} :
    ∀ e ∈ HeaderMutator.tenantEdits case kv, Spells case request e.label := by
  have hname : severityOf (js "tenant_swap") = 5 := by decide
  intro e he
  unfold HeaderMutator.tenantEdits at he
  split_ifs at he
  · obtain ⟨p, -, rfl⟩ := List.mem_map.mp he
    unfold Edit.label
    dsimp only
    rw [List.append_assoc]
    exact spells_of_nothing "tenant_swap" rfl (.nothing (by decide))
      (hname ▸ severityOf_le_five _)
  · cases he

lemma spells_headers {kv : Text × Value} (hkv : kv ∈ request.headers.getD []) :
    ∀ e ∈ HeaderMutator.edits case kv, Spells case request e.label := by
  intro e he
  simp only [HeaderMutator.edits, List.mem_append] at he
  rcases he with ((((hremove | hblank) | hgarbage) | hrole) | htenant) | htype
  · rw [List.mem_singleton.mp hremove]
    exact spells_removing "remove_header" rfl (.header (by decide) hkv)
  · exact spells_assigning "blanking_value" rfl (.header (by decide) hkv)
      (fun _ _ => silent_nil) e hblank
  · exact spells_garbage hkv e hgarbage
  · unfold HeaderMutator.roleEdits at hrole
    split_ifs at hrole with hkey
    · exact spells_assigning "privelege_esc" rfl (.role hkv hkey)
        silent_roleTexts e hrole
    · cases hrole
  · exact spells_tenant e htenant
  · unfold HeaderMutator.typeEdits at htype
    split_ifs at htype with hkey
    · exact spells_assigning "type_swap" rfl (.type hkv hkey)
        silent_typeTexts e htype
    · cases htype

lemma spells_spoof : ∀ e ∈ HeaderMutator.spoofEdits, Spells case request e.label := by
  intro e he
  obtain ⟨spoofKey, hmem, rfl⟩ := List.mem_map.mp he
  have hsilent : ∀ spoofKey ∈ ["X-Forwarded-For", "X-Original-IP", "X-Real-IP"],
      Wordless (js spoofKey ++ equals (js "127.0.0.1")) := by decide
  unfold Edit.label
  dsimp only
  rw [List.append_assoc]
  exact spells_of_nothing "id_spoof" rfl (.nothing (by decide))
    ((hsilent spoofKey hmem).severityOf_le _)

lemma wordless_variations (v : Value) : ∀ p ∈ BodyMutator.variations v, Wordless (js p.2) := by
  have hnames : ∀ name ∈ ["number", "array", "object", "boolean", "null", "string"],
      Wordless (js name) := by decide
  have hsubset : (BodyMutator.variations v).map Prod.snd ⊆
      ["number", "array", "object", "boolean", "null", "string"] := by
    unfold BodyMutator.variations
    split <;> simp only [List.map_cons, List.map_nil] <;> decide
  intro p hp
  exact hnames p.2 (hsubset (List.mem_map_of_mem hp))

lemma spells_body {kv : Text × Value} (hkv : kv ∈ request.body.getD []) :
    ∀ e ∈ BodyMutator.edits kv, Spells case request e.label := by
  intro e he
  simp only [BodyMutator.edits, BodyMutator.textEdits, List.mem_append] at he
  rcases he with (((hids | hremove) | hinject) | hnullify) | hconfusion
  · exact spells_assigning "id_enum" rfl (.body (by decide) hkv) silent_idTexts e hids
  · rw [List.mem_singleton.mp hremove]
    exact spells_removing "remove_field" rfl (.body (by decide) hkv)
  · exact spells_assigning "inject" rfl (.body (by decide) hkv)
      (silent_quoted (by decide)) e hinject
  · exact spells_assigning "nullify" rfl (.body (by decide) hkv)
      silent_nullTexts e hnullify
  · obtain ⟨p, hp, rfl⟩ := List.mem_map.mp hconfusion
    unfold Edit.label
    dsimp only
    exact spells_of_silent "type_confusion" rfl (.body (by decide) hkv)
      (silent_equals (wordless_variations kv.2 p hp).severityOf_eq_one)

end labels

section mutators

variable {copy : EngineCopy} {case : CaseMap} {request : MutationRequest}

lemma spells_of_makes {make : Obj → Text → Text → Mutation} {o : Obj} {ms : List Mutation}
    {es : List Edit} (h : Makes make o ms es)
    (hmake : ∀ o strategy reason, (make o strategy reason).strategy = strategy)
    (hes : ∀ e ∈ es, Spells case request e.label) :
    ∀ m ∈ ms, Spells case request m.strategy := by
  intro m hm
  obtain ⟨e, he, heq⟩ := h.exists_edit hm
  have hlabel : m.strategy = e.label := by
    have hstrategy : m.strategy = m.silent.strategy := rfl
    rw [hstrategy, heq, hmake]
  rw [hlabel]
  exact hes e he

lemma spells_method : ∀ m ∈ MethodMutator.mutate case (request.method.getD []),
    Spells case request m.strategy := by
  have hswitched : ∀ text ∈ ["GET", "POST", "PUT", "DELETE", "PATCH", "OPTIONS", "HEAD"],
      Wordless (js text) := by decide
  have hmade : ∀ text ∈ ["HACK", "", "FAKEMETHOD", "NULL"], Wordless (js text) := by decide
  have hdelete : Wordless (js "DELETE") := by decide
  intro m hm
  unfold MethodMutator.mutate at hm
  simp only [List.mem_append] at hm
  rcases hm with ((hswitch | hswap) | hgarbage) | hoverride
  · obtain ⟨method, hmem, rfl⟩ := List.mem_map.mp hswitch
    obtain ⟨text, htext, rfl⟩ := List.mem_map.mp (List.mem_of_mem_filter hmem)
    exact spells_of_nothing "method_switch" rfl (.nothing (by decide))
      ((hswitched text htext).severityOf_le _)
  · obtain ⟨t, ht, rfl⟩ := List.mem_map.mp hswap
    exact spells_of_subject "case_swap" rfl (.method ht) rfl
  · obtain ⟨text, htext, rfl⟩ := List.mem_map.mp hgarbage
    exact spells_of_nothing "garbage_method" rfl (.nothing (by decide))
      ((hmade text htext).severityOf_le _)
  · rw [List.mem_singleton.mp hoverride]
    have hname : js "method_override:" = js "method_override" ++ [unit ':'] := rfl
    have hlabel : js "method_override:DELETE" = js "method_override:" ++ js "DELETE" := rfl
    change Spells case request (js "method_override:DELETE")
    rw [hlabel]
    exact spells_of_nothing "method_override" hname (.nothing (by decide)) (hdelete.severityOf_le _)

end mutators

section paths

variable {path pre post : Text}

/-- Another id in its place leaves the words of a path as they are. -/
lemma severityOf_replace_id {run : Text} (h : LastDigits path pre run post) (c : Float) :
    severityOf (replace path run (numberToText c)) = severityOf path := by
  obtain ⟨before, after, heq, hreplace⟩ := replace_of_occurrence h.nonempty h.path
  have hrun : Gap run := gap_of_isDigit h.nonempty h.digits
  rw [hreplace, substitution_number]
  apply severityOf_of_mentions
  intro tier
  rw [heq, (gap_numberToText c).mentions_between, hrun.mentions_between]

lemma severityOf_replace_version {digits : Text} (h : LastVersion path pre digits post)
    (c : Float) :
    severityOf (replace path (vee :: digits) (vee :: numberToText c)) = severityOf path := by
  obtain ⟨before, after, heq, hreplace⟩ :=
    replace_of_occurrence (List.cons_ne_nil vee digits) h.path
  have hdigits : Gap digits := gap_of_isDigit h.nonempty h.digits
  have hvee (t : Text) : before ++ vee :: t ++ after = before ++ [vee] ++ t ++ after := by
    rw [List.append_assoc before [vee] t, List.singleton_append]
  rw [hreplace, substitution_version]
  apply severityOf_of_mentions
  intro tier
  rw [heq, hvee, hvee, (gap_numberToText c).mentions_between, hdigits.mentions_between]

lemma mentions_append_doubleSlashes (tier : Nat) (s path : Text) :
    mentions tier (s ++ doubleSlashes path) = mentions tier (s ++ path) := by
  have hslash : unit '/' ∉ wordUnits := by decide
  induction path generalizing s with
  | nil => rfl
  | cons u path ih =>
    have hnil := ih []
    rw [List.nil_append, List.nil_append] at hnil
    rw [doubleSlashes_cons]
    by_cases hu : u = unit '/'
    · rw [if_pos hu, hu]
      change mentions tier (s ++ unit '/' :: ([] ++ unit '/' :: doubleSlashes path)) = _
      rw [mentions_append_cons hslash, mentions_append_cons hslash, mentions_append_cons hslash,
        mentions_nil, Bool.false_or, hnil]
    · have hunit := ih (s ++ [u])
      rw [List.append_assoc, List.append_assoc] at hunit
      rw [if_neg hu]
      exact hunit

lemma severityOf_doubleSlashes (path : Text) :
    severityOf (doubleSlashes path) = severityOf path :=
  severityOf_of_mentions fun tier => mentions_append_doubleSlashes tier [] path

variable {case : CaseMap} {request : MutationRequest}

lemma spells_appending (name : String) {strategy : String} {reason : Text → Text}
    {payloads : List String} (hname : js strategy = js name ++ [unit ':'])
    (ht : Repeats case request (js name) path)
    (h : ∀ payload ∈ payloads, ∃ u ∈ (js payload).head?,
      u ∉ wordUnits ∧ Wordless (js payload).tail) :
    ∀ m ∈ appending strategy reason payloads path, Spells case request m.strategy := by
  intro m hm
  obtain ⟨payload, hpayload, rfl⟩ := List.mem_map.mp hm
  obtain ⟨u, hhead, hu, htail⟩ := h payload hpayload
  have hsilent : Silent (js payload) := by
    rw [← List.cons_head?_tail hhead]
    exact silent_cons hu htail.severityOf_eq_one
  have hspells := spells_of_silent name hname ht hsilent
  rwa [List.append_assoc] at hspells

lemma spells_ids (htrim : trim (request.path.getD []) ≠ []) :
    ∀ m ∈ idEnumeration (request.path.getD []), Spells case request m.strategy := by
  intro m hm
  by_cases hdigit : ∃ u ∈ request.path.getD [], isDigit u = true
  · obtain ⟨pre, run, post, hlast⟩ := exists_lastDigits hdigit
    unfold idEnumeration at hm
    rw [getLast?_digitRuns hlast] at hm
    obtain ⟨c, -, rfl⟩ := List.mem_map.mp hm
    exact spells_of_subject "path_id_enumeration" rfl (.path (by decide) htrim)
      (by rw [severityOf_replace_id hlast])
  · have hnone : ∀ u ∈ request.path.getD [], isDigit u = false := by simpa using hdigit
    rw [idEnumeration_of_none hnone] at hm
    cases hm

lemma spells_versions (htrim : trim (request.path.getD []) ≠ []) :
    ∀ m ∈ versionSwitching (request.path.getD []), Spells case request m.strategy := by
  intro m hm
  by_cases hversion : HasVersion (request.path.getD [])
  · obtain ⟨pre, digits, post, hlast⟩ := exists_lastVersion hversion
    unfold versionSwitching at hm
    rw [getLast?_versionTokens hlast] at hm
    obtain ⟨c, -, rfl⟩ := List.mem_map.mp hm
    exact spells_of_subject "version_switching" rfl (.path (by decide) htrim)
      (by rw [← severityOf_replace_version hlast c]; rfl)
  · rw [versionSwitching_of_none hversion] at hm
    cases hm

lemma spells_path (htrim : trim (request.path.getD []) ≠ []) :
    ∀ m ∈ PathMutator.mutate case (request.path.getD []), Spells case request m.strategy := by
  intro m hm
  unfold PathMutator.mutate at hm
  simp only [List.mem_append] at hm
  rcases hm with (((((hid | hextension) | hjunk) | hcase) | hslash) | htraversal) | hversion
  · exact spells_ids htrim m hid
  · exact spells_appending "added_extension" rfl (.path (by decide) htrim)
      (by decide) m hextension
  · exact spells_appending "adding_junk" rfl (.path (by decide) htrim)
      (by decide) m hjunk
  · rw [caseSwitching_eq] at hcase
    obtain ⟨s, hs, rfl⟩ := List.mem_map.mp hcase
    exact spells_of_subject "case_switching" rfl (.segment hs) rfl
  · rw [List.mem_singleton.mp hslash]
    exact spells_of_subject "double_slashing" rfl (.path (by decide) htrim)
      (by rw [severityOf_doubleSlashes])
  · exact spells_appending "path_traversal" rfl (.path (by decide) htrim)
      (by decide) m htraversal
  · exact spells_versions htrim m hversion

end paths

section requests

variable {copy : EngineCopy} {case : CaseMap} {request request' : MutationRequest}

lemma spells_ofObject {mutator : Obj → Except JsError (List Mutation)} {o : Option Obj}
    {ms : List Mutation} (h : ofObject mutator o = .ok ms)
    (hmutator : ∀ ns, mutator (o.getD []) = .ok ns → ∀ m ∈ ns, Spells case request m.strategy) :
    ∀ m ∈ ms, Spells case request m.strategy := by
  rcases o with _ | (_ | ⟨kv, kvs⟩)
  · cases h
    exact fun m hm => absurd hm List.not_mem_nil
  · cases h
    exact fun m hm => absurd hm List.not_mem_nil
  · exact hmutator ms h

lemma spells_ofText {mutator : Text → List Mutation} {t : Option Text}
    (hmutator : trim (t.getD []) ≠ [] → ∀ m ∈ mutator (t.getD []),
      Spells case request m.strategy) :
    ∀ m ∈ ofText mutator t, Spells case request m.strategy := by
  intro m hm
  cases t with
  | none => cases hm
  | some t =>
    unfold ofText at hm
    dsimp only at hm
    split_ifs at hm with htrim
    · exact hmutator htrim m hm
    · cases hm

lemma spells_allMutations {all : List Mutation}
    (h : allMutations copy case request = .ok all) :
    ∀ m ∈ all, Spells case request m.strategy := by
  unfold allMutations at h
  obtain ⟨ps, hparams, -⟩ := returns_bind.mp ⟨all, h⟩
  rw [hparams, ok_bind] at h
  obtain ⟨hs, hheaders, -⟩ := returns_bind.mp ⟨all, h⟩
  rw [hheaders, ok_bind] at h
  obtain ⟨bs, hbody, -⟩ := returns_bind.mp ⟨all, h⟩
  rw [hbody, ok_bind] at h
  cases h
  intro m hm
  simp only [List.mem_append] at hm
  rcases hm with (((hm | hm) | hm) | hm) | hm
  · refine spells_ofObject hparams (fun ns hns => ?_) m hm
    apply spells_of_makes (ParameterMutator.makes_mutate hns) fun _ _ _ => rfl
    intro e he
    obtain ⟨kv, hkv, he⟩ := List.mem_flatMap.mp he
    exact spells_params hkv e he
  · refine spells_ofObject hheaders (fun ns hns => ?_) m hm
    apply spells_of_makes (HeaderMutator.makes_mutate hns) fun _ _ _ => rfl
    intro e he
    rcases List.mem_append.mp he with he | he
    · obtain ⟨kv, hkv, he⟩ := List.mem_flatMap.mp he
      exact spells_headers hkv e he
    · exact spells_spoof e he
  · refine spells_ofObject hbody (fun ns hns m hm => ?_) m hm
    obtain ⟨ns, rfl, hmakes⟩ := BodyMutator.makes_mutate hns
    rcases List.mem_append.mp hm with hm | hm
    · refine spells_of_makes hmakes (fun _ _ _ => rfl) (fun e he => ?_) m hm
      obtain ⟨kv, hkv, he⟩ := List.mem_flatMap.mp he
      exact spells_body hkv e he
    · have hall : Wordless (js "all") := by decide
      have hname : js "mass_assignment:" = js "mass_assignment" ++ [unit ':'] := rfl
      have hlabel : js "mass_assignment:all" = js "mass_assignment:" ++ js "all" := rfl
      rw [List.mem_singleton.mp hm]
      change Spells case request (js "mass_assignment:all")
      rw [hlabel]
      exact spells_of_nothing "mass_assignment" hname (.nothing (by decide)) (hall.severityOf_le _)
  · exact spells_ofText (fun _ => spells_method) m hm
  · exact spells_ofText spells_path m hm

/-- The severity of a mutation is that of its strategy or that of a key, a value, a spelling of
the method or a path of the request. -/
theorem severity_of_repeated {m : ScoredMutation} (hm : m ∈ mutationsOf copy case request) :
    ∃ t, Repeats case request (strategyName m.strategy) t ∧
      m.severity = max (severityOf (strategyName m.strategy)) (severityOf t) := by
  obtain ⟨m, hkept, rfl⟩ := mem_mutationsOf.mp hm
  unfold kept at hkept
  cases hall : allMutations copy case request with
  | error e =>
    rw [hall] at hkept
    cases hkept
  | ok all =>
    rw [hall] at hkept
    dsimp only at hkept
    rw [deduplicate_eq] at hkept
    exact spells_allMutations hall m (mem_of_mem_firsts hkept)

/-- Requests whose keys, values, methods and paths have alike words get severities by strategy. -/
theorem severity_by_strategy_of_repeated (copy : EngineCopy)
    (h : RepeatsAlike case request request') :
    SeverityByStrategy copy case request request' := by
  constructor
  · intro m hm m' hm' hname
    obtain ⟨t, ht, hseverity⟩ := severity_of_repeated hm
    obtain ⟨t', ht', hseverity'⟩ := severity_of_repeated hm'
    rw [← hname] at ht' hseverity'
    rw [hseverity, hseverity', max_severityOf_eq_iff (one_le_severityOf _)]
    exact h.equal _ t t' ht ht'
  · intro m hm hname text
    obtain ⟨t, ht, hseverity⟩ := severity_of_repeated hm
    rw [hname] at ht hseverity
    rw [hseverity, severityOf_tenantSwap, (severityOf_eq_five_iff t).mpr (h.escalation t ht),
      max_eq_right (severityOf_le_five _)]

end requests

end SecurityScanner

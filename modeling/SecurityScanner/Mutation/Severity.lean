import Mathlib.Data.List.TakeWhile
import Mathlib.Tactic.IntervalCases
import SecurityScanner.Lib.TextSearch
import SecurityScanner.Mutation.Engine

/-!
# Severities of mutations

A severity is read off the whole label of a mutation. The label is the name of the strategy,
a colon and a text, and the text repeats keys, values or paths of the request. A word of a
tier that occurs there counts as if the strategy had it in its name.
-/

namespace SecurityScanner

open JavaScript MutationEngine

/-- The words of a severity. -/
def severityWords : Nat → List String
  | 5 => ["tenant_swap", "privilege_esc"]
  | 4 => ["garbage_token", "remove_header", "remove_param"]
  | 3 => ["method_switch", "path_traversal", "inject"]
  | 2 => ["id_enum", "nullify", "tenant"]
  | _ => []

/-- The text has a word of the severity. -/
def mentions (tier : Nat) (t : Text) : Bool :=
  (severityWords tier).any fun word => includes t (js word)

/-- The label before its first colon. -/
def strategyName (label : Text) : Text := label.takeWhile (· ≠ unit ':')

/-- The label after its first colon. -/
def subject (label : Text) : Text := (label.dropWhile (· ≠ unit ':')).drop 1

/-- The mutations that the engine returns. -/
def mutationsOf (copy : EngineCopy) (case : CaseMap) (request : MutationRequest) :
    List ScoredMutation :=
  match mutate copy case request with
  | .ok ms => ms
  | .error _ => []

/-- Equal strategies get equal severities, and an escalation that of a swapped tenant. -/
structure SeverityByStrategy (copy : EngineCopy) (case : CaseMap)
    (request request' : MutationRequest) : Prop where
  equal : ∀ m ∈ mutationsOf copy case request, ∀ m' ∈ mutationsOf copy case request',
    strategyName m.strategy = strategyName m'.strategy → m.severity = m'.severity
  escalation : ∀ m ∈ mutationsOf copy case request,
    strategyName m.strategy = js "privelege_esc" →
      ∀ t, m.severity = severityOf (js "tenant_swap:" ++ t)

/-- The mutations that get a severity. -/
def kept (copy : EngineCopy) (case : CaseMap) (request : MutationRequest) : List Mutation :=
  match allMutations copy case request with
  | .ok all => deduplicate all
  | .error _ => []

/-- The text has a word of the severity `tier` or of a higher one. -/
def MentionsFrom (tier : Nat) (t : Text) : Prop := ∃ higher, tier ≤ higher ∧ mentions higher t

/-- Above the severity of the strategy itself, what the requests put into two labels has words
of the same severities, and what they put into the label of an escalation has one of the
highest. -/
structure MentionsAlike (copy : EngineCopy) (case : CaseMap)
    (request request' : MutationRequest) : Prop where
  equal : ∀ m ∈ kept copy case request, ∀ m' ∈ kept copy case request',
    strategyName m.strategy = strategyName m'.strategy →
      ∀ tier, severityOf (strategyName m.strategy) < tier →
        (MentionsFrom tier (subject m.strategy) ↔ MentionsFrom tier (subject m'.strategy))
  escalation : ∀ m ∈ kept copy case request,
    strategyName m.strategy = js "privelege_esc" → mentions 5 (subject m.strategy)

section severities

lemma severityOf_eq (t : Text) :
    severityOf t = if mentions 5 t then 5 else if mentions 4 t then 4 else
      if mentions 3 t then 3 else if mentions 2 t then 2 else 1 := rfl

lemma mentions_nil (tier : Nat) : mentions tier [] = false := by
  unfold mentions severityWords
  split <;> decide

lemma severityOf_nil : severityOf [] = 1 := by
  simp only [severityOf_eq, mentions_nil, Bool.false_eq_true, if_false]

/-- The units of the words. -/
def wordUnits : Text := js "_abcdefghijklmnopqrstuvwxyz"

lemma word_subset {tier : Nat} : ∀ word ∈ severityWords tier, js word ⊆ wordUnits := by
  unfold severityWords
  split <;> decide

/-- No word goes over a unit of another kind. -/
lemma mentions_append_cons {u : UInt16} (hu : u ∉ wordUnits) (tier : Nat) (s t : Text) :
    mentions tier (s ++ u :: t) = (mentions tier s || mentions tier t) := by
  have hword : ∀ word ∈ severityWords tier, includes (s ++ u :: t) (js word) =
      (includes s (js word) || includes t (js word)) :=
    fun word hmem => includes_append_cons fun h => hu (word_subset word hmem h)
  unfold mentions
  rw [Bool.eq_iff_iff, Bool.or_eq_true, List.any_eq_true, List.any_eq_true, List.any_eq_true]
  constructor
  · rintro ⟨word, hmem, h⟩
    rw [hword word hmem, Bool.or_eq_true] at h
    exact h.imp (fun h => ⟨word, hmem, h⟩) fun h => ⟨word, hmem, h⟩
  · rintro (⟨word, hmem, h⟩ | ⟨word, hmem, h⟩)
    · exact ⟨word, hmem, by rw [hword word hmem, h, Bool.true_or]⟩
    · exact ⟨word, hmem, by rw [hword word hmem, h, Bool.or_true]⟩

lemma severityOf_append_cons {u : UInt16} (hu : u ∉ wordUnits) (s t : Text) :
    severityOf (s ++ u :: t) = max (severityOf s) (severityOf t) := by
  have hmax : ∀ a₅ a₄ a₃ a₂ b₅ b₄ b₃ b₂ : Bool,
      (if (a₅ || b₅) = true then 5 else if (a₄ || b₄) = true then 4 else
        if (a₃ || b₃) = true then 3 else if (a₂ || b₂) = true then 2 else 1) =
      max (if a₅ = true then 5 else if a₄ = true then 4 else
        if a₃ = true then 3 else if a₂ = true then 2 else 1)
        (if b₅ = true then 5 else if b₄ = true then 4 else
        if b₃ = true then 3 else if b₂ = true then 2 else 1) := by decide
  rw [severityOf_eq, severityOf_eq s, severityOf_eq t]
  simp only [mentions_append_cons hu]
  exact hmax _ _ _ _ _ _ _ _

lemma colon_not_mem_wordUnits : unit ':' ∉ wordUnits := by decide

lemma label_split {label : Text} (h : unit ':' ∈ label) :
    strategyName label ++ unit ':' :: subject label = label := by
  have hdrop : label.dropWhile (· ≠ unit ':') = unit ':' :: subject label := by
    have hne : label.dropWhile (· ≠ unit ':') ≠ [] := by
      intro hnil
      have hall := List.dropWhile_eq_nil_iff.mp hnil _ h
      revert hall
      decide
    obtain ⟨u, rest, hrest⟩ := List.exists_cons_of_ne_nil hne
    have hu : u = unit ':' := by
      have hnot := List.head?_dropWhile_not (· ≠ unit ':') label
      rw [hrest] at hnot
      simpa using hnot
    unfold subject
    rw [hrest, hu]
    rfl
  rw [← hdrop]
  exact List.takeWhile_append_dropWhile

lemma one_le_severityOf (t : Text) : 1 ≤ severityOf t := by
  rw [severityOf_eq]
  repeat' split
  all_goals omega

lemma severityOf_le_five (t : Text) : severityOf t ≤ 5 := by
  rw [severityOf_eq]
  repeat' split
  all_goals omega

/-- The severity of a label is that of its strategy or that of the text behind it. -/
lemma severityOf_label (label : Text) :
    severityOf label = max (severityOf (strategyName label)) (severityOf (subject label)) := by
  by_cases h : unit ':' ∈ label
  · rw [← severityOf_append_cons colon_not_mem_wordUnits, label_split h]
  · have hall : ∀ u ∈ label, decide (u ≠ unit ':') = true := by
      intro u hu
      rw [decide_eq_true_iff]
      exact fun heq => h (heq ▸ hu)
    have hname : strategyName label = label := List.takeWhile_eq_self_iff.mpr hall
    have hsubject : subject label = [] := by
      unfold subject
      rw [List.dropWhile_eq_nil_iff.mpr hall]
      rfl
    rw [hname, hsubject, severityOf_nil, max_eq_left (one_le_severityOf label)]

lemma tier_of_mentions {tier : Nat} {t : Text} (h : mentions tier t = true) :
    2 ≤ tier ∧ tier ≤ 5 := by
  unfold mentions severityWords at h
  split at h
  · omega
  · omega
  · omega
  · omega
  · cases h

lemma le_severityOf {tier : Nat} {t : Text} (h : mentions tier t = true) :
    tier ≤ severityOf t := by
  obtain ⟨hlow, hhigh⟩ := tier_of_mentions h
  rw [severityOf_eq]
  interval_cases tier <;> split_ifs <;> omega

lemma mentions_severityOf {t : Text} (h : 1 < severityOf t) : mentions (severityOf t) t = true := by
  rw [severityOf_eq] at h ⊢
  split_ifs at h ⊢
  · assumption
  · assumption
  · assumption
  · assumption
  · omega

/-- A severity counts the words that it is read off. -/
lemma le_severityOf_iff {tier : Nat} (htier : 1 < tier) (t : Text) :
    tier ≤ severityOf t ↔ MentionsFrom tier t := by
  constructor
  · intro h
    exact ⟨severityOf t, h, mentions_severityOf (lt_of_lt_of_le htier h)⟩
  · rintro ⟨higher, hle, hmentions⟩
    exact hle.trans (le_severityOf hmentions)

lemma severityOf_eq_five_iff (t : Text) : severityOf t = 5 ↔ mentions 5 t = true := by
  constructor
  · intro h
    rw [← h]
    exact mentions_severityOf (by omega)
  · intro h
    rw [severityOf_eq, if_pos h]

/-- Above a severity, two texts have words of the same severities when they raise it to the
same one. -/
lemma max_severityOf_eq_iff {n : Nat} (hn : 1 ≤ n) (s t : Text) :
    max n (severityOf s) = max n (severityOf t) ↔
      ∀ tier, n < tier → (MentionsFrom tier s ↔ MentionsFrom tier t) := by
  constructor
  · intro heq tier htier
    rw [← le_severityOf_iff (by omega), ← le_severityOf_iff (by omega)]
    omega
  · intro halike
    have hle {a b : Text} (h : ∀ tier, n < tier → MentionsFrom tier a → MentionsFrom tier b) :
        severityOf a ≤ max n (severityOf b) := by
      by_cases hlt : n < severityOf a
      · have hmentions := (le_severityOf_iff (by omega) a).mp (le_refl (severityOf a))
        have hb := (le_severityOf_iff (by omega) b).mpr (h _ hlt hmentions)
        exact hb.trans (le_max_right _ _)
      · exact (not_lt.mp hlt).trans (le_max_left _ _)
    have hleft := hle fun tier htier => (halike tier htier).mp
    have hright := hle fun tier htier => (halike tier htier).mpr
    omega

/-- Labels of one strategy have equal severities when their texts are alike above it. -/
lemma severityOf_eq_iff {label label' : Text} (hname : strategyName label = strategyName label') :
    severityOf label = severityOf label' ↔
      ∀ tier, severityOf (strategyName label) < tier →
        (MentionsFrom tier (subject label) ↔ MentionsFrom tier (subject label')) := by
  rw [severityOf_label label, severityOf_label label', ← hname]
  exact max_severityOf_eq_iff (one_le_severityOf _) _ _

lemma severityOf_tenantSwap (t : Text) : severityOf (js "tenant_swap:" ++ t) = 5 := by
  have hname : severityOf (js "tenant_swap") = 5 := by decide
  have hlabel : js "tenant_swap:" ++ t = js "tenant_swap" ++ unit ':' :: t := rfl
  rw [hlabel, severityOf_append_cons colon_not_mem_wordUnits, hname,
    max_eq_left (severityOf_le_five t)]

lemma severityOf_privelegeEsc : severityOf (js "privelege_esc") = 1 := by decide

end severities

section requests

variable {copy : EngineCopy} {case : CaseMap} {request request' : MutationRequest}

lemma mutationsOf_eq (copy : EngineCopy) (case : CaseMap) (request : MutationRequest) :
    mutationsOf copy case request = assignSeverity (kept copy case request) := by
  unfold mutationsOf kept mutate
  cases allMutations copy case request with
  | error e => rfl
  | ok all => rfl

/-- The engine adds a severity to each mutation that it keeps. -/
lemma mem_mutationsOf {m : ScoredMutation} :
    m ∈ mutationsOf copy case request ↔
      ∃ m' ∈ kept copy case request, { m' with severity := severityOf m'.strategy } = m := by
  rw [mutationsOf_eq]
  exact List.mem_map

/-- The label of an escalation needs a word of the highest severity behind its colon: the name
of the strategy is spelt otherwise than the words are. -/
lemma severityOf_escalation {label : Text} (hname : strategyName label = js "privelege_esc") :
    (∀ t, severityOf label = severityOf (js "tenant_swap:" ++ t)) ↔
      mentions 5 (subject label) = true := by
  simp only [severityOf_tenantSwap, forall_const]
  rw [severityOf_label, hname, severityOf_privelegeEsc, max_eq_right (one_le_severityOf _),
    severityOf_eq_five_iff]

/-- Severities depend on the strategies alone exactly when what the labels repeat of the
requests does not have words of other severities. -/
theorem severity_by_strategy_iff (copy : EngineCopy) (case : CaseMap)
    (request request' : MutationRequest) :
    SeverityByStrategy copy case request request' ↔ MentionsAlike copy case request request' := by
  constructor
  · rintro ⟨hequal, hescalation⟩
    refine ⟨fun m hm m' hm' hname => ?_, fun m hm hname => ?_⟩
    · have hseverity := hequal _ (mem_mutationsOf.mpr ⟨m, hm, rfl⟩) _
        (mem_mutationsOf.mpr ⟨m', hm', rfl⟩) hname
      exact (severityOf_eq_iff hname).mp hseverity
    · have hseverity := hescalation _ (mem_mutationsOf.mpr ⟨m, hm, rfl⟩) hname
      exact (severityOf_escalation hname).mp hseverity
  · rintro ⟨hequal, hescalation⟩
    refine ⟨fun m hm m' hm' hname => ?_, fun m hm hname => ?_⟩
    · obtain ⟨x, hx, rfl⟩ := mem_mutationsOf.mp hm
      obtain ⟨x', hx', rfl⟩ := mem_mutationsOf.mp hm'
      exact (severityOf_eq_iff hname).mpr (hequal x hx x' hx' hname)
    · obtain ⟨x, hx, rfl⟩ := mem_mutationsOf.mp hm
      exact (severityOf_escalation hname).mpr (hescalation x hx hname)

def roleRequest : MutationRequest where
  headers := some [(js "X-User-Role", .str (js "user"))]
  path := some (js "/users")

def tenantsRequest : MutationRequest where
  path := some (js "/tenants")

/-- An escalation has a lower severity than a swapped tenant, and the suffix `.bak` has another
one on `/users` than on `/tenants`. -/
theorem severity_by_words :
    ¬(∀ m ∈ mutationsOf .bundled asciiCase roleRequest,
        strategyName m.strategy = js "privelege_esc" →
          ∀ t, m.severity = severityOf (js "tenant_swap:" ++ t)) ∧
      ¬SeverityByStrategy .bundled asciiCase roleRequest tenantsRequest := by
  have hrole : ∃ m ∈ mutationsOf .bundled asciiCase roleRequest,
      strategyName m.strategy = js "privelege_esc" ∧
        m.severity ≠ severityOf (js "tenant_swap:") := by
    decide +kernel
  have hsuffix : ∃ m ∈ mutationsOf .bundled asciiCase roleRequest,
      ∃ m' ∈ mutationsOf .bundled asciiCase tenantsRequest,
        strategyName m.strategy = strategyName m'.strategy ∧ m.severity ≠ m'.severity := by
    decide +kernel
  constructor
  · intro h
    obtain ⟨m, hm, hname, hne⟩ := hrole
    exact hne ((h m hm hname []).trans (congrArg severityOf (List.append_nil _)))
  · intro h
    obtain ⟨m, hm, m', hm', hname, hne⟩ := hsuffix
    exact hne (h.equal m hm m' hm' hname)

end requests

end SecurityScanner

import Mathlib.Data.Sym.Sym2
import SecurityScanner.Analysis.FlushReport
import SecurityScanner.Lib.Grouping

/-!
# Findings and the order of arrival

`_build_pairs` takes the responses of the reference role as references, in whatever order they
came. Without one it takes the first response that came, and then the findings depend on which
one that was. The similarity of two bodies is a parameter here.
-/

namespace SecurityScanner

open Python

section similarity

variable (similarity : Option String → Option String → Float) (I : Interpreter)
  (a b : CapturedResponse)

def SameDataBy (similarityThreshold : Float) : Prop :=
  a.userId ≠ b.userId ∧ a.statusCode = 200 ∧ b.statusCode = 200 ∧
    similarityThreshold ≤ similarity a.body b.body

instance (t : Float) : Decidable (SameDataBy similarity a b t) := by
  unfold SameDataBy
  infer_instance

def anomalyReasonBy (similarityThreshold : Float) : Option String :=
  if SameDataBy similarity a b similarityThreshold then
    some ("Both users received HTTP 200 with body similarity " ++
      percent (similarity a.body b.body) ++ ". User A (" ++ text a.userId ++ "/" ++
      text a.role ++ ") and User B (" ++ text b.userId ++ "/" ++ text b.role ++
      ") appear to receive the same data.")
  else if SharedIds I a b then
    some ("IDs belonging to User A (" ++ text a.userId ++
      ") found in User B's response body: " ++
      String.intercalate ", " ((foreignIds I a b).take 5))
  else if OnlyChallenger a b then
    some ("User A received " ++ toString a.statusCode ++ " but User B (" ++ text b.role ++
      ") received 200 on the same endpoint.")
  else none

/-- `compare_responses` with `similarity` in the place of `_body_similarity`. -/
def compareResponsesBy (similarityThreshold : Float) : DiffResult :=
  let reason := anomalyReasonBy similarity I a b similarityThreshold
  { compareResponses I a b similarityThreshold with
    bodySimilarity := round4 (similarity a.body b.body)
    isAnomaly := reason.isSome
    anomalyReason := reason.getD "" }

theorem compareResponsesBy_bodySimilarity (t : Float) :
    compareResponsesBy bodySimilarity I a b t = compareResponses I a b t := rfl

end similarity

/-- What a report tells of an issue, whichever of the two users is the reference. -/
structure Finding where
  issueType : IssueType
  method : String
  endpoint : String
  users : Sym2 (Option String)
  deriving DecidableEq

def Issue.finding (issue : Issue) : Finding where
  issueType := issue.issueType
  method := issue.method
  endpoint := issue.endpoint
  users := s(issue.diff.responseA.userId, issue.diff.responseB.userId)

variable (I : Interpreter) (cfg : CollectorSettings)
  (similarity : Option String → Option String → Float)

/-- `process_buffered` of a fresh collector after `on_result` for each of the responses. -/
def issuesBy (responses : List CapturedResponse) : List Issue :=
  ((responses.foldl Collector.onResult {}).processBufferedBy I cfg fun a b =>
    compareResponsesBy similarity I a b cfg.similarityThreshold).1

def findings (responses : List CapturedResponse) : List Finding :=
  (issuesBy I cfg similarity responses).map Issue.finding

/-- The role of a response is the reference role. -/
def IsReference (r : CapturedResponse) : Prop :=
  I.lower (r.role.getD "") = I.lower cfg.referenceRole

instance (r : CapturedResponse) : Decidable (IsReference I cfg r) := by
  unfold IsReference
  infer_instance

/-- In each endpoint's group without a response of the reference role, the same response
comes first. -/
def SameFirst (responses responses' : List CapturedResponse) : Prop :=
  ∀ key, (∀ r ∈ responses, endpointKey r = key → ¬IsReference I cfg r) →
    responses.find? (endpointKey · = key) = responses'.find? (endpointKey · = key)

section pairs

variable {I cfg}

/-- The pairs of two responses that differ in the user or in the role. -/
def pairings (refs others : List CapturedResponse) : List (CapturedResponse × CapturedResponse) :=
  (refs.flatMap fun ref => others.map fun other => (ref, other)).filter fun p =>
    p.1.userId ≠ p.2.userId ∨ p.1.role ≠ p.2.role

lemma buildPairs_eq (responses : List CapturedResponse) :
    buildPairs I cfg responses =
      let refs := responses.filter (IsReference I cfg ·)
      if refs = [] then pairings responses.head?.toList responses.tail
      else pairings refs (responses.filter (· ∉ refs)) := by
  have hrefs : (responses.filter fun r =>
      decide (I.lower (r.role.getD "") = I.lower cfg.referenceRole)) =
      responses.filter (IsReference I cfg ·) := rfl
  unfold buildPairs
  rw [hrefs]
  cases hr : responses.filter (IsReference I cfg ·) with
  | cons ref refs => rfl
  | nil =>
    cases responses with
    | nil => rfl
    | cons first rest =>
      cases rest with
      | nil => rfl
      | cons second rest => rfl

lemma pairings_perm {refs refs' others others' : List CapturedResponse} (hr : refs.Perm refs')
    (ho : others.Perm others') : (pairings refs others).Perm (pairings refs' others') := by
  unfold pairings
  apply List.Perm.filter
  exact hr.flatMap fun ref _ => ho.map _

/-- The pairs of an endpoint are the same in every order, as long as the first response is the
same where there is no reference role. -/
lemma buildPairs_perm {responses responses' : List CapturedResponse}
    (h : responses.Perm responses')
    (hfirst : (∀ r ∈ responses, ¬IsReference I cfg r) → responses.head? = responses'.head?) :
    (buildPairs I cfg responses).Perm (buildPairs I cfg responses') := by
  have hrefs : (responses.filter (IsReference I cfg ·)).Perm
      (responses'.filter (IsReference I cfg ·)) := h.filter _
  rw [buildPairs_eq, buildPairs_eq]
  dsimp only
  by_cases hnil : responses.filter (IsReference I cfg ·) = []
  · have hnil' : responses'.filter (IsReference I cfg ·) = [] := by
      rw [hnil] at hrefs
      exact hrefs.symm.eq_nil
    rw [if_pos hnil, if_pos hnil']
    have hnone : ∀ r ∈ responses, ¬IsReference I cfg r := by
      intro r hr
      simpa using List.filter_eq_nil_iff.mp hnil r hr
    have hhead := hfirst hnone
    cases responses with
    | nil =>
      obtain rfl := h.symm.eq_nil
      exact List.Perm.refl _
    | cons first rest =>
      cases responses' with
      | nil => cases hhead
      | cons first' rest' =>
        obtain rfl : first = first' := Option.some.inj hhead
        exact pairings_perm (List.Perm.refl _) h.cons_inv
  · have hnil' : responses'.filter (IsReference I cfg ·) ≠ [] := by
      intro he
      rw [he] at hrefs
      exact hnil hrefs.eq_nil
    rw [if_neg hnil, if_neg hnil']
    refine pairings_perm hrefs ?_
    simp only [hrefs.mem_iff]
    exact h.filter _

lemma pairsOf_eq (responses : List CapturedResponse) :
    pairsOf I cfg responses = (groupBy endpointKey responses).values.flatMap fun group =>
      if 2 ≤ group.length then buildPairs I cfg group else [] := by
  have hgroups : groupsOf responses = groupBy endpointKey responses := rfl
  unfold pairsOf
  rw [hgroups]
  induction (groupBy endpointKey responses).values with
  | nil => rfl
  | cons group groups ih =>
    rw [List.flatMap_cons, ← ih]
    by_cases h : 2 ≤ group.length
    · rw [if_pos h, List.filter_cons_of_pos (by simpa using h), List.flatMap_cons]
    · rw [if_neg h, List.filter_cons_of_neg (by simpa using h), List.nil_append]

lemma pairsOf_perm {responses responses' : List CapturedResponse}
    (h : responses.Perm responses') (hfirst : SameFirst I cfg responses responses') :
    (pairsOf I cfg responses).Perm (pairsOf I cfg responses') := by
  rw [pairsOf_eq, pairsOf_eq]
  apply flatMap_groupBy_perm h
  intro key
  have hgroup := h.filter (endpointKey · = key)
  rw [hgroup.length_eq]
  by_cases hlen : 2 ≤ (responses'.filter (endpointKey · = key)).length
  · rw [if_pos hlen, if_pos hlen]
    apply buildPairs_perm hgroup
    intro hnone
    rw [List.head?_filter, List.head?_filter]
    apply hfirst key
    intro r hr hkey
    exact hnone r (List.mem_filter.mpr ⟨hr, by simpa using hkey⟩)
  · rw [if_neg hlen, if_neg hlen]

end pairs

section order

variable {I cfg similarity}

lemma issuesBy_eq (responses : List CapturedResponse) :
    issuesBy I cfg similarity responses =
      classifyAll I (((pairsOf I cfg responses).map fun p =>
        compareResponsesBy similarity I p.1 p.2 cfg.similarityThreshold).filter (·.isAnomaly)) := by
  have hbatch : responses.foldl Collector.onResult {} =
      Collector.onResultsBatch {} responses := rfl
  have hbuffer : (Collector.onResultsBatch {} responses).buffer = groupsOf responses := by
    rw [onResultsBatch_eq]
    rfl
  unfold issuesBy
  rw [hbatch, processBufferedBy_eq _ _ hbuffer]

/-- Permuted responses give the same findings, if the same response comes first wherever the
first one is the reference. -/
theorem findings_of_perm {responses responses' : List CapturedResponse}
    (h : responses.Perm responses') (hfirst : SameFirst I cfg responses responses') (f : Finding) :
    f ∈ findings I cfg similarity responses ↔ f ∈ findings I cfg similarity responses' := by
  have hissues : (issuesBy I cfg similarity responses).Perm
      (issuesBy I cfg similarity responses') := by
    rw [issuesBy_eq, issuesBy_eq]
    apply List.Perm.flatMap_right
    apply List.Perm.filter
    exact (pairsOf_perm h hfirst).map _
  exact (hissues.map _).mem_iff

/-- The response of a guest that is served after the user was refused, and the other order. -/
def refusedUser : CapturedResponse :=
  { endpoint := "/admin/users", method := "GET", url := "https://target.example/admin/users"
    statusCode := 403, userId := some "1", role := some "user" }

def servedGuest : CapturedResponse :=
  { refusedUser with statusCode := 200, userId := some "2", role := some "guest" }

def servedAdmin : CapturedResponse :=
  { refusedUser with statusCode := 200, userId := some "3", role := some "admin" }

/-- The bodies are the same or have nothing in common. -/
def equalBodies (a b : Option String) : Float := if a = b then 1 else 0

theorem findings_of_perm_admin :
    (⟨.bola, "GET", "/admin/users", s(some "3", some "2")⟩ : Finding) ∈
        findings ascii { targetUrl := "https://target.example" } equalBodies
          [refusedUser, servedGuest, servedAdmin] ↔
      (⟨.bola, "GET", "/admin/users", s(some "3", some "2")⟩ : Finding) ∈
        findings ascii { targetUrl := "https://target.example" } equalBodies
          [servedAdmin, servedGuest, refusedUser] := by
  refine findings_of_perm (by decide +kernel) ?_ _
  intro key hnone
  have hother : endpointKey servedAdmin ≠ key := by
    intro hkey
    exact hnone servedAdmin (by simp) hkey (by decide +kernel)
  have hkeys : endpointKey refusedUser = endpointKey servedAdmin ∧
      endpointKey servedGuest = endpointKey servedAdmin := by
    decide +kernel
  simp [hkeys.1, hkeys.2, hother]

/-- Without an admin the order decides which of the two users is the reference. -/
theorem findings_depend_on_first :
    (∀ a b, equalBodies a b = equalBodies b a) ∧ [refusedUser, servedGuest].Perm
        [servedGuest, refusedUser] ∧
      ∃ f, f ∈ findings ascii { targetUrl := "https://target.example" } equalBodies
          [refusedUser, servedGuest] ∧
        f ∉ findings ascii { targetUrl := "https://target.example" } equalBodies
          [servedGuest, refusedUser] := by
  refine ⟨fun a b => ?_, List.Perm.swap _ _ _,
    ⟨.bfla, "GET", "/admin/users", s(some "1", some "2")⟩, ?_, ?_⟩
  · simp only [equalBodies, eq_comm]
  · decide +kernel
  · decide +kernel

end order

end SecurityScanner

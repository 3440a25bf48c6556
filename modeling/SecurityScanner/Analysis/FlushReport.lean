import SecurityScanner.Analysis.ResultCollector

/-!
# What a flush reports

The purpose of the collector is a report about the responses received since the last reset.
`History` is the collector with this purpose in view: it keeps those responses and the
passes that were made over them, and the collector refines it.
-/

namespace SecurityScanner

open Python

variable (I : Interpreter) (cfg : CollectorSettings)

section purpose

/-- The endpoint groups of the responses. -/
def groupsOf (received : List CapturedResponse) : Buffer :=
  received.foldl Buffer.add Dict.empty

/-- The pairs of the groups of at least two responses. -/
def pairsOf (received : List CapturedResponse) : List (CapturedResponse × CapturedResponse) :=
  ((groupsOf received).values.filter (2 ≤ ·.length)).flatMap (buildPairs I cfg)

def diffsOf (received : List CapturedResponse) : List DiffResult :=
  (pairsOf I cfg received).map fun p => compareResponses I p.1 p.2 cfg.similarityThreshold

def anomaliesOf (received : List CapturedResponse) : List DiffResult :=
  batchCompare I (pairsOf I cfg received) cfg.similarityThreshold

def issuesOf (received : List CapturedResponse) : List Issue :=
  classifyAll I (anomaliesOf I cfg received)

/-- The report is about all of the responses, each pair counted once. -/
structure ReportsOn (received : List CapturedResponse) (report : ScanReport) : Prop where
  issues : report.issues.Perm (issuesOf I cfg received)
  totalDiffs : report.metadata.totalDiffs = (pairsOf I cfg received).length
  anomalyDiffs : report.metadata.anomalyDiffs = (anomaliesOf I cfg received).length

/-- The responses since the last reset and the passes over them, the last pass first, each
with the responses that it covered. -/
structure History where
  received : List CapturedResponse := []
  passes : List (List CapturedResponse) := []

namespace History

def pass (h : History) : History := { h with passes := h.received :: h.passes }

/-- The issues that are held from the last pass. -/
def held (h : History) : List Issue :=
  match h.passes with
  | [] => []
  | last :: _ => issuesOf I cfg last

/-- A flush makes a pass if no issue is held. -/
def flush (h : History) : History := if h.held I cfg = [] then h.pass else h

def call (h : History) : CollectorCall → History
  | .onResult r => { h with received := h.received ++ [r] }
  | .onResultsBatch rs => { h with received := h.received ++ rs }
  | .processBuffered => h.pass
  | .flush => h.flush I cfg
  | .reset => {}

def after (calls : List CollectorCall) : History := calls.foldl (History.call I cfg) {}

end History

end purpose

section passes

variable {I cfg}

lemma foldl_comparePairBy (compare : CapturedResponse → CapturedResponse → DiffResult)
    (pairs : List (CapturedResponse × CapturedResponse)) (s : Collector) (issues : List Issue) :
    pairs.foldl (Collector.comparePairBy I compare) (s, issues) =
      ({ s with diffs := s.diffs ++ pairs.map fun p => compare p.1 p.2 },
        issues ++ classifyAll I ((pairs.map fun p => compare p.1 p.2).filter (·.isAnomaly))) := by
  induction pairs generalizing s issues with
  | nil => simp [classifyAll]
  | cons p pairs ih =>
    rw [List.foldl_cons, Collector.comparePairBy, ih]
    by_cases h : (compare p.1 p.2).isAnomaly = true
    · simp [classifyAll, h]
    · simp [classifyAll, h]

/-- The loop over the endpoints compares the pairs of the groups one after the other. -/
lemma foldl_processEndpointBy (compare : CapturedResponse → CapturedResponse → DiffResult)
    (groups : List (List CapturedResponse)) (s : Collector) (issues : List Issue) :
    groups.foldl (Collector.processEndpointBy I cfg compare) (s, issues) =
      ((groups.filter (2 ≤ ·.length)).flatMap (buildPairs I cfg)).foldl
        (Collector.comparePairBy I compare) (s, issues) := by
  induction groups generalizing s issues with
  | nil => rfl
  | cons g groups ih =>
    rw [List.foldl_cons, Collector.processEndpointBy]
    by_cases h : g.length < 2
    · have hn : ¬2 ≤ g.length := by omega
      rw [if_pos h, ih, List.filter_cons_of_neg (by simpa using hn)]
    · have hl : 2 ≤ g.length := by omega
      rw [if_neg h, List.filter_cons_of_pos (by simpa using hl), List.flatMap_cons,
        List.foldl_append, foldl_comparePairBy, ih]

lemma processBufferedBy_eq (compare : CapturedResponse → CapturedResponse → DiffResult)
    (s : Collector) {received : List CapturedResponse} (hs : s.buffer = groupsOf received) :
    s.processBufferedBy I cfg compare =
      let diffs := (pairsOf I cfg received).map fun p => compare p.1 p.2
      let issues := classifyAll I (diffs.filter (·.isAnomaly))
      (issues, { s with diffs := s.diffs ++ diffs, issues }) := by
  unfold Collector.processBufferedBy
  rw [foldl_processEndpointBy, foldl_comparePairBy, hs]
  rfl

/-- A pass leaves the diffs of the responses behind the earlier ones and their issues. -/
lemma processBuffered_eq (s : Collector) {received : List CapturedResponse}
    (hs : s.buffer = groupsOf received) :
    s.processBuffered I cfg = (issuesOf I cfg received,
      { s with diffs := s.diffs ++ diffsOf I cfg received
               issues := issuesOf I cfg received }) :=
  processBufferedBy_eq (fun a b => compareResponses I a b cfg.similarityThreshold) s hs

end passes

section refinement

/-- The collector holds what the history says: the groups of the responses, the diffs of
all passes, and the issues of the last one. -/
structure Refines (s : Collector) (h : History) : Prop where
  buffer : s.buffer = groupsOf h.received
  diffs : s.diffs = h.passes.reverse.flatMap (diffsOf I cfg)
  issues : s.issues = h.held I cfg

variable {I cfg} {s : Collector} {h : History}

lemma Refines.pass (hs : Refines I cfg s h) :
    Refines I cfg (s.processBuffered I cfg).2 h.pass := by
  rw [processBuffered_eq s hs.buffer]
  refine ⟨hs.buffer, ?_, rfl⟩
  simp [History.pass, hs.diffs]

lemma Refines.flush (hs : Refines I cfg s h) :
    Refines I cfg (s.flush I cfg).2 (h.flush I cfg) := by
  unfold Collector.flush History.flush
  rw [← hs.issues]
  by_cases hi : s.issues = []
  · rw [if_pos hi, if_pos hi]
    exact hs.pass
  · rw [if_neg hi, if_neg hi]
    exact hs

lemma onResultsBatch_eq (s : Collector) (responses : List CapturedResponse) :
    s.onResultsBatch responses =
      { s with buffer := responses.foldl Buffer.add s.buffer
               requestCount := s.requestCount + responses.length } := by
  induction responses generalizing s with
  | nil => rfl
  | cons r rs ih =>
    have hcons : s.onResultsBatch (r :: rs) = (s.onResult r).onResultsBatch rs := rfl
    rw [hcons, ih]
    simp only [Collector.onResult, List.foldl_cons, List.length_cons]
    rw [Nat.add_assoc, Nat.add_comm 1]

lemma Refines.ingest (hs : Refines I cfg s h) (responses : List CapturedResponse) :
    Refines I cfg (s.onResultsBatch responses)
      { h with received := h.received ++ responses } := by
  rw [onResultsBatch_eq]
  refine ⟨?_, hs.diffs, hs.issues⟩
  simp [groupsOf, hs.buffer]

/-- One step: each call keeps the collector and the history together. -/
lemma Refines.call (hs : Refines I cfg s h) (c : CollectorCall) :
    Refines I cfg (s.call I cfg c) (h.call I cfg c) := by
  cases c with
  | onResult r => exact hs.ingest [r]
  | onResultsBatch rs => exact hs.ingest rs
  | processBuffered => exact hs.pass
  | flush => exact hs.flush
  | reset => exact ⟨rfl, rfl, rfl⟩

lemma refines_after (calls : List CollectorCall) :
    Refines I cfg (Collector.after I cfg calls) (History.after I cfg calls) := by
  unfold Collector.after History.after
  have hrun : ∀ s h, Refines I cfg s h → Refines I cfg (calls.foldl (Collector.call I cfg) s)
      (calls.foldl (History.call I cfg) h) := by
    induction calls with
    | nil => exact fun _ _ hs => hs
    | cons c calls ih => exact fun s h hs => ih _ _ (hs.call c)
  exact hrun _ _ ⟨rfl, rfl, rfl⟩

end refinement

section report

variable {I cfg} {s : Collector} {h : History}

lemma length_diffsOf (received : List CapturedResponse) :
    (diffsOf I cfg received).length = (pairsOf I cfg received).length :=
  List.length_map _

lemma countP_diffsOf (received : List CapturedResponse) :
    (diffsOf I cfg received).countP (·.isAnomaly) = (anomaliesOf I cfg received).length := by
  rw [List.countP_eq_length_filter]
  rfl

/-- The report of a flush is about all responses exactly when the responses after the last
pass add no issue, and the passes before the last one compared as many pairs, and as many
anomalous ones, as those responses add. -/
lemma reportsOn_flush_iff (hs : Refines I cfg s h) {last : List CapturedResponse}
    {earlier : List (List CapturedResponse)} (hp : (h.flush I cfg).passes = last :: earlier) :
    ReportsOn I cfg h.received (s.flush I cfg).1 ↔
      (issuesOf I cfg last).Perm (issuesOf I cfg h.received) ∧
      (earlier.map fun r => (pairsOf I cfg r).length).sum + (pairsOf I cfg last).length =
        (pairsOf I cfg h.received).length ∧
      (earlier.map fun r => (anomaliesOf I cfg r).length).sum +
          (anomaliesOf I cfg last).length = (anomaliesOf I cfg h.received).length := by
  have hflush := hs.flush
  have hissues : (s.flush I cfg).2.issues = issuesOf I cfg last := by
    rw [hflush.issues, History.held, hp]
  have htotal : (s.flush I cfg).2.diffs.length =
      (earlier.map fun r => (pairsOf I cfg r).length).sum + (pairsOf I cfg last).length := by
    rw [hflush.diffs, hp]
    simp [List.length_flatMap, length_diffsOf, List.sum_reverse]
  have hanomaly : (s.flush I cfg).2.diffs.countP (·.isAnomaly) =
      (earlier.map fun r => (anomaliesOf I cfg r).length).sum +
        (anomaliesOf I cfg last).length := by
    rw [hflush.diffs, hp]
    simp [List.countP_flatMap, countP_diffsOf, List.sum_reverse, Function.comp_def]
  have hperm : (s.flush I cfg).1.issues.Perm (s.flush I cfg).2.issues :=
    List.mergeSort_perm _ _
  constructor
  · intro hr
    exact ⟨hissues ▸ hperm.symm.trans hr.issues, htotal ▸ hr.totalDiffs,
      hanomaly ▸ hr.anomalyDiffs⟩
  · rintro ⟨h1, h2, h3⟩
    exact ⟨hperm.trans (hissues ▸ h1), htotal.trans h2, hanomaly.trans h3⟩

end report

end SecurityScanner

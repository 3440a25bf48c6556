import Mathlib.Data.List.Sort
import SecurityScanner.Analysis.IssueClassifier

/-!
# The result collector

`result_collector.py` and `build_report` of `report_generator.py`, without the clock and
without the callback for new issues, which has no access to the collector.
-/

namespace SecurityScanner

open Python

/-- The arguments of `ScanResultCollector`. -/
structure CollectorSettings where
  targetUrl : String
  scanName : String := "API Security Scan"
  similarityThreshold : Float := 0.65
  referenceRole : String := "admin"

/-- The responses of each endpoint, in the order in which they came. -/
abbrev Buffer := Dict String (List CapturedResponse)

structure Collector where
  buffer : Buffer := Dict.empty
  diffs : List DiffResult := []
  issues : List Issue := []
  requestCount : Nat := 0

structure ScanSummary where
  totalEndpoints : Nat
  totalRequests : Nat
  totalIssues : Nat
  criticalCount : Nat
  highCount : Nat
  mediumCount : Nat
  lowCount : Nat
  infoCount : Nat

structure ReportMetadata where
  similarityThreshold : Float
  referenceRole : String
  totalDiffs : Nat
  anomalyDiffs : Nat

structure ScanReport where
  targetUrl : String
  scanName : String
  summary : ScanSummary
  issues : List Issue
  metadata : ReportMetadata

/-- `build_report`: the issues by falling severity, in a stable order. -/
def buildReport (issues : List Issue) (targetUrl scanName : String)
    (totalEndpoints totalRequests : Nat) (metadata : ReportMetadata) : ScanReport :=
  let count (s : SeverityLevel) : Nat := issues.countP (·.severity = s)
  { targetUrl
    scanName
    summary :=
      { totalEndpoints
        totalRequests
        totalIssues := issues.length
        criticalCount := count .critical
        highCount := count .high
        mediumCount := count .medium
        lowCount := count .low
        infoCount := count .info }
    issues := issues.mergeSort fun i j => j.severity.score ≤ i.severity.score
    metadata }

def endpointKey (response : CapturedResponse) : String :=
  response.method ++ "::" ++ response.endpoint

def Buffer.add (buffer : Buffer) (response : CapturedResponse) : Buffer :=
  let key := endpointKey response
  buffer.set key ((buffer.get? key).getD [] ++ [response])

variable (I : Interpreter) (cfg : CollectorSettings)

/-- `_build_pairs`. -/
def buildPairs (responses : List CapturedResponse) :
    List (CapturedResponse × CapturedResponse) :=
  let refs := responses.filter fun r => I.lower (r.role.getD "") = I.lower cfg.referenceRole
  let others := responses.filter (· ∉ refs)
  let product (refs others : List CapturedResponse) :=
    (refs.flatMap fun ref => others.map fun other => (ref, other)).filter fun p =>
      p.1.userId ≠ p.2.userId ∨ p.1.role ≠ p.2.role
  match refs, responses with
  | [], [] => []
  | [], [_] => []
  | [], first :: rest => product [first] rest
  | refs, _ => product refs others

namespace Collector

/-- `on_result`. -/
def onResult (s : Collector) (response : CapturedResponse) : Collector :=
  { s with buffer := s.buffer.add response, requestCount := s.requestCount + 1 }

/-- `on_results_batch`. -/
def onResultsBatch (s : Collector) (responses : List CapturedResponse) : Collector :=
  responses.foldl onResult s

section comparison

-- The loops of `process_buffered`, with `compare` in the place of `compare_responses`.
variable (compare : CapturedResponse → CapturedResponse → DiffResult)

/-- The body of the loop over the pairs of an endpoint, with the issues found so far. -/
def comparePairBy (s : Collector × List Issue) (pair : CapturedResponse × CapturedResponse) :
    Collector × List Issue :=
  let diff := compare pair.1 pair.2
  ({ s.1 with diffs := s.1.diffs ++ [diff] },
    if diff.isAnomaly then s.2 ++ classifyDiff I diff else s.2)

/-- The body of the loop over the endpoints. -/
def processEndpointBy (s : Collector × List Issue) (responses : List CapturedResponse) :
    Collector × List Issue :=
  if responses.length < 2 then s
  else (buildPairs I cfg responses).foldl (comparePairBy I compare) s

def processBufferedBy (s : Collector) : List Issue × Collector :=
  let (s, allIssues) := s.buffer.values.foldl (processEndpointBy I cfg compare) (s, [])
  (allIssues, { s with issues := allIssues })

end comparison

/-- `process_buffered`. -/
def processBuffered (s : Collector) : List Issue × Collector :=
  s.processBufferedBy I cfg fun a b => compareResponses I a b cfg.similarityThreshold

/-- `flush`. -/
def flush (s : Collector) : ScanReport × Collector :=
  let s := if s.issues = [] then (s.processBuffered I cfg).2 else s
  (buildReport s.issues cfg.targetUrl cfg.scanName s.buffer.keys.length s.requestCount
    { similarityThreshold := cfg.similarityThreshold
      referenceRole := cfg.referenceRole
      totalDiffs := s.diffs.length
      anomalyDiffs := s.diffs.countP (·.isAnomaly) }, s)

/-- `reset`. -/
def reset (_ : Collector) : Collector := {}

end Collector

/-- A call on the collector. -/
inductive CollectorCall where
  | onResult (response : CapturedResponse)
  | onResultsBatch (responses : List CapturedResponse)
  | processBuffered
  | flush
  | reset

def Collector.call (s : Collector) : CollectorCall → Collector
  | .onResult r => s.onResult r
  | .onResultsBatch rs => s.onResultsBatch rs
  | .processBuffered => (s.processBuffered I cfg).2
  | .flush => (s.flush I cfg).2
  | .reset => s.reset

/-- A fresh collector after some calls. -/
def Collector.after (calls : List CollectorCall) : Collector :=
  calls.foldl (Collector.call I cfg) {}

end SecurityScanner

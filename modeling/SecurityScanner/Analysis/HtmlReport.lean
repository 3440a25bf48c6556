import SecurityScanner.Analysis.ResultCollector
import SecurityScanner.Lib.DateTime
import SecurityScanner.Lib.HtmlTemplate

/-!
# The HTML report

`generate_html` of `report_generator.py`: an f-string is the template of its text and its
values.
-/

namespace SecurityScanner

open Python Html

section data

def IssueType.value : IssueType → String
  | .bola => "BOLA"
  | .bfla => "BFLA"
  | .tenantLeak => "TENANT_LEAK"
  | .jwtBypass => "JWT_BYPASS"
  | .privEscalation => "PRIV_ESCALATION"
  | .infoDisclosure => "INFO_DISCLOSURE"

def SeverityLevel.value : SeverityLevel → String
  | .critical => "CRITICAL"
  | .high => "HIGH"
  | .medium => "MEDIUM"
  | .low => "LOW"
  | .info => "INFO"

/-- An issue with its time. -/
structure DatedIssue extends Issue where
  discoveredAt : DateTime

/-- A report with its identifier and its times. -/
structure DatedReport where
  reportId : String
  targetUrl : String
  scanName : String
  summary : ScanSummary
  durationSeconds : Float
  issues : List DatedIssue
  createdAt : DateTime

end data

namespace HtmlReport

section fragments

/-- `_SEVERITY_COLOR`. -/
def severityColor : List (String × String) :=
  [("CRITICAL", "#dc2626"), ("HIGH", "#ea580c"), ("MEDIUM", "#d97706"), ("LOW", "#2563eb"),
   ("INFO", "#6b7280")]

/-- `_SEVERITY_BG`. -/
def severityBg : List (String × String) :=
  [("CRITICAL", "#fef2f2"), ("HIGH", "#fff7ed"), ("MEDIUM", "#fffbeb"), ("LOW", "#eff6ff"),
   ("INFO", "#f9fafb")]

def badge (severity : String) : List Fragment :=
  let color := (severityColor.lookup severity).getD "#6b7280"
  let bg := (severityBg.lookup severity).getD "#f9fafb"
  [.markup "<span style=\"background:", .markup bg, .markup ";color:", .markup color,
   .markup ";border:1px solid ", .markup color,
   .markup ";padding:2px 10px;border-radius:20px;font-size:12px;font-weight:600;\">",
   .value severity, .markup "</span>"]

/-- The texts as codes with commas, or a dash. -/
def codes (texts : List String) : List Fragment :=
  if texts = [] then [.markup "—"]
  else List.intercalate [.markup ", "]
    (texts.map fun t => [.markup "<code>", .value t, .markup "</code>"])

def issueStart (idx : Nat) : List Fragment :=
  [.markup "\n        <div class=\"issue\" id=\"issue-", .markup (toString idx), .markup "\">"]

def issueNumber (idx : Nat) : List Fragment :=
  [.markup "\n          <div class=\"issue-header\">\n",
   .markup "            <span class=\"issue-num\">#",
   .value (toString idx),
   .markup "</span>\n            "]

def issueFacts (issue : DatedIssue) : List Fragment :=
  let diff := issue.diff
  [.markup "\n            <span class=\"issue-type\">",
   .value issue.issueType.value,
   .markup "</span>\n            <span class=\"issue-title\">",
   .value issue.title,
   .markup "</span>\n          </div>\n          <div class=\"issue-body\">\n",
   .markup "            <div class=\"grid2\">\n",
   .markup "              <div><strong>Endpoint:</strong> <code>",
   .value issue.method,
   .markup " ",
   .value issue.endpoint,
   .markup "</code></div>\n              <div><strong>Discovered:</strong> ",
   .value issue.discoveredAt.strftimeUtc,
   .markup "</div>\n              <div><strong>CWE:</strong> ",
   .value issue.cwe,
   .markup "</div>\n              <div><strong>OWASP:</strong> ",
   .value issue.owasp,
   .markup "</div>\n            </div>\n",
   .markup "            <div class=\"section-label\">Description</div>\n            <p>",
   .value issue.description,
   .markup "</p>\n            <div class=\"section-label\">Evidence</div>\n",
   .markup "            <table class=\"evidence-table\">\n",
   .markup "              <tr><td>Body Similarity</td><td><strong>",
   .value (percent diff.bodySimilarity),
   .markup "</strong></td></tr>\n              <tr><td>Status A → B</td><td><code>",
   .value (toString diff.responseA.statusCode),
   .markup "</code> → <code>",
   .value (toString diff.responseB.statusCode),
   .markup "</code></td></tr>\n              <tr><td>User A</td><td>",
   .value (text diff.responseA.userId),
   .markup " (role: ",
   .value (text diff.responseA.role),
   .markup ")</td></tr>\n              <tr><td>User B</td><td>",
   .value (text diff.responseB.userId),
   .markup " (role: ",
   .value (text diff.responseB.role),
   .markup ")</td></tr>\n              <tr><td>Leaked Fields</td><td>"]

def issueEnd (issue : DatedIssue) : List Fragment :=
  let curl := match issue.repro with
    | some repro => repro.curlCommand
    | none => "N/A"
  [.markup "</td></tr>\n              <tr><td>Anomaly Reason</td><td>",
   .value (if issue.diff.anomalyReason = "" then "—" else issue.diff.anomalyReason),
   .markup "</td></tr>\n            </table>\n",
   .markup "            <div class=\"section-label\">Reproduction</div>\n",
   .markup "            <pre class=\"curl\">",
   .value curl,
   .markup "</pre>\n            <div class=\"section-label\">Recommendation</div>\n",
   .markup "            <p class=\"recommendation\">",
   .value issue.recommendation,
   .markup "</p>\n          </div>\n        </div>\n        "]

/-- What the report says on the issue with the number `idx`. -/
def issueHtml (idx : Nat) (issue : DatedIssue) : List Fragment :=
  issueStart idx ++ issueNumber idx ++ badge issue.severity.value ++ issueFacts issue ++
    codes (issue.diff.leakedFields.take 10) ++
    [.markup "</td></tr>\n              <tr><td>Foreign IDs</td><td>"] ++
    codes (issue.diff.foreignIdsFound.take 5) ++ issueEnd issue

def issuesHtml (issues : List DatedIssue) : List Fragment :=
  (issues.zipIdx 1).flatMap fun (issue, idx) => issueHtml idx issue

def noIssues (issues : List DatedIssue) : List Fragment :=
  if issues = [] then
    [.markup "<p style=\"color:#6b7280;font-style:italic;\">No issues found.</p>"]
  else []

def stylesheet : List String :=
  ["    *, *::before, *::after \x7b box-sizing: border-box; margin: 0; padding: 0; \x7d\n",
   "    body \x7b font-family: -apple-system, BlinkMacSystemFont, 'Segoe UI', sans-serif;\n",
   "           background: #f8fafc; color: #1e293b; line-height: 1.6; \x7d\n",
   "    .container \x7b max-width: 960px; margin: 0 auto; padding: 2rem 1.5rem; \x7d\n",
   "    h1 \x7b font-size: 22px; font-weight: 700; margin-bottom: 4px; \x7d\n",
   "    .meta \x7b color: #64748b; font-size: 13px; margin-bottom: 2rem; \x7d\n",
   "    .meta span \x7b margin-right: 1.5rem; \x7d\n",
   "\n",
   "    /* Summary cards */\n",
   "    .summary-grid \x7b display: grid;",
   " grid-template-columns: repeat(auto-fit, minmax(130px, 1fr)); gap: 12px;",
   " margin-bottom: 2rem; \x7d\n",
   "    .summary-card \x7b background: #fff; border: 1px solid #e2e8f0; border-radius: 10px;",
   " padding: 1rem; text-align: center; \x7d\n",
   "    .summary-card .num \x7b font-size: 28px; font-weight: 700; \x7d\n",
   "    .summary-card .lbl \x7b font-size: 12px; color: #64748b; text-transform: uppercase;",
   " letter-spacing: .05em; \x7d\n",
   "\n",
   "    /* Issues */\n",
   "    .issue \x7b background: #fff; border: 1px solid #e2e8f0; border-radius: 12px;",
   " margin-bottom: 16px; overflow: hidden; \x7d\n",
   "    .issue-header \x7b display: flex; align-items: center; gap: 10px; padding: 12px 16px;\n",
   "                     border-bottom: 1px solid #f1f5f9; background: #f8fafc; flex-wrap: wrap;",
   " \x7d\n",
   "    .issue-num \x7b font-size: 13px; color: #94a3b8; font-weight: 600; \x7d\n",
   "    .issue-type \x7b font-size: 12px; color: #475569; font-family: monospace; \x7d\n",
   "    .issue-title \x7b font-size: 14px; font-weight: 600; flex: 1; min-width: 200px; \x7d\n",
   "    .issue-body \x7b padding: 16px; \x7d\n",
   "    .section-label \x7b font-size: 11px; font-weight: 600; text-transform: uppercase;",
   " letter-spacing: .07em;\n",
   "                      color: #94a3b8; margin: 16px 0 6px; \x7d\n",
   "    .grid2 \x7b display: grid; grid-template-columns: 1fr 1fr; gap: 6px; font-size: 13px;",
   " margin-bottom: 4px; \x7d\n",
   "    @media(max-width: 560px) \x7b .grid2 \x7b grid-template-columns: 1fr; \x7d \x7d\n",
   "    p \x7b font-size: 13px; color: #475569; \x7d\n",
   "    code \x7b background: #f1f5f9; padding: 1px 6px; border-radius: 4px; font-size: 12px;",
   " \x7d\n",
   "    pre.curl \x7b background: #0f172a; color: #e2e8f0; padding: 12px 16px;",
   " border-radius: 8px;\n",
   "                font-size: 12px; overflow-x: auto; white-space: pre-wrap;",
   " word-break: break-all; margin-top: 4px; \x7d\n",
   "    .evidence-table \x7b width: 100%; border-collapse: collapse; font-size: 13px;",
   " margin-top: 4px; \x7d\n",
   "    .evidence-table td \x7b padding: 5px 10px; border: 1px solid #f1f5f9;",
   " vertical-align: top; \x7d\n",
   "    .evidence-table td:first-child \x7b color: #64748b; white-space: nowrap; width: 160px;",
   " background: #f8fafc; font-weight: 500; \x7d\n",
   "    .recommendation \x7b background: #f0fdf4; border-left: 3px solid #22c55e;",
   " padding: 10px 14px;\n",
   "                       border-radius: 0 6px 6px 0; font-size: 13px; color: #166534;",
   " margin-top: 4px; \x7d\n",
   "    hr \x7b border: none; border-top: 1px solid #e2e8f0; margin: 2rem 0; \x7d\n",
   "    .footer \x7b text-align: center; font-size: 12px; color: #94a3b8; margin-top: 2rem;",
   " \x7d\n"]

def head (scanName : String) : List Fragment :=
  [.markup "<!DOCTYPE html>\n<html lang=\"en\">\n<head>\n  <meta charset=\"UTF-8\"/>\n",
   .markup "  <meta name=\"viewport\" content=\"width=device-width,initial-scale=1\"/>\n",
   .markup "  <title>",
   .value scanName,
   .markup " — Security Report</title>\n  <style>\n"]

def bodyStart (scanName : String) : List Fragment :=
  [.markup "  </style>\n</head>\n<body>\n<div class=\"container\">\n  <h1>",
   .value scanName,
   .markup "</h1>\n  <div class=\"meta\">\n    <span>🎯 <strong>"]

def summaryHtml (report : DatedReport) : List Fragment :=
  let s := report.summary
  [.markup "</strong></span>\n    <span>🕒 ",
   .value report.createdAt.strftimeUtc,
   .markup "</span>\n    <span>⏱ ",
   .value (String.ofList (floatRepr report.durationSeconds ++ ['s'])),
   .markup "</span>\n    <span>ID: <code>",
   .value (String.ofList (report.reportId.toList.take 8)),
   .markup "…</code></span>\n  </div>\n\n  <div class=\"summary-grid\">\n",
   .markup "    <div class=\"summary-card\"><div class=\"num\">",
   .value (toString s.totalEndpoints),
   .markup "</div><div class=\"lbl\">Endpoints</div></div>\n",
   .markup "    <div class=\"summary-card\"><div class=\"num\">",
   .value (toString s.totalRequests),
   .markup "</div><div class=\"lbl\">Requests</div></div>\n",
   .markup "    <div class=\"summary-card\"><div class=\"num\" style=\"color:#dc2626\">",
   .value (toString s.criticalCount),
   .markup "</div><div class=\"lbl\">Critical</div></div>\n",
   .markup "    <div class=\"summary-card\"><div class=\"num\" style=\"color:#ea580c\">",
   .value (toString s.highCount),
   .markup "</div><div class=\"lbl\">High</div></div>\n",
   .markup "    <div class=\"summary-card\"><div class=\"num\" style=\"color:#d97706\">",
   .value (toString s.mediumCount),
   .markup "</div><div class=\"lbl\">Medium</div></div>\n",
   .markup "    <div class=\"summary-card\"><div class=\"num\" style=\"color:#2563eb\">",
   .value (toString s.lowCount),
   .markup "</div><div class=\"lbl\">Low</div></div>\n  </div>\n\n  <hr/>\n",
   .markup "  <h2 style=\"font-size:16px;font-weight:600;margin-bottom:1rem;\">Findings (",
   .value (toString s.totalIssues),
   .markup ")</h2>\n  "]

def bodyEnd : List Fragment :=
  [.markup "\n\n  <div class=\"footer\">Generated by Team Alpha Security Scanner",
   .markup " &bull; Task 6 — Response Diff Engine</div>\n</div>\n</body>\n</html>"]

/-- The report up to the target URL. -/
def beforeTarget (scanName : String) : List Fragment :=
  head scanName ++ stylesheet.map .markup ++ bodyStart scanName

/-- The report from the target URL on. -/
def afterTarget (report : DatedReport) : List Fragment :=
  summaryHtml report ++ noIssues report.issues ++ [.markup "\n  "] ++
    issuesHtml report.issues ++ bodyEnd

/-- The template of the report. -/
def template (report : DatedReport) : List Fragment :=
  beforeTarget report.scanName ++ [.value report.targetUrl] ++ afterTarget report

end fragments

end HtmlReport

open HtmlReport in
/-- `generate_html`. -/
def generateHtml (report : DatedReport) : String := render (template report)

end SecurityScanner

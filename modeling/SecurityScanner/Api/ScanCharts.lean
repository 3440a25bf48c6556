import SecurityScanner.Lib.DateTime
import SecurityScanner.Lib.Grouping

/-!
# The charts of a scan

`get_scan_telemetry` and `get_scan_timeline` of `routes.py`, from the rows that the query
returns on. Both put the rows into buckets of a minute; the one names a bucket by the time of
day and the other by date and time.
-/

namespace SecurityScanner

open Python

namespace ScanCharts

/-- What the charts read of a `Task`. -/
structure TaskRow where
  createdAt : Option DateTime

/-- What they read of a `ScanResponse`. -/
structure ResponseRow where
  createdAt : Option DateTime
  latencyMs : Option Float
  errorMessage : Option String
  statusCode : Option Int

abbrev Row := TaskRow × Option ResponseRow

/-- The values of a bucket but for its name. -/
structure Bucket where
  requests : Nat := 0
  latencyTotal : Float := 0
  latencyCount : Nat := 0
  failures : Nat := 0

structure TelemetryPoint where
  name : String
  requests : Nat
  latency : Float
  failures : Nat

structure TimelinePoint where
  timestamp : String
  requests : Nat
  latency : Float
  failures : Nat
  queueDepth : Nat

/-- `timestamp`, where the current time stands in for a missing one. -/
def timestampOf (now : DateTime) (row : Row) : DateTime :=
  let createdAt := match row.2 with
    | some response => response.createdAt
    | none => row.1.createdAt
  createdAt.getD now

def telemetryLabel (now : DateTime) (row : Row) : String :=
  (timestampOf now row).startOfMinute.strftimeHM

def timelineLabel (now : DateTime) (row : Row) : String :=
  (timestampOf now row).startOfMinute.isoformat

/-- The response counts as a failure. -/
def failed (response : ResponseRow) : Bool :=
  truthy response.errorMessage || response.statusCode.any (400 ≤ ·)

/-- What a row adds to its bucket. -/
def Bucket.add (bucket : Bucket) (row : Row) : Bucket :=
  match row.2 with
  | none => bucket
  | some response =>
    { requests := bucket.requests + 1
      latencyTotal := match response.latencyMs with
        | some latency => bucket.latencyTotal + latency
        | none => bucket.latencyTotal
      latencyCount := if response.latencyMs.isSome then bucket.latencyCount + 1
        else bucket.latencyCount
      failures := if failed response then bucket.failures + 1 else bucket.failures }

def Bucket.latency (bucket : Bucket) : Float :=
  if bucket.latencyCount ≠ 0 then round2 (bucket.latencyTotal / Float.ofNat bucket.latencyCount)
  else 0

/-- `buckets`, after the loop. -/
def bucketsBy (label : Row → String) (rows : List Row) : Dict String Bucket :=
  accumulate label Bucket.add {} rows

/-- `get_scan_telemetry`. -/
def getScanTelemetry (now : DateTime) (rows : List Row) : List TelemetryPoint :=
  (bucketsBy (telemetryLabel now) rows).items.map fun (name, bucket) =>
    { name, requests := bucket.requests, latency := bucket.latency, failures := bucket.failures }

/-- `get_scan_timeline`. -/
def getScanTimeline (now : DateTime) (queueDepth : Nat) (rows : List Row) : List TimelinePoint :=
  (bucketsBy (timelineLabel now) rows).items.map fun (timestamp, bucket) =>
    { timestamp, requests := bucket.requests, latency := bucket.latency,
      failures := bucket.failures, queueDepth }

/-- The numbers that both charts show for a list of rows. -/
def numbersOf (rows : List Row) : Nat × Float × Nat :=
  let bucket := rows.foldl Bucket.add {}
  (bucket.requests, bucket.latency, bucket.failures)

def TelemetryPoint.numbers (p : TelemetryPoint) : Nat × Float × Nat :=
  (p.requests, p.latency, p.failures)

def TimelinePoint.numbers (p : TimelinePoint) : Nat × Float × Nat :=
  (p.requests, p.latency, p.failures)

/-- The calendar minute of a row. -/
def minuteOf (now : DateTime) (row : Row) : CalendarMinute :=
  (timestampOf now row).calendarMinute

section charts

variable (now : DateTime) (rows : List Row)

/-- The rows with the label are those of one calendar minute, and the numbers are theirs. -/
def CoversMinute (label : Row → String) (name : String) (numbers : Nat × Float × Nat) : Prop :=
  ∃ minute, (∀ row ∈ rows, label row = name ↔ minuteOf now row = minute) ∧
    numbers = numbersOf (rows.filter (minuteOf now · = minute))

/-- The charts show the same numbers in the same order, for a calendar minute each. -/
structure ChartsAgree : Prop where
  numbers (queueDepth : Nat) : (getScanTelemetry now rows).map (·.numbers) =
    (getScanTimeline now queueDepth rows).map (·.numbers)
  telemetry : ∀ p ∈ getScanTelemetry now rows,
    CoversMinute now rows (telemetryLabel now) p.name p.numbers
  timeline (queueDepth : Nat) : ∀ p ∈ getScanTimeline now queueDepth rows,
    CoversMinute now rows (timelineLabel now) p.timestamp p.numbers

/-- No two rows have the same time of day in different minutes. -/
def DistinctTimes : Prop :=
  ∀ r ∈ rows, ∀ r' ∈ rows, (timestampOf now r).hour = (timestampOf now r').hour →
    (timestampOf now r).minute = (timestampOf now r').minute → minuteOf now r = minuteOf now r'

variable {now rows}

lemma timelineLabel_eq_iff (r r' : Row) :
    timelineLabel now r = timelineLabel now r' ↔ minuteOf now r = minuteOf now r' :=
  DateTime.isoformat_startOfMinute_eq_iff

lemma telemetryLabel_eq_iff (r r' : Row) :
    telemetryLabel now r = telemetryLabel now r' ↔
      (timestampOf now r).hour = (timestampOf now r').hour ∧
        (timestampOf now r).minute = (timestampOf now r').minute :=
  DateTime.strftimeHM_eq_iff

lemma telemetryLabel_of_minuteOf {r r' : Row} (h : minuteOf now r = minuteOf now r') :
    telemetryLabel now r = telemetryLabel now r' := by
  obtain ⟨-, -, -, hhour, hminute, -⟩ := CalendarMinute.mk.inj h
  exact (telemetryLabel_eq_iff r r').mpr ⟨hhour, hminute⟩

/-- The buckets hold what the rows of their label add. -/
lemma items_bucketsBy (label : Row → String) :
    (bucketsBy label rows).items = (groupBy label rows).items.map fun g =>
      (g.1, g.2.foldl Bucket.add {}) :=
  items_accumulate label Bucket.add {} rows

lemma telemetry_numbers : (getScanTelemetry now rows).map (·.numbers) =
    (groupBy (telemetryLabel now) rows).values.map numbersOf := by
  unfold getScanTelemetry Dict.values
  rw [items_bucketsBy, List.map_map, List.map_map, List.map_map]
  rfl

lemma timeline_numbers (queueDepth : Nat) :
    (getScanTimeline now queueDepth rows).map (·.numbers) =
      (groupBy (timelineLabel now) rows).values.map numbersOf := by
  unfold getScanTimeline Dict.values
  rw [items_bucketsBy, List.map_map, List.map_map, List.map_map]
  rfl

/-- The bucket of a label that tells the minutes of the rows apart covers one minute. -/
lemma coversMinute_of_mem {label : Row → String}
    (hlabel : ∀ r ∈ rows, ∀ r' ∈ rows, label r = label r' ↔ minuteOf now r = minuteOf now r')
    {item : String × Bucket} (hitem : item ∈ (bucketsBy label rows).items) :
    CoversMinute now rows label item.1
      (item.2.requests, item.2.latency, item.2.failures) := by
  rw [items_bucketsBy, items_groupBy, List.map_map] at hitem
  obtain ⟨name, hname, rfl⟩ := List.mem_map.mp hitem
  obtain ⟨r, hr, rfl⟩ := mem_keys_groupBy.mp hname
  refine ⟨minuteOf now r, fun r' hr' => hlabel r' hr' r hr, ?_⟩
  have hfilter : rows.filter (label · = label r) = rows.filter (minuteOf now · = minuteOf now r) := by
    apply List.filter_congr
    intro r' hr'
    simp only [hlabel r' hr' r hr]
  rw [← hfilter]
  rfl

lemma telemetry_separates (h : DistinctTimes now rows) :
    ∀ r ∈ rows, ∀ r' ∈ rows,
      telemetryLabel now r = telemetryLabel now r' ↔ minuteOf now r = minuteOf now r' := by
  intro r hr r' hr'
  constructor
  · intro heq
    obtain ⟨hhour, hminute⟩ := (telemetryLabel_eq_iff r r').mp heq
    exact h r hr r' hr' hhour hminute
  · exact telemetryLabel_of_minuteOf

/-- A row is in the bucket of its label. -/
lemma exists_telemetry_point (now : DateTime) {r : Row} (hr : r ∈ rows) :
    ∃ p ∈ getScanTelemetry now rows, p.name = telemetryLabel now r := by
  have hkey : telemetryLabel now r ∈ (groupBy (telemetryLabel now) rows).keys :=
    mem_keys_groupBy.mpr ⟨r, hr, rfl⟩
  obtain ⟨g, hg, hname⟩ := List.mem_map.mp hkey
  have hitem : (g.1, g.2.foldl Bucket.add {}) ∈ (bucketsBy (telemetryLabel now) rows).items := by
    rw [items_bucketsBy]
    exact List.mem_map_of_mem hg
  exact ⟨_, List.mem_map_of_mem hitem, hname⟩

end charts

/-- The charts agree on the minutes only where no time of day comes again in another minute,
as it does in a scan that runs for longer than a day. -/
theorem charts_agree_iff (now : DateTime) (rows : List Row) :
    ChartsAgree now rows ↔ DistinctTimes now rows := by
  constructor
  · intro h r hr r' hr' hhour hminute
    have hlabel := (telemetryLabel_eq_iff r r').mpr ⟨hhour, hminute⟩
    obtain ⟨p, hp, hname⟩ := exists_telemetry_point now hr
    obtain ⟨minute, hminutes, -⟩ := h.telemetry p hp
    have hleft := (hminutes r hr).mp hname.symm
    have hright := (hminutes r' hr').mp (hlabel.symm.trans hname.symm)
    exact hleft.trans hright.symm
  · intro h
    refine ⟨fun queueDepth => ?_, fun p hp => ?_, fun queueDepth p hp => ?_⟩
    · rw [telemetry_numbers, timeline_numbers]
      apply congrArg
      apply values_groupBy_congr
      intro r hr r' hr'
      rw [telemetry_separates h r hr r' hr', timelineLabel_eq_iff]
    · obtain ⟨item, hitem, rfl⟩ := List.mem_map.mp hp
      exact coversMinute_of_mem (telemetry_separates h) hitem
    · obtain ⟨item, hitem, rfl⟩ := List.mem_map.mp hp
      exact coversMinute_of_mem (fun r _ r' _ => timelineLabel_eq_iff r r') hitem

/-- Five past ten on two days in May. -/
def onDay (day : Fin 100) : DateTime where
  year := ⟨2024, by decide⟩
  month := ⟨5, by decide⟩
  day := day
  hour := ⟨10, by decide⟩
  minute := ⟨5, by decide⟩
  second := ⟨30, by decide⟩
  microsecond := ⟨0, by decide⟩
  utcOffset := some ⟨0, by decide⟩

/-- A task whose request was answered then. -/
def answeredOn (day : Fin 100) : Row :=
  ({ createdAt := some (onDay day) },
    some { createdAt := some (onDay day), latencyMs := some 20, errorMessage := none,
           statusCode := some 200 })

/-- The telemetry has one point for two minutes. -/
theorem charts_disagree_after_a_day :
    ¬ChartsAgree (onDay 2) [answeredOn 1, answeredOn 2] := by
  intro h
  have hlength := congrArg List.length (h.numbers 0)
  revert hlength
  rw [telemetry_numbers, timeline_numbers]
  decide +kernel

end ScanCharts

end SecurityScanner

import CachingInLLMs.Library.Dict
import CachingInLLMs.Library.PyFloat
import CachingInLLMs.Library.Steps

/-!
# Series of samples

`utilization.py` reads what a Prometheus server recorded during a cell: a dump per metric,
in it a list of labelled series, in each its samples. `read_series` keeps those of one
job, under one key per engine or worker; `counter_rate` and `_covered_fraction` are the
numbers computed from the samples under one key.

Times and values are exact. A value that is not a number is one of the three texts that
Prometheus prints then.
-/

namespace CachingInLLMs.Benchmarks

open CachingInLLMs.Library

/-- `GAP_TOLERANCE_STEPS`. -/
def gapToleranceSteps : ℚ := 2

/-- `DEFAULT_STEP_S`. -/
def defaultStepS : ℚ := 5

/-- `ENGINE_JOB`. -/
def engineJob : String := "vllm-engines"

/-- A sample's value, as Prometheus prints it. -/
inductive SampleValue where
  /-- A number. -/
  | num (q : ℚ)
  /-- `NaN`. -/
  | nan
  /-- `+Inf`. -/
  | posInf
  /-- `-Inf`. -/
  | negInf
  deriving DecidableEq

/-- A series of a dump. -/
structure Series where
  /-- `metric`: its labels. -/
  metric : Dict String String
  /-- `values`: its samples. -/
  values : List (ℚ × SampleValue)
  deriving DecidableEq

/-- The dumps of a cell: `prom/<metric>.json`, if it exists, and the series in it. -/
abbrev Prom := String → Option (List Series)

/-- `Samples`: times and values. -/
abbrev Samples := List (ℚ × ℚ)

/-! ### Reading a dump -/

/-- `label or next`: an empty label counts as none. -/
def orNext (label : Option String) (next : String) : String :=
  match label with
  | some name => if name = "" then next else name
  | none => next

/-- The key of a series. -/
def seriesKey (metric : Dict String String) : String :=
  let key := orNext (metric.get? "pod") (orNext (metric.get? "instance") "?")
  match metric.get? "worker_id" with
  | some workerId => key ++ "/w" ++ workerId
  | none => key

/-- The samples of a series whose values are numbers. -/
def finiteSamples (values : List (ℚ × SampleValue)) : Samples :=
  values.filterMap fun (ts, v) =>
    match v with
    | .num q => some (ts, q)
    | _ => none

/-- `a <= b` on samples: by time, then by value. -/
def SampleLe (a b : ℚ × ℚ) : Prop := a.1 < b.1 ∨ a.1 = b.1 ∧ a.2 ≤ b.2

instance : DecidableRel SampleLe :=
  fun a b => inferInstanceAs (Decidable (a.1 < b.1 ∨ a.1 = b.1 ∧ a.2 ≤ b.2))

/-- One turn of the loop of `read_series`. -/
def addSeries (job : String) (out : Dict String Samples) (s : Series) : Dict String Samples :=
  if s.metric.get? "job" ≠ some job then out
  else
    let key := seriesKey s.metric
    let pts := finiteSamples s.values
    if pts = [] then out else out.set key ((out.get? key).getD [] ++ pts)

/-- `read_series`. -/
def readSeries (prom : Prom) (metric job : String) : Dict String Samples :=
  match prom metric with
  | none => ∅
  | some result => (result.foldl (addSeries job) ∅).mapValues fun pts => pts.insertionSort SampleLe

/-! ### Rates of counters -/

/-- The sum of the positive deltas. -/
def increase (pts : Samples) : ℚ := stepSum (fun a b => max 0 (b.2 - a.2)) pts

/-- The time from the first sample to the last. -/
def duration (pts : Samples) : ℚ := (pts.getLastD (0, 0)).1 - (pts.headD (0, 0)).1

/-- `counter_rate`. -/
def counterRate (pts : Samples) : PyFloat :=
  if pts.length < 2 then .nan
  else if duration pts ≤ 0 then .nan
  else .num (increase pts / duration pts)

/-! ### Coverage of a window -/

/-- The steps between neighbours. -/
def gaps (l : List ℚ) : List ℚ := (l.zip l.tail).map fun p => p.2 - p.1

/-- `_median`, of a list that is not empty. -/
def median (xs : List ℚ) : ℚ :=
  let s := xs.insertionSort (· ≤ ·)
  let mid := s.length / 2
  if s.length % 2 = 1 then s.getD mid 0 else (s.getD (mid - 1) 0 + s.getD mid 0) / 2

/-- The times of the samples in a window. -/
def inside (pts : Samples) (start stop : ℚ) : List ℚ :=
  ((pts.map (·.1)).filter fun t => start ≤ t ∧ t ≤ stop).insertionSort (· ≤ ·)

/-- The stretch without a sample that is not held against a series with these gaps. -/
def tolerance (gaps : List ℚ) (defaultStep : ℚ) : ℚ :=
  let step := if gaps = [] then defaultStep else median gaps
  gapToleranceSteps * if step ≤ 0 then defaultStep else step

/-- The seconds that times from `first` on cover of a window. -/
def covered (first : ℚ) (rest : List ℚ) (start stop tol : ℚ) : ℚ :=
  ((gaps (first :: rest)).map fun g => min g tol).sum + min (first - start) tol +
    min (stop - rest.getLastD first) tol

/-- `_covered_fraction`. -/
def coveredFraction (pts : Samples) (start stop defaultStep : ℚ) : ℚ :=
  match inside pts start stop with
  | [] => 0
  | first :: rest =>
    if stop - start ≤ 0 then 0
    else
      min 1 (covered first rest start stop (tolerance (gaps (first :: rest)) defaultStep) /
        (stop - start))

/-- Samples every 5 seconds, and 50 seconds without one: 10 of them are not charged. -/
example : coveredFraction ([0, 5, 10, 60, 65, 70].map fun t => (t, 1)) 0 70 defaultStepS =
    30 / 70 := by
  decide +kernel

end CachingInLLMs.Benchmarks

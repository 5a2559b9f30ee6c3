import CachingInLLMs.Benchmarks.Coverage
import CachingInLLMs.Library.Python
import CachingInLLMs.Library.Replace
import CachingInLLMs.Library.Text
import CachingInLLMs.Router.Route

/-!
# The coverage gate

`utilization.py coverage` says of every source of utilization numbers how much of the measured
window of a cell it covers, and with `--update-run-json` it records that in `run.json`, which
is the only record of how the cell was measured. The numbers may be bad; the record must not be lost.

## The model

The files of a cell are their texts under the names below the directory of the run. `coverage` reads
the window from `run.json`, the dumps in `prom/` and `dcgm.csv`; `cmdCoverage` is the text that the
command then writes, if it writes one. It goes to `run.json.tmp`, which is renamed: an attempt that
is stopped has done the first few of these operations.

JSON and CSV are those of the standard library. No number is infinite or `nan`: none is written to
these files.

## What is proved

* `coverage_spec`: which sources are there, and which the gate flags.
* `record_survives`: `run.json` after any number of attempts.
-/

namespace CachingInLLMs.Benchmarks.CoverageGate

open CachingInLLMs.Library
open CachingInLLMs.Router (Json)

/-! ### Sources -/

/-- `MIN_COVERAGE`. -/
def minCoverage : ℚ := 95 / 100

/-- `ROUTER_JOB`. -/
def routerJob : String := "router"

/-- `ENGINE_GAUGES`. -/
def engineGauges : List String :=
  ["vllm_kv_cache_usage_perc", "lmcache_local_cache_usage", "lmcache_active_memory_objs_count"]

/-- `ROUTER_GAUGES`. -/
def routerGauges : List String :=
  ["router_cpu_usage_percent", "router_memory_usage_percent", "process_resident_memory_bytes"]

/-- `ROUTER_COUNTERS`. -/
def routerCounters : List String := ["process_cpu_seconds_total"]

/-- `ALL_SERIES`: the metrics, each with the job whose samples count. -/
def allSeries : List (String × String) :=
  engineGauges.map (·, engineJob) ++ (routerGauges ++ routerCounters).map (·, routerJob)

/-- `DCGM_FIELDS`. -/
def dcgmFields : List String := ["DCGM_FI_DEV_GPU_UTIL", "DCGM_FI_DEV_POWER_USAGE", "DCGM_FI_DEV_MEM_COPY_UTIL"]

/-- What the command uses of the standard library. -/
structure Stdlib where
  /-- `json.load` of a manifest. -/
  jsonLoad : Text → Except PyError Json
  /-- What `json.dump(run, f, indent=2)` writes. -/
  jsonDump : Json → Text
  /-- `json.load` of a dump, and the series in it. -/
  loadSeries : Text → Except PyError (List Series)
  /-- The rows of `csv.DictReader`; a short row has `None` in its last columns. -/
  dictReader : Text → List (Dict String (Option Text))
  /-- `float(text)`; none if it raises `ValueError`. -/
  float : Text → Option ℚ

/-- The files below the directory of a run. -/
abbrev RunFiles := Files String Char

/-- The dump of a metric. -/
def promPath (metric : String) : String := "prom/" ++ metric ++ ".json"

/-! ### JSON values -/

/-- `bool(value)`. -/
def truthy : Json → Bool
  | .null => false
  | .bool b => b
  | .number q => q ≠ 0
  | .string s => s ≠ ""
  | .array values => !values.isEmpty
  | .object fields => !fields.isEmpty

/-- `value.get(key)`. -/
def get (key : String) : Json → Except PyError (Option Json)
  | .object fields => .ok ((Dict.ofList fields).get? key)
  | _ => .error (.other "AttributeError")

/-- `key in value`. -/
def contains (key : String) : Json → Except PyError Bool
  | .object fields => .ok ((Dict.ofList fields).get? key).isSome
  | .array values => .ok (values.any fun | .string s => s == key | _ => false)
  | .string s => .ok (s.toList.tails.any fun tail => key.toList.isPrefixOf tail)
  | _ => .error (.other "TypeError")

/-- `value[key]`. -/
def getItem (key : String) : Json → Except PyError Json
  | .object fields => match (Dict.ofList fields).get? key with
    | some value => .ok value
    | none => .error .keyError
  | _ => .error (.other "TypeError")

/-- The number that a value is; a truth value counts. -/
def numeric : Json → Option ℚ
  | .number q => some q
  | .bool b => some (if b then 1 else 0)
  | _ => none

mutual

/-- `a == b`. -/
def eq : Json → Json → Bool
  | .null, .null => true
  | .bool b, other => numeric other = some (if b then 1 else 0)
  | .number q, other => numeric other = some q
  | .string s, .string t => s == t
  | .array xs, .array ys => eqValues xs ys
  | .object fields, .object fields' =>
    (Dict.ofList fields).keys.length == (Dict.ofList fields').keys.length && eqFields fields (Dict.ofList fields')
  | _, _ => false

/-- `xs == ys`. -/
def eqValues : List Json → List Json → Bool
  | [], [] => true
  | x :: xs, y :: ys => eq x y && eqValues xs ys
  | _, _ => false

/-- The last value of every key is that of the dictionary. -/
def eqFields : List (String × Json) → Dict String Json → Bool
  | [], _ => true
  | (key, value) :: fields, dict =>
    ((fields.map Prod.fst).contains key || match dict.get? key with
      | some value' => eq value value'
      | none => false) && eqFields fields dict

end

mutual

/-- `a > b`. -/
def gt : Json → Json → Except PyError Bool
  | .array xs, .array ys => gtValues xs ys
  | .string s, .string t => .ok (decide (t.toList < s.toList))
  | a, b => match numeric a, numeric b with
    | some x, some y => .ok (decide (y < x))
    | _, _ => .error (.other "TypeError")

/-- `xs > ys`: by the first values that differ. -/
def gtValues : List Json → List Json → Except PyError Bool
  | [], _ => .ok false
  | _ :: _, [] => .ok true
  | x :: xs, y :: ys => if eq x y then gtValues xs ys else gt x y

end

/-- `[1, [2, 3]] > [1.0, [2]]`, and `[1, "a"] > [1, 2]` raises. -/
example : gt (.array [.number 1, .array [.number 2, .number 3]]) (.array [.number 1, .array [.number 2]]) = .ok true ∧
    gt (.array [.number 1, .string "a"]) (.array [.bool true, .number 2]) = .error (.other "TypeError") := by
  decide +kernel

section Command

variable (lib : Stdlib)

/-- `float(value)`. -/
def toFloat (value : Json) : Except PyError ℚ :=
  match numeric value, value with
  | some q, _ => .ok q
  | none, .string s => match lib.float s.toList with
    | some q => .ok q
    | none => .error (.other "ValueError")
  | none, _ => .error (.other "TypeError")

/-! ### Reading -/

/-- The window in the `window` of a manifest. -/
def windowOf (w : Json) : Except PyError (Option (ℚ × ℚ)) := do
  if !(← contains "start_ts" w) then return none
  if !(← contains "end_ts" w) then return none
  if ← gt (← getItem "end_ts" w) (← getItem "start_ts" w) then
    let start ← toFloat lib (← getItem "start_ts" w)
    let stop ← toFloat lib (← getItem "end_ts" w)
    return some (start, stop)
  else return none

/-- `manifest_window`. -/
def manifestWindow (files : RunFiles) : Except PyError (Option (ℚ × ℚ)) :=
  match files "run.json" with
  | none => .ok none
  | some text => do
    let run ← lib.jsonLoad text
    let w := (← get "window" run).getD .null
    windowOf lib (if truthy w then w else .object [])

/-- `float(row[name])`: none if that raises `TypeError` or `ValueError`. -/
def parseCell (row : Dict String (Option Text)) (name : String) : Except PyError (Option ℚ) :=
  match row.get? name with
  | none => .error .keyError
  | some cell => .ok (cell.bind lib.float)

/-- `row.get(name, "")` in an f-string. -/
def formatCell (row : Dict String (Option Text)) (name : String) : String :=
  match row.get? name with
  | none => ""
  | some none => "None"
  | some (some text) => String.ofList text

/-- One turn of the loop of `read_dcgm`. -/
def addGpuSample (out : Dict String (Dict String Samples)) (row : Dict String (Option Text)) :
    Except PyError (Dict String (Dict String Samples)) :=
  match (row.get? "metric").join with
  | none => .ok out
  | some text =>
    let field := String.ofList text
    if field ∉ dcgmFields then .ok out
    else do
      let gpu := formatCell row "hostname" ++ "/gpu" ++ formatCell row "gpu"
      match ← parseCell lib row "ts" with
      | none => return out
      | some ts =>
        match ← parseCell lib row "value" with
        | none => return out
        | some value =>
          let gpus := (out.get? field).getD ∅
          return out.set field (gpus.set gpu ((gpus.get? gpu).getD [] ++ [(ts, value)]))

/-- `read_dcgm`. -/
def readDcgm (files : RunFiles) : Except PyError (Dict String (Dict String Samples)) :=
  match files "dcgm.csv" with
  | none => .ok ∅
  | some text => do
    let out ← (lib.dictReader text).foldlM (addGpuSample lib) ∅
    return out.mapValues fun gpus => gpus.mapValues fun pts => pts.insertionSort SampleLe

/-! ### Coverage -/

/-- The least of some numbers, and 0 of none. -/
def least : List ℚ → ℚ
  | [] => 0
  | v :: vs => vs.foldl min v

/-- The coverage of a source: of its worst series. -/
def worst (start stop : ℚ) (series : Dict String Samples) : ℚ :=
  least (series.values.map fun pts => coveredFraction pts start stop defaultStepS)

/-- One turn of the first loop of `coverage`. -/
def addCoverage (files : RunFiles) (start stop : ℚ) (out : Dict String ℚ) (entry : String × String) :
    Except PyError (Dict String ℚ) :=
  match files (promPath entry.1) with
  | none => .ok out
  | some text => do
    let result ← lib.loadSeries text
    return out.set entry.1 (worst start stop (readSeries (fun _ => some result) entry.1 entry.2))

/-- `coverage`. -/
def coverage (files : RunFiles) : Except PyError (Dict String ℚ) := do
  match ← manifestWindow lib files with
  | none => return ∅
  | some (start, stop) =>
    let out ← allSeries.foldlM (addCoverage lib files start stop) ∅
    let dcgm ← readDcgm lib files
    return dcgmFields.foldl (fun out field => out.set field (worst start stop ((dcgm.get? field).getD ∅))) out

/-! ### The record -/

/-- `round(v, 4)`. -/
def round4 (v : ℚ) : ℚ := pyRound (v * 10000) / 10000

/-- Items, by their names. -/
def byName (a b : String × ℚ) : Prop := a.1.toList ≤ b.1.toList

instance : DecidableRel byName := fun a b => inferInstanceAs (Decidable (a.1.toList ≤ b.1.toList))

/-- `{k: round(v, 4) for k, v in sorted(cov.items())}`. -/
def roundedCoverage (cov : Dict String ℚ) : Json :=
  .object ((cov.items.insertionSort byName).map fun (name, v) => (name, .number (round4 v)))

/-- The manifest with the coverage in it. -/
def recorded (fields : List (String × Json)) (cov : Dict String ℚ) : Json :=
  .object ((Dict.ofList fields).set "utilization_coverage" (roundedCoverage cov)).items

/-- `cmd_coverage`: the text that it writes, if it writes one. -/
def cmdCoverage (files : RunFiles) (updateRunJson : Bool) : Except PyError (Option Text) := do
  let cov ← coverage lib files
  if cov.items.isEmpty then return none
  if !updateRunJson then return none
  match files "run.json" with
  | none => .error (.other "FileNotFoundError")
  | some text =>
    match ← lib.jsonLoad text with
    | .object fields => return some (lib.jsonDump (recorded fields cov) ++ ['\n'])
    | _ => .error (.other "TypeError")

/-- What `coverage --update-run-json` writes. -/
def updatedText (files : RunFiles) : Option Text :=
  match cmdCoverage lib files true with
  | .ok text => text
  | .error _ => none

/-- Attempts to record the coverage, each stopped after some number of its operations. -/
abbrev RecordAttempts : RunFiles → List ℕ → RunFiles → Prop := Attempts "run.json.tmp" "run.json" (updatedText lib)

end Command

/-! ### What the coverage is of -/

section Coverage

variable {lib : Stdlib} {files : RunFiles} {start stop : ℚ} {cov : Dict String ℚ}

/-- The least of some numbers is below a threshold exactly if one of them is. -/
theorem least_lt_iff {q : ℚ} (hq : 0 < q) (vs : List ℚ) : least vs < q ↔ vs = [] ∨ ∃ v ∈ vs, v < q := by
  cases vs with
  | nil => simp [least, hq]
  | cons v vs =>
    rw [least]
    induction vs generalizing v with
    | nil => simp
    | cons w vs ih =>
      rw [List.foldl_cons, ih]
      simp [or_assoc]

theorem least_mem {vs : List ℚ} (h : vs ≠ []) : least vs ∈ vs := by
  obtain ⟨v, vs, rfl⟩ := List.exists_cons_of_ne_nil h
  rw [least]
  induction vs generalizing v with
  | nil => exact List.mem_singleton.mpr rfl
  | cons w vs ih =>
    rw [List.foldl_cons]
    rcases List.mem_cons.mp (ih (min v w) (List.cons_ne_nil _ _)) with h | h
    · rw [h]
      rcases min_choice v w with hmin | hmin
      · rw [hmin]
        exact List.mem_cons_self
      · rw [hmin]
        exact List.mem_cons_of_mem _ List.mem_cons_self
    · exact List.mem_cons_of_mem _ (List.mem_cons_of_mem _ h)

theorem coveredFraction_le_one (pts : Samples) (start stop : ℚ) : coveredFraction pts start stop defaultStepS ≤ 1 := by
  rw [coveredFraction]
  split
  · exact zero_le_one
  · split_ifs
    · exact zero_le_one
    · exact min_le_left _ _

/-- A coverage is a fraction. -/
theorem worst_mem (start stop : ℚ) (series : Dict String Samples) :
    0 ≤ worst start stop series ∧ worst start stop series ≤ 1 := by
  by_cases h : series.values.map (fun pts => coveredFraction pts start stop defaultStepS) = []
  · rw [worst, h]
    exact ⟨le_rfl, zero_le_one⟩
  · obtain ⟨pts, -, hpts⟩ := List.mem_map.mp (least_mem h)
    rw [worst, ← hpts]
    exact ⟨coveredFraction_nonneg (by norm_num [defaultStepS]), coveredFraction_le_one pts start stop⟩

/-- The worst series decides. -/
theorem worst_lt_iff {q : ℚ} (hq : 0 < q) (series : Dict String Samples) : worst start stop series < q ↔
    series.values = [] ∨ ∃ pts ∈ series.values, coveredFraction pts start stop defaultStepS < q := by
  rw [worst, least_lt_iff hq, List.map_eq_nil_iff]
  simp

/-- The series that a name of the coverage stands for. -/
inductive SeriesOf (lib : Stdlib) (files : RunFiles) (name : String) : Dict String Samples → Prop where
  /-- A metric whose dump is there. -/
  | prom {job : String} {text : Text} {result : List Series} (hname : (name, job) ∈ allSeries)
      (hfile : files (promPath name) = some text) (hload : lib.loadSeries text = .ok result) :
      SeriesOf lib files name (readSeries (fun _ => some result) name job)
  /-- A field of `dcgm.csv`, whether that is there or not. -/
  | dcgm {fields : Dict String (Dict String Samples)} (hname : name ∈ dcgmFields)
      (hread : readDcgm lib files = .ok fields) : SeriesOf lib files name ((fields.get? name).getD ∅)

theorem nodup_allSeries : (allSeries.map Prod.fst).Nodup := by decide +kernel

theorem not_mem_dcgmFields : ∀ entry ∈ allSeries, entry.1 ∉ dcgmFields := by decide +kernel

/-- What the first loop adds: the metrics whose dumps are there. -/
theorem get?_foldlM_addCoverage {entries : List (String × String)} (hnodup : (entries.map Prod.fst).Nodup)
    {out out' : Dict String ℚ} (h : entries.foldlM (addCoverage lib files start stop) out = .ok out') (name : String) :
    (name ∉ entries.map Prod.fst → out'.get? name = out.get? name) ∧
      ∀ job, (name, job) ∈ entries →
        files (promPath name) = none ∧ out'.get? name = out.get? name ∨
          ∃ text result, files (promPath name) = some text ∧ lib.loadSeries text = .ok result ∧
            out'.get? name = some (worst start stop (readSeries (fun _ => some result) name job)) := by
  induction entries generalizing out with
  | nil =>
    obtain rfl := Except.ok.inj h
    exact ⟨fun _ => rfl, fun _ hmem => absurd hmem List.not_mem_nil⟩
  | cons entry entries ih =>
    obtain ⟨hnot, hnodup⟩ := List.nodup_cons.mp hnodup
    rw [List.foldlM_cons, bind_eq_ok] at h
    obtain ⟨mid, hadd, hrest⟩ := h
    obtain ⟨hother, hmem⟩ := ih hnodup hrest
    -- one turn touches the name of its entry at most, and the others come later
    cases hfile : files (promPath entry.1) with
    | none =>
      rw [addCoverage, hfile] at hadd
      obtain rfl := Except.ok.inj hadd
      refine ⟨fun h => hother fun h' => h (List.mem_cons_of_mem _ h'), fun job hjob => ?_⟩
      rcases List.mem_cons.mp hjob with rfl | hjob
      · exact Or.inl ⟨hfile, hother hnot⟩
      · exact hmem job hjob
    | some text =>
      rw [addCoverage, hfile] at hadd
      obtain ⟨result, hload, hset⟩ := bind_eq_ok.mp hadd
      obtain rfl := Except.ok.inj hset
      constructor
      · intro h
        rw [hother fun h' => h (List.mem_cons_of_mem _ h'), Dict.get?_set_of_ne]
        rintro rfl
        exact h List.mem_cons_self
      · intro job hjob
        rcases List.mem_cons.mp hjob with rfl | hjob
        · exact Or.inr ⟨text, result, hfile, hload, by rw [hother hnot, Dict.get?_set_self]⟩
        · have hne : name ≠ entry.1 := by
            rintro rfl
            exact hnot (List.mem_map.mpr ⟨_, hjob, rfl⟩)
          rw [← Dict.get?_set_of_ne out _ hne]
          exact hmem job hjob

/-- The two loops. -/
theorem coverage_eq_ok (hwindow : manifestWindow lib files = .ok (some (start, stop))) :
    coverage lib files = .ok cov ↔ ∃ out dcgm, allSeries.foldlM (addCoverage lib files start stop) ∅ = .ok out ∧
      readDcgm lib files = .ok dcgm ∧
      cov = out.update (dcgmFields.map fun field => (field, worst start stop ((dcgm.get? field).getD ∅))) := by
  rw [coverage, hwindow]
  show (allSeries.foldlM (addCoverage lib files start stop) ∅ >>= fun out => readDcgm lib files >>= fun dcgm => _) = _ ↔ _
  rw [bind_eq_ok]
  constructor
  · rintro ⟨out, hout, h⟩
    obtain ⟨dcgm, hdcgm, h⟩ := bind_eq_ok.mp h
    refine ⟨out, dcgm, hout, hdcgm, ?_⟩
    rw [← Except.ok.inj h, Dict.update, List.foldl_map]
  · rintro ⟨out, dcgm, hout, hdcgm, rfl⟩
    refine ⟨out, hout, bind_eq_ok.mpr ⟨dcgm, hdcgm, ?_⟩⟩
    rw [Dict.update, List.foldl_map]
    rfl

/-- The coverage of a name is that of its worst series; a name without series is not there. -/
theorem get?_coverage (hwindow : manifestWindow lib files = .ok (some (start, stop)))
    (hcov : coverage lib files = .ok cov) (name : String) (v : ℚ) :
    cov.get? name = some v ↔ ∃ series, SeriesOf lib files name series ∧ v = worst start stop series := by
  obtain ⟨out, dcgm, hout, hdcgm, rfl⟩ := (coverage_eq_ok hwindow).mp hcov
  rw [Dict.get?_update_map]
  obtain ⟨hother, hprom⟩ := get?_foldlM_addCoverage nodup_allSeries hout name
  by_cases hfield : name ∈ dcgmFields
  · rw [if_pos hfield, Option.some_inj]
    constructor
    · rintro rfl
      exact ⟨_, .dcgm hfield hdcgm, rfl⟩
    · rintro ⟨_, hname | ⟨_, hread⟩, rfl⟩
      · exact absurd hfield (not_mem_dcgmFields _ hname)
      · obtain rfl := Except.ok.inj (hdcgm.symm.trans hread)
        rfl
  · rw [if_neg hfield]
    constructor
    · intro hget
      by_cases hmem : name ∈ allSeries.map Prod.fst
      · obtain ⟨⟨name, job⟩, hentry, rfl⟩ := List.mem_map.mp hmem
        rcases hprom job hentry with ⟨-, hnone⟩ | ⟨text, result, hfile, hload, hsome⟩
        · cases hnone.symm.trans hget
        · exact ⟨_, .prom hentry hfile hload, Option.some.inj (hget.symm.trans hsome)⟩
      · cases (hother hmem).symm.trans hget
    · rintro ⟨_, ⟨hname, hfile, hload⟩ | ⟨hname, -⟩, rfl⟩
      · rcases hprom _ hname with ⟨hnone, -⟩ | ⟨text', result', hfile', hload', hsome⟩
        · cases hnone.symm.trans hfile
        · obtain rfl := Option.some.inj (hfile.symm.trans hfile')
          obtain rfl := Except.ok.inj (hload.symm.trans hload')
          exact hsome
      · exact absurd hname hfield

/-- **What the gate flags.** In a cell with a window, the sources are the metrics whose dumps are there,
and all fields of DCGM, there or not. Each has a fraction, and it is below a threshold exactly if one of
its series is, or if it has none. -/
theorem coverage_spec (hwindow : manifestWindow lib files = .ok (some (start, stop)))
    (hcov : coverage lib files = .ok cov) :
    (∀ name, name ∈ cov ↔ name ∈ dcgmFields ∨ name ∈ allSeries.map Prod.fst ∧ (files (promPath name)).isSome) ∧
      ∀ name v, cov.get? name = some v → ∃ series, SeriesOf lib files name series ∧ 0 ≤ v ∧ v ≤ 1 ∧
        ∀ q, 0 < q → (v < q ↔
          series.values = [] ∨ ∃ pts ∈ series.values, coveredFraction pts start stop defaultStepS < q) := by
  constructor
  · intro name
    rw [← Dict.get?_isSome, Option.isSome_iff_exists]
    constructor
    · rintro ⟨v, hv⟩
      obtain ⟨_, ⟨hname, hfile, -⟩ | ⟨hname, -⟩, -⟩ := (get?_coverage hwindow hcov name v).mp hv
      · exact Or.inr ⟨List.mem_map.mpr ⟨_, hname, rfl⟩, Option.isSome_iff_exists.mpr ⟨_, hfile⟩⟩
      · exact Or.inl hname
    · obtain ⟨out, dcgm, hout, hdcgm, -⟩ := (coverage_eq_ok hwindow).mp hcov
      rintro (hname | ⟨hname, hfile⟩)
      · exact ⟨_, (get?_coverage hwindow hcov name _).mpr ⟨_, .dcgm hname hdcgm, rfl⟩⟩
      · obtain ⟨⟨name, job⟩, hentry, rfl⟩ := List.mem_map.mp hname
        rcases (get?_foldlM_addCoverage nodup_allSeries hout name).2 job hentry with
          ⟨hnone, -⟩ | ⟨text, result, htext, hload, -⟩
        · rw [hnone] at hfile
          cases hfile
        · exact ⟨_, (get?_coverage hwindow hcov name _).mpr ⟨_, .prom hentry htext hload, rfl⟩⟩
  · intro name v hv
    obtain ⟨series, hseries, rfl⟩ := (get?_coverage hwindow hcov name v).mp hv
    obtain ⟨hnonneg, hle⟩ := worst_mem start stop series
    exact ⟨series, hseries, hnonneg, hle, fun q hq => worst_lt_iff hq series⟩

end Coverage

/-! ### A cell -/

/-- The manifest of a cell of thirty seconds. -/
def halfMinute : Json := .object [("window", .object [("start_ts", .number 0), ("end_ts", .number 30)])]

/-- That manifest, as text. -/
def halfMinuteText : Text := "\x7b\"window\": \x7b\"start_ts\": 0, \"end_ts\": 30\x7d\x7d".toList

/-- The dump of a gauge of two engines. -/
def twoEnginesText : Text :=
  ("\x7b\"data\": \x7b\"result\": [\x7b\"metric\": \x7b\"job\": \"vllm-engines\", \"pod\": \"engine-0\"\x7d, " ++
    "\"values\": [[5, \"1\"], [15, \"1\"], [25, \"1\"]]\x7d, " ++
    "\x7b\"metric\": \x7b\"job\": \"vllm-engines\", \"pod\": \"engine-1\"\x7d, \"values\": [[45, \"1\"]]\x7d]\x7d\x7d").toList

/-- The series in it: the second engine is dark until the cell is over. -/
def twoEngines : List Series :=
  [⟨Dict.ofList [("job", "vllm-engines"), ("pod", "engine-0")], [(5, .num 1), (15, .num 1), (25, .num 1)]⟩,
    ⟨Dict.ofList [("job", "vllm-engines"), ("pod", "engine-1")], [(45, .num 1)]⟩]

/-- The dump of a gauge of the router, with one sample. -/
def oneSampleText : Text :=
  "\x7b\"data\": \x7b\"result\": [\x7b\"metric\": \x7b\"job\": \"router\"\x7d, \"values\": [[15, \"1\"]]\x7d]\x7d\x7d".toList

/-- The manifest with the coverage: two thirds by that sample, none where an engine is dark, and none by
the fields of DCGM. -/
def halfMinuteRecord : Json := .object
  [("window", .object [("start_ts", .number 0), ("end_ts", .number 30)]),
    ("utilization_coverage", .object
      [("DCGM_FI_DEV_GPU_UTIL", .number 0), ("DCGM_FI_DEV_MEM_COPY_UTIL", .number 0),
        ("DCGM_FI_DEV_POWER_USAGE", .number 0), ("router_cpu_usage_percent", .number (6667 / 10000)),
        ("vllm_kv_cache_usage_perc", .number 0)])]

/-- That record, as `indent=2` lays it out. -/
def halfMinuteRecordText : Text := unlines
  ["\x7b".toList, "  \"window\": \x7b".toList, "    \"start_ts\": 0,".toList, "    \"end_ts\": 30".toList,
    "  \x7d,".toList, "  \"utilization_coverage\": \x7b".toList, "    \"DCGM_FI_DEV_GPU_UTIL\": 0.0,".toList,
    "    \"DCGM_FI_DEV_MEM_COPY_UTIL\": 0.0,".toList, "    \"DCGM_FI_DEV_POWER_USAGE\": 0.0,".toList,
    "    \"router_cpu_usage_percent\": 0.6667,".toList, "    \"vllm_kv_cache_usage_perc\": 0.0".toList,
    "  \x7d".toList] ++ "\x7d".toList

/-- JSON, on these texts. -/
def sampleStdlib : Stdlib where
  jsonLoad text :=
    if text = halfMinuteText then .ok halfMinute
    else if text = halfMinuteRecordText ++ ['\n'] then .ok halfMinuteRecord
    else .error (.other "JSONDecodeError")
  jsonDump _ := halfMinuteRecordText
  loadSeries text :=
    if text = twoEnginesText then .ok twoEngines
    else if text = oneSampleText then .ok [⟨Dict.ofList [("job", "router")], [(15, .num 1)]⟩]
    else .error (.other "JSONDecodeError")
  dictReader _ := []
  float _ := none

/-- A cell with the manifest, and two dumps. -/
def halfMinuteFiles : RunFiles := fun path =>
  if path = "run.json" then some halfMinuteText
  else if path = "prom/vllm_kv_cache_usage_perc.json" then some twoEnginesText
  else if path = "prom/router_cpu_usage_percent.json" then some oneSampleText
  else none

theorem manifestWindow_halfMinute : manifestWindow sampleStdlib halfMinuteFiles = .ok (some (0, 30)) := by rfl

/-- What the gate reports of it. -/
def halfMinuteItems : List (String × ℚ) :=
  [("vllm_kv_cache_usage_perc", 0), ("router_cpu_usage_percent", 2 / 3), ("DCGM_FI_DEV_GPU_UTIL", 0),
    ("DCGM_FI_DEV_POWER_USAGE", 0), ("DCGM_FI_DEV_MEM_COPY_UTIL", 0)]

theorem coverage_halfMinute : ∃ cov, coverage sampleStdlib halfMinuteFiles = .ok cov ∧ cov.items = halfMinuteItems := by
  have hitems : (coverage sampleStdlib halfMinuteFiles).toOption.map Dict.items = some halfMinuteItems := by
    decide +kernel
  cases hcov : coverage sampleStdlib halfMinuteFiles with
  | error e =>
    rw [hcov] at hitems
    cases hitems
  | ok cov =>
    rw [hcov] at hitems
    exact ⟨cov, rfl, Option.some.inj hitems⟩

/-- The samples of the two engines: those of the first cover the cell. -/
theorem readSeries_twoEngines (name : String) : (readSeries (fun _ => some twoEngines) name engineJob).values =
    [[(5, 1), (15, 1), (25, 1)], [(45, 1)]] := by
  show (Dict.values (readSeries (fun _ => some twoEngines) "" engineJob)) = _
  decide +kernel

/-- The gate flags the gauge of the engines for the second of them, though the first covers the cell. -/
theorem coverage_spec_halfMinute : ∃ cov v, coverage sampleStdlib halfMinuteFiles = .ok cov ∧
    "DCGM_FI_DEV_GPU_UTIL" ∈ cov ∧ "lmcache_local_cache_usage" ∉ cov ∧
    cov.get? "vllm_kv_cache_usage_perc" = some v ∧ v < minCoverage ∧
    coveredFraction [(5, 1), (15, 1), (25, 1)] 0 30 defaultStepS = 1 := by
  obtain ⟨cov, hcov, -⟩ := coverage_halfMinute
  obtain ⟨hnames, hvalues⟩ := coverage_spec manifestWindow_halfMinute hcov
  have hgpu : "DCGM_FI_DEV_GPU_UTIL" ∈ dcgmFields := by decide +kernel
  have hlocal : ¬ ("lmcache_local_cache_usage" ∈ dcgmFields ∨ "lmcache_local_cache_usage" ∈ allSeries.map Prod.fst ∧
      (halfMinuteFiles (promPath "lmcache_local_cache_usage")).isSome) := by decide +kernel
  have hgauge : "vllm_kv_cache_usage_perc" ∈ cov := (hnames _).mpr (Or.inr (by decide +kernel))
  obtain ⟨v, hv⟩ := Option.isSome_iff_exists.mp (Dict.get?_isSome.mpr hgauge)
  refine ⟨cov, v, hcov, (hnames _).mpr (Or.inl hgpu), fun h => hlocal ((hnames _).mp h), hv, ?_, by decide +kernel⟩
  obtain ⟨series, hseries, -, -, hlt⟩ := hvalues _ v hv
  refine (hlt minCoverage (by norm_num [minCoverage])).mpr (Or.inr ⟨[(45, 1)], ?_, by decide +kernel⟩)
  cases hseries with
  | prom hname hfile hload =>
    have hjobs : ∀ entry ∈ allSeries, entry.1 = "vllm_kv_cache_usage_perc" → entry.2 = engineJob := by decide +kernel
    obtain rfl : _ = engineJob := hjobs _ hname rfl
    have htext : halfMinuteFiles (promPath "vllm_kv_cache_usage_perc") = some twoEnginesText := by decide +kernel
    obtain rfl := Option.some.inj (htext.symm.trans hfile)
    have hload' : sampleStdlib.loadSeries twoEnginesText = .ok twoEngines := by
      rw [sampleStdlib]
      dsimp only
      rw [if_pos rfl]
    obtain rfl := Except.ok.inj (hload'.symm.trans hload)
    rw [readSeries_twoEngines]
    exact List.mem_cons_of_mem _ (List.mem_singleton_self _)
  | dcgm hname _ => exact absurd hname (by decide +kernel)

/-! ### What the attempts leave -/

section Record

variable {lib : Stdlib} {files later : RunFiles} {start stop : ℚ} {cov : Dict String ℚ} {text : Text}
  {fields : List (String × Json)}

/-- The files that the coverage is read from, but for the window. -/
def sampleFiles : List String := "dcgm.csv" :: allSeries.map fun entry => promPath entry.1

theorem not_mem_sampleFiles : "run.json" ∉ sampleFiles ∧ "run.json.tmp" ∉ sampleFiles := by decide +kernel

theorem coverage_congr (hwindow : manifestWindow lib later = manifestWindow lib files)
    (h : ∀ path ∈ sampleFiles, later path = files path) : coverage lib later = coverage lib files := by
  have hadd (start stop : ℚ) : ∀ entry ∈ allSeries, ∀ out,
      addCoverage lib later start stop out entry = addCoverage lib files start stop out entry := by
    intro entry hentry out
    rw [addCoverage, addCoverage, h _ (List.mem_cons_of_mem _ (List.mem_map.mpr ⟨entry, hentry, rfl⟩))]
  have hdcgm : readDcgm lib later = readDcgm lib files := by
    rw [readDcgm, readDcgm, h _ List.mem_cons_self]
  have hfold (start stop : ℚ) : ∀ (entries : List (String × String)), entries ⊆ allSeries → ∀ out,
      entries.foldlM (addCoverage lib later start stop) out = entries.foldlM (addCoverage lib files start stop) out := by
    intro entries
    induction entries with
    | nil => exact fun _ _ => rfl
    | cons entry entries ih =>
      intro hsub out
      rw [List.foldlM_cons, List.foldlM_cons, hadd start stop entry (hsub List.mem_cons_self)]
      simp only [ih fun e he => hsub (List.mem_cons_of_mem _ he)]
  rw [coverage, coverage, hwindow, hdcgm]
  simp only [hfold _ _ allSeries (List.Subset.refl _)]

/-- The coverage is the only field that the record changes. -/
theorem get_recorded (fields : List (String × Json)) (cov : Dict String ℚ) (key : String) :
    get key (recorded fields cov) =
      if key = "utilization_coverage" then .ok (some (roundedCoverage cov)) else get key (.object fields) := by
  rw [recorded, get, get, Dict.ofList_items, Dict.get?_set]
  split_ifs <;> rfl

/-- Recording twice is recording once. -/
theorem recorded_recorded (cov : Dict String ℚ) :
    recorded ((Dict.ofList fields).set "utilization_coverage" (roundedCoverage cov)).items cov = recorded fields cov := by
  rw [recorded, Dict.ofList_items, Dict.set_of_get? (Dict.get?_set_self _ _ _), recorded]

/-- The text of the record. -/
def recordText (lib : Stdlib) (fields : List (String × Json)) (cov : Dict String ℚ) : Text :=
  lib.jsonDump (recorded fields cov) ++ ['\n']

/-- What is read of a manifest. -/
theorem manifestWindow_of_load (hfile : files "run.json" = some text) (hload : lib.jsonLoad text = .ok (.object fields)) :
    manifestWindow lib files = (get "window" (.object fields) >>= fun w =>
      windowOf lib (if truthy (w.getD .null) then w.getD .null else .object [])) := by
  rw [manifestWindow, hfile]
  show (lib.jsonLoad text >>= _) = _
  rw [hload]
  rfl

/-- The record has the window of the manifest. -/
theorem manifestWindow_recorded {text' : Text} (hfile : files "run.json" = some text)
    (hload : lib.jsonLoad text = .ok (.object fields)) (hlater : later "run.json" = some text')
    (hload' : lib.jsonLoad text' = .ok (recorded fields cov)) : manifestWindow lib later = manifestWindow lib files := by
  rw [manifestWindow_of_load hlater hload', manifestWindow_of_load hfile hload]
  exact congrArg (· >>= _) ((get_recorded fields cov "window").trans (if_neg (by decide +kernel)))

/-- A cell with a window has something to record. -/
theorem items_ne_nil (hwindow : manifestWindow lib files = .ok (some (start, stop)))
    (hcov : coverage lib files = .ok cov) : cov.items.isEmpty = false := by
  have hfield : "DCGM_FI_DEV_GPU_UTIL" ∈ dcgmFields := by decide +kernel
  have hmem := ((coverage_spec hwindow hcov).1 _).mpr (Or.inl hfield)
  rw [← Dict.mem_keys, Dict.keys] at hmem
  obtain ⟨p, hp, -⟩ := List.mem_map.mp hmem
  rw [List.isEmpty_eq_false_iff_exists_mem]
  exact ⟨p, hp⟩

theorem updatedText_eq (hwindow : manifestWindow lib files = .ok (some (start, stop)))
    (hcov : coverage lib files = .ok cov) (hfile : files "run.json" = some text)
    (hload : lib.jsonLoad text = .ok (.object fields)) : updatedText lib files = some (recordText lib fields cov) := by
  have hcmd : cmdCoverage lib files true = .ok (some (recordText lib fields cov)) := by
    rw [cmdCoverage, hcov, ok_bind, items_ne_nil hwindow hcov, hfile]
    show (lib.jsonLoad text >>= _) = _
    rw [hload]
    rfl
  rw [updatedText, hcmd]

/-- The record, once it is written, is what the command would write again. -/
theorem settled_recordText (hwindow : manifestWindow lib files = .ok (some (start, stop)))
    (hcov : coverage lib files = .ok cov) (hfile : files "run.json" = some text)
    (hload : lib.jsonLoad text = .ok (.object fields))
    (hround : lib.jsonLoad (recordText lib fields cov) = .ok (recorded fields cov)) :
    Settled "run.json.tmp" "run.json" (updatedText lib) files (recordText lib fields cov) := by
  have hne : "run.json" ≠ "run.json.tmp" := by decide +kernel
  have hsample {path : String} (h : path ∈ sampleFiles) : path ≠ "run.json" ∧ path ≠ "run.json.tmp" :=
    ⟨fun hp => not_mem_sampleFiles.1 (hp ▸ h), fun hp => not_mem_sampleFiles.2 (hp ▸ h)⟩
  constructor
  · intro later hsame
    have hlater : later "run.json" = some text := (hsame _ hne).trans hfile
    have hwindow' : manifestWindow lib later = manifestWindow lib files := by
      rw [manifestWindow_of_load hlater hload, manifestWindow_of_load hfile hload]
    have hcov' := coverage_congr hwindow' fun path hpath => hsame path (hsample hpath).2
    exact updatedText_eq (hwindow'.trans hwindow) (hcov'.trans hcov) hlater hload
  · intro later hsame
    have hlater : later "run.json" = some (recordText lib fields cov) :=
      (hsame _ hne).trans (Function.update_self ..)
    have hwindow' := manifestWindow_recorded hfile hload hlater hround
    have hcov' := coverage_congr hwindow' fun path hpath =>
      (hsame path (hsample hpath).2).trans (Function.update_of_ne (hsample hpath).1 ..)
    have hagain := updatedText_eq (hwindow'.trans hwindow) (hcov'.trans hcov) hlater hround
    rw [hagain, recordText, recorded_recorded, recordText]

/-- **The record of a cell survives.** However often `coverage --update-run-json` is tried, and wherever it
is stopped, `run.json` is as it was until an attempt ends, and from then on has the coverage as well: its
other fields stay, the coverage is that of the cell, and no file changes but `run.json.tmp`. -/
theorem record_survives (hwindow : manifestWindow lib files = .ok (some (start, stop)))
    (hcov : coverage lib files = .ok cov) (hfile : files "run.json" = some text)
    (hload : lib.jsonLoad text = .ok (.object fields))
    (hround : lib.jsonLoad (recordText lib fields cov) = .ok (recorded fields cov)) {ks : List ℕ}
    (hrun : RecordAttempts lib files ks later) :
    (later "run.json" =
      some (if ∃ k ∈ ks, (recordText lib fields cov).length + 2 ≤ k then recordText lib fields cov else text)) ∧
    (∀ path, path ≠ "run.json" → path ≠ "run.json.tmp" → later path = files path) ∧
    coverage lib later = .ok cov ∧
    ∀ key, get key (recorded fields cov) =
      if key = "utilization_coverage" then .ok (some (roundedCoverage cov)) else get key (.object fields) := by
  have hne : "run.json" ≠ "run.json.tmp" := by decide +kernel
  have hsettled := settled_recordText hwindow hcov hfile hload hround
  have hsame := attempts_replace hne hsettled (fun _ _ => rfl) hrun
  have hother : ∀ path, path ≠ "run.json" → path ≠ "run.json.tmp" → later path = files path := by
    intro path hpath htmp
    rw [hsame path htmp]
    split_ifs
    · exact Function.update_of_ne hpath ..
    · rfl
  have hrecord : later "run.json" =
      some (if ∃ k ∈ ks, (recordText lib fields cov).length + 2 ≤ k then recordText lib fields cov else text) := by
    rw [hsame _ hne]
    split_ifs
    · exact Function.update_self ..
    · exact hfile
  refine ⟨hrecord, hother, ?_, get_recorded fields cov⟩
  rw [← hcov]
  refine coverage_congr ?_ fun path hpath => hother path (fun h => not_mem_sampleFiles.1 (h ▸ hpath))
    fun h => not_mem_sampleFiles.2 (h ▸ hpath)
  split_ifs at hrecord
  · exact manifestWindow_recorded hfile hload hrecord hround
  · rw [manifestWindow_of_load hrecord hload, manifestWindow_of_load hfile hload]

theorem recorded_halfMinute (hitems : cov.items = halfMinuteItems) :
    recorded [("window", .object [("start_ts", .number 0), ("end_ts", .number 30)])] cov = halfMinuteRecord := by
  have hrounded : (cov.items.insertionSort byName).map (fun p => (p.1, round4 p.2)) =
      [("DCGM_FI_DEV_GPU_UTIL", 0), ("DCGM_FI_DEV_MEM_COPY_UTIL", 0), ("DCGM_FI_DEV_POWER_USAGE", 0),
        ("router_cpu_usage_percent", 6667 / 10000), ("vllm_kv_cache_usage_perc", 0)] := by
    rw [hitems]
    decide +kernel
  have hfield : roundedCoverage cov =
      .object (((cov.items.insertionSort byName).map fun p => (p.1, round4 p.2)).map fun p => (p.1, .number p.2)) := by
    rw [List.map_map]
    rfl
  rw [recorded, hfield, hrounded]
  rfl

/-- An attempt that is stopped, one that is not, and another. -/
theorem record_survives_halfMinute : ∃ later, RecordAttempts sampleStdlib halfMinuteFiles [40, 1000, 3] later ∧
    later "run.json" = some (halfMinuteRecordText ++ ['\n']) ∧
    later "prom/vllm_kv_cache_usage_perc.json" = some twoEnginesText := by
  obtain ⟨cov, hcov, hitems⟩ := coverage_halfMinute
  have hload : sampleStdlib.jsonLoad halfMinuteText = .ok halfMinute := by rfl
  have hnew : halfMinuteRecordText ++ ['\n'] ≠ halfMinuteText := by decide +kernel
  have hround : sampleStdlib.jsonLoad (halfMinuteRecordText ++ ['\n']) = .ok halfMinuteRecord := by
    rw [sampleStdlib]
    dsimp only
    rw [if_neg hnew, if_pos rfl]
  rw [← recorded_halfMinute hitems] at hround
  have hlength : (halfMinuteRecordText ++ ['\n']).length + 2 ≤ 1000 := by decide +kernel
  obtain ⟨later, hrun⟩ : ∃ later, RecordAttempts sampleStdlib halfMinuteFiles [40, 1000, 3] later :=
    exists_attempts ..
  obtain ⟨hrecord, hother, -⟩ := record_survives manifestWindow_halfMinute hcov rfl hload hround hrun
  refine ⟨later, hrun, ?_, ?_⟩
  · rw [hrecord, if_pos ⟨1000, by simp, hlength⟩]
    rfl
  · exact hother _ (by decide +kernel) (by decide +kernel)

end Record

end CachingInLLMs.Benchmarks.CoverageGate

import CachingInLLMs.Benchmarks.SeedStats
import Mathlib.Data.Finset.SDiff

/-!
# Comparing two arms

`cmd_compare` pairs the seeds of a candidate and a baseline and tests whether the
candidate is lower. It refuses what it cannot compare: runs of different workloads,
different seeds, invalid runs, an unknown metric, a seed without an imbalance value,
a baseline of exactly zero. "Never a silent partial pairing", a test says of a
missing imbalance.

A metric that is NaN is not among these. NaN is not equal to zero, so such a pair is
not dropped; it gets a rank; it is not positive, so the rank counts towards the
candidate. Six seeds without a single measurement are reported as significant
(`missing_is_significant`). `missing_refused_iff` says when a missing value is
refused: only when something else is.
-/

namespace CachingInLLMs.Benchmarks

open CachingInLLMs.Library

/-- `ALPHA`. -/
def alpha : ℚ := 25 / 1000

/-! ### The model -/

/-- What the comparison reads of a `run.json`. Workload manifests are only compared. -/
structure RunJson (ω : Type) where
  /-- `rate_req_s`. -/
  rateReqS : ℚ
  /-- `workload_manifest`. -/
  workloadManifest : ω
  /-- `sweep_id`, unless missing or empty. -/
  sweepId : Option String

/-- Why `cmd_compare` exits, with what the message names. -/
inductive SystemExit where
  /-- `no driver-seed*.csv in {run_dir}`. -/
  | noDriverCsvs
  /-- `cannot read seed numbers from {paths}`. -/
  | unnumberedCsvs (paths : List String)
  /-- `runs are not comparable: {key} differs`. -/
  | notComparable (key : String)
  /-- `seed mismatch`: the numbers of seeds, and the seeds that only one arm has. -/
  | seedMismatch (candCount baseCount : ℕ) (onlyCand onlyBase : Finset SeedId)
  /-- `no imbalance value for seeds {absent} in the {label} cell`. -/
  | noImbalance (absent : List SeedId) (label : String)
  /-- `unknown metric {metric} - available: {available}, imbalance`. -/
  | unknownMetric (metric : String) (available : List String)
  /-- `baseline {metric} is exactly 0 on seed(s) {zeros}`. -/
  | zeroBaseline (metric : String) (zeros : List SeedId)

/-- How a comparison ends that does not return. -/
inductive Failure where
  /-- `SystemExit`. -/
  | systemExit (reason : SystemExit)
  /-- Any other exception. -/
  | exception (e : PyError)

/-- What `analyze.py` reads of a run directory. -/
structure RunDir (ω : Type) where
  /-- `run.json`, if there is one. -/
  runJson : Option (RunJson ω)
  /-- `read_run`, for an objective. -/
  readRun : ℚ → Except Failure (List SeedStats)
  /-- `per_seed_imbalance`. -/
  perSeedImbalance : Dict SeedId PyFloat

/-- An exception that nothing catches. -/
def uncaught {α : Type} : Except PyError α → Except Failure α
  | .ok a => .ok a
  | .error e => .error (.exception e)

/-- What a comparison prints when it reports. -/
structure Report where
  /-- The seeds flagged, in either arm. -/
  notes : List Problem
  /-- For every seed the two values and their difference. -/
  pairs : List (SeedId × PyFloat × PyFloat × PyFloat)
  /-- The signed-rank test. -/
  test : Wilcoxon
  /-- The effect size. -/
  effect : Effect

/-- The verdict is `significant`. -/
def Report.Significant (r : Report) : Prop := r.test.p < alpha

/-- How a comparison returns. -/
inductive Outcome where
  /-- `INVALID RUN`. -/
  | invalidRun (problems : List Problem)
  /-- `INVALID COMPARISON`. -/
  | invalidComparison (bias : ErrorBias)
  /-- A result is printed. -/
  | report (r : Report)

/-- The value `cmd_compare` returns. -/
def Outcome.returnCode : Outcome → ℕ
  | invalidRun _ => 1
  | invalidComparison _ => 1
  | report _ => 0

section Compare

variable {ω : Type}

/-- `check_comparable`. -/
def checkComparable [DecidableEq ω] (cand base : RunDir ω) : Except Failure Unit :=
  match cand.runJson, base.runJson with
  | some a, some b =>
    if a.rateReqS ≠ b.rateReqS then .error (.systemExit (.notComparable "rate_req_s"))
    else if a.workloadManifest ≠ b.workloadManifest then .error (.systemExit (.notComparable "workload_manifest"))
    else
      match a.sweepId, b.sweepId with
      | some sweep, some sweep' =>
        if sweep ≠ sweep' then .error (.systemExit (.notComparable "sweep_id")) else .ok ()
      | _, _ => .ok ()
  | _, _ => .ok ()

/-- The check that every seed has an imbalance value. -/
def checkImbalance (label : String) (run : RunDir ω) (seeds : List SeedId) : Except Failure Unit :=
  let absent := seeds.filter fun seed => seed ∉ run.perSeedImbalance
  if absent ≠ [] then .error (.systemExit (.noImbalance absent label)) else .ok ()

/-- `d[k]`. -/
def pyGetItem {κ α : Type} [DecidableEq κ] (d : Dict κ α) (k : κ) : Except Failure α :=
  match d.get? k with
  | some a => .ok a
  | none => .error (.exception .keyError)

/-- The values of the metric in the two arms, in the order of the seeds. -/
def metricValues (candDir baseDir : RunDir ω) (metric : String) (cand base : List SeedStats) :
    Except Failure (List Entry × List Entry) :=
  let candSeeds := cand.map (·.seed)
  if metric = "imbalance" then do
    checkImbalance "candidate" candDir candSeeds
    checkImbalance "baseline" baseDir candSeeds
    let c ← candSeeds.mapM fun seed => (pyGetItem candDir.perSeedImbalance seed).map Entry.float
    let b ← candSeeds.mapM fun seed => (pyGetItem baseDir.perSeedImbalance seed).map Entry.float
    return (c, b)
  else do
    let first ← uncaught (pyGet cand 0)
    if metric ∉ first.dict then .error (.systemExit (.unknownMetric metric first.floatKeys))
    else
      let c ← cand.mapM fun s => pyGetItem s.dict metric
      let b ← base.mapM fun s => pyGetItem s.dict metric
      return (c, b)

/-- The seeds whose baseline is exactly 0. -/
def zeroSeeds (seeds : List SeedId) (b : List Entry) : List SeedId :=
  ((seeds.zip b).filter fun pair => pair.2.IsZero).map Prod.fst

/-- A pair of entries as operands. -/
def toFloats (pair : Entry × Entry) : Except PyError (PyFloat × PyFloat) := do
  let ci ← pair.1.toFloat
  let bi ← pair.2.toFloat
  return (ci, bi)

/-- The test, the effect size and the table. -/
def pairedReport (sort : PySort) (draw : ℕ → ℕ) (notes : List Problem) (seeds : List SeedId) (c b : List Entry) :
    Except PyError Report := do
  let pairs ← (c.zip b).mapM toFloats
  let diffs := pairs.map fun pair => pair.1 - pair.2
  let effect ← bootstrapCiMedianRelReduction sort draw (pairs.map Prod.fst) (pairs.map Prod.snd) 10000
  return ⟨notes, (seeds.zip pairs).map fun (seed, ci, bi) => (seed, ci, bi, ci - bi),
    wilcoxonExactOneSided sort diffs, effect⟩

/-- Operands over baselines that are not zero are reported. -/
theorem pairedReport_ok (sort : PySort) (draw : ℕ → ℕ) (notes : List Problem) (seeds : List SeedId)
    {c b : List Entry} {pairs : List (PyFloat × PyFloat)} (hpairs : (c.zip b).mapM toFloats = .ok pairs)
    (hbase : ∀ pair ∈ pairs, ¬ pair.2.Equals (.num 0)) :
    ∃ report, pairedReport sort draw notes seeds c b = .ok report ∧
      report.test = wilcoxonExactOneSided sort (pairs.map fun pair => pair.1 - pair.2) := by
  have hbase' : ∀ bi ∈ pairs.map Prod.snd, ¬ bi.Equals (.num 0) := by
    intro bi hbi
    obtain ⟨pair, hpair, rfl⟩ := List.mem_map.mp hbi
    exact hbase pair hpair
  obtain ⟨effect, heffect⟩ := bootstrap_ok sort draw (pairs.map Prod.fst) hbase' 10000
  rw [pairedReport, hpairs]
  simp only [ok_bind, heffect]
  exact ⟨_, rfl, rfl⟩

/-- The part of `cmd_compare` behind the validity gate. -/
def testMetric (sort : PySort) (draw : ℕ → ℕ) (candDir baseDir : RunDir ω) (metric : String)
    (cand base : List SeedStats) : Except Failure Outcome := do
  let (c, b) ← metricValues candDir baseDir metric cand base
  let candSeeds := cand.map (·.seed)
  let zeros := zeroSeeds candSeeds b
  if zeros ≠ [] then .error (.systemExit (.zeroBaseline metric zeros))
  else do
    let report ← uncaught (pairedReport sort draw (flaggedSeeds cand ++ flaggedSeeds base) candSeeds c b)
    return .report report

/-- `cmd_compare`. -/
def cmdCompare [DecidableEq ω] (sort : PySort) (draw : ℕ → ℕ) (candDir baseDir : RunDir ω) (metric : String)
    (slo : ℚ) : Except Failure Outcome := do
  checkComparable candDir baseDir
  let cand ← candDir.readRun slo
  let base ← baseDir.readRun slo
  let candSeeds := cand.map (·.seed)
  let baseSeeds := base.map (·.seed)
  if candSeeds ≠ baseSeeds then
    .error (.systemExit (.seedMismatch cand.length base.length
      (candSeeds.toFinset \ baseSeeds.toFinset) (baseSeeds.toFinset \ candSeeds.toFinset)))
  else
    let bad := invalidSeeds cand ++ invalidSeeds base
    let bias := errorBias cand base
    if bad ≠ [] then return .invalidRun bad
    else if bias.biased then return .invalidComparison bias
    else testMetric sort draw candDir baseDir metric cand base

/-! ### What is refused -/

/-- The entry of the metric in a seed, if there is one. -/
def entryOf (run : RunDir ω) (metric : String) (s : SeedStats) : Option Entry :=
  if metric = "imbalance" then (run.perSeedImbalance.get? s.seed).map Entry.float else s.dict.get? metric

/-- The comparison is refused: it exits, or returns an error code. -/
def Refuses : Except Failure Outcome → Prop
  | .error (.systemExit _) => True
  | .error (.exception _) => False
  | .ok outcome => outcome.returnCode ≠ 0

/-- The comparison reports a significant result. -/
def ReportsSignificant (result : Except Failure Outcome) : Prop :=
  ∃ report : Report, result = .ok (.report report) ∧ report.Significant

theorem Refuses.not_reportsSignificant {result : Except Failure Outcome} (h : Refuses result) :
    ¬ ReportsSignificant result := by
  rintro ⟨report, rfl, -⟩
  exact h rfl

/-- What is refused of two valid runs over the same seeds: runs that are not
comparable, a seed without an entry, a baseline of exactly zero. -/
def Refused [DecidableEq ω] (candDir baseDir : RunDir ω) (metric : String) (cand base : List SeedStats) : Prop :=
  (∃ reason, checkComparable candDir baseDir = .error (.systemExit reason)) ∨
  ((∃ s ∈ cand, entryOf candDir metric s = none) ∨ ∃ s ∈ base, entryOf baseDir metric s = none) ∨
  ∃ s ∈ base, ∃ entry, entryOf baseDir metric s = some entry ∧ entry.IsZero

variable {candDir baseDir : RunDir ω} {metric : String} {cand base : List SeedStats}

/-- `check_comparable` passes or exits. -/
theorem checkComparable_cases [DecidableEq ω] (candDir baseDir : RunDir ω) :
    checkComparable candDir baseDir = .ok () ∨
      ∃ reason, checkComparable candDir baseDir = .error (.systemExit reason) := by
  unfold checkComparable
  split
  · split_ifs
    · exact Or.inr ⟨_, rfl⟩
    · exact Or.inr ⟨_, rfl⟩
    · split
      · split_ifs
        · exact Or.inr ⟨_, rfl⟩
        · exact Or.inl rfl
      · exact Or.inl rfl
  · exact Or.inl rfl

theorem checkImbalance_of_not_mem (label : String) {run : RunDir ω} {seeds : List SeedId} {seed : SeedId}
    (hseed : seed ∈ seeds) (h : seed ∉ run.perSeedImbalance) :
    ∃ reason, checkImbalance label run seeds = .error (.systemExit reason) := by
  refine ⟨_, if_pos fun hnil => ?_⟩
  exact List.filter_eq_nil_iff.mp hnil seed hseed (decide_eq_true h)

theorem pyGetItem_of_get? {κ α : Type} [DecidableEq κ] {d : Dict κ α} {k : κ} {a : α} (h : d.get? k = some a) :
    pyGetItem d k = .ok a := by
  rw [pyGetItem, h]

/-- The imbalance values, if every seed has one. -/
theorem imbalanceValues {run : RunDir ω} {seeds : List SeedStats}
    (h : ∀ s ∈ seeds, entryOf run "imbalance" s ≠ none) :
    ((seeds.map (·.seed)).mapM fun seed => (pyGetItem run.perSeedImbalance seed).map Entry.float) =
      .ok (seeds.map fun s => (entryOf run "imbalance" s).getD .none) := by
  rw [List.mapM_map]
  refine mapM_eq_map fun s hs => ?_
  obtain ⟨entry, hentry⟩ := Option.ne_none_iff_exists'.mp (h s hs)
  rw [hentry, Option.getD_some]
  rw [entryOf, if_pos rfl, Option.map_eq_some_iff] at hentry
  obtain ⟨x, hget, rfl⟩ := hentry
  exact congrArg (Except.map Entry.float) (pyGetItem_of_get? hget)

/-- The values of any other metric, if every seed has one. -/
theorem dictValues {run : RunDir ω} {seeds : List SeedStats} (hmetric : metric ≠ "imbalance")
    (h : ∀ s ∈ seeds, entryOf run metric s ≠ none) :
    (seeds.mapM fun s => pyGetItem s.dict metric) =
      .ok (seeds.map fun s => (entryOf run metric s).getD .none) := by
  refine mapM_eq_map fun s hs => ?_
  obtain ⟨entry, hentry⟩ := Option.ne_none_iff_exists'.mp (h s hs)
  rw [hentry, Option.getD_some]
  rw [entryOf, if_neg hmetric] at hentry
  exact pyGetItem_of_get? hentry

theorem entryOf_imbalance_eq_none {run : RunDir ω} {s : SeedStats} :
    entryOf run "imbalance" s = none ↔ s.seed ∉ run.perSeedImbalance := by
  rw [entryOf, if_pos rfl, Option.map_eq_none_iff, Dict.get?_eq_none]

theorem entryOf_eq_none (hmetric : metric ≠ "imbalance") {run : RunDir ω} {s : SeedStats} :
    entryOf run metric s = none ↔ metric ∉ s.dict := by
  rw [entryOf, if_neg hmetric, Dict.get?_eq_none]

/-- If every seed has an imbalance value, the check passes. -/
theorem checkImbalance_of_entries {label : String} {run : RunDir ω} {seeds : List SeedStats}
    (h : ∀ s ∈ seeds, entryOf run "imbalance" s ≠ none) :
    checkImbalance label run (seeds.map (·.seed)) = .ok () := by
  refine if_neg (not_not.mpr (List.filter_eq_nil_iff.mpr fun seed hseed habsent => ?_))
  obtain ⟨s, hs, rfl⟩ := List.mem_map.mp hseed
  exact h s hs (entryOf_imbalance_eq_none.mpr (of_decide_eq_true habsent))

/-- A seed without an entry makes `cmd_compare` exit. -/
theorem metricValues_exit (hseeds : cand.map (·.seed) = base.map (·.seed))
    (h : (∃ s ∈ cand, entryOf candDir metric s = none) ∨ ∃ s ∈ base, entryOf baseDir metric s = none) :
    ∃ reason, metricValues candDir baseDir metric cand base = .error (.systemExit reason) := by
  unfold metricValues
  dsimp only
  by_cases hmetric : metric = "imbalance"
  · subst hmetric
    rw [if_pos rfl]
    by_cases hcand : ∃ s ∈ cand, entryOf candDir "imbalance" s = none
    · obtain ⟨s, hs, hnone⟩ := hcand
      obtain ⟨reason, hcheck⟩ := checkImbalance_of_not_mem "candidate" (List.mem_map_of_mem hs)
        (entryOf_imbalance_eq_none.mp hnone)
      exact ⟨reason, by rw [hcheck]; rfl⟩
    · obtain ⟨s, hs, hnone⟩ := h.resolve_left hcand
      have hmem : s.seed ∈ cand.map (·.seed) := hseeds ▸ List.mem_map_of_mem hs
      obtain ⟨reason, hcheck⟩ := checkImbalance_of_not_mem "baseline" hmem
        (entryOf_imbalance_eq_none.mp hnone)
      have hcand : ∀ s ∈ cand, entryOf candDir "imbalance" s ≠ none := fun s hs hnone => hcand ⟨s, hs, hnone⟩
      exact ⟨reason, by rw [checkImbalance_of_entries hcand, hcheck]; rfl⟩
  · rw [if_neg hmetric]
    -- all seeds have the same keys, so the first one is enough
    obtain ⟨s, hunknown⟩ : ∃ s : SeedStats, metric ∉ s.dict := by
      rcases h with ⟨s, -, hnone⟩ | ⟨s, -, hnone⟩ <;> exact ⟨s, (entryOf_eq_none hmetric).mp hnone⟩
    have hne : cand ≠ [] := by
      rintro rfl
      have hbase : base = [] := List.map_eq_nil_iff.mp hseeds.symm
      simp [hbase] at h
    obtain ⟨first, rest, rfl⟩ := List.exists_cons_of_ne_nil hne
    have hfirst : metric ∉ first.dict := fun hfirst => hunknown (first.mem_dict s hfirst)
    have hget : uncaught (pyGet (first :: rest) 0) = .ok first := rfl
    refine ⟨.unknownMetric metric first.floatKeys, ?_⟩
    simp only [hget, ok_bind, if_pos hfirst]

/-- If every seed has an entry, the entries are compared, or there is no seed at all. -/
theorem metricValues_ok (hseeds : cand.map (·.seed) = base.map (·.seed))
    (hcand : ∀ s ∈ cand, entryOf candDir metric s ≠ none) (hbase : ∀ s ∈ base, entryOf baseDir metric s ≠ none) :
    metricValues candDir baseDir metric cand base =
        .ok (cand.map fun s => (entryOf candDir metric s).getD .none,
          base.map fun s => (entryOf baseDir metric s).getD .none) ∨
      (base = [] ∧ ∃ e, metricValues candDir baseDir metric cand base = .error (.exception e)) := by
  unfold metricValues
  dsimp only
  by_cases hmetric : metric = "imbalance"
  · subst hmetric
    rw [if_pos rfl]
    left
    rw [checkImbalance_of_entries hcand, hseeds, checkImbalance_of_entries hbase, ← hseeds, imbalanceValues hcand,
      hseeds, imbalanceValues hbase]
    rfl
  · rw [if_neg hmetric]
    cases cand with
    | nil => exact Or.inr ⟨List.map_eq_nil_iff.mp hseeds.symm, .indexError, rfl⟩
    | cons first rest =>
      left
      have hfirst : metric ∈ first.dict := by
        by_contra hnot
        exact hcand first List.mem_cons_self ((entryOf_eq_none hmetric).mpr hnot)
      have hget : uncaught (pyGet (first :: rest) 0) = .ok first := rfl
      simp only [hget, ok_bind, if_neg (not_not.mpr hfirst), dictValues hmetric hcand,
        dictValues hmetric hbase]
      rfl

/-- A baseline of exactly zero is found. -/
theorem zeroSeeds_ne_nil {seeds : List SeedId} {b : List Entry} (hlen : seeds.length = b.length) :
    zeroSeeds seeds b ≠ [] ↔ ∃ entry ∈ b, entry.IsZero := by
  rw [zeroSeeds, ne_eq, List.map_eq_nil_iff, List.filter_eq_nil_iff, not_forall]
  constructor
  · rintro ⟨pair, h⟩
    rw [Classical.not_imp, not_not, decide_eq_true_eq] at h
    exact ⟨pair.2, (List.of_mem_zip h.1).2, h.2⟩
  · rintro ⟨entry, hmem, hzero⟩
    obtain ⟨i, hi, rfl⟩ := List.getElem_of_mem hmem
    have hi' : i < (seeds.zip b).length := by rw [List.length_zip]; omega
    refine ⟨(seeds.zip b)[i], ?_⟩
    rw [Classical.not_imp, not_not, decide_eq_true_eq]
    refine ⟨List.getElem_mem hi', ?_⟩
    rw [List.getElem_zip]
    exact hzero

/-- Once the values are there, only a zero baseline is refused. -/
theorem testMetric_of_values (sort : PySort) (draw : ℕ → ℕ) {c b : List Entry}
    (hvalues : metricValues candDir baseDir metric cand base = .ok (c, b)) (hlen : cand.length = b.length) :
    Refuses (testMetric sort draw candDir baseDir metric cand base) ↔ ∃ entry ∈ b, entry.IsZero := by
  have hseeds : (cand.map (·.seed)).length = b.length := by rw [List.length_map, hlen]
  rw [← zeroSeeds_ne_nil hseeds]
  by_cases hzeros : zeroSeeds (cand.map (·.seed)) b ≠ []
  · refine iff_of_true ?_ hzeros
    simp only [testMetric, hvalues, ok_bind, if_pos hzeros]
    trivial
  · refine iff_of_false ?_ hzeros
    simp only [testMetric, hvalues, ok_bind, if_neg hzeros]
    cases pairedReport sort draw (flaggedSeeds cand ++ flaggedSeeds base) (cand.map (·.seed)) c b with
    | ok report => exact fun h => h rfl
    | error e => exact id

/-- Behind the validity gate two things are refused: a seed without an entry, and a
baseline of exactly zero. -/
theorem testMetric_refuses_iff (sort : PySort) (draw : ℕ → ℕ) (hseeds : cand.map (·.seed) = base.map (·.seed)) :
    Refuses (testMetric sort draw candDir baseDir metric cand base) ↔
      ((∃ s ∈ cand, entryOf candDir metric s = none) ∨ ∃ s ∈ base, entryOf baseDir metric s = none) ∨
      ∃ s ∈ base, ∃ entry, entryOf baseDir metric s = some entry ∧ entry.IsZero := by
  by_cases hlacks : (∃ s ∈ cand, entryOf candDir metric s = none) ∨ ∃ s ∈ base, entryOf baseDir metric s = none
  · obtain ⟨reason, hexit⟩ := metricValues_exit hseeds hlacks
    refine iff_of_true ?_ (Or.inl hlacks)
    rw [testMetric, hexit]
    trivial
  · rw [or_iff_right hlacks]
    rw [not_or] at hlacks
    have hcand : ∀ s ∈ cand, entryOf candDir metric s ≠ none := fun s hs hnone => hlacks.1 ⟨s, hs, hnone⟩
    have hbase : ∀ s ∈ base, entryOf baseDir metric s ≠ none := fun s hs hnone => hlacks.2 ⟨s, hs, hnone⟩
    rcases metricValues_ok hseeds hcand hbase with hvalues | ⟨rfl, e, herror⟩
    · have hlen := congrArg List.length hseeds
      rw [List.length_map, List.length_map] at hlen
      rw [testMetric_of_values sort draw hvalues (by rw [List.length_map, hlen])]
      constructor
      · rintro ⟨entry, hmem, hzero⟩
        obtain ⟨s, hs, rfl⟩ := List.mem_map.mp hmem
        obtain ⟨entry, hentry⟩ := Option.ne_none_iff_exists'.mp (hbase s hs)
        rw [hentry, Option.getD_some] at hzero
        exact ⟨s, hs, entry, hentry, hzero⟩
      · rintro ⟨s, hs, entry, hentry, hzero⟩
        exact ⟨entry, List.mem_map.mpr ⟨s, hs, by rw [hentry, Option.getD_some]⟩, hzero⟩
    · refine iff_of_false ?_ (by simp)
      rw [testMetric, herror]
      exact id

/-- Two runs over the same seeds that pass the validity gate. -/
structure ValidPair (cand base : List SeedStats) : Prop where
  /-- The same seeds. -/
  seeds : cand.map (·.seed) = base.map (·.seed)
  /-- The candidate passes `invalid_seeds`. -/
  candValid : invalidSeeds cand = []
  /-- So does the baseline. -/
  baseValid : invalidSeeds base = []
  /-- The pair passes `error_bias`. -/
  unbiased : (errorBias cand base).biased = false

/-- What passes the validity gate goes on to the test. -/
theorem cmdCompare_of_valid [DecidableEq ω] (sort : PySort) (draw : ℕ → ℕ) {slo : ℚ}
    (hcand : candDir.readRun slo = .ok cand) (hbase : baseDir.readRun slo = .ok base) (h : ValidPair cand base) :
    cmdCompare sort draw candDir baseDir metric slo =
      (do
        checkComparable candDir baseDir
        testMetric sort draw candDir baseDir metric cand base) := by
  have hseeds : ¬ cand.map (·.seed) ≠ base.map (·.seed) := not_not.mpr h.seeds
  have hbad : ¬ invalidSeeds cand ++ invalidSeeds base ≠ [] := by rw [h.candValid, h.baseValid]; simp
  simp only [cmdCompare, hcand, hbase, ok_bind, if_neg hseeds, if_neg hbad, h.unbiased, Bool.false_eq_true,
    if_false]

/-- **What `cmd_compare` refuses** of two valid runs over the same seeds. -/
theorem cmdCompare_refuses_iff [DecidableEq ω] (sort : PySort) (draw : ℕ → ℕ) (metric : String) {slo : ℚ}
    (hcand : candDir.readRun slo = .ok cand) (hbase : baseDir.readRun slo = .ok base) (h : ValidPair cand base) :
    Refuses (cmdCompare sort draw candDir baseDir metric slo) ↔ Refused candDir baseDir metric cand base := by
  rw [cmdCompare_of_valid sort draw hcand hbase h, Refused]
  rcases checkComparable_cases candDir baseDir with hok | ⟨reason, hexit⟩
  · rw [hok, or_iff_right (by rintro ⟨reason, h⟩; exact nomatch h), ← testMetric_refuses_iff sort draw h.seeds]
    rfl
  · rw [hexit]
    exact iff_of_true trivial (Or.inl ⟨reason, rfl⟩)

/-! ### Missing values -/

/-- The metric has a value in a seed: there is an entry, and it is not NaN. -/
def HasValue (run : RunDir ω) (metric : String) (s : SeedStats) : Prop :=
  ∃ entry, entryOf run metric s = some entry ∧ entry ≠ .float .nan

/-- Values that are numbers or NaN, over baselines that are not zero, are reported. -/
theorem testMetric_reports (sort : PySort) (draw : ℕ → ℕ) {c b : List Entry} {pairs : List (PyFloat × PyFloat)}
    (hvalues : metricValues candDir baseDir metric cand base = .ok (c, b)) (hlen : cand.length = b.length)
    (hnonzero : ∀ entry ∈ b, ¬ entry.IsZero)
    (hpairs : (c.zip b).mapM toFloats = .ok pairs)
    (hbase : ∀ pair ∈ pairs, ¬ pair.2.Equals (.num 0)) :
    ∃ report, testMetric sort draw candDir baseDir metric cand base = .ok (.report report) ∧
      report.test = wilcoxonExactOneSided sort (pairs.map fun pair => pair.1 - pair.2) := by
  have hzeros : ¬ zeroSeeds (cand.map (·.seed)) b ≠ [] := by
    rw [zeroSeeds_ne_nil (by rw [List.length_map, hlen])]
    rintro ⟨entry, hmem, hzero⟩
    exact hnonzero entry hmem hzero
  obtain ⟨report, hreport, htest⟩ := pairedReport_ok sort draw (flaggedSeeds cand ++ flaggedSeeds base)
    (cand.map (·.seed)) hpairs hbase
  refine ⟨report, ?_, htest⟩
  simp only [testMetric, hvalues, ok_bind, if_neg hzeros, hreport]
  rfl

/-- **When a missing value is refused.** Of two valid runs over the same seeds: a
comparison in which some seed has no value is refused, and nothing is reported as
significant, exactly when every seed does have a value or something else is refused. -/
theorem missing_refused_iff [DecidableEq ω] (sort : PySort) (draw : ℕ → ℕ) {slo : ℚ}
    (hcand : candDir.readRun slo = .ok cand) (hbase : baseDir.readRun slo = .ok base) (h : ValidPair cand base) :
    ((∃ s ∈ cand, ¬ HasValue candDir metric s) ∨ (∃ s ∈ base, ¬ HasValue baseDir metric s) →
      Refuses (cmdCompare sort draw candDir baseDir metric slo) ∧
        ¬ ReportsSignificant (cmdCompare sort draw candDir baseDir metric slo)) ↔
    ((∀ s ∈ cand, HasValue candDir metric s) ∧ ∀ s ∈ base, HasValue baseDir metric s) ∨
      Refused candDir baseDir metric cand base := by
  have hrefuses := cmdCompare_refuses_iff sort draw metric hcand hbase h
  constructor
  · intro hnever
    by_cases hmissing : (∃ s ∈ cand, ¬ HasValue candDir metric s) ∨ ∃ s ∈ base, ¬ HasValue baseDir metric s
    · exact Or.inr (hrefuses.mp (hnever hmissing).1)
    · rw [not_or] at hmissing
      refine Or.inl ⟨fun s hs => ?_, fun s hs => ?_⟩
      · by_contra hnone
        exact hmissing.1 ⟨s, hs, hnone⟩
      · by_contra hnone
        exact hmissing.2 ⟨s, hs, hnone⟩
  · rintro (⟨hc, hb⟩ | hrefused) hmissing
    · rcases hmissing with ⟨s, hs, hnone⟩ | ⟨s, hs, hnone⟩
      · exact absurd (hc s hs) hnone
      · exact absurd (hb s hs) hnone
    · have hr := hrefuses.mpr hrefused
      exact ⟨hr, hr.not_reportsSignificant⟩

end Compare

/-! ### Six seeds without a measurement -/

/-- A request of a CSV from before the driver recorded inter-token gaps. -/
def oldRow : CsvRow := ⟨100, some (1 / 10), some 1, some 3, "ok", []⟩

/-- A seed with that request. -/
def oldSeed (slo : ℚ) (seed : ℕ) : SeedStats :=
  seedStats .insertion ("driver-seed" ++ toString seed ++ ".csv") (some seed) [oldRow] slo

/-- Six such seeds, whose requests all succeeded. -/
def oldSeeds (slo : ℚ) : List SeedStats := [1, 2, 3, 4, 5, 6].map (oldSeed slo)

/-- Their run directory. -/
def oldRun : RunDir Unit := ⟨none, fun slo => .ok (oldSeeds slo), ∅⟩

theorem entryOf_oldSeeds {slo : ℚ} {s : SeedStats} (hs : s ∈ oldSeeds slo) :
    entryOf oldRun "itl_p95" s = some (.float .nan) := by
  obtain ⟨seed, -, rfl⟩ := List.mem_map.mp hs
  have hitl : (oldSeed slo seed).itl = ⟨.nan, .nan, .nan, .nan, .nan⟩ :=
    seedStats_itl_nan _ _ _ slo fun r hr _ => by rw [List.mem_singleton.mp hr, oldRow]
  rw [entryOf, if_neg (by decide), SeedStats.get?_dict]
  show some (Entry.float (oldSeed slo seed).itl.p95) = _
  rw [hitl]

theorem validPair_oldSeeds : ValidPair (oldSeeds ttftSloS) (oldSeeds ttftSloS) where
  seeds := rfl
  candValid := by decide +kernel
  baseValid := by decide +kernel
  unbiased := by decide +kernel

/-- The run against itself, when no inter-token gap was recorded. -/
theorem missing_refused_iff_oldRun :
    ((∃ s ∈ oldSeeds ttftSloS, ¬ HasValue oldRun "itl_p95" s) ∨
        (∃ s ∈ oldSeeds ttftSloS, ¬ HasValue oldRun "itl_p95" s) →
      Refuses (cmdCompare .insertion id oldRun oldRun "itl_p95" ttftSloS) ∧
        ¬ ReportsSignificant (cmdCompare .insertion id oldRun oldRun "itl_p95" ttftSloS)) ↔
    ((∀ s ∈ oldSeeds ttftSloS, HasValue oldRun "itl_p95" s) ∧
        ∀ s ∈ oldSeeds ttftSloS, HasValue oldRun "itl_p95" s) ∨
      Refused oldRun oldRun "itl_p95" (oldSeeds ttftSloS) (oldSeeds ttftSloS) :=
  missing_refused_iff .insertion id rfl rfl validPair_oldSeeds

theorem oldRun_reportsSignificant :
    ReportsSignificant (cmdCompare .insertion id oldRun oldRun "itl_p95" ttftSloS) := by
  have hentry : ∀ s ∈ oldSeeds ttftSloS, entryOf oldRun "itl_p95" s ≠ none := fun s hs h =>
    nomatch (entryOf_oldSeeds hs).symm.trans h
  have hnan : ((oldSeeds ttftSloS).map fun s => (entryOf oldRun "itl_p95" s).getD .none) =
      List.replicate 6 (.float .nan) := by
    refine List.eq_replicate_iff.mpr ⟨rfl, fun entry hmem => ?_⟩
    obtain ⟨s, hs, rfl⟩ := List.mem_map.mp hmem
    rw [entryOf_oldSeeds hs, Option.getD_some]
  have hvalues : metricValues oldRun oldRun "itl_p95" (oldSeeds ttftSloS) (oldSeeds ttftSloS) =
      .ok (List.replicate 6 (.float .nan), List.replicate 6 (.float .nan)) := by
    rw [← hnan]
    exact (metricValues_ok rfl hentry hentry).resolve_right fun h => nomatch h.1
  have hpairs : ((List.replicate 6 (.float .nan)).zip (List.replicate 6 (.float .nan))).mapM toFloats =
      .ok (List.replicate 6 (.nan, .nan)) := rfl
  obtain ⟨report, hreport, htest⟩ :=
    testMetric_reports .insertion id hvalues rfl (by decide) hpairs (by decide)
  refine ⟨report, ?_, ?_⟩
  · rw [cmdCompare_of_valid .insertion id rfl rfl validPair_oldSeeds]
    exact hreport
  · rw [Report.Significant, htest]
    decide +kernel

/-- Missing measurements become evidence. -/
theorem missing_is_significant :
    ¬ ∀ (sort : PySort) (draw : ℕ → ℕ) (candDir baseDir : RunDir Unit) (metric : String) (slo : ℚ)
      (cand base : List SeedStats),
      candDir.readRun slo = .ok cand → baseDir.readRun slo = .ok base → ValidPair cand base →
      (∃ s ∈ cand, ¬ HasValue candDir metric s) ∨ (∃ s ∈ base, ¬ HasValue baseDir metric s) →
      Refuses (cmdCompare sort draw candDir baseDir metric slo) ∧
        ¬ ReportsSignificant (cmdCompare sort draw candDir baseDir metric slo) := by
  intro h
  have hmem : oldSeed ttftSloS 1 ∈ oldSeeds ttftSloS := List.mem_map_of_mem List.mem_cons_self
  have hmissing : ¬ HasValue oldRun "itl_p95" (oldSeed ttftSloS 1) := by
    rintro ⟨entry, hentry, hne⟩
    exact hne (Option.some.inj (hentry.symm.trans (entryOf_oldSeeds hmem)))
  exact (h .insertion id oldRun oldRun "itl_p95" ttftSloS _ _ rfl rfl validPair_oldSeeds
    (Or.inl ⟨_, hmem, hmissing⟩)).2 oldRun_reportsSignificant

end CachingInLLMs.Benchmarks

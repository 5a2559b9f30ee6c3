import CachingInLLMs.Benchmarks.ReadRun
import Mathlib.Order.WithBot
import Mathlib.Tactic.Linarith

/-!
# The load gate

`load_gate.gate` decides on a short probe cell whether a rate is worth a sweep: the load has
to be asymmetric, and it has to cost latency. The asymmetry is the largest mean of requests
in flight over the smallest, as `per_seed_imbalance` has it for each seed. "The per-seed
windowing is deliberately the same code path", its docstring says.

It is not. `_window` goes from the first send of the cell to the last, over all its seeds and
whatever was between them, so engines that take turns at being the busiest come out even
(`swapCell_disagrees`). `agreement_iff` says from which CSVs the gate and the seeds agree.
-/

namespace CachingInLLMs.Benchmarks.LoadGate

open CachingInLLMs.Library

/-- `MIN_ASYMMETRY`. -/
def minAsymmetry : ℚ := 3 / 2

/-- `MIN_DEGRADATION`. -/
def minDegradation : ℚ := 5 / 4

/-- `BASELINE_TTFT_P95`. -/
def baselineTtftP95 : ℚ := 161 / 1000

/-- `BASELINE_ITL_P95`. -/
def baselineItlP95 : ℚ := 313 / 10000

/-! ### The model -/

/-- What the gate reads of a probe cell. -/
structure ProbeCell where
  /-- The dumps. -/
  prom : Prom
  /-- The driver CSVs. -/
  csvs : List DriverCsv
  /-- `rate_req_s` of `run.json`, if it is there. -/
  rateReqS : Option ℚ

/-- What `gate` returns for a cell that it can evaluate. -/
structure Gate where
  /-- `rate`. -/
  rate : Option ℚ
  /-- `mean_busiest`. -/
  meanBusiest : ℚ
  /-- `mean_idlest`. -/
  meanIdlest : ℚ
  /-- `mean_fleet`. -/
  meanFleet : ℚ
  /-- `max_busiest`. -/
  maxBusiest : ℚ
  /-- `asymmetry`; infinite over an idle engine. -/
  asymmetry : WithTop ℚ
  /-- `delta_load`. -/
  deltaLoad : ℚ
  /-- `relative_imbalance`. -/
  relativeImbalance : ℚ
  /-- `waiting_p95`. -/
  waitingP95 : PyFloat
  /-- `preemptions`. -/
  preemptions : ℚ
  /-- `ttft_p95`. -/
  ttftP95 : PyFloat
  /-- `itl_p95`. -/
  itlP95 : PyFloat
  /-- `ttft_ratio`. -/
  ttftRatio : PyFloat
  /-- `itl_ratio`. -/
  itlRatio : PyFloat
  /-- `measurable`. -/
  measurable : Bool
  /-- `degraded`. -/
  degraded : Bool
  /-- `asymmetric`. -/
  asymmetric : Bool
  /-- `pass`. -/
  pass : Bool

/-- The send times of a cell. -/
def sendTimes (csvs : List DriverCsv) : List ℚ := csvs.flatMap (·.sendTimes)

/-- `_window`: from the first send of a cell to the last. -/
def window (csvs : List DriverCsv) : Option (ℚ × ℚ) := timeSpan (sendTimes csvs)

/-- `_median`: of the numbers; the upper one of two. -/
def median (sort : PySort) (xs : List PyFloat) : PyFloat :=
  let xs := sort.sorted id (xs.filter fun x => x.Equals x)
  xs.getD (xs.length / 2) .nan

/-- `relative_imbalance`. -/
def relativeImbalance (meanBusiest meanFleet : ℚ) : ℚ :=
  if meanFleet ≤ 0 then 0 else (meanBusiest - meanFleet) / meanFleet

/-- The mean of every engine with a sample in the window. -/
def engineMeans (running : Dict String Samples) (lo hi : ℚ) : Dict String ℚ :=
  running.collect fun _ vals => meanOf (inWindow vals lo hi)

/-- The largest value of every engine with a sample in the window. -/
def engineMaxes (running : Dict String Samples) (lo hi : ℚ) : Dict String ℚ :=
  running.collect fun _ vals => (inWindow vals lo hi).max?

/-- `d[p]`, for an engine that is there. -/
def valueAt (d : Dict String ℚ) (p : String) : ℚ := (d.get? p).getD 0

/-- The engines, from the idlest to the busiest. -/
def ordered (sort : PySort) (means : Dict String ℚ) : List String :=
  sort.sorted (fun p => .num (valueAt means p)) means.keys

/-- The largest mean over the smallest. -/
def asymmetry (meanBusiest meanIdlest : ℚ) : WithTop ℚ :=
  if 0 < meanIdlest then (meanBusiest / meanIdlest : ℚ) else ⊤

/-- `wait_p95`: of the requests waiting at an engine. -/
def waitP95 (sort : PySort) (waiting : Dict String Samples) (busiest : String) (lo hi : ℚ) :
    PyFloat :=
  let xs := inWindow ((waiting.get? busiest).getD []) lo hi
  if xs = [] then .num 0 else percentile sort (xs.map .num) 95

/-- `preempt_delta`: by how much the counters of the engines rose. -/
def preemptDelta (preempt : Dict String Samples) (lo hi : ℚ) : ℚ :=
  (preempt.values.map fun vals =>
    match timeSpan (inWindow vals lo hi) with
    | some (least, most) => most - least
    | none => 0).sum

/-- `p95 / baseline if p95 == p95 else float("nan")`. -/
def overBaseline (baseline : ℚ) : PyFloat → PyFloat
  | .num p95 => .num (p95 / baseline)
  | .nan => .nan

/-- `max(ttft_ratio, itl_ratio if itl_ratio == itl_ratio else 0.0) >= MIN_DEGRADATION`. -/
def costsLatency (ttftRatio itlRatio : PyFloat) : Prop :=
  let ratio := ttftRatio.pyMax (if itlRatio.Equals itlRatio then itlRatio else .num 0)
  .num minDegradation < ratio ∨ ratio.Equals (.num minDegradation)

instance (ttftRatio itlRatio : PyFloat) : Decidable (costsLatency ttftRatio itlRatio) :=
  inferInstanceAs (Decidable (_ ∨ _))

/-- The evaluation of a cell, once it has a window, engines and seeds. -/
def evaluate (sort : PySort) (cell : ProbeCell) (lo hi : ℚ) (running : Dict String Samples)
    (seeds : List SeedStats) : Gate :=
  let waiting := readSeries cell.prom "vllm_num_requests_waiting" engineJob
  let preempt := readSeries cell.prom "vllm_num_preemptions_total" engineJob
  let means := engineMeans running lo hi
  let idlest := (ordered sort means).headD ""
  let busiest := (ordered sort means).getLastD ""
  let meanBusiest := valueAt means busiest
  let meanIdlest := valueAt means idlest
  let meanFleet := average means.values
  let ttftP95 := median sort (seeds.map (·.ttft.p95))
  let itlP95 := median sort (seeds.map (·.itl.p95))
  let ttftRatio := overBaseline baselineTtftP95 ttftP95
  let itlRatio := overBaseline baselineItlP95 itlP95
  let measurable := decide (ttftRatio.Equals ttftRatio)
  let degraded := measurable && decide (costsLatency ttftRatio itlRatio)
  let asym := asymmetry meanBusiest meanIdlest
  let asymmetric := decide (minAsymmetry ≤ asym)
  { rate := cell.rateReqS
    meanBusiest
    meanIdlest
    meanFleet
    maxBusiest := valueAt (engineMaxes running lo hi) busiest
    asymmetry := asym
    deltaLoad := meanBusiest - meanIdlest
    relativeImbalance := relativeImbalance meanBusiest meanFleet
    waitingP95 := waitP95 sort waiting busiest lo hi
    preemptions := preemptDelta preempt lo hi
    ttftP95
    itlP95
    ttftRatio
    itlRatio
    measurable
    degraded
    asymmetric
    pass := degraded && asymmetric }

/-- `gate`: an evaluation, or the error it returns. -/
def gate (sort : PySort) (cell : ProbeCell) : Except Failure (Except String Gate) :=
  match window cell.csvs with
  | none => .ok (.error "no driver CSVs")
  | some (lo, hi) =>
    let running := readSeries cell.prom runningMetric engineJob
    let means := engineMeans running lo hi
    if running.items = [] then .ok (.error "no vllm_num_requests_running dump")
    else if means.items.length < 2 then
      .ok (.error s!"need 2 engines in window, got {means.items.length}")
    else do
      let seeds ← readRun sort cell.csvs ttftSloS
      return .ok (evaluate sort cell lo hi running seeds)

/-! ### The ends of the order -/

section Order

variable {prom : Prom} {lo hi least most : ℚ} {means : Dict String ℚ}

/-- The means that the gate orders are those that the seeds are compared by. -/
theorem get?_engineMeans (engine : String) :
    (engineMeans (readSeries prom runningMetric engineJob) lo hi).get? engine =
      engineMean prom lo hi engine := by
  rw [engineMeans, Dict.get?_collect]
  cases h : (readSeries prom runningMetric engineJob).get? engine with
  | none =>
    rw [Option.bind_none, eq_comm, ← Option.not_isSome_iff_eq_none]
    exact fun hmean => Dict.get?_eq_none.mp h (mem_readSeries_of_isSome hmean)
  | some vals => exact meanOf_series h

theorem valueAt_of_get? {engine : String} {m : ℚ} (h : means.get? engine = some m) :
    valueAt means engine = m := by
  rw [valueAt, h, Option.getD_some]

/-- The first and the last engine have the smallest and the largest mean. -/
theorem spread_ordered (sort : PySort) (h : 2 ≤ means.items.length) :
    Spread means.get? (valueAt means ((ordered sort means).headD ""))
      (valueAt means ((ordered sort means).getLastD "")) := by
  have hperm : (ordered sort means).Perm means.keys := sort.perm _ _
  have hsorted : ((ordered sort means).map (valueAt means)).Pairwise (· ≤ ·) :=
    List.pairwise_map.mpr (sort.pairwise_sorted fun _ _ => rfl)
  have hlength : (ordered sort means).length = means.items.length := by
    rw [hperm.length_eq, Dict.keys, List.length_map]
  have hget : ∀ engine ∈ ordered sort means, means.get? engine = some (valueAt means engine) := by
    intro engine hengine
    obtain ⟨m, hm⟩ := Dict.exists_get?_of_mem (hperm.mem_iff.mp hengine)
    rw [hm, valueAt_of_get? hm]
  rcases hlist : ordered sort means with _ | ⟨idlest, _ | ⟨next, rest⟩⟩
  · rw [hlist, List.length_nil] at hlength
    omega
  · rw [hlist, List.length_singleton] at hlength
    omega
  · rw [hlist] at hperm hsorted hget
    have hends := le_getLastD hsorted
    have hlast : (next :: rest).getLastD idlest ∈ idlest :: next :: rest := List.getLastD_mem_cons
    refine ⟨⟨idlest, next, ?_, ?_, ?_⟩, ⟨idlest, hget idlest List.mem_cons_self⟩, ⟨_, hget _ hlast⟩,
      ?_⟩
    · have hnodup := hperm.nodup_iff.mpr means.nodup_keys
      exact fun heq => (List.nodup_cons.mp hnodup).1 (heq ▸ List.mem_cons_self)
    · rw [hget idlest List.mem_cons_self]
      rfl
    · rw [hget next (List.mem_cons_of_mem idlest List.mem_cons_self)]
      rfl
    · intro engine m hm
      have hengine : engine ∈ idlest :: next :: rest := hperm.mem_iff.mpr (Dict.mem_of_get? hm)
      have hbounds := hends _ (List.mem_map_of_mem hengine)
      rw [valueAt_of_get? hm] at hbounds
      exact ⟨hbounds.1, hbounds.2.trans_eq List.getLastD_map⟩

/-- Two engines with a mean are two entries. -/
theorem two_le_length_of_spread (h : Spread means.get? least most) : 2 ≤ means.items.length := by
  obtain ⟨engine, engine', hne, hengine, hengine'⟩ := h.two
  have hsub : [engine, engine'] ⊆ means.keys := by
    intro k hk
    rcases List.mem_pair.mp hk with rfl | rfl
    · exact Dict.get?_isSome.mp hengine
    · exact Dict.get?_isSome.mp hengine'
  have hnodup : [engine, engine'].Nodup := by simpa using hne
  have hlength := (hnodup.subperm hsub).length_le
  rwa [Dict.keys, List.length_map] at hlength

end Order

/-! ### When the gate has a result -/

section Result

variable {sort : PySort} {cell : ProbeCell} {g : Gate} {lo hi least most : ℚ}

theorem gate_eq_ok_iff : gate sort cell = .ok (.ok g) ↔
    ∃ lo hi seeds, window cell.csvs = some (lo, hi) ∧ readRun sort cell.csvs ttftSloS = .ok seeds ∧
    2 ≤ (engineMeans (readSeries cell.prom runningMetric engineJob) lo hi).items.length ∧
    g = evaluate sort cell lo hi (readSeries cell.prom runningMetric engineJob) seeds := by
  rw [gate]
  cases hwindow : window cell.csvs with
  | none => simp
  | some window =>
    obtain ⟨lo, hi⟩ := window
    dsimp only
    have hempty : (readSeries cell.prom runningMetric engineJob).items = [] →
        (engineMeans (readSeries cell.prom runningMetric engineJob) lo hi).items.length = 0 := by
      intro hnil
      rw [engineMeans, Dict.collect, hnil]
      rfl
    split_ifs with hrunning htwo
    · simp [hempty hrunning]
    · simp [htwo]
    · cases hrun : readRun sort cell.csvs ttftSloS with
      | error e => simp
      | ok seeds => simp [eq_comm, Nat.le_of_not_lt htwo]

/-- The gate has a result exactly if every CSV has a number and two engines have a mean. -/
theorem exists_gate_iff : (∃ g, gate sort cell = .ok (.ok g)) ↔
    (∀ csv ∈ cell.csvs, csv.seed.isSome) ∧
      ∃ lo hi least most, window cell.csvs = some (lo, hi) ∧
        Spread (engineMean cell.prom lo hi) least most := by
  constructor
  · rintro ⟨g, h⟩
    obtain ⟨lo, hi, seeds, hwindow, hrun, htwo, -⟩ := gate_eq_ok_iff.mp h
    exact ⟨((exists_readRun_iff sort ttftSloS).mp ⟨seeds, hrun⟩).2, lo, hi, _, _, hwindow,
      funext get?_engineMeans ▸ spread_ordered sort htwo⟩
  · rintro ⟨hnumbered, lo, hi, least, most, hwindow, hspread⟩
    have hnil : cell.csvs ≠ [] := by
      intro hnil
      rw [hnil] at hwindow
      cases hwindow
    obtain ⟨seeds, hrun⟩ := (exists_readRun_iff sort ttftSloS).mpr ⟨hnil, hnumbered⟩
    rw [← funext get?_engineMeans] at hspread
    exact ⟨_, gate_eq_ok_iff.mpr
      ⟨lo, hi, seeds, hwindow, hrun, two_le_length_of_spread hspread, rfl⟩⟩

/-- Its asymmetry is the largest mean over the smallest. -/
theorem asymmetry_of_gate (h : gate sort cell = .ok (.ok g))
    (hwindow : window cell.csvs = some (lo, hi))
    (hspread : Spread (engineMean cell.prom lo hi) least most) :
    g.asymmetry = asymmetry most least := by
  obtain ⟨lo', hi', seeds, hwindow', -, htwo, rfl⟩ := gate_eq_ok_iff.mp h
  obtain ⟨rfl, rfl⟩ : lo' = lo ∧ hi' = hi := by simpa [hwindow] using hwindow'.symm
  have hordered := spread_ordered sort htwo
  rw [funext get?_engineMeans] at hordered
  obtain ⟨rfl, rfl⟩ := hspread.unique hordered
  rfl

theorem asymmetric_of_gate (h : gate sort cell = .ok (.ok g)) :
    g.asymmetric = decide (minAsymmetry ≤ g.asymmetry) := by
  obtain ⟨lo, hi, seeds, -, -, -, rfl⟩ := gate_eq_ok_iff.mp h
  rfl

end Result

/-! ### Agreement with the seeds -/

/-- The gate agrees with the values of the seeds. -/
structure Agrees (g : Gate) (values : List ℚ) : Prop where
  /-- The asymmetry is not below the smallest value. -/
  least : ∀ v, values.min? = some v → v ≤ g.asymmetry
  /-- Nor is it above the largest. -/
  most : ∀ v, values.max? = some v → g.asymmetry ≤ v
  /-- The value of a single seed is the asymmetry. -/
  one : ∀ v, values = [v] → g.asymmetry = v
  /-- A cell whose every seed is asymmetric is. -/
  flagged : (∀ v ∈ values, minAsymmetry < v) → g.asymmetric

/-- Every CSV has a number, and every seed sent a request. -/
def Measured (csvs : List DriverCsv) : Prop :=
  csvs ≠ [] ∧ ∀ csv ∈ csvs, csv.seed.isSome ∧ ∃ csv' ∈ csvs, csv'.seed = csv.seed ∧ csv'.rows ≠ []

/-- A CSV goes from the first send of the cell to the last. -/
def Spans (csvs : List DriverCsv) (csv : DriverCsv) : Prop := timeSpan csv.sendTimes = window csvs

section Agreement

variable {sort : PySort} {cell : ProbeCell} {csvs : List DriverCsv} {g : Gate} {v : ℚ}

/-- One seed with the asymmetry for its value is enough. -/
theorem agrees_of_mem {values : List ℚ} (hmem : v ∈ values) (h : g.asymmetry = v)
    (hflag : g.asymmetric = decide (minAsymmetry ≤ g.asymmetry)) : Agrees g values where
  least w hw := by
    rw [h, WithTop.coe_le_coe]
    exact (List.min?_eq_some_iff.mp hw).2 v hmem
  most w hw := by
    rw [h, WithTop.coe_le_coe]
    exact (List.max?_eq_some_iff.mp hw).2 v hmem
  one w hw := by
    rw [hw] at hmem
    rw [h, List.mem_singleton.mp hmem]
  flagged hall := by
    rw [hflag, h]
    exact decide_eq_true (WithTop.coe_le_coe.mpr (hall v hmem).le)

theorem rows_ne_nil {csv : DriverCsv} {window : ℚ × ℚ} (h : timeSpan csv.sendTimes = some window) :
    csv.rows ≠ [] := by
  intro hnil
  rw [DriverCsv.sendTimes, hnil] at h
  cases h

/-- A CSV that spans the cell has the asymmetry for its value. -/
theorem asymmetry_eq_of_spans {prom : Prom} {rate : Option ℚ} {csv : DriverCsv}
    (hgate : gate sort ⟨prom, csvs, rate⟩ = .ok (.ok g)) (hspans : Spans csvs csv)
    (hratio : csvRatio (readSeries prom runningMetric engineJob) csv = some v) :
    g.asymmetry = v := by
  obtain ⟨lo, hi, least, most, hspan, hspread, hpos, rfl⟩ := csvRatio_eq_some.mp hratio
  have hwindow : window csvs = some (lo, hi) := hspans.symm.trans hspan
  rw [asymmetry_of_gate hgate hwindow hspread, asymmetry, if_pos hpos]

end Agreement

/-! ### An engine that is idlest over the whole window only -/

/-- The times halfway between neighbours. -/
def midpoints (times : List ℚ) : List ℚ := (times.zip times.tail).map fun p => (p.1 + p.2) / 2

section Midpoints

variable {times : List ℚ} {u v : ℚ}

/-- The times in a window. -/
def during (times : List ℚ) (u v : ℚ) : List ℚ := times.filter fun t => u ≤ t ∧ t ≤ v

theorem during_cons_of_pos {a : ℚ} (h : u ≤ a ∧ a ≤ v) :
    during (a :: times) u v = a :: during times u v :=
  List.filter_cons_of_pos (by simpa using h)

theorem during_cons_of_neg {a : ℚ} (h : ¬ (u ≤ a ∧ a ≤ v)) :
    during (a :: times) u v = during times u v :=
  List.filter_cons_of_neg (by simpa using h)

theorem during_of_lt (h : ∀ t ∈ times, v < t) : during times u v = [] :=
  List.filter_eq_nil_iff.mpr fun t ht => by simpa using fun _ => h t ht

/-- A window may start at the first time there is. -/
theorem during_of_le {u' : ℚ} (h : ∀ t ∈ times, u ≤ t ∧ u' ≤ t) :
    during times u v = during times u' v :=
  List.filter_congr fun t ht => by simp [h t ht]

theorem midpoints_cons_cons (a b : ℚ) (times : List ℚ) :
    midpoints (a :: b :: times) = (a + b) / 2 :: midpoints (b :: times) := rfl

/-- What is before all times is before the midpoints. -/
theorem le_midpoints {x : ℚ} (h : ∀ t ∈ times, x ≤ t) : ∀ m ∈ midpoints times, x ≤ m := by
  intro m hm
  obtain ⟨p, hp, rfl⟩ := List.mem_map.mp hm
  have hfirst := h p.1 (List.of_mem_zip hp).1
  have hsecond := h p.2 (List.mem_of_mem_tail (List.of_mem_zip hp).2)
  linarith

/-- **Between the times of a window** there is one midpoint less. -/
theorem length_during_midpoints (htimes : times.Pairwise (· < ·)) (hu : u ∈ times) (hv : v ∈ times)
    (huv : u ≤ v) :
    (during times u v).length = (during (midpoints times) u v).length + 1 := by
  induction times generalizing u with
  | nil => exact absurd hu List.not_mem_nil
  | cons a times ih =>
    obtain ⟨ha, hrest⟩ := List.pairwise_cons.mp htimes
    cases times with
    | nil =>
      obtain rfl := List.mem_singleton.mp hu
      obtain rfl := List.mem_singleton.mp hv
      rw [during_cons_of_pos ⟨le_rfl, le_rfl⟩]
      rfl
    | cons b times =>
      have hab := ha b List.mem_cons_self
      have hb : ∀ t ∈ b :: times, b ≤ t := fun t ht =>
        (List.mem_cons.mp ht).elim (fun heq => heq.ge) fun ht =>
          ((List.pairwise_cons.mp hrest).1 t ht).le
      rw [midpoints_cons_cons]
      by_cases hfirst : u = a
      · subst hfirst
        rw [during_cons_of_pos ⟨le_rfl, huv⟩]
        rcases List.mem_cons.mp hv with rfl | hv
        · -- The window is a single time.
          have hafter : ∀ m ∈ midpoints (b :: times), v < m :=
            fun m hm => hab.trans_le (le_midpoints hb m hm)
          have hmid : ¬ (v ≤ (v + b) / 2 ∧ (v + b) / 2 ≤ v) := fun h => by linarith [h.2]
          rw [during_of_lt ha, during_cons_of_neg hmid, during_of_lt hafter]
          rfl
        · have hbv := hb v hv
          have hmid : u ≤ (u + b) / 2 ∧ (u + b) / 2 ≤ v := ⟨by linarith, by linarith⟩
          have htimes' : during (b :: times) u v = during (b :: times) b v :=
            during_of_le fun t ht => ⟨(ha t ht).le, hb t ht⟩
          have hmidpoints : during (midpoints (b :: times)) u v =
              during (midpoints (b :: times)) b v :=
            during_of_le fun m hm => ⟨hab.le.trans (le_midpoints hb m hm), le_midpoints hb m hm⟩
          rw [during_cons_of_pos hmid, List.length_cons, List.length_cons, htimes', hmidpoints,
            ih hrest List.mem_cons_self hv hbv]
      · -- The window starts after the first time.
        have hu := (List.mem_cons.mp hu).resolve_left hfirst
        have hv : v ∈ b :: times :=
          (List.mem_cons.mp hv).resolve_left fun heq => by linarith [ha u hu]
        have hbu := hb u hu
        have hstart : ¬ (u ≤ a ∧ a ≤ v) := fun h => by linarith [h.1]
        have hmid : ¬ (u ≤ (a + b) / 2 ∧ (a + b) / 2 ≤ v) := fun h => by linarith [h.1]
        rw [during_cons_of_neg hstart, during_cons_of_neg hmid]
        exact ih hrest hu hv huv

end Midpoints

/-- Samples that are above a level at the times, below it between them, and a little below it at
the first and the last. -/
def turnSamples (times : List ℚ) (first last level : ℚ) : Samples :=
  times.map (fun t => (t, level + 2)) ++ (midpoints times).map (fun t => (t, level - 2)) ++
    [first, last].map fun t => (t, level - 1)

section TurnSamples

variable {times : List ℚ} {first last level u v : ℚ}

theorem inWindow_map (times : List ℚ) (x u v : ℚ) :
    inWindow (times.map fun t => (t, x)) u v = List.replicate (during times u v).length x := by
  rw [inWindow, List.filter_map, List.map_map]
  exact List.map_const' ..

/-- Only the whole window has both ends. -/
theorem length_during_ends (hfirst : first ≤ u) (hlast : v ≤ last) (huv : u ≤ v) :
    (u = first ∧ v = last → (during [first, last] u v).length = 2) ∧
    (¬ (u = first ∧ v = last) → (during [first, last] u v).length ≤ 1) := by
  constructor
  · rintro ⟨rfl, rfl⟩
    simp [during, huv]
  · intro hends
    by_cases hu : u = first
    · have hv : ¬ (u ≤ last ∧ last ≤ v) := fun h => hends ⟨hu, le_antisymm hlast h.2⟩
      simp only [during, List.filter_cons, hv, decide_false, List.filter_nil]
      split <;> simp
    · have hu : ¬ (u ≤ first ∧ first ≤ v) := fun h => hu (le_antisymm h.1 hfirst)
      rw [during_cons_of_neg hu]
      exact List.length_filter_le _ _

/-- **The mean is at the level** over the whole window, and above it over every other. -/
theorem meanOf_turnSamples (htimes : times.Pairwise (· < ·)) (hfirst : ∀ t ∈ times, first ≤ t)
    (hlast : ∀ t ∈ times, t ≤ last) (hu : u ∈ times) (hv : v ∈ times) (huv : u ≤ v) :
    ∃ m, meanOf (inWindow (turnSamples times first last level) u v) = some m ∧
      (u = first ∧ v = last → m = level) ∧
      (¬ (u = first ∧ v = last) → level < m ∧ m ≤ level + 2) := by
  have hmids := length_during_midpoints htimes hu hv huv
  obtain ⟨hwhole, hpart⟩ := length_during_ends (hfirst u hu) (hlast v hv) huv
  set mids := (during (midpoints times) u v).length
  set ends := (during [first, last] u v).length
  have hsamples : inWindow (turnSamples times first last level) u v =
      List.replicate (mids + 1) (level + 2) ++
      List.replicate mids (level - 2) ++ List.replicate ends (level - 1) := by
    rw [turnSamples, inWindow_append, inWindow_append, inWindow_map, inWindow_map, inWindow_map,
      hmids]
  have hcount : (0 : ℚ) < 2 * mids + 1 + ends := by positivity
  have hmean : average (inWindow (turnSamples times first last level) u v) =
      level + (2 - ends) / (2 * mids + 1 + ends) := by
    rw [hsamples, average]
    simp only [List.sum_append, List.sum_replicate, List.length_append, List.length_replicate,
      nsmul_eq_mul]
    push_cast
    field_simp
    ring
  refine ⟨_, if_neg (by rw [hsamples]; simp [List.replicate_succ]), ?_, ?_⟩
  · intro h
    rw [hmean, hwhole h]
    simp
  · intro h
    have hends : (ends : ℚ) ≤ 1 := by exact_mod_cast hpart h
    have hpos : 0 < (2 - ends) / (2 * mids + 1 + ends : ℚ) := div_pos (by linarith) hcount
    have hle : (2 - ends) / (2 * mids + 1 + ends : ℚ) ≤ 2 := by
      rw [div_le_iff₀ hcount]
      have hmids : (0 : ℚ) ≤ mids := Nat.cast_nonneg _
      have hends : (0 : ℚ) ≤ ends := Nat.cast_nonneg _
      linarith
    rw [hmean]
    exact ⟨by linarith, by linarith⟩

end TurnSamples

/-! ### A dump that only the gate sees as it is -/

/-- The engines of a dump are observed at their samples. -/
theorem engineMean_engineDump {engines : List (String × List (ℚ × ℚ))}
    (hnames : ∀ p ∈ engines, p.1 ≠ "") (lo hi : ℚ)
    (engine : String) : engineMean (engineDump engines) lo hi engine =
      meanOf (inWindow ((engines.filter fun p => p.1 = engine).flatMap (·.2)) lo hi) := by
  have hlabels (job label value name : String) :
      (Dict.ofList [("job", job), (label, value)]).get? name =
      if name = label then some value else if name = "job" then some job else none := by
    rw [Dict.ofList, Dict.update_cons, Dict.update_cons]
    exact (Dict.get?_set _ _ _ _).trans (by rw [Dict.get?_set]; rfl)
  have hrouter : samplesOf [⟨Dict.ofList [("job", "router"), ("instance", "r:80")], [(0, .num 99)]⟩]
      engineJob engine = [] := by
    rw [samplesOf_singleton, hlabels]
    exact if_neg fun h => by simp [engineJob] at h
  have hkey : ∀ p ∈ engines,
      ((Dict.ofList [("job", "vllm-engines"), ("pod", p.1)]).get? "job" = some engineJob ∧
      seriesKey (Dict.ofList [("job", "vllm-engines"), ("pod", p.1)]) = engine) ↔ p.1 = engine := by
    intro p hp
    simp [seriesKey, orNext, hlabels, hnames p hp, engineJob]
  have hfinite (values : List (ℚ × ℚ)) :
      finiteSamples (values.map fun p => (p.1, .num p.2)) = values := by
    rw [finiteSamples, List.filterMap_map]
    exact List.filterMap_some
  rw [engineMean, observations, runningDump, engineDump, if_pos rfl, Option.getD_some,
    samplesOf_cons, hrouter, List.nil_append, samplesOf, List.filter_map, List.flatMap_map]
  congr 3
  · exact funext fun p => hfinite p.2
  · exact List.filter_congr fun p hp => decide_eq_decide.mpr (hkey p hp)

/-- The send times of a cell, each once and in order. -/
def times (csvs : List DriverCsv) : List ℚ := (sendTimes csvs).dedup.insertionSort (· ≤ ·)

/-- Two engines at 4, and one that is at a level over the whole window. -/
def turnDump (times : List ℚ) (first last level : ℚ) : Prom :=
  engineDump [("a", times.map fun t => (t, 4)), ("b", times.map fun t => (t, 4)),
    ("c", turnSamples times first last level)]

section TurnDump

variable {csvs : List DriverCsv} {csv : DriverCsv} {first last level u v : ℚ}

theorem mem_times {t : ℚ} : t ∈ times csvs ↔ t ∈ sendTimes csvs := by
  rw [times, List.mem_insertionSort, List.mem_dedup]

theorem pairwise_times (csvs : List DriverCsv) : (times csvs).Pairwise (· < ·) := by
  have hsorted : (times csvs).Pairwise (· ≤ ·) := List.pairwise_insertionSort _ _
  have hnodup : (times csvs).Nodup :=
    (List.perm_insertionSort _ _).nodup_iff.mpr (List.nodup_dedup _)
  exact hsorted.imp₂ (fun _ _ => lt_of_le_of_ne) hnodup

theorem timeSpan_eq_some {ts : List ℚ} {lo hi : ℚ} :
    timeSpan ts = some (lo, hi) ↔ (lo ∈ ts ∧ ∀ t ∈ ts, lo ≤ t) ∧ (hi ∈ ts ∧ ∀ t ∈ ts, t ≤ hi) := by
  rw [← List.min?_eq_some_iff, ← List.max?_eq_some_iff, timeSpan]
  cases ts.min? <;> cases ts.max? <;> simp

/-- The send window of a CSV is from a send time to a later one. -/
theorem mem_times_of_timeSpan (hcsv : csv ∈ csvs) (h : timeSpan csv.sendTimes = some (u, v)) :
    u ∈ times csvs ∧ v ∈ times csvs ∧ u ≤ v := by
  obtain ⟨⟨hu, hle⟩, hv, -⟩ := timeSpan_eq_some.mp h
  exact ⟨mem_times.mpr (List.mem_flatMap.mpr ⟨csv, hcsv, hu⟩),
    mem_times.mpr (List.mem_flatMap.mpr ⟨csv, hcsv, hv⟩), hle v hv⟩

theorem meanOf_replicate (n : ℕ) (x : ℚ) : meanOf (List.replicate (n + 1) x) = some x := by
  have hpos : (0 : ℚ) < n + 1 := by positivity
  rw [meanOf, if_neg (by simp), average, List.sum_replicate, List.length_replicate, nsmul_eq_mul]
  push_cast
  rw [mul_div_cancel_left₀ x hpos.ne']

theorem engineMean_turnDump {ts : List ℚ} (engine : String) :
    engineMean (turnDump ts first last level) u v engine =
    if engine = "a" ∨ engine = "b" then meanOf (inWindow (ts.map fun t => (t, 4)) u v)
    else if engine = "c" then meanOf (inWindow (turnSamples ts first last level) u v)
    else none := by
  rw [turnDump, engineMean_engineDump (by simp)]
  simp only [List.filter_cons, List.filter_nil]
  by_cases ha : engine = "a"
  · simp [ha]
  · by_cases hb : engine = "b"
    · simp [hb]
    · by_cases hc : engine = "c"
      · simp [hc]
      · simp [ha, hb, hc, eq_comm (b := engine), meanOf, inWindow]

/-- **What the dump shows in a window** of send times: the level over the whole window, and more
than that over every other. -/
theorem exists_spread_turnDump (hwindow : window csvs = some (first, last)) (hlevel : level ≤ 2)
    (hu : u ∈ times csvs) (hv : v ∈ times csvs) (huv : u ≤ v) :
    ∃ m, Spread (engineMean (turnDump (times csvs) first last level) u v) m 4 ∧
      (u = first ∧ v = last → m = level) ∧ (¬ (u = first ∧ v = last) → level < m) := by
  obtain ⟨⟨-, hfirst⟩, -, hlast⟩ := timeSpan_eq_some.mp hwindow
  obtain ⟨m, hm, hwhole, hpart⟩ :=
    @meanOf_turnSamples (times csvs) first last level u v (pairwise_times csvs)
    (fun t ht => hfirst t (mem_times.mp ht)) (fun t ht => hlast t (mem_times.mp ht)) hu hv huv
  have hmost : m ≤ 4 := by
    by_cases h : u = first ∧ v = last
    · linarith [hwhole h]
    · linarith [(hpart h).2]
  have hfour : meanOf (inWindow ((times csvs).map fun t => (t, 4)) u v) = some 4 := by
    rw [inWindow_map, length_during_midpoints (pairwise_times csvs) hu hv huv]
    exact meanOf_replicate _ _
  have ha : engineMean (turnDump (times csvs) first last level) u v "a" = some 4 :=
    (engineMean_turnDump "a").trans hfour
  have hb : engineMean (turnDump (times csvs) first last level) u v "b" = some 4 :=
    (engineMean_turnDump "b").trans hfour
  have hc : engineMean (turnDump (times csvs) first last level) u v "c" = some m :=
    (engineMean_turnDump "c").trans hm
  refine ⟨m, ⟨⟨"a", "b", by decide, by rw [ha]; rfl, by rw [hb]; rfl⟩, ⟨"c", hc⟩, ⟨"a", ha⟩, ?_⟩,
    hwhole, fun h => (hpart h).1⟩
  intro engine m' hm'
  rw [engineMean_turnDump, hfour, hm] at hm'
  split_ifs at hm' <;> cases hm'
  · exact ⟨hmost, le_rfl⟩
  · exact ⟨le_rfl, hmost⟩

end TurnDump

section Cells

variable {sort : PySort} {csvs : List DriverCsv} {prom : Prom} {rate : Option ℚ} {g : Gate}

theorem exists_timeSpan {ts : List ℚ} (h : ts ≠ []) : ∃ lo hi, timeSpan ts = some (lo, hi) := by
  obtain ⟨lo, hlo⟩ := Option.isSome_iff_exists.mp (List.isSome_min?_iff.mpr h)
  obtain ⟨hi, hhi⟩ := Option.isSome_iff_exists.mp (List.isSome_max?_iff.mpr h)
  exact ⟨lo, hi, by rw [timeSpan, hlo, hhi]; rfl⟩

theorem exists_window {csv : DriverCsv} (hcsv : csv ∈ csvs) (h : csv.rows ≠ []) :
    ∃ lo hi, window csvs = some (lo, hi) := by
  obtain ⟨row, hrow⟩ := List.exists_mem_of_ne_nil _ h
  exact exists_timeSpan
    (List.ne_nil_of_mem (List.mem_flatMap.mpr ⟨csv, hcsv, List.mem_map_of_mem hrow⟩))

/-- Where the gate has a result and every seed a value, every seed sent a request. -/
theorem measured_of_gate (hgate : gate sort ⟨prom, csvs, rate⟩ = .ok (.ok g))
    (hdefined : ∀ csv ∈ csvs, ∃ seed, csv.seed = some seed ∧ seed ∈ perSeedImbalance prom csvs) :
    Measured csvs := by
  obtain ⟨-, lo, hi, least, most, hwindow, -⟩ := exists_gate_iff.mp ⟨g, hgate⟩
  refine ⟨?_, fun csv hcsv => ?_⟩
  · rintro rfl
    cases hwindow
  · obtain ⟨seed, hseed, hmem⟩ := hdefined csv hcsv
    obtain ⟨v, hv⟩ := Dict.exists_get?_of_mem hmem
    rw [perSeedImbalance_eq_foldl] at hv
    obtain ⟨csv', hcsv', hseed', hratio⟩ := exists_csvRatio_of_get? hv
    obtain ⟨lo, hi, least, most, hspan, -⟩ := csvRatio_eq_some.mp hratio
    exact ⟨by rw [hseed]; rfl, csv', hcsv', hseed'.trans hseed.symm, rows_ne_nil hspan⟩

/-- The level of the dump: nothing, if the cell has a CSV that spans it. -/
theorem exists_level (csvs : List DriverCsv) :
    ∃ level : ℚ, 0 ≤ level ∧ level ≤ 2 ∧ (0 < level → ∀ csv ∈ csvs, ¬ Spans csvs csv) := by
  by_cases h : ∃ csv ∈ csvs, Spans csvs csv
  · exact ⟨0, le_rfl, by norm_num, fun hpos => absurd hpos (lt_irrefl 0)⟩
  · exact ⟨2, by norm_num, le_rfl, fun _ csv hcsv hspans => h ⟨csv, hcsv, hspans⟩⟩

section Level

variable {csv : DriverCsv} {first last level : ℚ}

/-- The least mean in the window of a CSV is the level exactly if the CSV spans the cell. -/
theorem exists_spread_of_timeSpan (hwindow : window csvs = some (first, last)) (hlevel : level ≤ 2)
    (hcsv : csv ∈ csvs) {lo hi : ℚ} (hspan : timeSpan csv.sendTimes = some (lo, hi)) :
    ∃ m, Spread (engineMean (turnDump (times csvs) first last level) lo hi) m 4 ∧
      (Spans csvs csv → m = level) ∧ (¬ Spans csvs csv → level < m) := by
  obtain ⟨hu, hv, huv⟩ := mem_times_of_timeSpan hcsv hspan
  have hspans : Spans csvs csv ↔ lo = first ∧ hi = last := by
    rw [Spans, hspan, hwindow]
    simp
  rw [hspans]
  exact exists_spread_turnDump hwindow hlevel hu hv huv

/-- A CSV that does not span the cell has a value. -/
theorem exists_csvRatio (hwindow : window csvs = some (first, last)) (hnonneg : 0 ≤ level)
    (hlevel : level ≤ 2) (hcsv : csv ∈ csvs) (hrows : csv.rows ≠ []) (hspans : ¬ Spans csvs csv) :
    ∃ v, csvRatio (readSeries (turnDump (times csvs) first last level) runningMetric engineJob)
      csv = some v := by
  obtain ⟨lo, hi, hspan⟩ := exists_timeSpan fun hnil => hrows (List.map_eq_nil_iff.mp hnil)
  obtain ⟨least, hleast, -, hlt⟩ := exists_spread_of_timeSpan hwindow hlevel hcsv hspan
  exact ⟨_, csvRatio_eq_some.mpr
    ⟨lo, hi, least, 4, hspan, hleast, hnonneg.trans_lt (hlt hspans), rfl⟩⟩

/-- Every value is less than the asymmetry over the level. -/
theorem csvRatio_lt_asymmetry (hwindow : window csvs = some (first, last)) (hlevel : level ≤ 2)
    (hnone : 0 < level → ∀ csv ∈ csvs, ¬ Spans csvs csv) (hcsv : csv ∈ csvs) {v : ℚ}
    (h : csvRatio (readSeries (turnDump (times csvs) first last level) runningMetric engineJob)
      csv = some v) :
    v < asymmetry 4 level := by
  obtain ⟨lo, hi, least, most, hspan, hspread, hpos, rfl⟩ := csvRatio_eq_some.mp h
  obtain ⟨least', hspread', hwhole, hlt⟩ := exists_spread_of_timeSpan hwindow hlevel hcsv hspan
  obtain ⟨rfl, rfl⟩ := hspread.unique hspread'
  have hspans : ¬ Spans csvs csv := by
    intro hspans
    rw [hwhole hspans] at hpos
    exact hnone hpos csv hcsv hspans
  rw [asymmetry]
  split_ifs with hlevel
  · exact WithTop.coe_lt_coe.mpr (div_lt_div_of_pos_left (by norm_num) hlevel (hlt hspans))
  · exact WithTop.coe_lt_top _

end Level

/-- If every seed has a CSV that does not span the cell, there is a dump in which every value is
less than the asymmetry. -/
theorem exists_dump_lt_asymmetry (sort : PySort) (hmeasured : Measured csvs)
    (hnone : ∀ csv ∈ csvs, ∃ csv' ∈ csvs, csv'.seed = csv.seed ∧ csv'.rows ≠ [] ∧
      ¬ Spans csvs csv') :
    ∃ prom g, gate sort ⟨prom, csvs, none⟩ = .ok (.ok g) ∧
      (∀ csv ∈ csvs, ∃ seed, csv.seed = some seed ∧ seed ∈ perSeedImbalance prom csvs) ∧
      ∀ v ∈ (perSeedImbalance prom csvs).values, v < g.asymmetry := by
  obtain ⟨level, hnonneg, hlevel, hspans⟩ := exists_level csvs
  obtain ⟨csv₀, hcsv₀⟩ := List.exists_mem_of_ne_nil _ hmeasured.1
  obtain ⟨csv₁, hcsv₁, -, hrows₁, -⟩ := hnone csv₀ hcsv₀
  obtain ⟨first, last, hwindow⟩ := exists_window hcsv₁ hrows₁
  obtain ⟨⟨hfirst, hle⟩, hlast, -⟩ := timeSpan_eq_some.mp hwindow
  obtain ⟨m, hcell, hm, -⟩ :=
    exists_spread_turnDump hwindow hlevel (mem_times.mpr hfirst) (mem_times.mpr hlast)
      (hle last hlast)
  obtain rfl := hm ⟨rfl, rfl⟩
  obtain ⟨g, hgate⟩ := (@exists_gate_iff sort ⟨turnDump (times csvs) first last m, csvs, none⟩).mpr
    ⟨fun csv hcsv => (hmeasured.2 csv hcsv).1, first, last, m, 4, hwindow, hcell⟩
  refine ⟨_, g, hgate, fun csv hcsv => ?_, fun v hv => ?_⟩
  · obtain ⟨csv', hcsv', hseed', hrows', hspans'⟩ := hnone csv hcsv
    obtain ⟨seed, hseed⟩ := Option.isSome_iff_exists.mp (hmeasured.2 csv hcsv).1
    obtain ⟨v, hratio⟩ := exists_csvRatio hwindow hnonneg hlevel hcsv' hrows' hspans'
    refine ⟨seed, hseed, ?_⟩
    rw [← Dict.get?_isSome, perSeedImbalance_eq_foldl]
    exact isSome_of_csvRatio hcsv' (hseed'.trans hseed) hratio
  · obtain ⟨seed, hv⟩ := Dict.mem_values.mp hv
    rw [perSeedImbalance_eq_foldl] at hv
    obtain ⟨csv, hcsv, -, hratio⟩ := exists_csvRatio_of_get? hv
    rw [asymmetry_of_gate hgate hwindow hcell]
    exact csvRatio_lt_asymmetry hwindow hlevel hspans hcsv hratio

end Cells

/-- **From which CSVs the gate and the seeds agree**, whatever was recorded: some seed goes from the
first send of the cell to the last. -/
theorem agreement_iff (sort : PySort) (csvs : List DriverCsv) :
    (∀ prom rate g, gate sort ⟨prom, csvs, rate⟩ = .ok (.ok g) →
      (∀ csv ∈ csvs, ∃ seed, csv.seed = some seed ∧ seed ∈ perSeedImbalance prom csvs) →
      Agrees g (perSeedImbalance prom csvs).values) ↔
    (Measured csvs → ∃ csv ∈ csvs, ∀ csv' ∈ csvs, csv'.seed = csv.seed → csv'.rows ≠ [] →
      Spans csvs csv') := by
  constructor
  · intro h hmeasured
    by_contra hnone
    push Not at hnone
    obtain ⟨prom, g, hgate, hdefined, hlt⟩ := exists_dump_lt_asymmetry sort hmeasured hnone
    obtain ⟨csv, hcsv⟩ := List.exists_mem_of_ne_nil _ hmeasured.1
    obtain ⟨seed, -, hmem⟩ := hdefined csv hcsv
    obtain ⟨v, hv⟩ := Dict.exists_get?_of_mem hmem
    obtain ⟨most, hmost⟩ : ∃ most, (perSeedImbalance prom csvs).values.max? = some most := by
      rw [← Option.isSome_iff_exists, List.isSome_max?_iff]
      exact List.ne_nil_of_mem (Dict.mem_values.mpr ⟨seed, hv⟩)
    have hle := (h prom none g hgate hdefined).most most hmost
    exact absurd hle (not_le.mpr (hlt most (List.max?_mem hmost)))
  · intro h prom rate g hgate hdefined
    obtain ⟨csv, hcsv, hall⟩ := h (measured_of_gate hgate hdefined)
    obtain ⟨seed, hseed, hmem⟩ := hdefined csv hcsv
    obtain ⟨v, hv⟩ := Dict.exists_get?_of_mem hmem
    have hmem' : v ∈ (perSeedImbalance prom csvs).values := Dict.mem_values.mpr ⟨seed, hv⟩
    rw [perSeedImbalance_eq_foldl] at hv
    obtain ⟨csv', hcsv', hseed', hratio⟩ := exists_csvRatio_of_get? hv
    obtain ⟨lo, hi, least, most, hspan, -⟩ := csvRatio_eq_some.mp hratio
    have hspans := hall csv' hcsv' (hseed'.trans hseed.symm) (rows_ne_nil hspan)
    exact agrees_of_mem hmem' (asymmetry_eq_of_spans hgate hspans hratio) (asymmetric_of_gate hgate)

/-- The CSV of a seed whose requests were sent at these times and answered late. -/
def slowCsv (seed : ℕ) (sendTimes : List ℚ) : DriverCsv where
  file := s!"driver-seed{seed}.csv"
  seed := some seed
  rows := sendTimes.map fun t => ⟨t, some (1 / 2), some 1, some 2, "ok", [500]⟩

/-- Two seeds, and engines that have changed places between them. -/
def swapCell : ProbeCell := ⟨swapDump, [slowCsv 1 [0, 3], slowCsv 2 [8, 9]], some 8⟩

/-- **The gate fails a cell as symmetric** whose busiest engine is at four times the other in every
seed, and whose requests are slow. -/
theorem swapCell_disagrees : ∃ g, gate .insertion swapCell = .ok (.ok g) ∧
    (perSeedImbalance swapCell.prom swapCell.csvs).items = [(1, 4), (2, 4)] ∧
    g.asymmetry = (1 : ℚ) ∧ g.degraded = true ∧ g.asymmetric = false ∧ g.pass = false ∧
    ¬ Agrees g (perSeedImbalance swapCell.prom swapCell.csvs).values := by
  have hitems : (perSeedImbalance swapCell.prom swapCell.csvs).items = [(1, 4), (2, 4)] := by
    decide +kernel
  refine ⟨_, gate_eq_ok_iff.mpr ⟨0, 9, _, by decide +kernel, rfl, by decide +kernel, rfl⟩, hitems,
    by decide +kernel, by decide +kernel, by decide +kernel, by decide +kernel, fun h => ?_⟩
  have hflagged := h.flagged (by rw [Dict.values, hitems]; decide +kernel)
  exact absurd hflagged (by decide +kernel)

end CachingInLLMs.Benchmarks.LoadGate

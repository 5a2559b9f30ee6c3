import CachingInLLMs.Benchmarks.Statistics
import CachingInLLMs.Library.Dict
import Mathlib.Data.List.MinMax
import Mathlib.Data.String.Basic

/-!
# Per-seed statistics and the validity gate

`seed_stats` turns the CSV of one seed's replay into the metrics that are compared.
Error requests are excluded from the latencies and counted apart, so a statistic can
be without a sample; it is then NaN (`seedStats_itl_nan`).

Two gates stand before any comparison: `invalid_seeds`, for a seed with a
catastrophic error rate, and `error_bias`, for error rates that differ between the
arms. Both look at error counts only.
-/

namespace CachingInLLMs.Benchmarks

open CachingInLLMs.Library

/-- `TTFT_SLO_S`: the default objective, in seconds. -/
def ttftSloS : ℚ := 150 / 1000

/-- A row of a driver CSV, its fields as `seed_stats` reads them. -/
structure CsvRow where
  /-- `send_ts`. -/
  sendTs : ℚ
  /-- `ttft_s`, unless empty. -/
  ttftS : Option ℚ
  /-- `e2e_s`, unless empty. -/
  e2eS : Option ℚ
  /-- `completion_tokens`, unless empty. -/
  completionTokens : Option ℤ
  /-- `status`. -/
  status : String
  /-- The numbers in `itls_ms`; none if the column is empty or missing. -/
  itlsMs : List ℚ

/-- A seed number, as `seed_id` reads it off a file name. -/
abbrev SeedId := Option ℕ

/-- The statistics of one latency. -/
structure Latency where
  /-- `_mean`. -/
  mean : PyFloat
  /-- `_p50`. -/
  p50 : PyFloat
  /-- `_p90`. -/
  p90 : PyFloat
  /-- `_p95`. -/
  p95 : PyFloat
  /-- `_p99`. -/
  p99 : PyFloat
  deriving DecidableEq

/-- What `seed_stats` returns. -/
structure SeedStats where
  /-- `file`. -/
  file : String
  /-- `seed`. -/
  seed : SeedId
  /-- `n`. -/
  n : ℕ
  /-- `ok`. -/
  ok : ℕ
  /-- `errors`. -/
  errors : ℕ
  /-- `error_rate`. -/
  errorRate : PyFloat
  /-- `wall_s`. -/
  wallS : PyFloat
  /-- `throughput_req_s`. -/
  throughputReqS : PyFloat
  /-- `throughput_tok_s`. -/
  throughputTokS : PyFloat
  /-- `ttft_slo_miss`. -/
  ttftSloMiss : PyFloat
  /-- `ttft_slo_s`. -/
  ttftSloS : PyFloat
  /-- `ttft_*`. -/
  ttft : Latency
  /-- `e2e_*`. -/
  e2e : Latency
  /-- `itl_*`. -/
  itl : Latency

/-! ### From the rows -/

/-- `sum(xs) / len(xs) if xs else float("nan")`. -/
def mean (xs : List ℚ) : PyFloat := if xs = [] then .nan else .num (xs.sum / xs.length)

/-- The statistics of a sample. -/
def latency (sort : PySort) (xs : List ℚ) : Latency :=
  let percentile := percentile sort (xs.map .num)
  ⟨mean xs, percentile 50, percentile 90, percentile 95, percentile 99⟩

/-- `goodput`: the fraction of the requests sent whose first token came under `slo`. -/
def goodput (ttfts : List ℚ) (sent : ℕ) (slo : ℚ) : PyFloat :=
  if sent = 0 then .nan else .num ((ttfts.filter (· < slo)).length / sent)

/-- `a / wall if wall and wall > 0 else float("nan")`. -/
def perSecond (a : ℚ) : PyFloat → PyFloat
  | .num wall => if 0 < wall then .num (a / wall) else .nan
  | .nan => .nan

/-- The rows of the requests that succeeded. -/
def okRows (rows : List CsvRow) : List CsvRow := rows.filter fun r => r.status = "ok"

/-- `_ok_ttfts`. -/
def okTtfts (sort : PySort) (rows : List CsvRow) : List ℚ := sort.sorted .num ((okRows rows).filterMap (·.ttftS))

/-- The inter-token gaps of a seed, pooled, in seconds. -/
def okItls (rows : List CsvRow) : List ℚ := (okRows rows).flatMap fun r => r.itlsMs.map (· / 1000)

/-- `max(ends) - min(sends)`, if any request ended. -/
def wall (rows : List CsvRow) : PyFloat :=
  match (rows.filterMap fun r => r.e2eS.map (r.sendTs + ·)).max?, (rows.map (·.sendTs)).min? with
  | some last, some first => .num (last - first)
  | _, _ => .nan

/-- `seed_stats`, of a file and its rows. -/
def seedStats (sort : PySort) (file : String) (seed : SeedId) (rows : List CsvRow) (slo : ℚ) : SeedStats :=
  let ok := okRows rows
  let ttft := okTtfts sort rows
  let compTokens := (ok.map fun r => r.completionTokens.getD 0).sum
  { file
    seed
    n := rows.length
    ok := ok.length
    errors := rows.length - ok.length
    errorRate := if rows = [] then .nan else .num (((rows.length - ok.length : ℕ) : ℚ) / rows.length)
    wallS := wall rows
    throughputReqS := perSecond ok.length (wall rows)
    throughputTokS := perSecond compTokens (wall rows)
    ttftSloMiss := .num 1 - goodput ttft rows.length slo
    ttftSloS := .num slo
    ttft := latency sort ttft
    e2e := latency sort (ok.filterMap (·.e2eS))
    itl := latency sort (okItls rows) }

/-- A sample without values has no statistics. -/
theorem latency_nil (sort : PySort) : latency sort [] = ⟨.nan, .nan, .nan, .nan, .nan⟩ := by
  unfold latency mean
  simp

/-- Where no request that succeeded has an inter-token gap, the ITL statistics are NaN. -/
theorem seedStats_itl_nan (sort : PySort) (file : String) (seed : SeedId) {rows : List CsvRow} (slo : ℚ)
    (h : ∀ r ∈ rows, r.status = "ok" → r.itlsMs = []) :
    (seedStats sort file seed rows slo).itl = ⟨.nan, .nan, .nan, .nan, .nan⟩ := by
  have hitls : okItls rows = [] := by
    refine List.flatMap_eq_nil_iff.mpr fun r hr => ?_
    obtain ⟨hmem, hstatus⟩ := List.mem_filter.mp hr
    rw [h r hmem (of_decide_eq_true hstatus), List.map_nil]
  unfold seedStats
  dsimp only
  rw [hitls, latency_nil]

/-! ### As a dictionary -/

/-- A value of the dictionary that `seed_stats` returns. -/
inductive Entry where
  /-- An `int`. -/
  | int (n : ℤ)
  /-- A `float`. -/
  | float (x : PyFloat)
  /-- A `str`. -/
  | str (s : String)
  /-- `None`. -/
  | none
  deriving DecidableEq

/-- An entry as the operand of a subtraction or a division. -/
def Entry.toFloat : Entry → Except PyError PyFloat
  | .int n => .ok (.num n)
  | .float x => .ok x
  | _ => .error (.other "TypeError")

/-- `entry == 0`. -/
def Entry.IsZero : Entry → Prop
  | .int n => n = 0
  | .float x => x.Equals (.num 0)
  | _ => False

instance : DecidablePred Entry.IsZero
  | .int n => inferInstanceAs (Decidable (n = 0))
  | .float x => inferInstanceAs (Decidable (x.Equals (.num 0)))
  | .str _ => .isFalse fun h => h
  | .none => .isFalse fun h => h

/-- The entry of a seed number. -/
def seedEntry : SeedId → Entry
  | some seed => .int seed
  | none => .none

/-- The entries of a latency. -/
def Latency.items (name : String) (l : Latency) : List (String × Entry) :=
  [(name ++ "_mean", .float l.mean), (name ++ "_p50", .float l.p50), (name ++ "_p90", .float l.p90),
    (name ++ "_p95", .float l.p95), (name ++ "_p99", .float l.p99)]

/-- The items of the dictionary, as `seed_stats` writes them. -/
def SeedStats.items (s : SeedStats) : List (String × Entry) :=
  [("file", .str s.file), ("seed", seedEntry s.seed), ("n", .int s.n), ("ok", .int s.ok), ("errors", .int s.errors),
    ("error_rate", .float s.errorRate), ("wall_s", .float s.wallS), ("throughput_req_s", .float s.throughputReqS),
    ("throughput_tok_s", .float s.throughputTokS), ("ttft_slo_miss", .float s.ttftSloMiss),
    ("ttft_slo_s", .float s.ttftSloS)] ++
  s.ttft.items "ttft" ++ s.e2e.items "e2e" ++ s.itl.items "itl"

/-- The dictionary. -/
def SeedStats.dict (s : SeedStats) : Dict String Entry := Dict.ofList s.items

/-- `isinstance(entry, float)`. -/
def Entry.isFloat : Entry → Bool
  | .float _ => true
  | _ => false

/-- The keys of the floats, sorted. -/
def SeedStats.floatKeys (s : SeedStats) : List String :=
  ((s.dict.items.filter fun item => item.2.isFloat).map Prod.fst).insertionSort (· ≤ ·)

/-- The keys, the same for every seed and none twice. -/
theorem SeedStats.keys_items (s : SeedStats) : s.items.map Prod.fst =
    ["file", "seed", "n", "ok", "errors", "error_rate", "wall_s", "throughput_req_s", "throughput_tok_s",
      "ttft_slo_miss", "ttft_slo_s", "ttft_mean", "ttft_p50", "ttft_p90", "ttft_p95", "ttft_p99",
      "e2e_mean", "e2e_p50", "e2e_p90", "e2e_p95", "e2e_p99", "itl_mean", "itl_p50", "itl_p90", "itl_p95",
      "itl_p99"] := rfl

theorem SeedStats.get?_dict (s : SeedStats) (metric : String) : s.dict.get? metric = s.items.lookup metric := by
  have hnodup : (s.items.map Prod.fst).Nodup := by
    rw [keys_items]
    decide
  rw [dict, Dict.get?_ofList hnodup]

/-- What one seed has an entry for, every seed has. -/
theorem SeedStats.mem_dict (s s' : SeedStats) {metric : String} (h : metric ∈ s.dict) : metric ∈ s'.dict := by
  rw [dict, Dict.ofList, Dict.mem_update, keys_items] at h ⊢
  exact h

/-! ### The validity gate -/

/-- `MAX_ERROR_RATE`. -/
def maxErrorRate : ℚ := 1 / 100

/-- `HARD_ERROR_RATE`. -/
def hardErrorRate : ℚ := 1 / 10

/-- `ERROR_BIAS_RATIO`. -/
def errorBiasRatio : ℚ := 2

/-- `ERROR_BIAS_ABS`. -/
def errorBiasAbs : ℚ := 1 / 100

/-- A seed above an error rate: its file and its rate. -/
structure Problem where
  /-- `s['file']`. -/
  file : String
  /-- `s['error_rate']`. -/
  errorRate : PyFloat
  deriving DecidableEq

/-- The seeds above an error rate. -/
def seedsAbove (rate : ℚ) (seeds : List SeedStats) : List Problem :=
  (seeds.filter fun s => .num rate < s.errorRate).map fun s => ⟨s.file, s.errorRate⟩

/-- `flagged_seeds`. -/
def flaggedSeeds : List SeedStats → List Problem := seedsAbove maxErrorRate

/-- `invalid_seeds`. -/
def invalidSeeds : List SeedStats → List Problem := seedsAbove hardErrorRate

/-- `error_rate`: of all requests of a cell. -/
def errorRate (seeds : List SeedStats) : PyFloat :=
  let n := (seeds.map (·.n)).sum
  if n = 0 then .nan else .num ((seeds.map (·.errors)).sum / n)

/-- What `error_bias` returns; the ratio is infinite when one rate is 0 and the other is not. -/
structure ErrorBias where
  /-- `cand_rate`. -/
  candRate : PyFloat
  /-- `base_rate`. -/
  baseRate : PyFloat
  /-- `ratio`. -/
  ratio : WithTop PyFloat
  /-- `absolute`. -/
  absolute : PyFloat
  /-- `biased`. -/
  biased : Bool

/-- `hi / lo` for `lo > 0`. -/
def posRatio : PyFloat → PyFloat → PyFloat
  | .num hi, .num lo => .num (hi / lo)
  | _, _ => .nan

/-- `ratio > ERROR_BIAS_RATIO`. -/
def ratioExceeds : WithTop PyFloat → Bool
  | none => true
  | some ratio => .num errorBiasRatio < ratio

/-- `error_bias`. -/
def errorBias (cand base : List SeedStats) : ErrorBias :=
  let c := errorRate cand
  let b := errorRate base
  let lo := c.pyMin b
  let hi := c.pyMax b
  let ratio : WithTop PyFloat :=
    if .num 0 < lo then some (posRatio hi lo) else if .num 0 < hi then ⊤ else some (.num 1)
  let absolute := hi - lo
  ⟨c, b, ratio, absolute, decide (.num errorBiasAbs < absolute) && ratioExceeds ratio⟩

end CachingInLLMs.Benchmarks

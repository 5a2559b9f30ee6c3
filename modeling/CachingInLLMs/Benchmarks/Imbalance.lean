import CachingInLLMs.Benchmarks.SeedStats
import CachingInLLMs.Benchmarks.Utilization
import Mathlib.Data.Finset.Card
import Mathlib.Tactic.FieldSimp

/-!
# The imbalance of a seed

`per_seed_imbalance` compares the engines over the time in which the driver sent the
requests of one seed: the largest mean of requests in flight over the smallest. Samples of
other jobs, samples outside that time and values that are no numbers stay out of it, and
so does the order in which anything was recorded (`perSeedImbalance_spec`).
-/

namespace CachingInLLMs.Benchmarks

open CachingInLLMs.Library

/-- A driver CSV. -/
structure DriverCsv where
  /-- Its name. -/
  file : String
  /-- `seed_id` of its path. -/
  seed : SeedId
  /-- Its rows. -/
  rows : List CsvRow

/-- The metric that is compared. -/
def runningMetric : String := "vllm_num_requests_running"

/-- `min(ts), max(ts)`, unless there are none. -/
def timeSpan (ts : List ℚ) : Option (ℚ × ℚ) := do
  let lo ← ts.min?
  let hi ← ts.max?
  return (lo, hi)

/-- The send times of a CSV. -/
def DriverCsv.sendTimes (csv : DriverCsv) : List ℚ := csv.rows.map (·.sendTs)

/-- `_in_window`: the values in a window. -/
def inWindow (vals : Samples) (lo hi : ℚ) : List ℚ :=
  (vals.filter fun p => lo ≤ p.1 ∧ p.1 ≤ hi).map (·.2)

/-- `sum(w) / len(w)`. -/
def average (w : List ℚ) : ℚ := w.sum / w.length

/-- The sorted means of the series with a sample in the window. -/
def windowMeans (series : Dict String Samples) (lo hi : ℚ) : List ℚ :=
  (((series.values.map fun vals => inWindow vals lo hi).filter fun w => w ≠ []).map
    average).insertionSort (· ≤ ·)

/-- `means[-1] / means[0]`, if there are two and the least is positive. -/
def meanRatio : List ℚ → Option ℚ
  | [] => none
  | least :: rest => if rest ≠ [] ∧ 0 < least then some (rest.getLastD least / least) else none

/-- One turn of the loop of `per_seed_imbalance`. -/
def addImbalance (series : Dict String Samples) (out : Dict ℕ ℚ) (csv : DriverCsv) : Dict ℕ ℚ :=
  match csv.seed, timeSpan csv.sendTimes with
  | some seed, some (lo, hi) =>
    match meanRatio (windowMeans series lo hi) with
    | some ratio => out.set seed ratio
    | none => out
  | _, _ => out

/-- `per_seed_imbalance`, of the dumps and the driver CSVs of a cell. -/
def perSeedImbalance (prom : Prom) (csvs : List DriverCsv) : Dict ℕ ℚ :=
  let series := readSeries prom runningMetric engineJob
  if series.items = [] then ∅ else csvs.foldl (addImbalance series) ∅

/-! ### What the engines were observed at -/

/-- The samples that a dump has under a key. -/
def samplesOf (result : List Series) (job key : String) : Samples :=
  (result.filter fun s =>
    s.metric.get? "job" = some job ∧ seriesKey s.metric = key).flatMap fun s =>
    finiteSamples s.values

/-- What a dump has of an engine in a window. -/
def observations (result : List Series) (lo hi : ℚ) (engine : String) : List ℚ :=
  inWindow (samplesOf result engineJob engine) lo hi

/-- The mean of an engine with an observation. -/
def meanOf (w : List ℚ) : Option ℚ := if w = [] then none else some (average w)

/-- The smallest and the largest mean, of two engines at least. -/
structure Spread (mean : String → Option ℚ) (least most : ℚ) : Prop where
  /-- There are two engines with a mean. -/
  two : ∃ engine engine', engine ≠ engine' ∧ (mean engine).isSome ∧ (mean engine').isSome
  /-- The smallest is a mean. -/
  isLeast : ∃ engine, mean engine = some least
  /-- The largest is one. -/
  isMost : ∃ engine, mean engine = some most
  /-- They are the smallest and the largest. -/
  bounds : ∀ engine m, mean engine = some m → least ≤ m ∧ m ≤ most

/-- The send windows of a seed, one for each of its CSVs with a row. -/
def windowsOf (csvs : List DriverCsv) (seed : ℕ) : List (ℚ × ℚ) :=
  (csvs.filter fun csv => csv.seed = some seed).filterMap fun csv => timeSpan csv.sendTimes

/-! ### Reading the dump -/

section ReadSeries

theorem addSeries_of_job_ne {job : String} (out : Dict String Samples) {s : Series}
    (h : s.metric.get? "job" ≠ some job) : addSeries job out s = out := if_pos h

theorem get?_addSeries {job : String} (out : Dict String Samples) {s : Series}
    (h : s.metric.get? "job" = some job) (key : String) :
    (addSeries job out s).get? key =
      if seriesKey s.metric = key ∧ finiteSamples s.values ≠ [] then
        some ((out.get? key).getD [] ++ finiteSamples s.values)
      else out.get? key := by
  rw [addSeries, if_neg (not_not.mpr h)]
  dsimp only
  by_cases hpts : finiteSamples s.values = []
  · rw [if_pos hpts, if_neg (by simp [hpts])]
  · rw [if_neg hpts, Dict.get?_set]
    by_cases hkey : key = seriesKey s.metric
    · rw [if_pos hkey, if_pos ⟨hkey.symm, hpts⟩, hkey]
    · rw [if_neg hkey, if_neg fun hboth => hkey hboth.1.symm]

/-- `read_series` keeps the samples of each key. -/
theorem get?_foldl_addSeries (job : String) (result : List Series) (key : String) :
    (result.foldl (addSeries job) ∅).get? key =
      if samplesOf result job key = [] then none else some (samplesOf result job key) := by
  induction result using List.reverseRecOn with
  | nil => rfl
  | append_singleton result s ih =>
    have happend : samplesOf (result ++ [s]) job key =
        samplesOf result job key ++ samplesOf [s] job key := by
      rw [samplesOf, List.filter_append, List.flatMap_append]
      rfl
    rw [List.foldl_append, List.foldl_cons, List.foldl_nil, happend]
    by_cases hjob : s.metric.get? "job" = some job
    · rw [get?_addSeries _ hjob, ih]
      by_cases hkey : seriesKey s.metric = key
      · have hnew : samplesOf [s] job key = finiteSamples s.values := by
          simp [samplesOf, hjob, hkey]
        rw [hnew]
        by_cases hpts : finiteSamples s.values = []
        · simp [hpts]
        · by_cases hold : samplesOf result job key = [] <;> simp [hpts, hold, hkey]
      · have hnew : samplesOf [s] job key = [] := by simp [samplesOf, hkey]
        rw [hnew, if_neg fun hboth => hkey hboth.1, List.append_nil]
    · have hnew : samplesOf [s] job key = [] := by simp [samplesOf, hjob]
      rw [addSeries_of_job_ne _ hjob, hnew, List.append_nil, ih]

theorem get?_readSeries (prom : Prom) (metric job key : String) :
    (readSeries prom metric job).get? key =
      if samplesOf ((prom metric).getD []) job key = [] then none
      else some ((samplesOf ((prom metric).getD []) job key).insertionSort SampleLe) := by
  rw [readSeries]
  cases prom metric with
  | none => rfl
  | some result =>
    dsimp only
    rw [Dict.get?_mapValues, get?_foldl_addSeries, Option.getD_some]
    split_ifs <;> rfl

end ReadSeries

/-! ### The smallest and the largest mean -/

section Extremes

variable {mean : String → Option ℚ} {engines : List String} {least most : ℚ} {rest : List ℚ}

/-- A sorted list is between its ends. -/
theorem le_getLastD {a : ℚ} {l : List ℚ} (h : (a :: l).Pairwise (· ≤ ·)) :
    ∀ b ∈ a :: l, a ≤ b ∧ b ≤ l.getLastD a := by
  intro b hb
  rcases l.eq_nil_or_concat' with rfl | ⟨inner, last, rfl⟩
  · obtain rfl := List.mem_singleton.mp hb
    exact ⟨le_rfl, le_rfl⟩
  · rw [List.getLastD_concat]
    obtain ⟨hfirst, hrest⟩ := List.pairwise_cons.mp h
    have hlast : ∀ c ∈ inner, c ≤ last :=
      fun c hc => (List.pairwise_append.mp hrest).2.2 c hc last (List.mem_singleton_self last)
    rcases List.mem_cons.mp hb with rfl | hb
    · exact ⟨le_rfl, hfirst last (by simp)⟩
    · refine ⟨hfirst b hb, ?_⟩
      rcases List.mem_append.mp hb with hb | hb
      · exact hlast b hb
      · rw [List.mem_singleton.mp hb]

/-- There are two means exactly if two engines have one. -/
theorem two_le_length_filterMap (hnodup : engines.Nodup)
    (hall : ∀ engine, (mean engine).isSome → engine ∈ engines) :
    2 ≤ (engines.filterMap mean).length ↔
      ∃ engine engine', engine ≠ engine' ∧ (mean engine).isSome ∧ (mean engine').isSome := by
  have hlength : (engines.filterMap mean).length =
      (engines.toFinset.filter fun engine => (mean engine).isSome).card := by
    rw [← List.toFinset_filter, List.toFinset_card_of_nodup (hnodup.filter _),
      List.length_filterMap_eq_countP, List.countP_eq_length_filter]
  rw [hlength, Nat.succ_le_iff, Finset.one_lt_card]
  simp only [Finset.mem_filter, List.mem_toFinset]
  constructor
  · rintro ⟨engine, ⟨-, h⟩, engine', ⟨-, h'⟩, hne⟩
    exact ⟨engine, engine', hne, h, h'⟩
  · rintro ⟨engine, engine', hne, h, h'⟩
    exact ⟨engine, ⟨hall engine h, h⟩, engine', ⟨hall engine' h', h'⟩, hne⟩

/-- The smallest and the largest mean are determined. -/
theorem Spread.unique {least' most' : ℚ} (h : Spread mean least most)
    (h' : Spread mean least' most') :
    least = least' ∧ most = most' := by
  obtain ⟨idlest, hleast⟩ := h.isLeast
  obtain ⟨idlest', hleast'⟩ := h'.isLeast
  obtain ⟨busiest, hmost⟩ := h.isMost
  obtain ⟨busiest', hmost'⟩ := h'.isMost
  exact ⟨le_antisymm (h.bounds idlest' _ hleast').1 (h'.bounds idlest _ hleast).1,
    le_antisymm (h'.bounds busiest _ hmost).2 (h.bounds busiest' _ hmost').2⟩

/-- **The ends of the sorted means** are the smallest and the largest. -/
theorem spread_iff (hnodup : engines.Nodup)
    (hall : ∀ engine, (mean engine).isSome → engine ∈ engines) :
    Spread mean least most ↔
      ∃ rest, (engines.filterMap mean).insertionSort (· ≤ ·) = least :: rest ∧ rest ≠ [] ∧
        rest.getLastD least = most := by
  have hmem (m : ℚ) : m ∈ (engines.filterMap mean).insertionSort (· ≤ ·) ↔
      ∃ engine, mean engine = some m := by
    rw [List.mem_insertionSort, List.mem_filterMap]
    constructor
    · rintro ⟨engine, -, h⟩
      exact ⟨engine, h⟩
    · rintro ⟨engine, h⟩
      exact ⟨engine, hall engine (by rw [h]; rfl), h⟩
  have hsorted : ((engines.filterMap mean).insertionSort (· ≤ ·)).Pairwise (· ≤ ·) :=
    List.pairwise_insertionSort _ _
  have htwo := two_le_length_filterMap hnodup hall
  rw [← List.length_insertionSort (r := (· ≤ ·))] at htwo
  constructor
  · intro h
    have hlength := htwo.mpr h.two
    match hlist : (engines.filterMap mean).insertionSort (· ≤ ·) with
    | [] => simp [hlist] at hlength
    | [_] => simp [hlist] at hlength
    | a :: b :: rest =>
      rw [hlist] at hmem hsorted
      have hends := le_getLastD hsorted
      obtain ⟨engine, ha⟩ := (hmem a).mp List.mem_cons_self
      obtain ⟨engine', hlast⟩ := (hmem _).mp List.getLastD_mem_cons
      obtain rfl : a = least :=
        le_antisymm (hends least ((hmem least).mpr h.isLeast)).1 (h.bounds engine a ha).1
      exact ⟨b :: rest, rfl, List.cons_ne_nil b rest,
        le_antisymm (h.bounds engine' _ hlast).2 (hends most ((hmem most).mpr h.isMost)).2⟩
  · rintro ⟨rest, hlist, hne, rfl⟩
    rw [hlist] at hmem hsorted htwo
    have hends := le_getLastD hsorted
    refine ⟨htwo.mp ?_, (hmem least).mp List.mem_cons_self, (hmem _).mp List.getLastD_mem_cons,
      fun engine m hm => hends m ((hmem m).mpr ⟨engine, hm⟩)⟩
    have := List.length_pos_iff.mpr hne
    rw [List.length_cons]
    omega

end Extremes

/-! ### The means of the engines -/

/-- The dump that is compared. -/
def runningDump (prom : Prom) : List Series := (prom runningMetric).getD []

/-- The mean of an engine in a window. -/
def engineMean (prom : Prom) (lo hi : ℚ) (engine : String) : Option ℚ :=
  meanOf (observations (runningDump prom) lo hi engine)

section Means

variable {prom : Prom} {lo hi : ℚ} {engine : String}

theorem meanOf_perm {w w' : List ℚ} (h : w.Perm w') : meanOf w = meanOf w' := by
  have hnil : w = [] ↔ w' = [] := ⟨fun heq => (heq ▸ h).nil_eq.symm, fun heq => (heq ▸ h).eq_nil⟩
  rw [meanOf, meanOf, average, average, h.sum_eq, h.length_eq]
  simp only [hnil]

theorem inWindow_perm {vals vals' : Samples} (h : vals.Perm vals') (lo hi : ℚ) :
    (inWindow vals lo hi).Perm (inWindow vals' lo hi) := (h.filter _).map _

theorem map_average_filter (windows : List (List ℚ)) :
    (windows.filter fun w => w ≠ []).map average = windows.filterMap meanOf := by
  induction windows with
  | nil => rfl
  | cons w windows ih =>
    rw [List.filterMap_cons, meanOf]
    by_cases hw : w = []
    · rw [if_pos hw, List.filter_cons_of_neg (by simp [hw]), ih]
    · rw [if_neg hw, List.filter_cons_of_pos (by simp [hw]), List.map_cons, ih]

/-- The samples that `read_series` has of an engine are those of the dump. -/
theorem meanOf_series {vals : Samples}
    (h : (readSeries prom runningMetric engineJob).get? engine = some vals) :
    meanOf (inWindow vals lo hi) = engineMean prom lo hi engine := by
  rw [get?_readSeries] at h
  split_ifs at h
  rw [← Option.some.inj h]
  exact meanOf_perm (inWindow_perm (List.perm_insertionSort _ _) lo hi)

/-- An engine with a mean is in the dictionary. -/
theorem mem_readSeries_of_isSome (h : (engineMean prom lo hi engine).isSome) :
    engine ∈ (readSeries prom runningMetric engineJob).keys := by
  have hsamples : samplesOf (runningDump prom) engineJob engine ≠ [] := by
    intro hnil
    rw [engineMean, observations, hnil] at h
    exact Bool.false_ne_true h
  rw [Dict.mem_keys, ← Dict.get?_isSome, get?_readSeries, ← runningDump, if_neg hsamples]
  rfl

theorem windowMeans_eq (prom : Prom) (lo hi : ℚ) :
    windowMeans (readSeries prom runningMetric engineJob) lo hi =
      ((readSeries prom runningMetric engineJob).keys.filterMap
        (engineMean prom lo hi)).insertionSort (· ≤ ·) := by
  rw [windowMeans, map_average_filter, List.filterMap_map, Dict.values, Dict.keys,
    List.filterMap_map, List.filterMap_map]
  congr 1
  refine List.filterMap_congr fun p hp => ?_
  exact meanOf_series (Dict.get?_eq_some_iff.mpr hp)

/-- The sorted means have the smallest at one end and the largest at the other. -/
theorem spread_iff_windowMeans {least most : ℚ} : Spread (engineMean prom lo hi) least most ↔
    ∃ rest, windowMeans (readSeries prom runningMetric engineJob) lo hi = least :: rest ∧
      rest ≠ [] ∧ rest.getLastD least = most := by
  rw [windowMeans_eq]
  exact spread_iff (Dict.nodup_keys _) fun _ => mem_readSeries_of_isSome

theorem meanRatio_eq_some {v : ℚ} {means : List ℚ} :
    meanRatio means = some v ↔
      ∃ least rest, means = least :: rest ∧ rest ≠ [] ∧ 0 < least ∧
        v = rest.getLastD least / least := by
  cases means with
  | nil => simp [meanRatio]
  | cons least rest =>
    rw [meanRatio]
    split_ifs with h
    · rw [Option.some.injEq, eq_comm]
      simp [h.1, h.2]
    · constructor
      · exact fun h => nomatch h
      · rintro ⟨_, _, heq, hne, hpos, -⟩
        cases heq
        exact absurd ⟨hne, hpos⟩ h

theorem meanRatio_windowMeans {v : ℚ} :
    meanRatio (windowMeans (readSeries prom runningMetric engineJob) lo hi) = some v ↔
      ∃ least most, Spread (engineMean prom lo hi) least most ∧ 0 < least ∧ v = most / least := by
  rw [meanRatio_eq_some]
  constructor
  · rintro ⟨least, rest, hmeans, hne, hpos, rfl⟩
    exact ⟨least, _, spread_iff_windowMeans.mpr ⟨rest, hmeans, hne, rfl⟩, hpos, rfl⟩
  · rintro ⟨least, most, hspread, hpos, rfl⟩
    obtain ⟨rest, hmeans, hne, rfl⟩ := spread_iff_windowMeans.mp hspread
    exact ⟨least, rest, hmeans, hne, hpos, rfl⟩

end Means

/-! ### The value of a seed -/

section Seeds

variable {series : Dict String Samples} {csvs : List DriverCsv} {seed : ℕ}

theorem get?_addImbalance_of_ne (out : Dict ℕ ℚ) {csv : DriverCsv} (h : csv.seed ≠ some seed) :
    (addImbalance series out csv).get? seed = out.get? seed := by
  rw [addImbalance]
  split
  · rename_i seed' lo hi hseed' _
    split
    · exact Dict.get?_set_of_ne _ _ fun heq => h (heq ▸ hseed')
    · rfl
  · rfl

/-- What a window gives. -/
def windowRatio (series : Dict String Samples) (window : ℚ × ℚ) : Option ℚ :=
  meanRatio (windowMeans series window.1 window.2)

/-- What the window of a CSV gives. -/
def csvRatio (series : Dict String Samples) (csv : DriverCsv) : Option ℚ :=
  (timeSpan csv.sendTimes).bind (windowRatio series)

theorem get?_addImbalance (out : Dict ℕ ℚ) {csv : DriverCsv} (h : csv.seed = some seed) :
    (addImbalance series out csv).get? seed = (csvRatio series csv).or (out.get? seed) := by
  rw [addImbalance, h, csvRatio]
  cases timeSpan csv.sendTimes with
  | none => rfl
  | some window =>
    dsimp only [Option.bind_some, windowRatio]
    cases meanRatio (windowMeans series window.1 window.2) with
    | none => rfl
    | some ratio => exact Dict.get?_set_self _ _ _

/-- The last CSV of a seed that gives a value gives the seed its value. -/
theorem get?_foldl_addImbalance (csvs : List DriverCsv) (seed : ℕ) :
    (csvs.foldl (addImbalance series) ∅).get? seed =
      ((csvs.filter fun csv => csv.seed = some seed).filterMap (csvRatio series)).getLast? := by
  induction csvs using List.reverseRecOn with
  | nil => rfl
  | append_singleton csvs csv ih =>
    rw [List.foldl_append, List.foldl_cons, List.foldl_nil, List.filter_append,
      List.filterMap_append, List.getLast?_append, ← ih]
    by_cases hseed : csv.seed = some seed
    · rw [get?_addImbalance _ hseed, List.filter_cons_of_pos (by simpa using hseed),
        List.filter_nil, List.filterMap_cons, List.filterMap_nil]
      cases csvRatio series csv <;> rfl
    · rw [get?_addImbalance_of_ne _ hseed, List.filter_cons_of_neg (by simpa using hseed)]
      rfl

/-- A value of a seed is from a CSV of that seed. -/
theorem exists_csvRatio_of_get? {v : ℚ}
    (h : (csvs.foldl (addImbalance series) ∅).get? seed = some v) :
    ∃ csv ∈ csvs, csv.seed = some seed ∧ csvRatio series csv = some v := by
  rw [get?_foldl_addImbalance] at h
  obtain ⟨csv, hcsv, hratio⟩ := List.mem_filterMap.mp (List.mem_of_getLast? h)
  obtain ⟨hcsv, hseed⟩ := List.mem_filter.mp hcsv
  exact ⟨csv, hcsv, of_decide_eq_true hseed, hratio⟩

/-- A CSV with a value gives its seed one. -/
theorem isSome_of_csvRatio {csv : DriverCsv} {v : ℚ} (hcsv : csv ∈ csvs)
    (hseed : csv.seed = some seed) (h : csvRatio series csv = some v) :
    ((csvs.foldl (addImbalance series) ∅).get? seed).isSome := by
  rw [get?_foldl_addImbalance, List.getLast?_isSome]
  refine List.ne_nil_of_mem (List.mem_filterMap.mpr ⟨csv, ?_, h⟩)
  exact List.mem_filter.mpr ⟨hcsv, decide_eq_true hseed⟩

/-- Without a series there are no means, so the test for it changes nothing. -/
theorem perSeedImbalance_eq_foldl (prom : Prom) (csvs : List DriverCsv) :
    perSeedImbalance prom csvs =
      csvs.foldl (addImbalance (readSeries prom runningMetric engineJob)) ∅ := by
  rw [perSeedImbalance]
  split_ifs with hnil
  · have hmeans (lo hi : ℚ) : windowMeans (readSeries prom runningMetric engineJob) lo hi = [] := by
      rw [windowMeans, Dict.values, hnil]
      rfl
    refine (List.foldl_fixed' (fun csv => ?_) csvs).symm
    rw [addImbalance]
    split
    · rw [hmeans]
      rfl
    · rfl
  · rfl

theorem windowRatio_eq_some {prom : Prom} {window : ℚ × ℚ} {v : ℚ} :
    windowRatio (readSeries prom runningMetric engineJob) window = some v ↔ ∃ least most,
      Spread (engineMean prom window.1 window.2) least most ∧ 0 < least ∧ v = most / least :=
  meanRatio_windowMeans

theorem csvRatio_eq_some {prom : Prom} {csv : DriverCsv} {v : ℚ} :
    csvRatio (readSeries prom runningMetric engineJob) csv = some v ↔ ∃ lo hi least most,
      timeSpan csv.sendTimes = some (lo, hi) ∧ Spread (engineMean prom lo hi) least most ∧
      0 < least ∧ v = most / least := by
  rw [csvRatio, Option.bind_eq_some_iff]
  simp only [Prod.exists, windowRatio_eq_some]
  constructor
  · rintro ⟨lo, hi, hspan, least, most, h⟩
    exact ⟨lo, hi, least, most, hspan, h⟩
  · rintro ⟨lo, hi, least, most, hspan, h⟩
    exact ⟨lo, hi, hspan, least, most, h⟩

/-- The value of a seed is that of the last of its windows with one. -/
theorem get?_perSeedImbalance (prom : Prom) (csvs : List DriverCsv) (seed : ℕ) :
    (perSeedImbalance prom csvs).get? seed = ((windowsOf csvs seed).filterMap
      (windowRatio (readSeries prom runningMetric engineJob))).getLast? := by
  rw [perSeedImbalance_eq_foldl, get?_foldl_addImbalance, windowsOf, List.filterMap_filterMap]
  rfl

/-- **What the value of a seed is.** -/
theorem exists_spread_of_perSeedImbalance {prom : Prom} {v : ℚ}
    (h : (perSeedImbalance prom csvs).get? seed = some v) :
    ∃ window ∈ windowsOf csvs seed, ∃ least most,
      Spread (engineMean prom window.1 window.2) least most ∧ 0 < least ∧ v = most / least := by
  rw [get?_perSeedImbalance] at h
  obtain ⟨window, hwindow, hratio⟩ := List.mem_filterMap.mp (List.mem_of_getLast? h)
  exact ⟨window, hwindow, windowRatio_eq_some.mp hratio⟩

/-- **When a seed has a value.** -/
theorem perSeedImbalance_isSome_iff (prom : Prom) (csvs : List DriverCsv) (seed : ℕ) :
    ((perSeedImbalance prom csvs).get? seed).isSome ↔ ∃ window ∈ windowsOf csvs seed,
      ∃ least most, Spread (engineMean prom window.1 window.2) least most ∧ 0 < least := by
  constructor
  · intro h
    obtain ⟨v, hv⟩ := Option.isSome_iff_exists.mp h
    obtain ⟨window, hwindow, least, most, hspread, hpos, -⟩ :=
      exists_spread_of_perSeedImbalance hv
    exact ⟨window, hwindow, least, most, hspread, hpos⟩
  · rintro ⟨window, hwindow, least, most, hspread, hpos⟩
    have hratio : windowRatio (readSeries prom runningMetric engineJob) window =
        some (most / least) := windowRatio_eq_some.mpr ⟨least, most, hspread, hpos, rfl⟩
    rw [get?_perSeedImbalance, List.getLast?_isSome]
    exact List.ne_nil_of_mem (List.mem_filterMap.mpr ⟨window, hwindow, hratio⟩)

end Seeds

/-! ### What the value does not depend on -/

/-- What is read for the value of a seed. -/
structure Recording where
  /-- The dump. -/
  result : List Series
  /-- The driver CSVs. -/
  csvs : List DriverCsv

/-- A change of a recording that a seed with these send windows does not see. -/
inductive Unseen (seed : ℕ) (windows : List (ℚ × ℚ)) : Recording → Recording → Prop
  /-- A series of another job. -/
  | otherJob {before after : List Series} {s : Series} {csvs : List DriverCsv}
      (h : s.metric.get? "job" ≠ some engineJob) :
      Unseen seed windows ⟨before ++ after, csvs⟩ ⟨before ++ s :: after, csvs⟩
  /-- A sample that is no number, or is outside the windows. -/
  | sample {before after : List Series} {metric : Dict String String}
    {earlier later : List (ℚ × SampleValue)}
      {x : ℚ × SampleValue} {csvs : List DriverCsv}
      (h : (∀ q, x.2 ≠ .num q) ∨ ∀ window ∈ windows, ¬ (window.1 ≤ x.1 ∧ x.1 ≤ window.2)) :
      Unseen seed windows ⟨before ++ ⟨metric, earlier ++ later⟩ :: after, csvs⟩
        ⟨before ++ ⟨metric, earlier ++ x :: later⟩ :: after, csvs⟩
  /-- A CSV of another seed. -/
  | otherSeed {result : List Series} {before after : List DriverCsv} {csv : DriverCsv}
    (h : csv.seed ≠ some seed) :
      Unseen seed windows ⟨result, before ++ after⟩ ⟨result, before ++ csv :: after⟩
  /-- Another order of the series. -/
  | series {result result' : List Series} {csvs : List DriverCsv} (h : result.Perm result') :
      Unseen seed windows ⟨result, csvs⟩ ⟨result', csvs⟩
  /-- Another order of the samples of a series. -/
  | samples {before after : List Series} {metric : Dict String String}
    {values values' : List (ℚ × SampleValue)}
      {csvs : List DriverCsv} (h : values.Perm values') :
      Unseen seed windows ⟨before ++ ⟨metric, values⟩ :: after, csvs⟩
        ⟨before ++ ⟨metric, values'⟩ :: after, csvs⟩

/-- The engines were observed at the same values, in the same windows. -/
structure Alike (seed : ℕ) (windows : List (ℚ × ℚ)) (r r' : Recording) : Prop where
  /-- The observations. -/
  observations : ∀ window ∈ windows, ∀ engine,
    (observations r.result window.1 window.2 engine).Perm
      (observations r'.result window.1 window.2 engine)
  /-- The windows. -/
  windows : windowsOf r.csvs seed = windowsOf r'.csvs seed

section Isolation

variable {seed : ℕ} {windows : List (ℚ × ℚ)} {lo hi : ℚ} {engine job key : String}

theorem samplesOf_append (result result' : List Series) (job key : String) :
    samplesOf (result ++ result') job key =
      samplesOf result job key ++ samplesOf result' job key := by
  rw [samplesOf, List.filter_append, List.flatMap_append]
  rfl

theorem samplesOf_cons (s : Series) (result : List Series) (job key : String) :
    samplesOf (s :: result) job key = samplesOf [s] job key ++ samplesOf result job key :=
      samplesOf_append [s] result job key

theorem samplesOf_singleton (metric : Dict String String) (values : List (ℚ × SampleValue))
    (job key : String) :
    samplesOf [⟨metric, values⟩] job key =
      if metric.get? "job" = some job ∧ seriesKey metric = key then finiteSamples values
      else [] := by
  rw [samplesOf]
  split_ifs with h <;> simp [h]

theorem inWindow_append (vals vals' : Samples) (lo hi : ℚ) :
    inWindow (vals ++ vals') lo hi = inWindow vals lo hi ++ inWindow vals' lo hi := by
  rw [inWindow, List.filter_append, List.map_append]
  rfl

/-- One series of several, put in another's place. -/
theorem observations_perm_of_singleton {before after : List Series} {s s' : Series}
    (h : (observations [s] lo hi engine).Perm (observations [s'] lo hi engine)) :
    (observations (before ++ s :: after) lo hi engine).Perm
      (observations (before ++ s' :: after) lo hi engine) := by
  have hsplit (s : Series) : observations (before ++ s :: after) lo hi engine =
      observations before lo hi engine ++
        (observations [s] lo hi engine ++ observations after lo hi engine) := by
    rw [observations, samplesOf_append, samplesOf_cons, inWindow_append, inWindow_append]
    rfl
  rw [hsplit, hsplit]
  exact (h.append_right _).append_left _

/-- A sample that is no number, or is outside the window, is no observation. -/
theorem inWindow_finiteSamples_append {earlier later : List (ℚ × SampleValue)} {x : ℚ × SampleValue}
    (h : (∀ q, x.2 ≠ .num q) ∨ ¬ (lo ≤ x.1 ∧ x.1 ≤ hi)) :
    inWindow (finiteSamples (earlier ++ x :: later)) lo hi =
      inWindow (finiteSamples (earlier ++ later)) lo hi := by
  have hx : inWindow (finiteSamples [x]) lo hi = [] := by
    obtain ⟨t, v⟩ := x
    cases v with
    | num q =>
      have hout : ¬ (lo ≤ t ∧ t ≤ hi) := h.resolve_left fun hne => hne q rfl
      simp only [inWindow, finiteSamples, List.filterMap_cons, List.filterMap_nil]
      rw [List.filter_cons_of_neg (by simpa using hout)]
      rfl
    | nan => rfl
    | posInf => rfl
    | negInf => rfl
  have happend (values values' : List (ℚ × SampleValue)) :
      finiteSamples (values ++ values') = finiteSamples values ++ finiteSamples values' :=
        List.filterMap_append
  have hcons : earlier ++ x :: later = earlier ++ ([x] ++ later) := rfl
  rw [hcons, happend, happend, happend, inWindow_append, inWindow_append, inWindow_append, hx,
    List.nil_append]

theorem windowsOf_otherSeed {before after : List DriverCsv} {csv : DriverCsv}
    (h : csv.seed ≠ some seed) :
    windowsOf (before ++ csv :: after) seed = windowsOf (before ++ after) seed := by
  rw [windowsOf, windowsOf, List.filter_append, List.filter_append,
    List.filter_cons_of_neg (by simpa using h)]

/-- **What a seed does not see** leaves its observations as they are. -/
theorem Unseen.alike {r r' : Recording} (h : Unseen seed windows r r') :
    Alike seed windows r r' := by
  cases h with
  | @otherJob before after s csvs h =>
    refine ⟨fun window _ engine => ?_, rfl⟩
    have hnone : samplesOf [s] engineJob engine = [] := by simp [samplesOf, h]
    dsimp only
    rw [observations, observations, samplesOf_append, samplesOf_append, samplesOf_cons, hnone,
      List.nil_append]
  | @sample before after metric earlier later x csvs h =>
    refine ⟨fun window hwindow engine => observations_perm_of_singleton ?_, rfl⟩
    rw [observations, observations, samplesOf_singleton, samplesOf_singleton]
    split_ifs
    · rw [inWindow_finiteSamples_append (h.imp_right fun hout => hout window hwindow)]
    · rfl
  | @otherSeed result before after csv h =>
    exact ⟨fun _ _ _ => .refl _, (windowsOf_otherSeed h).symm⟩
  | @series result result' csvs h =>
    exact ⟨fun window _ engine =>
      inWindow_perm ((h.filter _).flatMap_right _) window.1 window.2, rfl⟩
  | @samples before after metric values values' csvs h =>
    refine ⟨fun window _ engine => observations_perm_of_singleton ?_, rfl⟩
    rw [observations, observations, samplesOf_singleton, samplesOf_singleton]
    split_ifs
    · exact inWindow_perm (h.filterMap _) window.1 window.2
    · rfl

theorem alike_of_eqvGen {r r' : Recording} (h : Relation.EqvGen (Unseen seed windows) r r') :
    Alike seed windows r r' := by
  induction h with
  | rel _ _ h => exact h.alike
  | refl => exact ⟨fun _ _ _ => .refl _, rfl⟩
  | symm _ _ _ ih =>
    exact ⟨fun window hwindow engine => (ih.observations window hwindow engine).symm,
      ih.windows.symm⟩
  | trans _ _ _ _ _ ih ih' =>
    exact ⟨fun window hwindow engine =>
      (ih.observations window hwindow engine).trans (ih'.observations window hwindow engine),
      ih.windows.trans ih'.windows⟩

end Isolation

/-! ### Another unit -/

/-- A value in another unit. -/
def SampleValue.scale (c : ℚ) : SampleValue → SampleValue
  | .num q => .num (c * q)
  | v => v

/-- A series in another unit. -/
def Series.scale (c : ℚ) (s : Series) : Series :=
  { s with values := s.values.map fun x => (x.1, x.2.scale c) }

section Scale

variable {c : ℚ}

theorem finiteSamples_scale (values : List (ℚ × SampleValue)) :
    finiteSamples (values.map fun x => (x.1, x.2.scale c)) =
      (finiteSamples values).map fun p => (p.1, c * p.2) := by
  rw [finiteSamples, finiteSamples, List.filterMap_map, List.map_filterMap]
  refine List.filterMap_congr fun x _ => ?_
  obtain ⟨t, v⟩ := x
  cases v <;> rfl

theorem observations_scale (result : List Series) (lo hi : ℚ) (engine : String) :
    observations (result.map (Series.scale c)) lo hi engine =
      (observations result lo hi engine).map (c * ·) := by
  have hsamples : samplesOf (result.map (Series.scale c)) engineJob engine =
      (samplesOf result engineJob engine).map fun p => (p.1, c * p.2) := by
    rw [samplesOf, samplesOf, List.filter_map, List.flatMap_map, List.map_flatMap]
    exact congrArg (List.flatMap · _) (funext fun s => finiteSamples_scale s.values)
  rw [observations, observations, hsamples, inWindow, inWindow, List.filter_map, List.map_map,
    List.map_map]
  rfl

theorem meanOf_scale (w : List ℚ) : meanOf (w.map (c * ·)) = (meanOf w).map (c * ·) := by
  rw [meanOf, meanOf]
  by_cases hw : w = []
  · simp [hw]
  · rw [if_neg (by simpa using hw), if_neg hw, Option.map_some, average, average, List.length_map,
      List.sum_map_mul_left, List.map_id', mul_div_assoc]

theorem Spread.scale {mean mean' : String → Option ℚ} {least most : ℚ} (hc : 0 < c)
    (hmean : ∀ engine, mean' engine = (mean engine).map (c * ·)) (h : Spread mean least most) :
    Spread mean' (c * least) (c * most) := by
  refine ⟨?_, ?_, ?_, fun engine m hm => ?_⟩
  · simpa [hmean] using h.two
  · obtain ⟨engine, hleast⟩ := h.isLeast
    exact ⟨engine, by rw [hmean, hleast, Option.map_some]⟩
  · obtain ⟨engine, hmost⟩ := h.isMost
    exact ⟨engine, by rw [hmean, hmost, Option.map_some]⟩
  · rw [hmean] at hm
    obtain ⟨m', hm', rfl⟩ := Option.map_eq_some_iff.mp hm
    obtain ⟨hleast, hmost⟩ := h.bounds engine m' hm'
    exact ⟨mul_le_mul_of_nonneg_left hleast hc.le, mul_le_mul_of_nonneg_left hmost hc.le⟩

end Scale

section Invariance

variable {prom prom' : Prom} {csvs csvs' : List DriverCsv} {seed : ℕ} {c : ℚ}

/-- Dumps that give every window of a seed the same value give it to the seed. -/
theorem perSeedImbalance_congr (hwindows : windowsOf csvs' seed = windowsOf csvs seed)
    (hratio : ∀ window ∈ windowsOf csvs seed, ∀ v,
      windowRatio (readSeries prom' runningMetric engineJob) window = some v ↔
        windowRatio (readSeries prom runningMetric engineJob) window = some v) :
    (perSeedImbalance prom' csvs').get? seed = (perSeedImbalance prom csvs).get? seed := by
  rw [get?_perSeedImbalance, get?_perSeedImbalance, hwindows]
  exact congrArg List.getLast?
    (List.filterMap_congr fun window hwindow => Option.ext (hratio window hwindow))

/-- What a seed does not see leaves its value as it is. -/
theorem perSeedImbalance_of_eqvGen
    (h : Relation.EqvGen (Unseen seed (windowsOf csvs seed)) ⟨runningDump prom, csvs⟩
      ⟨runningDump prom', csvs'⟩) :
    (perSeedImbalance prom' csvs').get? seed = (perSeedImbalance prom csvs).get? seed := by
  have halike := alike_of_eqvGen h
  refine perSeedImbalance_congr halike.windows.symm fun window hwindow v => ?_
  have hmean : engineMean prom' window.1 window.2 = engineMean prom window.1 window.2 :=
    funext fun engine => (meanOf_perm (halike.observations window hwindow engine)).symm
  rw [windowRatio_eq_some, windowRatio_eq_some, hmean]

/-- In another unit the value is the same. -/
theorem perSeedImbalance_of_scale (hc : 0 < c)
    (hscale : runningDump prom' = (runningDump prom).map (Series.scale c)) :
    (perSeedImbalance prom' csvs).get? seed = (perSeedImbalance prom csvs).get? seed := by
  have hmean (lo hi : ℚ) (engine : String) :
      engineMean prom' lo hi engine = (engineMean prom lo hi engine).map (c * ·) := by
    rw [engineMean, hscale, observations_scale, meanOf_scale, engineMean]
  have hmean' (lo hi : ℚ) (engine : String) :
      engineMean prom lo hi engine = (engineMean prom' lo hi engine).map (c⁻¹ * ·) := by
    rw [hmean, Option.map_map]
    cases engineMean prom lo hi engine <;> simp [hc.ne']
  refine perSeedImbalance_congr rfl fun window _ v => ?_
  rw [windowRatio_eq_some, windowRatio_eq_some]
  constructor
  · rintro ⟨least, most, hspread, hpos, rfl⟩
    refine ⟨_, _, hspread.scale (inv_pos.mpr hc) (hmean' window.1 window.2),
      mul_pos (inv_pos.mpr hc) hpos, ?_⟩
    exact (mul_div_mul_left most least (inv_pos.mpr hc).ne').symm
  · rintro ⟨least, most, hspread, hpos, rfl⟩
    refine ⟨_, _, hspread.scale hc (hmean window.1 window.2), mul_pos hc hpos, ?_⟩
    exact (mul_div_mul_left most least hc.ne').symm

end Invariance

/-- **The value of a seed.** It is there exactly if in a send window of the seed two engines were
observed and the smallest of their means is positive; it is the largest mean over the smallest.
Nothing unseen changes it, and no unit does. A seed has one window for each of its CSVs. -/
theorem perSeedImbalance_spec (prom : Prom) (csvs : List DriverCsv) (seed : ℕ) :
    (((perSeedImbalance prom csvs).get? seed).isSome ↔ ∃ window ∈ windowsOf csvs seed,
      ∃ least most, Spread (engineMean prom window.1 window.2) least most ∧ 0 < least) ∧
    (∀ v, (perSeedImbalance prom csvs).get? seed = some v → 1 ≤ v ∧
      ∃ window ∈ windowsOf csvs seed, ∃ least most,
        Spread (engineMean prom window.1 window.2) least most ∧ 0 < least ∧ v = most / least) ∧
    (∀ prom' csvs', Relation.EqvGen (Unseen seed (windowsOf csvs seed)) ⟨runningDump prom, csvs⟩
        ⟨runningDump prom', csvs'⟩ →
      (perSeedImbalance prom' csvs').get? seed = (perSeedImbalance prom csvs).get? seed) ∧
    ∀ c prom', 0 < c → runningDump prom' = (runningDump prom).map (Series.scale c) →
      (perSeedImbalance prom' csvs).get? seed = (perSeedImbalance prom csvs).get? seed := by
  refine ⟨perSeedImbalance_isSome_iff prom csvs seed, fun v hv => ?_,
    fun prom' csvs' h => perSeedImbalance_of_eqvGen h,
    fun c prom' hc hscale => perSeedImbalance_of_scale hc hscale⟩
  obtain ⟨window, hwindow, least, most, hspread, hpos, rfl⟩ :=
    exists_spread_of_perSeedImbalance hv
  obtain ⟨engine, hleast⟩ := hspread.isLeast
  have hle : least ≤ most := (hspread.bounds engine least hleast).2
  exact ⟨(one_le_div hpos).mpr hle, window, hwindow, least, most, hspread, hpos, rfl⟩

/-- A dump of engines that run these many requests at these times, and of a router. -/
def engineDump (engines : List (String × List (ℚ × ℚ))) : Prom := fun metric =>
  if metric = runningMetric then
    some (⟨Dict.ofList [("job", "router"), ("instance", "r:80")], [(0, .num 99)]⟩ ::
      engines.map fun engine => ⟨Dict.ofList [("job", "vllm-engines"), ("pod", engine.1)],
        engine.2.map fun p => (p.1, .num p.2)⟩)
  else none

/-- A driver CSV of requests that were sent at these times. -/
def csvOf (seed : ℕ) (sendTimes : List ℚ) : DriverCsv where
  file := s!"driver-seed{seed}.csv"
  seed := some seed
  rows := sendTimes.map fun t => ⟨t, none, none, none, "ok", []⟩

/-- The engines are at 4 and 1 first, and the other way round later. -/
def swapDump : Prom := engineDump [("a", [(0, 4), (9, 1)]), ("b", [(0, 1), (9, 4)])]

/-- What a second seed does later is not in the value of the first. -/
theorem perSeedImbalance_spec_swapDump :
    (perSeedImbalance swapDump [csvOf 1 [0, 3], csvOf 2 [8, 9]]).get? 1 = some 4 := by
  have hother : Relation.EqvGen (Unseen 1 (windowsOf [csvOf 1 [0, 3]] 1))
      ⟨runningDump swapDump, [csvOf 1 [0, 3]]⟩
      ⟨runningDump swapDump, [csvOf 1 [0, 3], csvOf 2 [8, 9]]⟩ :=
    .rel _ _ (@Unseen.otherSeed 1 _ _ [csvOf 1 [0, 3]] [] (csvOf 2 [8, 9]) (by decide))
  have hunseen := (perSeedImbalance_spec swapDump [csvOf 1 [0, 3]] 1).2.2.1 swapDump _ hother
  exact hunseen.trans (by decide +kernel)

end CachingInLLMs.Benchmarks

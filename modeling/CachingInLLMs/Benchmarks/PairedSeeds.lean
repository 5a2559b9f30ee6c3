import CachingInLLMs.Benchmarks.ReadRun
import CachingInLLMs.Library.Numeral
import CachingInLLMs.Library.OrderStatistic

/-!
# Which observations are paired

`cmd_compare` pairs the observations of two run directories by position, after a check that
both have the same list of seed numbers: the whole method, a comment says, rests on comparing
like with like. The number of a CSV is made of all the digits in its name, in order, whatever
stands between them, and nobody looks for a number that comes twice. So
`driver-seed1-run2.csv` is paired with `driver-seed12.csv` (`unlike_seeds_paired`), and two
copies of one seed count as two observations.

`likeWithLike_iff` says when like is compared with like: unless the check fails anyway, there
are only digits between `driver-seed` and `.csv`, and no number comes twice.
-/

namespace CachingInLLMs.Benchmarks.PairedSeeds

open CachingInLLMs.Library

/-! ### The model -/

/-- What matches `driver-seed*.csv`, for what the star stands for. -/
def globName (wild : Text) : Text := "driver-seed".toList ++ (wild ++ ".csv".toList)

/-- A file of a run directory that matches `driver-seed*.csv`. -/
structure CsvFile where
  /-- What the star stands for. -/
  wild : Text
  /-- Its rows, if they can be read. -/
  rows : Except PyError (List CsvRow)

/-- Its name. -/
def CsvFile.name (csv : CsvFile) : String := String.ofList (globName csv.wild)

/-- A run directory. -/
structure Directory (ω : Type) where
  /-- `run.json`, if there is one. -/
  runJson : Option (RunJson ω)
  /-- The driver CSVs, in the order in which `glob` lists them. -/
  csvs : List CsvFile
  /-- No two files have the same name. -/
  nodup : (csvs.map (·.wild)).Nodup
  /-- `per_seed_imbalance`. -/
  perSeedImbalance : Dict SeedId PyFloat

section Model

variable (digits : PyDigits)

/-- `seed_id`: the number that all the digits of a name make. -/
def seedId (name : String) : Except PyError SeedId :=
  let found := name.toList.filter digits.isdigit
  if found = [] then .ok none else (digits.int found).map some

/-- `_driver_csvs`: the files in the order of their numbers, each with its number. -/
def driverFiles (csvs : List CsvFile) : Except Failure (List (SeedId × CsvFile)) :=
  if csvs = [] then .error (.systemExit .noDriverCsvs)
  else do
    let numbered ← uncaught (csvs.mapM fun csv => (seedId digits csv.name).map (·, csv))
    let unnumbered := ((numbered.filter fun p => p.1 = none).map (·.2.name)).insertionSort (· ≤ ·)
    if unnumbered ≠ [] then .error (.systemExit (.unnumberedCsvs unnumbered))
    else .ok (numbered.insertionSort fun p p' => p.1.getD 0 ≤ p'.1.getD 0)

/-- `seed_stats` of a file. -/
def statsOf (sort : PySort) (slo : ℚ) (p : SeedId × CsvFile) : Except Failure SeedStats := do
  let rows ← uncaught p.2.rows
  return seedStats sort p.2.name p.1 rows slo

/-- `read_run`, of the files. -/
def readFiles (sort : PySort) (csvs : List CsvFile) (slo : ℚ) : Except Failure (List SeedStats) := do
  let numbered ← driverFiles digits csvs
  numbered.mapM (statsOf sort slo)

/-- What `analyze.py` reads of a run directory. -/
def Directory.runDir {ω : Type} (sort : PySort) (d : Directory ω) : RunDir ω :=
  ⟨d.runJson, readFiles digits sort d.csvs, d.perSeedImbalance⟩

end Model

section Check

variable {ω : Type} [DecidableEq ω]

/-- `cmd_compare` up to its seed check. -/
def seedCheck (candDir baseDir : RunDir ω) (slo : ℚ) :
    Except Failure (List SeedStats × List SeedStats) := do
  checkComparable candDir baseDir
  let cand ← candDir.readRun slo
  let base ← baseDir.readRun slo
  let candSeeds := cand.map (·.seed)
  let baseSeeds := base.map (·.seed)
  if candSeeds ≠ baseSeeds then
    .error (.systemExit (.seedMismatch cand.length base.length
      (candSeeds.toFinset \ baseSeeds.toFinset) (baseSeeds.toFinset \ candSeeds.toFinset)))
  else return (cand, base)

/-- `cmd_compare` behind its seed check. -/
def afterSeedCheck (sort : PySort) (draw : ℕ → ℕ) (candDir baseDir : RunDir ω) (metric : String)
    (arms : List SeedStats × List SeedStats) : Except Failure Outcome :=
  let bad := invalidSeeds arms.1 ++ invalidSeeds arms.2
  let bias := errorBias arms.1 arms.2
  if bad ≠ [] then return .invalidRun bad
  else if bias.biased then return .invalidComparison bias
  else testMetric sort draw candDir baseDir metric arms.1 arms.2

/-- `cmd_compare` is the one after the other. -/
theorem cmdCompare_eq_bind (sort : PySort) (draw : ℕ → ℕ) (candDir baseDir : RunDir ω)
    (metric : String) (slo : ℚ) : cmdCompare sort draw candDir baseDir metric slo =
      seedCheck candDir baseDir slo >>= afterSeedCheck sort draw candDir baseDir metric := by
  rw [cmdCompare, seedCheck]
  cases checkComparable candDir baseDir with
  | error e => rfl
  | ok _ =>
    cases candDir.readRun slo with
    | error e => rfl
    | ok cand =>
      cases baseDir.readRun slo with
      | error e => rfl
      | ok base =>
        simp only [ok_bind]
        by_cases hseeds : cand.map (·.seed) ≠ base.map (·.seed)
        · rw [if_pos hseeds, if_pos hseeds]
          rfl
        · rw [if_neg hseeds, if_neg hseeds]
          rfl

end Check

/-! ### Names and numbers -/

/-- `driver-seed<N>.csv`: there is nothing but a numeral of the number between the two parts. -/
def IsSeedCsv (digits : PyDigits) (name : String) (n : ℕ) : Prop :=
  ∃ numeral, name = String.ofList (globName numeral) ∧ numeral ≠ [] ∧
    (∀ c ∈ numeral, digits.isdigit c) ∧ digits.int numeral = .ok n

section Names

variable {digits : PyDigits} {csv : CsvFile} {n : ℕ} {name : String}

/-- The parts of the pattern have no digits. -/
theorem filter_globName (digits : PyDigits) (wild : Text) :
    (globName wild).filter digits.isdigit = wild.filter digits.isdigit := by
  have hnone {part : Text} (hpart : ∀ c ∈ part, c.toNat < 128 ∧ c.isDigit = false) :
      part.filter digits.isdigit = [] := by
    refine List.filter_eq_nil_iff.mpr fun c hc => ?_
    obtain ⟨hascii, hdigit⟩ := hpart c hc
    rw [digits.isdigit_ascii c hascii, hdigit]
    exact Bool.false_ne_true
  have hdriver : ∀ c ∈ "driver-seed".toList, c.toNat < 128 ∧ c.isDigit = false := by simp
  have hcsv : ∀ c ∈ ".csv".toList, c.toNat < 128 ∧ c.isDigit = false := by simp
  unfold globName
  rw [List.filter_append, List.filter_append, hnone hdriver, hnone hcsv, List.nil_append,
    List.append_nil]

theorem seedId_ofList (digits : PyDigits) (wild : Text) :
    seedId digits (String.ofList (globName wild)) =
      if wild.filter digits.isdigit = [] then .ok none
      else (digits.int (wild.filter digits.isdigit)).map some := by
  rw [seedId, String.toList_ofList, filter_globName]

/-- The number of such a name. -/
theorem IsSeedCsv.seedId_eq (h : IsSeedCsv digits name n) : seedId digits name = .ok (some n) := by
  obtain ⟨numeral, rfl, hne, hdigits, hint⟩ := h
  rw [seedId_ofList, List.filter_eq_self.mpr hdigits, if_neg hne, hint]
  rfl

/-- A CSV with digits only has such a name. -/
theorem isSeedCsv_of_digits (hdigits : ∀ c ∈ csv.wild, digits.isdigit c)
    (h : seedId digits csv.name = .ok (some n)) : IsSeedCsv digits csv.name n := by
  rw [CsvFile.name, seedId_ofList, List.filter_eq_self.mpr hdigits] at h
  split_ifs at h with hnil
  · exact nomatch h
  · refine ⟨csv.wild, rfl, hnil, hdigits, ?_⟩
    cases hint : digits.int csv.wild with
    | error e => simp [hint, Except.map] at h
    | ok m => simpa [hint, Except.map] using h

/-- And no other CSV does. -/
theorem IsSeedCsv.isdigit_wild (h : IsSeedCsv digits csv.name n) :
    ∀ c ∈ csv.wild, digits.isdigit c := by
  obtain ⟨numeral, hname, -, hdigits, -⟩ := h
  have hglob : globName csv.wild = globName numeral := by
    simpa [CsvFile.name] using congrArg String.toList hname
  have hwild : csv.wild = numeral := List.append_cancel_right (List.append_cancel_left hglob)
  exact hwild ▸ hdigits

end Names

/-! ### What is read -/

/-- The numbers of the files. -/
def Numbered (digits : PyDigits) (csvs : List CsvFile) (numbers : List ℕ) : Prop :=
  List.Forall₂ (fun csv n => seedId digits csv.name = .ok (some n)) csvs numbers

/-- The files can be read. -/
def Readable (csvs : List CsvFile) : Prop := ∀ csv ∈ csvs, ∃ rows, csv.rows = .ok rows

section Reading

variable {digits : PyDigits} {sort : PySort} {slo : ℚ} {csvs : List CsvFile} {numbers numbers' : List ℕ}
  {seeds : List SeedStats} {files : List (SeedId × CsvFile)}

theorem numbered_iff_map_eq : Numbered digits csvs numbers ↔
    csvs.map (fun csv => seedId digits csv.name) = numbers.map fun n => .ok (some n) :=
  map_eq_map_iff_forall₂.symm

theorem Numbered.unique (h : Numbered digits csvs numbers)
    (h' : Numbered digits csvs numbers') : numbers = numbers' := by
  have hmap := (numbered_iff_map_eq.mp h).symm.trans (numbered_iff_map_eq.mp h')
  exact List.map_injective_iff.mpr (fun n n' h => Option.some.inj (Except.ok.inj h)) hmap

theorem uncaught_eq_ok {α : Type} {r : Except PyError α} {a : α} : uncaught r = .ok a ↔ r = .ok a := by
  cases r with
  | error e => constructor <;> intro h <;> cases h
  | ok a' => exact ⟨fun h => congrArg _ (Except.ok.inj h), fun h => congrArg _ (Except.ok.inj h)⟩

/-- The files with their numbers. -/
theorem mapM_seedId_eq_ok {numbered : List (SeedId × CsvFile)} :
    csvs.mapM (fun csv => (seedId digits csv.name).map (·, csv)) = .ok numbered ↔
      numbered.map Prod.snd = csvs ∧ ∀ p ∈ numbered, seedId digits p.2.name = .ok p.1 := by
  rw [mapM_eq_ok]
  constructor
  · intro h
    induction h with
    | nil => exact ⟨rfl, by simp⟩
    | @cons csv p csvs numbered hp _ ih =>
      cases hseed : seedId digits csv.name with
      | error e => simp [hseed, Except.map] at hp
      | ok seed =>
        obtain rfl : (seed, csv) = p := by simpa [hseed, Except.map] using hp
        refine ⟨by rw [List.map_cons, ih.1], ?_⟩
        simpa using ⟨hseed, fun a b h => ih.2 (a, b) h⟩
  · rintro ⟨rfl, hseeds⟩
    rw [List.forall₂_map_left_iff, List.forall₂_same]
    intro p hp
    rw [hseeds p hp]
    rfl

/-- The files are numbered as their names say. -/
def Labelled (digits : PyDigits) (files : List (SeedId × CsvFile)) : Prop :=
  ∀ p ∈ files, seedId digits p.2.name = .ok p.1 ∧ p.1.isSome

theorem driverFiles_eq_ok :
    driverFiles digits csvs = .ok files ↔ csvs ≠ [] ∧ ∃ numbered, numbered.map Prod.snd = csvs ∧
      Labelled digits numbered ∧
      files = numbered.insertionSort fun p p' => p.1.getD 0 ≤ p'.1.getD 0 := by
  have hunnumbered (numbered : List (SeedId × CsvFile)) :
      ((numbered.filter fun p => p.1 = none).map (·.2.name)).insertionSort (· ≤ ·) = [] ↔
        ∀ p ∈ numbered, p.1.isSome := by
    rw [← List.length_eq_zero_iff, List.length_insertionSort, List.length_map,
      List.length_eq_zero_iff, List.filter_eq_nil_iff]
    simp [Option.isSome_iff_ne_none]
  rw [driverFiles]
  constructor
  · intro h
    split_ifs at h with hnil
    obtain ⟨numbered, hnumbered, h⟩ := bind_eq_ok.mp h
    obtain ⟨hcsvs, hseeds⟩ := mapM_seedId_eq_ok.mp (uncaught_eq_ok.mp hnumbered)
    dsimp only at h
    split_ifs at h with hsome
    have hsome := (hunnumbered numbered).mp (not_not.mp hsome)
    exact ⟨hnil, numbered, hcsvs, fun p hp => ⟨hseeds p hp, hsome p hp⟩, (Except.ok.inj h).symm⟩
  · rintro ⟨hnil, numbered, hcsvs, hlabelled, rfl⟩
    have hnumbered := mapM_seedId_eq_ok.mpr ⟨hcsvs, fun p hp => (hlabelled p hp).1⟩
    rw [if_neg hnil]
    refine bind_eq_ok.mpr ⟨numbered, uncaught_eq_ok.mpr hnumbered, ?_⟩
    rw [if_neg (not_not.mpr ((hunnumbered numbered).mpr fun p hp => (hlabelled p hp).2))]

theorem statsOf_eq_ok {p : SeedId × CsvFile} {s : SeedStats} : statsOf sort slo p = .ok s ↔
    ∃ rows, p.2.rows = .ok rows ∧ s = seedStats sort p.2.name p.1 rows slo := by
  rw [statsOf, bind_eq_ok]
  constructor
  · rintro ⟨rows, hrows, h⟩
    exact ⟨rows, uncaught_eq_ok.mp hrows, (Except.ok.inj h).symm⟩
  · rintro ⟨rows, hrows, rfl⟩
    exact ⟨rows, uncaught_eq_ok.mpr hrows, rfl⟩

/-- The numbers of labelled files. -/
theorem Labelled.numbered (h : Labelled digits files) :
    Numbered digits (files.map Prod.snd) (files.map fun p => p.1.getD 0) := by
  rw [Numbered, List.forall₂_map_left_iff, List.forall₂_map_right_iff, List.forall₂_same]
  intro p hp
  obtain ⟨hseed, hsome⟩ := h p hp
  rw [hseed]
  obtain ⟨n, hn⟩ := Option.isSome_iff_exists.mp hsome
  rw [hn, Option.getD_some]

/-- Numbered files can be labelled. -/
theorem Numbered.labelled (h : Numbered digits csvs numbers) :
    ∃ numbered : List (SeedId × CsvFile), numbered.map Prod.snd = csvs ∧
      Labelled digits numbered := by
  refine ⟨csvs.map fun csv => ((seedId digits csv.name).toOption.getD none, csv), ?_, ?_⟩
  · rw [List.map_map]
    exact List.map_id csvs
  induction h with
  | nil => exact fun p hp => nomatch hp
  | @cons csv n csvs numbers hn _ ih =>
    rw [List.map_cons, Labelled, List.forall_mem_cons]
    exact ⟨by simp [hn, Except.toOption], ih⟩

/-- The observations have the numbers and the names of their files. -/
theorem labels_of_mapM (h : files.mapM (statsOf sort slo) = .ok seeds) :
    (∀ p ∈ files, ∃ rows, p.2.rows = .ok rows) ∧
      files.map (fun p => (p.1, p.2.name)) = seeds.map fun s => (s.seed, s.file) := by
  have hstats : List.Forall₂ (fun p s => ∃ rows, p.2.rows = .ok rows ∧
      s = seedStats sort p.2.name p.1 rows slo) files seeds :=
    (mapM_eq_ok.mp h).imp fun _ _ => statsOf_eq_ok.mp
  constructor
  · intro p hp
    obtain ⟨s, -, rows, hrows, -⟩ := exists_of_forall₂_of_mem hstats hp
    exact ⟨rows, hrows⟩
  · refine map_eq_map_iff_forall₂.mpr (hstats.imp fun p s hs => ?_)
    obtain ⟨rows, -, rfl⟩ := hs
    rfl

/-- Files in the order of their numbers have the numbers in order. -/
theorem Labelled.map_fst_insertionSort (h : Labelled digits files) :
    (files.insertionSort fun p p' => p.1.getD 0 ≤ p'.1.getD 0).map Prod.fst =
      ((files.map fun p => p.1.getD 0).insertionSort (· ≤ ·)).map some := by
  rw [← List.map_insertionSort (fun p p' => p.1.getD 0 ≤ p'.1.getD 0) (· ≤ ·)
    (fun p : SeedId × CsvFile => p.1.getD 0) files fun _ _ _ _ => Iff.rfl, List.map_map]
  refine List.map_congr_left fun p hp => ?_
  obtain ⟨n, hn⟩ := Option.isSome_iff_exists.mp (h p ((List.mem_insertionSort _).mp hp)).2
  rw [Function.comp_apply, hn, Option.getD_some]

/-- What is read of a directory: one observation for each file, in the order of the numbers. -/
theorem readFiles_eq_ok (h : readFiles digits sort csvs slo = .ok seeds) :
    csvs ≠ [] ∧ Readable csvs ∧ ∃ numbers, Numbered digits csvs numbers ∧
      seeds.map (·.seed) = (numbers.insertionSort (· ≤ ·)).map some ∧
      (seeds.map (·.file)).Perm (csvs.map (·.name)) ∧
      ∀ s ∈ seeds, seedId digits s.file = .ok s.seed := by
  obtain ⟨files, hfiles, h⟩ := bind_eq_ok.mp h
  obtain ⟨hnil, numbered, rfl, hlabelled, rfl⟩ := driverFiles_eq_ok.mp hfiles
  obtain ⟨hrows, hlabels⟩ := labels_of_mapM h
  set files := numbered.insertionSort fun p p' => p.1.getD 0 ≤ p'.1.getD 0
  have hperm : files.Perm numbered := numbered.perm_insertionSort _
  have hseed : files.map Prod.fst = seeds.map (·.seed) := by
    simpa [Function.comp_def] using congrArg (List.map Prod.fst) hlabels
  have hfile : files.map (·.2.name) = seeds.map (·.file) := by
    simpa [Function.comp_def] using congrArg (List.map Prod.snd) hlabels
  refine ⟨hnil, ?_, _, hlabelled.numbered, ?_, ?_, ?_⟩
  · intro csv hcsv
    obtain ⟨p, hp, rfl⟩ := List.mem_map.mp ((hperm.map Prod.snd).mem_iff.mpr hcsv)
    exact hrows p hp
  · rw [← hseed, hlabelled.map_fst_insertionSort]
  · rw [← hfile, List.map_map]
    exact hperm.map _
  · intro s hs
    have hmem : (s.seed, s.file) ∈ seeds.map fun s => (s.seed, s.file) := List.mem_map_of_mem hs
    rw [← hlabels] at hmem
    obtain ⟨p, hp, hps⟩ := List.mem_map.mp hmem
    obtain ⟨hseed, hfile⟩ := Prod.mk.inj hps
    rw [← hseed, ← hfile]
    exact (hlabelled p (hperm.mem_iff.mp hp)).1

/-- Whatever has files that are numbered and can be read is read. -/
theorem exists_readFiles (sort : PySort) (slo : ℚ) (hnil : csvs ≠ []) (hread : Readable csvs)
    (hnumbers : Numbered digits csvs numbers) :
    ∃ seeds, readFiles digits sort csvs slo = .ok seeds := by
  obtain ⟨numbered, hcsvs, hlabelled⟩ := hnumbers.labelled
  have hfiles := driverFiles_eq_ok.mpr ⟨hnil, numbered, hcsvs, hlabelled, rfl⟩
  set files := numbered.insertionSort fun p p' => p.1.getD 0 ≤ p'.1.getD 0
  have hperm : files.Perm numbered := numbered.perm_insertionSort _
  choose! rows hrows using hread
  refine ⟨files.map fun p => seedStats sort p.2.name p.1 (rows p.2) slo,
    bind_eq_ok.mpr ⟨files, hfiles, mapM_eq_ok.mpr ?_⟩⟩
  rw [List.forall₂_map_right_iff, List.forall₂_same]
  intro p hp
  have hmem : p.2 ∈ csvs := hcsvs ▸ List.mem_map_of_mem (hperm.mem_iff.mp hp)
  exact statsOf_eq_ok.mpr ⟨rows p.2, hrows p.2 hmem, rfl⟩

/-- With what the files hold, `read_run` is the one that is modelled without files. -/
theorem readFiles_eq_readRun (sort : PySort) (slo : ℚ) {rows : CsvFile → List CsvRow}
    (hseeds : ∀ p ∈ files, seedId digits p.2.name = .ok p.1)
    (hrows : ∀ p ∈ files, p.2.rows = .ok (rows p.2)) :
    readFiles digits sort (files.map Prod.snd) slo =
      readRun sort (files.map fun p => ⟨p.2.name, p.1, rows p.2⟩) slo := by
  set toCsv : SeedId × CsvFile → DriverCsv := fun p => ⟨p.2.name, p.1, rows p.2⟩
  have hnumbered := uncaught_eq_ok.mpr (mapM_seedId_eq_ok.mpr ⟨rfl, hseeds⟩)
  have hunnumbered : unnumbered (files.map toCsv) =
      ((files.filter fun p => p.1 = none).map (·.2.name)).insertionSort (· ≤ ·) := by
    rw [unnumbered, List.filter_map, List.map_map]
    rfl
  have hsorted : (files.map toCsv).insertionSort (fun csv csv' => csv.seed.getD 0 ≤ csv'.seed.getD 0) =
      (files.insertionSort fun p p' => p.1.getD 0 ≤ p'.1.getD 0).map toCsv :=
    (List.map_insertionSort _ _ toCsv files fun _ _ _ _ => Iff.rfl).symm
  rw [readFiles, driverFiles, readRun, driverCsvs, hunnumbered, hsorted]
  by_cases hnil : files = []
  · rw [hnil]
    rfl
  · have hmap {β : Type} (f : SeedId × CsvFile → β) : files.map f ≠ [] := mt List.map_eq_nil_iff.mp hnil
    rw [if_neg (hmap _), if_neg (hmap _), hnumbered, ok_bind]
    dsimp only
    split_ifs with hnone
    · rfl
    · rw [ok_bind, ok_bind]
      refine mapM_eq_ok.mpr ?_
      rw [List.map_map, List.forall₂_map_right_iff, List.forall₂_same]
      intro p hp
      exact statsOf_eq_ok.mpr ⟨_, hrows p ((List.mem_insertionSort _).mp hp), rfl⟩

end Reading

/-! ### Like with like -/

variable {ω : Type}

/-- The files of a directory have these numbers, one each. -/
structure OnePerSeed (digits : PyDigits) (d : Directory ω) (names : List String) (numbers : List ℕ) :
    Prop where
  /-- They are the files of the directory. -/
  perm : names.Perm (d.csvs.map (·.name))
  /-- They are named after the numbers. -/
  isSeedCsv : List.Forall₂ (IsSeedCsv digits) names numbers

/-- The names of a directory have only digits for the star, and no number comes twice. -/
structure WellNamed (digits : PyDigits) (d : Directory ω) : Prop where
  /-- There are only digits. -/
  isdigit : ∀ csv ∈ d.csvs, ∀ c ∈ csv.wild, digits.isdigit c
  /-- No number comes twice. -/
  nodup : (d.csvs.map fun csv => seedId digits csv.name).Nodup

section Names

variable {digits : PyDigits} {sort : PySort} {d : Directory ω} {slo : ℚ} {seeds : List SeedStats}
  {names : List String} {numbers : List ℕ}

/-- With such names, the observations have one file for each number. -/
theorem WellNamed.onePerSeed (hwell : WellNamed digits d) (h : readFiles digits sort d.csvs slo = .ok seeds)
    (hnumbers : seeds.map (·.seed) = numbers.map some) :
    OnePerSeed digits d (seeds.map (·.file)) numbers := by
  obtain ⟨-, -, -, -, -, hperm, hlabels⟩ := readFiles_eq_ok h
  refine ⟨hperm, ?_⟩
  rw [List.forall₂_map_left_iff]
  have hboth := (List.forall₂_and_left seeds numbers).mpr ⟨fun s hs => hs, map_eq_map_iff_forall₂.mp hnumbers⟩
  refine hboth.imp fun s n hs => ?_
  obtain ⟨hs, hseed⟩ := hs
  obtain ⟨csv, hcsv, hname⟩ := List.mem_map.mp (hperm.mem_iff.mp (List.mem_map_of_mem hs))
  rw [← hname]
  refine isSeedCsv_of_digits (hwell.isdigit csv hcsv) ?_
  rw [hname, hlabels s hs, hseed]

/-- And no number comes twice. -/
theorem WellNamed.nodup_numbers (hwell : WellNamed digits d) (h : Numbered digits d.csvs numbers) :
    numbers.Nodup := by
  have hnodup := hwell.nodup
  rw [numbered_iff_map_eq.mp h] at hnodup
  exact hnodup.of_map

/-- Only such names have one file for each number. -/
theorem OnePerSeed.wellNamed (h : OnePerSeed digits d names numbers) (hnodup : numbers.Nodup) :
    WellNamed digits d := by
  constructor
  · intro csv hcsv
    obtain ⟨n, -, hn⟩ := exists_of_forall₂_of_mem h.isSeedCsv
      (h.perm.mem_iff.mpr (List.mem_map_of_mem hcsv))
    exact hn.isdigit_wild
  · have hnames : names.map (seedId digits) = numbers.map fun n => .ok (some n) :=
      map_eq_map_iff_forall₂.mpr (h.isSeedCsv.imp fun _ _ hn => hn.seedId_eq)
    have hperm : (d.csvs.map fun csv => seedId digits csv.name).Perm (names.map (seedId digits)) := by
      simpa [Function.comp_def] using (h.perm.map (seedId digits)).symm
    rw [hperm.nodup_iff, hnames]
    exact hnodup.map fun n n' h => Option.some.inj (Except.ok.inj h)

end Names

/-- The two arms have one file for each number, in the same order. -/
structure LikeWithLike (digits : PyDigits) (candDir baseDir : Directory ω) (cand base : List String)
    (numbers : List ℕ) : Prop where
  /-- No number comes twice. -/
  nodup : numbers.Nodup
  /-- The files of the candidate. -/
  cand : OnePerSeed digits candDir cand numbers
  /-- Those of the baseline. -/
  base : OnePerSeed digits baseDir base numbers

section Comparison

variable [DecidableEq ω] (digits : PyDigits) (sort : PySort) (candDir baseDir : Directory ω)

/-- `cmd_compare` compares like with like, and nothing else. -/
structure ComparesLikeWithLike (draw : ℕ → ℕ) (metric : String) (slo : ℚ) : Prop where
  /-- The observations that get past the seed check are paired. -/
  pairs : ∀ cand base,
    seedCheck (candDir.runDir digits sort) (baseDir.runDir digits sort) slo = .ok (cand, base) →
      ∃ numbers, LikeWithLike digits candDir baseDir (cand.map (·.file)) (base.map (·.file)) numbers
  /-- Directories whose files cannot be paired are refused. -/
  refuses : (¬ ∃ cand base numbers, LikeWithLike digits candDir baseDir cand base numbers) →
    ∃ e, cmdCompare sort draw (candDir.runDir digits sort) (baseDir.runDir digits sort) metric slo = .error e

/-- What the seed check looks at: the runs are comparable, and have the same numbers. -/
structure SameNumbers : Prop where
  /-- The runs are comparable. -/
  comparable : checkComparable (candDir.runDir digits sort) (baseDir.runDir digits sort) = .ok ()
  /-- The files of the candidate can be read. -/
  cand_readable : Readable candDir.csvs
  /-- Those of the baseline can. -/
  base_readable : Readable baseDir.csvs
  /-- There are files, all have a number, and the numbers of the two directories are the same. -/
  numbers : ∃ numbers numbers', numbers ≠ [] ∧ Numbered digits candDir.csvs numbers ∧
    Numbered digits baseDir.csvs numbers' ∧ numbers.Perm numbers'

variable {digits sort candDir baseDir} {slo : ℚ} {cand base : List SeedStats}

theorem seedCheck_eq_ok {candDir baseDir : RunDir ω} : seedCheck candDir baseDir slo = .ok (cand, base) ↔
    checkComparable candDir baseDir = .ok () ∧ candDir.readRun slo = .ok cand ∧
      baseDir.readRun slo = .ok base ∧ cand.map (·.seed) = base.map (·.seed) := by
  rw [seedCheck]
  constructor
  · intro h
    obtain ⟨_, hcomparable, h⟩ := bind_eq_ok.mp h
    obtain ⟨cand', hcand, h⟩ := bind_eq_ok.mp h
    obtain ⟨base', hbase, h⟩ := bind_eq_ok.mp h
    dsimp only at h
    split_ifs at h with hseeds
    obtain ⟨rfl, rfl⟩ := Prod.mk.inj (Except.ok.inj h)
    exact ⟨hcomparable, hcand, hbase, not_not.mp hseeds⟩
  · rintro ⟨hcomparable, hcand, hbase, hseeds⟩
    rw [hcomparable, hcand, hbase]
    exact if_neg (not_not.mpr hseeds)

/-- The seed check passes exactly if the numbers are the same. -/
theorem exists_seedCheck_iff :
    (∃ arms, seedCheck (candDir.runDir digits sort) (baseDir.runDir digits sort) slo = .ok arms) ↔
      SameNumbers digits sort candDir baseDir := by
  constructor
  · rintro ⟨⟨cand, base⟩, h⟩
    obtain ⟨hcomparable, hcand, hbase, hseeds⟩ := seedCheck_eq_ok.mp h
    obtain ⟨hnil, hread, numbers, hnumbers, hcand, -, -⟩ := readFiles_eq_ok hcand
    obtain ⟨-, hread', numbers', hnumbers', hbase, -, -⟩ := readFiles_eq_ok hbase
    refine ⟨hcomparable, hread, hread', numbers, numbers', ?_, hnumbers, hnumbers', ?_⟩
    · rintro rfl
      exact hnil (List.forall₂_nil_right_iff.mp hnumbers)
    · rw [hcand, hbase] at hseeds
      exact insertionSort_eq_iff.mp (List.map_injective_iff.mpr (Option.some_injective ℕ) hseeds)
  · rintro ⟨hcomparable, hread, hread', numbers, numbers', hne, hnumbers, hnumbers', hperm⟩
    have hnil : candDir.csvs ≠ [] := fun h => hne (List.forall₂_nil_left_iff.mp (h ▸ hnumbers))
    have hnil' : baseDir.csvs ≠ [] := by
      intro h
      obtain rfl := List.forall₂_nil_left_iff.mp (h ▸ hnumbers')
      exact hne hperm.eq_nil
    obtain ⟨cand, hcand⟩ := exists_readFiles sort slo hnil hread hnumbers
    obtain ⟨base, hbase⟩ := exists_readFiles sort slo hnil' hread' hnumbers'
    obtain ⟨-, -, _, hcandNumbers, hcandSeeds, -, -⟩ := readFiles_eq_ok hcand
    obtain ⟨-, -, _, hbaseNumbers, hbaseSeeds, -, -⟩ := readFiles_eq_ok hbase
    obtain rfl := hnumbers.unique hcandNumbers
    obtain rfl := hnumbers'.unique hbaseNumbers
    refine ⟨(cand, base), seedCheck_eq_ok.mpr ⟨hcomparable, hcand, hbase, ?_⟩⟩
    rw [hcandSeeds, hbaseSeeds, insertionSort_eq_iff.mpr hperm]

/-- What gets past the seed check is paired, if the names are such. -/
theorem likeWithLike_of_wellNamed (hcandDir : WellNamed digits candDir) (hbaseDir : WellNamed digits baseDir)
    (h : seedCheck (candDir.runDir digits sort) (baseDir.runDir digits sort) slo = .ok (cand, base)) :
    ∃ numbers, LikeWithLike digits candDir baseDir (cand.map (·.file)) (base.map (·.file)) numbers := by
  obtain ⟨-, hcand, hbase, hseeds⟩ := seedCheck_eq_ok.mp h
  obtain ⟨-, -, numbers, hnumbers, hcandSeeds, -, -⟩ := readFiles_eq_ok hcand
  have hnodup : (numbers.insertionSort (· ≤ ·)).Nodup :=
    (List.perm_insertionSort _ _).nodup_iff.mpr (hcandDir.nodup_numbers hnumbers)
  exact ⟨_, hnodup, hcandDir.onePerSeed hcand hcandSeeds,
    hbaseDir.onePerSeed hbase (hseeds.symm.trans hcandSeeds)⟩

variable (digits sort candDir baseDir) in
/-- Like is compared with like exactly if the names are such, unless the seed check fails anyway. -/
theorem likeWithLike_iff (draw : ℕ → ℕ) (metric : String) (slo : ℚ) :
    ComparesLikeWithLike digits sort candDir baseDir draw metric slo ↔
      (SameNumbers digits sort candDir baseDir → WellNamed digits candDir ∧ WellNamed digits baseDir) := by
  constructor
  · intro h hsame
    obtain ⟨⟨cand, base⟩, hcheck⟩ := exists_seedCheck_iff.mpr hsame
    obtain ⟨numbers, hlike⟩ := h.pairs cand base hcheck
    exact ⟨hlike.cand.wellNamed hlike.nodup, hlike.base.wellNamed hlike.nodup⟩
  · intro h
    have hpairs : ∀ cand base,
        seedCheck (candDir.runDir digits sort) (baseDir.runDir digits sort) slo = .ok (cand, base) →
          ∃ numbers, LikeWithLike digits candDir baseDir (cand.map (·.file)) (base.map (·.file)) numbers := by
      intro cand base hcheck
      obtain ⟨hcandDir, hbaseDir⟩ := h (exists_seedCheck_iff.mp ⟨_, hcheck⟩)
      exact likeWithLike_of_wellNamed hcandDir hbaseDir hcheck
    refine ⟨hpairs, fun hnone => ?_⟩
    rw [cmdCompare_eq_bind]
    cases hcheck : seedCheck (candDir.runDir digits sort) (baseDir.runDir digits sort) slo with
    | error e => exact ⟨e, rfl⟩
    | ok arms =>
      obtain ⟨numbers, hlike⟩ := hpairs arms.1 arms.2 hcheck
      exact absurd ⟨_, _, numbers, hlike⟩ hnone

end Comparison

/-- A directory with a single CSV, of one request. -/
def oneCsv (wild : Text) : Directory Unit :=
  ⟨none, [⟨wild, .ok [⟨0, some (1 / 10), some 1, some 1, "ok", []⟩]⟩], List.nodup_singleton _, ∅⟩

/-- `driver-seed12.csv` is paired with `driver-seed1-run2.csv`. -/
theorem unlike_seeds_paired : ¬ ComparesLikeWithLike .ascii .insertion (oneCsv "12".toList)
    (oneCsv "1-run2".toList) id "throughput_req_s" ttftSloS := by
  intro h
  have hnumbered (wild : Text) (hdigits : wild.filter PyDigits.ascii.isdigit = "12".toList) :
      Numbered .ascii (oneCsv wild).csvs [12] := by
    refine .cons ?_ .nil
    rw [CsvFile.name, seedId_ofList, hdigits, if_neg (by decide),
      PyDigits.ascii.int_ascii _ (by decide) (by simp) (by decide)]
    rfl
  have hread (wild : Text) : Readable (oneCsv wild).csvs := by
    intro csv hcsv
    obtain rfl := List.mem_singleton.mp hcsv
    exact ⟨_, rfl⟩
  have hsame : SameNumbers .ascii .insertion (oneCsv "12".toList) (oneCsv "1-run2".toList) :=
    ⟨rfl, hread _, hread _, [12], [12], List.cons_ne_nil _ _, hnumbered _ (by decide),
      hnumbered _ (by decide), .refl _⟩
  obtain ⟨⟨cand, base⟩, hcheck⟩ := exists_seedCheck_iff.mpr hsame
  obtain ⟨numbers, hlike⟩ := h.pairs cand base hcheck
  have hdash := (hlike.base.wellNamed hlike.nodup).isdigit _ List.mem_cons_self '-' (by decide)
  exact absurd hdash (by decide)

end CachingInLLMs.Benchmarks.PairedSeeds

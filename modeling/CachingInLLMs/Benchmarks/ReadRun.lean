import CachingInLLMs.Benchmarks.Compare
import CachingInLLMs.Benchmarks.Imbalance

/-!
# The seeds of a cell

`read_run` has the statistics of every driver CSV of a cell, in the order of the seed
numbers. It exits if there is no CSV, or one whose name has no number.
-/

namespace CachingInLLMs.Benchmarks

open CachingInLLMs.Library

/-- The CSVs without a seed number, sorted by name. -/
def unnumbered (csvs : List DriverCsv) : List String :=
  ((csvs.filter fun csv => csv.seed = none).map (·.file)).insertionSort (· ≤ ·)

/-- `_driver_csvs`: the CSVs of a cell in the order of their numbers. -/
def driverCsvs (csvs : List DriverCsv) : Except Failure (List DriverCsv) :=
  if csvs = [] then .error (.systemExit .noDriverCsvs)
  else if unnumbered csvs ≠ [] then .error (.systemExit (.unnumberedCsvs (unnumbered csvs)))
  else .ok (csvs.insertionSort fun csv csv' => csv.seed.getD 0 ≤ csv'.seed.getD 0)

/-- `read_run`. -/
def readRun (sort : PySort) (csvs : List DriverCsv) (slo : ℚ) :
    Except Failure (List SeedStats) := do
  let csvs ← driverCsvs csvs
  return csvs.map fun csv => seedStats sort csv.file csv.seed csv.rows slo

section ReadRun

variable {csvs : List DriverCsv}

theorem unnumbered_eq_nil : unnumbered csvs = [] ↔ ∀ csv ∈ csvs, csv.seed.isSome := by
  rw [unnumbered, ← List.length_eq_zero_iff, List.length_insertionSort, List.length_map,
    List.length_eq_zero_iff, List.filter_eq_nil_iff]
  simp [Option.isSome_iff_ne_none]

/-- The CSVs can be read exactly if there are some and all have a number. -/
theorem exists_readRun_iff (sort : PySort) (slo : ℚ) :
    (∃ seeds, readRun sort csvs slo = .ok seeds) ↔ csvs ≠ [] ∧ ∀ csv ∈ csvs, csv.seed.isSome := by
  rw [readRun, driverCsvs, ← unnumbered_eq_nil]
  constructor
  · rintro ⟨seeds, h⟩
    split_ifs at h with hnil hnumber
    · cases h
    · cases h
    · exact ⟨hnil, not_not.mp hnumber⟩
  · rintro ⟨hnil, hnumber⟩
    rw [if_neg hnil, if_neg (not_not.mpr hnumber)]
    exact ⟨_, rfl⟩

end ReadRun

end CachingInLLMs.Benchmarks

import CachingInLLMs.Benchmarks.DriverCsv
import CachingInLLMs.Library.Csv

/-!
# The results file

The driver opens its CSV with `newline=""` and the analysis opens it in text mode. An error is the text of an
exception, and the body of a response with it: it may have commas, quotes and line ends of any kind. None of that
moves a column or ends a row early; only the line ends in the `error` column are not what they were.

## The model

`Stdlib.UsesCsv` says that the two ends of the file are the writer and the reader of `Library.Csv`, in the modes
in which they are opened.

## What is proved

* `dictReader_writeResults`: the analysis reads one row for each request, with every column as it was written but
  for line ends.
* `errors_are_harmless`: what the statistics need of it is read exactly.
-/

namespace CachingInLLMs.Benchmarks.LoadDriver

open CachingInLLMs.Library

/-- The CSV of the driver and of the analysis. -/
structure Stdlib.UsesCsv (lib : Stdlib) : Prop where
  /-- `csv.DictWriter(f)`, its `writeheader()` and `writerow(...)`. -/
  write : ∀ header rows, lib.csvWrite header rows = Csv.writeRows (header :: rows)
  /-- `csv.DictReader(open(path))`. -/
  read : ∀ text rows, Csv.dictReader (fileLines text) = .ok (rows.map Csv.fullRow) → lib.dictReader text = rows

/-- A number is printed without a carriage return. -/
structure Stdlib.PrintsNumbers (lib : Stdlib) : Prop where
  /-- `str(x)`. -/
  str : ∀ q, '\r' ∉ lib.str q
  /-- `f"{x:.2f}"`. -/
  fixed2 : ∀ q, '\r' ∉ lib.fixed2 q

/-- A row as it is read in text mode. -/
def Result.textRow (lib : Stdlib) (r : Result) : Dict Text Text :=
  (Dict.ofList (fieldnames.zip (r.row lib))).mapValues universalNewlines

section ResultsFile

variable {lib : Stdlib} {req : Request} {x : Exchange} {workload : List (Request × Exchange)}

theorem textRow_eq (lib : Stdlib) (r : Result) :
    r.textRow lib = Dict.ofList (fieldnames.zip ((r.row lib).map universalNewlines)) := by
  rw [Result.textRow, Dict.mapValues_ofList, List.zip_map_right]
  rfl

/-- **The rows are read back**, with other line ends. -/
theorem dictReader_writeResults (hcsv : lib.UsesCsv) {results : List Result}
    (hlimit : ∀ r ∈ results, ∀ field ∈ r.row lib, field.length ≤ Csv.fieldLimit) :
    lib.dictReader (writeResults lib results) = (sortedResults results).map fun r => r.textRow lib := by
  have hheader : ∀ field ∈ fieldnames, field.length ≤ Csv.fieldLimit := by decide +kernel
  have hrows : ∀ row ∈ fieldnames :: (sortedResults results).map (Result.row lib),
      row ≠ [] ∧ ∀ field ∈ row, field.length ≤ Csv.fieldLimit := by
    rw [List.forall_mem_cons]
    refine ⟨⟨List.cons_ne_nil _ _, hheader⟩, fun row hrow => ?_⟩
    obtain ⟨r, hr, rfl⟩ := List.mem_map.mp hrow
    exact ⟨List.cons_ne_nil _ _, hlimit r ((List.perm_insertionSort _ _).mem_iff.mp hr)⟩
  have hnames : fieldnames.map universalNewlines = fieldnames := by decide +kernel
  have hread := Csv.reader_fileLines hrows
  rw [List.map_cons, hnames, List.map_map] at hread
  have hlength : ∀ row ∈ (sortedResults results).map (fun r => (r.row lib).map universalNewlines),
      row.length = fieldnames.length := by
    intro row hrow
    obtain ⟨r, -, rfl⟩ := List.mem_map.mp hrow
    rfl
  have hdicts := Csv.dictReader_of_reader hread (List.cons_ne_nil _ _) hlength
  apply hcsv.read
  rw [writeResults, hcsv.write, hdicts]
  simp only [textRow_eq, List.map_map, Function.comp_def]

/-! ### Columns without line ends -/

theorem universalNewlines_intText (n : ℤ) : universalNewlines (intText n) = intText n := by
  refine universalNewlines_of_not_mem fun h => ?_
  have hspace : isSpace '\r' = true := by decide
  rw [isSpace_eq_false_of_mem_intText h] at hspace
  cases hspace

theorem universalNewlines_field {α : Type} {print : α → Text} (h : ∀ a, universalNewlines (print a) = print a)
    (value : Option α) : universalNewlines (field print value) = field print value := by
  cases value with
  | none => rfl
  | some a => exact h a

theorem return_not_mem_joinItls (hprints : lib.PrintsNumbers) (times : List ℚ) : '\r' ∉ joinItls lib times := by
  rw [joinItls]
  induction times with
  | nil => exact List.not_mem_nil
  | cons t times ih =>
    cases times with
    | nil =>
      rw [List.map_singleton, List.intercalate_singleton]
      exact hprints.fixed2 _
    | cons t' times =>
      simp only [List.map_cons, List.intercalate_cons_cons, List.mem_append, List.mem_singleton, not_or] at ih ⊢
      exact ⟨⟨hprints.fixed2 _, by decide⟩, ih⟩

theorem universalNewlines_itlsMs (hprints : lib.PrintsNumbers) (req : Request) (x : Exchange) :
    universalNewlines (oneRequest lib req x).itlsMs = (oneRequest lib req x).itlsMs := by
  cases hcompletes : x.completes lib with
  | true =>
    obtain ⟨_, _, hresult⟩ := oneRequest_of_completes hcompletes req
    rw [hresult]
    exact universalNewlines_of_not_mem (return_not_mem_joinItls hprints _)
  | false =>
    obtain ⟨_, _, hresult⟩ := oneRequest_of_fails hcompletes req
    rw [hresult]
    rfl

theorem universalNewlines_status (lib : Stdlib) (req : Request) (x : Exchange) :
    universalNewlines (oneRequest lib req x).status = (oneRequest lib req x).status := by
  rw [oneRequest]
  split <;> rfl

theorem column_textRow {r : Result} {name : String} {text : Text}
    (h : column (Dict.ofList (fieldnames.zip (r.row lib))) name = .ok text) (hline : universalNewlines text = text) :
    column (r.textRow lib) name = .ok text := by
  rw [column] at h ⊢
  rw [Result.textRow, Dict.get?_mapValues]
  cases hget : (Dict.ofList (fieldnames.zip (r.row lib))).get? name.toList with
  | none =>
    rw [hget] at h
    cases h
  | some text' =>
    rw [hget] at h
    cases h
    exact congrArg Except.ok hline

/-- What the statistics need of a row is as it was written. -/
theorem readRow_textRow (hprints : lib.PrintsNumbers) (req : Request) (x : Exchange) :
    readRow lib ((oneRequest lib req x).textRow lib) =
      readRow lib (Dict.ofList (fieldnames.zip ((oneRequest lib req x).row lib))) := by
  have hstr (q : ℚ) : universalNewlines (lib.str q) = lib.str q := universalNewlines_of_not_mem (hprints.str q)
  obtain ⟨hsend, httft, he2e, htokens, hstatus, hitls, -⟩ := column_row lib (oneRequest lib req x)
  have hitls' : readItls lib ((oneRequest lib req x).textRow lib) =
      readItls lib (Dict.ofList (fieldnames.zip ((oneRequest lib req x).row lib))) := by
    rw [readItls, readItls, Result.textRow, Dict.get?_mapValues, hitls, Option.map_some,
      universalNewlines_itlsMs hprints]
  rw [readRow, readRow, hsend, column_textRow hsend (hstr _), httft,
    column_textRow httft (universalNewlines_field hstr _), he2e, column_textRow he2e (universalNewlines_field hstr _),
    htokens, column_textRow htokens (universalNewlines_field universalNewlines_intText _), hstatus,
    column_textRow hstatus (universalNewlines_status lib req x), hitls']

/-- **Errors are harmless**: whatever the texts of the errors, the statistics are made of the rows of the workload,
one for each request, and the texts are there too, but for their line ends. -/
theorem errors_are_harmless (hcsv : lib.UsesCsv) (hprints : lib.PrintsNumbers)
    (hexact : ∀ r ∈ workload, lib.Exact r.1 r.2)
    (hlimit : ∀ r ∈ workload, ∀ field ∈ (oneRequest lib r.1 r.2).row lib, field.length ≤ Csv.fieldLimit) :
    (∃ rows, (lib.dictReader (writeResults lib (runOpenLoop lib workload))).mapM (readRow lib) = .ok rows ∧
        rows.Perm (workload.map fun r => rowOf lib r.1 r.2)) ∧
      ((lib.dictReader (writeResults lib (runOpenLoop lib workload))).map fun row =>
          (row.get? "index".toList, row.get? "error".toList)).Perm
        (workload.map fun r =>
          (some (intText r.1.index), some (universalNewlines (oneRequest lib r.1 r.2).error))) := by
  let sorted := workload.insertionSort fun r r' => r.1.index ≤ r'.1.index
  have hperm : sorted.Perm workload := List.perm_insertionSort _ _
  have hlimit' : ∀ r ∈ runOpenLoop lib workload, ∀ field ∈ r.row lib, field.length ≤ Csv.fieldLimit := by
    intro r hr
    obtain ⟨r', hr', rfl⟩ := List.mem_map.mp hr
    exact hlimit r' hr'
  have hread : lib.dictReader (writeResults lib (runOpenLoop lib workload)) =
      sorted.map fun r => (oneRequest lib r.1 r.2).textRow lib := by
    rw [dictReader_writeResults hcsv hlimit', sortedResults_runOpenLoop, List.map_map]
    rfl
  refine ⟨⟨sorted.map fun r => rowOf lib r.1 r.2, ?_, hperm.map _⟩, ?_⟩
  · rw [hread, List.mapM_map]
    refine mapM_eq_map fun r hr => ?_
    rw [Function.comp_apply, readRow_textRow hprints]
    exact readRow_row (hexact r (hperm.mem_iff.mp hr))
  · have hcolumns (r : Request × Exchange) :
        (((oneRequest lib r.1 r.2).textRow lib).get? "index".toList,
          ((oneRequest lib r.1 r.2).textRow lib).get? "error".toList) =
          (some (intText r.1.index), some (universalNewlines (oneRequest lib r.1 r.2).error)) := by
      obtain ⟨-, -, -, -, -, -, hindex⟩ := column_row lib (oneRequest lib r.1 r.2)
      have hnodup : (fieldnames.zip ((oneRequest lib r.1 r.2).row lib)).map Prod.fst = fieldnames := rfl
      have herror : (Dict.ofList (fieldnames.zip ((oneRequest lib r.1 r.2).row lib))).get? "error".toList =
          some (oneRequest lib r.1 r.2).error := by
        rw [Dict.get?_ofList (by rw [hnodup]; decide +kernel)]
        rfl
      rw [Result.textRow, Dict.get?_mapValues, Dict.get?_mapValues, hindex, herror, Option.map_some, Option.map_some,
        universalNewlines_intText, index_oneRequest]
    rw [hread, List.map_map]
    simp only [Function.comp_def, hcolumns]
    exact hperm.map _

end ResultsFile

/-! ### An error of several lines -/

/-- The library with the CSV module. -/
def csvStdlib : Stdlib where
  loads := sampleStdlib.loads
  str := sampleStdlib.str
  fixed2 := sampleStdlib.fixed2
  float := sampleStdlib.float
  int := sampleStdlib.int
  csvWrite header rows := Csv.writeRows (header :: rows)
  dictReader text :=
    match Csv.dictReader (fileLines text) with
    | .ok rows => rows.map fun row => row.columns.mapValues (·.getD [])
    | .error _ => []

theorem usesCsv_csvStdlib : csvStdlib.UsesCsv where
  write _ _ := rfl
  read text rows h := by
    have hrow (row : Dict Text Text) : (Csv.fullRow row).columns.mapValues (·.getD []) = row := by
      refine Dict.ext_get? (by rw [Csv.fullRow, Dict.keys_mapValues, Dict.keys_mapValues]) fun k => ?_
      rw [Csv.fullRow, Dict.get?_mapValues, Dict.get?_mapValues]
      cases row.get? k <;> rfl
    rw [csvStdlib]
    dsimp only
    rw [h]
    dsimp only
    rw [List.map_map]
    simp only [Function.comp_def, hrow, List.map_id']

theorem printsNumbers_csvStdlib : csvStdlib.PrintsNumbers := by
  have hfloats : ∀ p ∈ sampleFloats, '\r' ∉ p.2 := by decide +kernel
  have hlookup (q : ℚ) : '\r' ∉ (sampleFloats.lookup q).getD [] := by
    cases h : sampleFloats.lookup q with
    | none => exact List.not_mem_nil
    | some text =>
      obtain ⟨before, after, hitems, -⟩ := List.lookup_eq_some_iff.mp h
      exact hfloats (q, text) (by rw [hitems]; simp)
  exact ⟨hlookup, hlookup⟩

/-- The router answers one request with a traceback, and the other has one token. -/
def tracebackWorkload : List (Request × Exchange) :=
  [(⟨1, 0⟩, ⟨0, 101, .ok ⟨500, .ok "Traceback,\r\n\"KeyError\": None\r\n".toList, [], none, none⟩, 1 / 2⟩),
    (⟨0, 0⟩, ⟨0, 100, .ok ⟨200, .ok [], [(dataLine tokenChunk, 1 / 10), (dataLine donePayload, 1 / 2)], none, none⟩,
      1 / 2⟩)]

theorem exact_tracebackWorkload : ∀ r ∈ tracebackWorkload, csvStdlib.Exact r.1 r.2 := by
  have hfloat : ∀ r ∈ tracebackWorkload, ∀ q ∈ (oneRequest csvStdlib r.1 r.2).floats,
      csvStdlib.str q ≠ [] ∧ csvStdlib.float (csvStdlib.str q) = .ok q := by decide +kernel
  have hint : ∀ r ∈ tracebackWorkload, (oneRequest csvStdlib r.1 r.2).completionTokens = none := by decide +kernel
  have hgaps : ∀ r ∈ tracebackWorkload, gaps (r.2.tokenTimes csvStdlib) = [] := by decide +kernel
  intro r hr
  refine ⟨hfloat r hr, fun n hn => ?_, fun gap hgap => ?_⟩
  · rw [hint r hr] at hn
    cases hn
  · rw [hgaps r hr] at hgap
    cases hgap

/-- Two rows are read, and the error without its carriage return. -/
theorem errors_are_harmless_traceback :
    (∃ rows, (csvStdlib.dictReader (writeResults csvStdlib (runOpenLoop csvStdlib tracebackWorkload))).mapM
        (readRow csvStdlib) = .ok rows ∧ rows.Perm (tracebackWorkload.map fun r => rowOf csvStdlib r.1 r.2)) ∧
      ((csvStdlib.dictReader (writeResults csvStdlib (runOpenLoop csvStdlib tracebackWorkload))).map fun row =>
          (row.get? "index".toList, row.get? "error".toList)).Perm
        [(some "1".toList, some "RuntimeError: HTTP 500: Traceback,\n\"KeyError\": None".toList),
          (some "0".toList, some [])] := by
  have hlimit : ∀ r ∈ tracebackWorkload, ∀ field ∈ (oneRequest csvStdlib r.1 r.2).row csvStdlib,
      field.length ≤ Csv.fieldLimit := by decide +kernel
  have hcolumns : (tracebackWorkload.map fun r =>
      (some (intText r.1.index), some (universalNewlines (oneRequest csvStdlib r.1 r.2).error))) =
        [(some "1".toList, some "RuntimeError: HTTP 500: Traceback,\n\"KeyError\": None".toList),
          (some "0".toList, some [])] := by decide +kernel
  have h := errors_are_harmless usesCsv_csvStdlib printsNumbers_csvStdlib exact_tracebackWorkload hlimit
  rwa [hcolumns] at h

end CachingInLLMs.Benchmarks.LoadDriver

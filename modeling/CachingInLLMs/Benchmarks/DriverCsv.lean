import CachingInLLMs.Benchmarks.LoadDriver
import CachingInLLMs.Benchmarks.SeedStats

/-!
# From the driver to the analysis

The driver writes its rows to a CSV, and `seed_stats` reads them from it. Between the two
everything is text: `None` is an empty column, and the gaps of a request are one column,
joined with `;`.

## The model

`Result.row` is what is written of a row and `readRow` what `seed_stats` makes of it; the CSV
module is a parameter, and `Replay.RoundTrips` says that it returns the text of each column.
`Stdlib.Exact` says the same of the numbers of a row.

## What is proved

* `readRow_row`: a row is read as it was written, with the status that tells the two kinds of
  request apart.
* `driver_and_analysis_agree`: what the statistics say about the streams of a workload.
-/

namespace CachingInLLMs.Benchmarks.LoadDriver

open CachingInLLMs.Library

/-! ### Writing -/

/-- The columns: the fields of `Result`. -/
def fieldnames : List Text :=
  ["index".toList, "prefix_id".toList, "send_ts".toList, "ttft_s".toList, "e2e_s".toList, "prompt_tokens".toList,
    "completion_tokens".toList, "status".toList, "error".toList, "itls_ms".toList]

/-- A column; `None` is empty. -/
def field {α : Type} (print : α → Text) (value : Option α) : Text := (value.map print).getD []

section Csv

variable (lib : Stdlib)

/-- `dataclasses.asdict(r)`, as it is printed. -/
def Result.row (r : Result) : List Text :=
  [intText r.index, intText r.prefixId, lib.str r.sendTs, field lib.str r.ttftS, field lib.str r.e2eS,
    field intText r.promptTokens, field intText r.completionTokens, r.status, r.error, r.itlsMs]

/-- `run_open_loop`: every request of the workload has a row, in the order of the workload. -/
def runOpenLoop (workload : List (Request × Exchange)) : List Result :=
  workload.map fun (req, x) => oneRequest lib req x

/-- The rows that `main` writes, `sorted(results, key=lambda r: r.index)`. -/
def sortedResults (results : List Result) : List Result := results.insertionSort fun r r' => r.index ≤ r'.index

/-- The CSV that `main` writes. -/
def writeResults (results : List Result) : Text := lib.csvWrite fieldnames ((sortedResults results).map (Result.row lib))

/-! ### Reading -/

/-- `row[name]`. -/
def column (row : Dict Text Text) (name : String) : Except PyError Text :=
  match row.get? name.toList with
  | some text => .ok text
  | none => .error .keyError

/-- A column that may be empty. -/
def optional {α : Type} (parse : Text → Except PyError α) (text : Text) : Except PyError (Option α) :=
  if text = [] then .ok none else (parse text).map some

/-- `[float(x) for x in (row.get("itls_ms") or "").split(";") if x]`. -/
def readItls (row : Dict Text Text) : Except PyError (List ℚ) :=
  ((((row.get? "itls_ms".toList).getD []).splitOn ';').filter (· ≠ [])).mapM lib.float

/-- The columns of a row that `seed_stats` reads. It reads each where it needs it, and the TTFT and
the gaps of an error row not at all; here all are read, which no row of the driver refuses. -/
def readRow (row : Dict Text Text) : Except PyError CsvRow := do
  let sendTs ← lib.float (← column row "send_ts")
  let ttftS ← optional lib.float (← column row "ttft_s")
  let e2eS ← optional lib.float (← column row "e2e_s")
  let completionTokens ← optional lib.int (← column row "completion_tokens")
  let status ← column row "status"
  let itlsMs ← readItls lib row
  return ⟨sendTs, ttftS, e2eS, completionTokens, String.ofList status, itlsMs⟩

/-- `seed_stats`, of the text of a CSV. -/
def readSeedStats (sort : PySort) (file : String) (seed : SeedId) (text : Text) (slo : ℚ) : Except PyError SeedStats := do
  let rows ← (lib.dictReader text).mapM (readRow lib)
  return seedStats sort file seed rows slo

/-! ### A row is read as it was written -/

/-- The floats of a row. -/
def Result.floats (r : Result) : List ℚ := r.sendTs :: (r.ttftS.toList ++ r.e2eS.toList)

/-- A gap, as it is read: in milliseconds, with what `:.2f` left of it. -/
def itlMs (gap : ℚ) : ℚ :=
  match lib.float (lib.fixed2 (gap * 1000)) with
  | .ok ms => ms
  | .error _ => 0

/-- The numbers of a request's row print and parse exactly; of a gap two decimals are left. -/
structure Stdlib.Exact (req : Request) (x : Exchange) : Prop where
  /-- Floats. -/
  float : ∀ q ∈ (oneRequest lib req x).floats, lib.str q ≠ [] ∧ lib.float (lib.str q) = .ok q
  /-- Integers. -/
  int : ∀ n, (oneRequest lib req x).completionTokens = some n → lib.int (intText n) = .ok n
  /-- Gaps. -/
  fixed2 : ∀ gap ∈ gaps (x.tokenTimes lib), lib.fixed2 (gap * 1000) ≠ [] ∧ ';' ∉ lib.fixed2 (gap * 1000) ∧
    ∃ ms, lib.float (lib.fixed2 (gap * 1000)) = .ok ms

/-- The CSV module returns the text of every column. -/
def Stdlib.RoundTrips (rows : List (List Text)) : Prop :=
  lib.dictReader (lib.csvWrite fieldnames rows) = rows.map fun row => Dict.ofList (fieldnames.zip row)

/-- The row of a request, as it is read. -/
def rowOf (req : Request) (x : Exchange) : CsvRow :=
  let r := oneRequest lib req x
  ⟨r.sendTs, r.ttftS, r.e2eS, r.completionTokens, String.ofList r.status,
    if x.completes lib then (gaps (x.tokenTimes lib)).map (itlMs lib) else []⟩

end Csv

section RoundTrip

variable {lib : Stdlib} {req : Request} {x : Exchange}

theorem optional_field {α : Type} (print : α → Text) (parse : Text → Except PyError α) {value : Option α}
    (h : ∀ a, value = some a → print a ≠ [] ∧ parse (print a) = .ok a) :
    optional parse (field print value) = .ok value := by
  cases value with
  | none => rfl
  | some a =>
    obtain ⟨hne, hparse⟩ := h a rfl
    have hfield : field print (some a) = print a := rfl
    rw [hfield, optional, if_neg hne, hparse]
    rfl

/-- The gaps are read one by one. -/
theorem filter_splitOn_joinItls {times : List ℚ}
    (h : ∀ gap ∈ times, lib.fixed2 (gap * 1000) ≠ [] ∧ ';' ∉ lib.fixed2 (gap * 1000)) :
    ((joinItls lib times).splitOn ';').filter (· ≠ []) = times.map fun gap => lib.fixed2 (gap * 1000) := by
  rw [joinItls]
  cases times with
  | nil => rfl
  | cons t times =>
    rw [List.splitOn_intercalate, List.filter_eq_self]
    · simpa using fun gap hgap => (h gap hgap).1
    · intro text htext
      obtain ⟨gap, hgap, rfl⟩ := List.mem_map.mp htext
      exact (h gap hgap).2
    · exact fun hnil => nomatch hnil

/-- The columns that are read. -/
theorem column_row (lib : Stdlib) (r : Result) :
    let row := Dict.ofList (fieldnames.zip (r.row lib))
    column row "send_ts" = .ok (lib.str r.sendTs) ∧ column row "ttft_s" = .ok (field lib.str r.ttftS) ∧
      column row "e2e_s" = .ok (field lib.str r.e2eS) ∧
      column row "completion_tokens" = .ok (field intText r.completionTokens) ∧
      column row "status" = .ok r.status ∧ row.get? "itls_ms".toList = some r.itlsMs ∧
      row.get? "index".toList = some (intText r.index) := by
  have hkeys : (fieldnames.zip (r.row lib)).map Prod.fst = fieldnames := rfl
  have hnodup : ((fieldnames.zip (r.row lib)).map Prod.fst).Nodup := by
    rw [hkeys]
    decide +kernel
  simp only [column, Dict.get?_ofList hnodup]
  exact ⟨rfl, rfl, rfl, rfl, rfl, rfl, rfl⟩

/-- The gaps of a request that completes are read, and of one that fails there are none. -/
theorem readItls_row (h : lib.Exact req x) :
    readItls lib (Dict.ofList (fieldnames.zip ((oneRequest lib req x).row lib))) =
      .ok (if x.completes lib then (gaps (x.tokenTimes lib)).map (itlMs lib) else []) := by
  obtain ⟨-, -, -, -, -, hitls, -⟩ := column_row lib (oneRequest lib req x)
  rw [readItls, hitls, Option.getD_some]
  cases hcompletes : x.completes lib with
  | true =>
    obtain ⟨_, _, hresult⟩ := oneRequest_of_completes hcompletes req
    rw [hresult, filter_splitOn_joinItls fun gap hgap => ⟨(h.fixed2 gap hgap).1, (h.fixed2 gap hgap).2.1⟩, List.mapM_map,
      if_pos rfl]
    refine mapM_eq_map fun gap hgap => ?_
    obtain ⟨-, -, ms, hms⟩ := h.fixed2 gap hgap
    rw [Function.comp_apply, itlMs, hms]
  | false =>
    obtain ⟨_, _, hresult⟩ := oneRequest_of_fails hcompletes req
    rw [hresult]
    rfl

/-- **A row is read as it was written.** -/
theorem readRow_row (h : lib.Exact req x) :
    readRow lib (Dict.ofList (fieldnames.zip ((oneRequest lib req x).row lib))) = .ok (rowOf lib req x) := by
  have hitls := readItls_row h
  obtain ⟨hsend, httft, he2e, htokens, hstatus, -⟩ := column_row lib (oneRequest lib req x)
  have hfloat : ∀ q ∈ (oneRequest lib req x).floats, lib.str q ≠ [] ∧ lib.float (lib.str q) = .ok q := h.float
  have httft' : optional lib.float (field lib.str (oneRequest lib req x).ttftS) = _ :=
    optional_field lib.str lib.float fun q hq => hfloat q (by simp [Result.floats, hq])
  have he2e' : optional lib.float (field lib.str (oneRequest lib req x).e2eS) = _ :=
    optional_field lib.str lib.float fun q hq => hfloat q (by simp [Result.floats, hq])
  have htokens' : optional lib.int (field intText (oneRequest lib req x).completionTokens) = _ :=
    optional_field intText lib.int fun n hn => ⟨intText_ne_nil n, h.int n hn⟩
  rw [readRow, hsend, ok_bind, (hfloat _ List.mem_cons_self).2, ok_bind, httft, ok_bind, httft', ok_bind, he2e, ok_bind,
    he2e', ok_bind, htokens, ok_bind, htokens', ok_bind, hstatus, ok_bind, hitls]
  rfl

end RoundTrip

/-! ### The statistics of a workload -/

/-- The requests whose streams complete. -/
def completed (lib : Stdlib) (workload : List (Request × Exchange)) : List (Request × Exchange) :=
  workload.filter fun r => r.2.completes lib

section Agreement

variable {lib : Stdlib} {workload : List (Request × Exchange)}

theorem index_oneRequest (lib : Stdlib) (req : Request) (x : Exchange) : (oneRequest lib req x).index = req.index := by
  rw [oneRequest]
  split
  · rfl
  · rfl

/-- The rows that are written are those of the sorted workload. -/
theorem sortedResults_runOpenLoop (lib : Stdlib) (workload : List (Request × Exchange)) :
    sortedResults (runOpenLoop lib workload) =
      (workload.insertionSort fun r r' => r.1.index ≤ r'.1.index).map fun r => oneRequest lib r.1 r.2 := by
  rw [sortedResults, runOpenLoop]
  refine (List.map_insertionSort _ _ _ workload fun r _ r' _ => ?_).symm
  rw [index_oneRequest, index_oneRequest]

/-- The row of a stream that completes, as it is read. -/
theorem rowOf_of_completes (req : Request) {x : Exchange} (h : x.completes lib) :
    ∃ completionTokens, rowOf lib req x = ⟨x.wall0, x.firstTokenDelay lib, some (x.t1 - x.t0), completionTokens, "ok",
      (gaps (x.tokenTimes lib)).map (itlMs lib)⟩ := by
  obtain ⟨_, completionTokens, hresult⟩ := oneRequest_of_completes h req
  refine ⟨completionTokens, ?_⟩
  rw [rowOf, hresult, if_pos h]
  rfl

/-- The row of one that fails. -/
theorem status_rowOf_of_fails (req : Request) {x : Exchange} (h : x.completes lib = false) :
    (rowOf lib req x).status = "error" := by
  obtain ⟨_, _, hresult⟩ := oneRequest_of_fails h req
  rw [rowOf, hresult]
  rfl

/-- Of the rows that are read, those of the streams that complete have the status `ok`. -/
theorem okRows_map_rowOf (lib : Stdlib) (workload : List (Request × Exchange)) :
    okRows (workload.map fun r => rowOf lib r.1 r.2) = (completed lib workload).map fun r => rowOf lib r.1 r.2 := by
  have hstatus : ∀ r : Request × Exchange, decide ((rowOf lib r.1 r.2).status = "ok") = r.2.completes lib := by
    intro r
    cases hcompletes : r.2.completes lib with
    | true =>
      obtain ⟨_, hrow⟩ := rowOf_of_completes r.1 hcompletes
      rw [hrow]
      rfl
    | false =>
      rw [status_rowOf_of_fails r.1 hcompletes]
      rfl
  rw [okRows, List.filter_map, completed]
  congr 1
  exact List.filter_congr fun r _ => hstatus r

/-- The samples of the rows of the streams that complete. -/
theorem samples_completed (lib : Stdlib) (workload : List (Request × Exchange)) :
    let rows := (completed lib workload).map fun r => rowOf lib r.1 r.2
    rows.filterMap (·.ttftS) = (completed lib workload).filterMap (fun r => r.2.firstTokenDelay lib) ∧
      rows.filterMap (·.e2eS) = (completed lib workload).map (fun r => r.2.t1 - r.2.t0) ∧
      rows.flatMap (fun r => r.itlsMs.map (· / 1000)) =
        (completed lib workload).flatMap fun r => (gaps (r.2.tokenTimes lib)).map fun gap => itlMs lib gap / 1000 := by
  have hrow : ∀ r ∈ completed lib workload, ∃ completionTokens, rowOf lib r.1 r.2 = ⟨r.2.wall0, r.2.firstTokenDelay lib,
      some (r.2.t1 - r.2.t0), completionTokens, "ok", (gaps (r.2.tokenTimes lib)).map (itlMs lib)⟩ := by
    intro r hr
    exact rowOf_of_completes r.1 (List.mem_filter.mp hr).2
  refine ⟨?_, ?_, ?_⟩
  · rw [List.filterMap_map]
    refine List.filterMap_congr fun r hr => ?_
    obtain ⟨_, hr⟩ := hrow r hr
    rw [Function.comp_apply, hr]
  · rw [List.filterMap_map, ← List.filterMap_eq_map]
    refine List.filterMap_congr fun r hr => ?_
    obtain ⟨_, hr⟩ := hrow r hr
    rw [Function.comp_apply, Function.comp_apply, hr]
  · rw [List.flatMap_map]
    refine List.flatMap_congr fun r hr => ?_
    obtain ⟨_, hr⟩ := hrow r hr
    rw [hr, List.map_map]
    rfl

/-- The goodput of a sample in which not every request has a value. -/
theorem goodput_of_perm {α : Type} {f : α → Option ℚ} {l : List α} {ttfts : List ℚ} (h : ttfts.Perm (l.filterMap f))
    (sent : ℕ) (slo : ℚ) :
    goodput ttfts sent slo =
      if sent = 0 then .nan else .num ((l.countP fun a => (f a).any (· < slo) : ℕ) / sent) := by
  have hany : (fun a => ((f a).map fun t => decide (t < slo)).getD false) = fun a => (f a).any (· < slo) := by
    funext a
    cases f a with
    | none => rfl
    | some t => rfl
  rw [goodput, ← List.countP_eq_length_filter, h.countP_eq, List.countP_filterMap, hany]

/-- **The rows that are read** are those of the workload, in the order of their index. -/
theorem exists_rows (hexact : ∀ r ∈ workload, lib.Exact r.1 r.2)
    (hcsv : lib.RoundTrips ((sortedResults (runOpenLoop lib workload)).map (Result.row lib))) :
    ((lib.dictReader (writeResults lib (runOpenLoop lib workload))).map (·.get? "index".toList)).Perm
        (workload.map fun r => some (intText r.1.index)) ∧
      ∃ rows : List CsvRow,
        (lib.dictReader (writeResults lib (runOpenLoop lib workload))).mapM (readRow lib) = .ok rows ∧
          rows.Perm (workload.map fun r => rowOf lib r.1 r.2) := by
  let sorted := workload.insertionSort fun r r' => r.1.index ≤ r'.1.index
  have hperm : sorted.Perm workload := List.perm_insertionSort _ _
  have hread : lib.dictReader (writeResults lib (runOpenLoop lib workload)) =
      sorted.map fun r => Dict.ofList (fieldnames.zip ((oneRequest lib r.1 r.2).row lib)) := by
    rw [writeResults, hcsv, sortedResults_runOpenLoop]
    simp only [List.map_map, Function.comp_def, sorted]
  refine ⟨?_, sorted.map fun r => rowOf lib r.1 r.2, ?_, hperm.map _⟩
  · have hindex : (fun r : Request × Exchange => some (intText r.1.index)) =
        (fun row : Dict Text Text => row.get? "index".toList) ∘
          fun r => Dict.ofList (fieldnames.zip ((oneRequest lib r.1 r.2).row lib)) := by
      funext r
      obtain ⟨-, -, -, -, -, -, hcolumn⟩ := column_row lib (oneRequest lib r.1 r.2)
      rw [Function.comp_apply, hcolumn, index_oneRequest]
    rw [hread, List.map_map, hindex]
    exact hperm.map _
  · rw [hread, List.mapM_map]
    exact mapM_eq_map fun r hr => readRow_row (hexact r (hperm.mem_iff.mp hr))

/-- **Driver and analysis agree.** The statistics that are read from the CSV of a workload count each of
its requests once and the failed streams as errors. Their samples are those of the streams
that complete: the delay of the first token if there is one, the duration, and a gap for every
further token; and a request misses the objective unless it completes with its first token
in time. -/
theorem driver_and_analysis_agree (sort : PySort) (file : String) (seed : SeedId) (slo : ℚ)
    (hexact : ∀ r ∈ workload, lib.Exact r.1 r.2)
    (hcsv : lib.RoundTrips ((sortedResults (runOpenLoop lib workload)).map (Result.row lib))) :
    ∃ stats ttfts e2es itls,
      readSeedStats lib sort file seed (writeResults lib (runOpenLoop lib workload)) slo = .ok stats ∧
      stats.n = workload.length ∧
      ((lib.dictReader (writeResults lib (runOpenLoop lib workload))).map (·.get? "index".toList)).Perm
        (workload.map fun r => some (intText r.1.index)) ∧
      stats.errors = (workload.filter fun r => !r.2.completes lib).length ∧
      stats.ttft = latency sort ttfts ∧
      ttfts.Perm ((completed lib workload).filterMap fun r => r.2.firstTokenDelay lib) ∧
      stats.e2e = latency sort e2es ∧ e2es.Perm ((completed lib workload).map fun r => r.2.t1 - r.2.t0) ∧
      stats.itl = latency sort itls ∧
      itls.Perm ((completed lib workload).flatMap fun r =>
        (gaps (r.2.tokenTimes lib)).map fun gap => itlMs lib gap / 1000) ∧
      itls.length = ((completed lib workload).map fun r => r.2.tokens lib - 1).sum ∧
      stats.ttftSloMiss = if workload = [] then .nan else
        .num (1 - ((completed lib workload).countP fun r => (r.2.firstTokenDelay lib).any (· < slo)) / workload.length) := by
  obtain ⟨hindex, rows, hrows, hperm⟩ := exists_rows hexact hcsv
  have hlength : rows.length = workload.length := by
    rw [hperm.length_eq, List.length_map]
  have hok : (okRows rows).Perm ((completed lib workload).map fun r => rowOf lib r.1 r.2) := by
    rw [← okRows_map_rowOf]
    exact hperm.filter _
  obtain ⟨httfts, he2es, hitls⟩ := samples_completed lib workload
  have httft : (okTtfts sort rows).Perm ((completed lib workload).filterMap fun r => r.2.firstTokenDelay lib) :=
    (sort.perm .num _).trans (httfts ▸ hok.filterMap _)
  have hitl : (okItls rows).Perm ((completed lib workload).flatMap fun r =>
      (gaps (r.2.tokenTimes lib)).map fun gap => itlMs lib gap / 1000) := hitls ▸ hok.flatMap_right _
  refine ⟨seedStats sort file seed rows slo, okTtfts sort rows, (okRows rows).filterMap (·.e2eS), okItls rows, ?_, hlength,
    hindex, ?_, rfl, httft, rfl, he2es ▸ hok.filterMap _, rfl, hitl, ?_, ?_⟩
  · rw [readSeedStats, hrows]
    rfl
  · -- a row is not `ok` exactly if the stream fails
    have hcount := List.length_eq_length_filter_add (l := workload) fun r => r.2.completes lib
    have hoks := hok.length_eq
    rw [List.length_map, completed] at hoks
    show rows.length - (okRows rows).length = _
    omega
  · rw [hitl.length_eq, List.length_flatMap]
    congr 1
    refine List.map_congr_left fun r _ => ?_
    rw [List.length_map, length_gaps, Exchange.tokens]
  · show PyFloat.num 1 - goodput (okTtfts sort rows) rows.length slo = _
    rw [goodput_of_perm httft, hlength]
    by_cases hnil : workload = []
    · rw [if_pos hnil, if_pos (List.length_eq_zero_iff.mpr hnil)]
      rfl
    · rw [if_neg hnil, if_neg (List.length_eq_zero_iff.not.mpr hnil)]
      rfl

end Agreement

/-! ### Two requests -/

/-- A chunk with a token. -/
def tokenChunk : Text := "\x7b\"choices\": [0], \"usage\": null\x7d".toList

/-- The chunk with the usage. -/
def usageChunk : Text := "\x7b\"choices\": [], \"usage\": \x7b\"completion_tokens\": 2\x7d\x7d".toList

/-- The floats of the two requests, as they are printed. -/
def sampleFloats : List (ℚ × Text) :=
  [(100, "100.0".toList), (101, "101.0".toList), (1 / 10, "0.1".toList), (1 / 2, "0.5".toList), (1 / 4, "0.25".toList),
    (250, "250.00".toList)]

/-- A library that knows them. -/
def sampleStdlib : Stdlib where
  loads data :=
    if data = tokenChunk then .ok ⟨none, some ["0".toList]⟩
    else if data = usageChunk then .ok ⟨some (Dict.ofList [("completion_tokens".toList, some 2)]), some []⟩
    else .error ⟨"JSONDecodeError".toList, "Expecting value".toList⟩
  str q := (sampleFloats.lookup q).getD []
  fixed2 q := (sampleFloats.lookup q).getD []
  float text :=
    match sampleFloats.find? fun p => p.2 = text with
    | some (q, _) => .ok q
    | none => .error (.other "ValueError")
  int text :=
    if text ≠ [] ∧ text.all Char.isDigit then .ok (Nat.ofDigitChars 10 text 0) else .error (.other "ValueError")
  csvWrite header rows := (header :: rows).flatMap fun row => [','].intercalate row ++ "\r\n".toList
  dictReader text :=
    match (text.splitOn '\n').dropLast.map fun line => line.dropLast.splitOn ',' with
    | header :: rows => rows.map fun row => Dict.ofList (header.zip row)
    | [] => []

/-- A line with a payload. -/
def dataLine (payload : Text) : Text := "data: ".toList ++ payload

/-- Two requests, the second sent first: one completes with two tokens, and the connection of the
other breaks after its first. -/
def sampleWorkload : List (Request × Exchange) :=
  [(⟨1, 0⟩, ⟨0, 101, .ok ⟨200, .ok [], [(dataLine tokenChunk, 1 / 4)],
      some ⟨"ReadError".toList, "peer closed connection".toList⟩, none⟩, 1 / 2⟩),
    (⟨0, 0⟩, ⟨0, 100, .ok ⟨200, .ok [], [(dataLine tokenChunk, 1 / 10), ([], 1 / 10), (dataLine tokenChunk, 7 / 20),
      (dataLine usageChunk, 7 / 20), (dataLine donePayload, 1 / 2)], none, none⟩, 1 / 2⟩)]

theorem exact_sampleWorkload : ∀ r ∈ sampleWorkload, sampleStdlib.Exact r.1 r.2 := by
  have hfloat : ∀ r ∈ sampleWorkload, ∀ q ∈ (oneRequest sampleStdlib r.1 r.2).floats,
      sampleStdlib.str q ≠ [] ∧ sampleStdlib.float (sampleStdlib.str q) = .ok q := by decide +kernel
  have hint : ∀ r ∈ sampleWorkload, (oneRequest sampleStdlib r.1 r.2).completionTokens ∈ [none, some 2] := by
    decide +kernel
  have hgaps : ∀ r ∈ sampleWorkload, ∀ gap ∈ gaps (r.2.tokenTimes sampleStdlib), gap = 1 / 4 := by decide +kernel
  intro r hr
  refine ⟨hfloat r hr, fun n hn => ?_, fun gap hgap => ?_⟩
  · have hmem := hint r hr
    rw [hn] at hmem
    simp only [List.mem_cons, List.not_mem_nil, reduceCtorEq, false_or, or_false, Option.some.injEq] at hmem
    rw [hmem]
    decide +kernel
  · rw [hgaps r hr gap hgap]
    exact ⟨by decide +kernel, by decide +kernel, 250, by decide +kernel⟩

/-- One of the two misses the objective; the TTFT of the other is the only one there is. -/
theorem driver_and_analysis_agree_sampleWorkload :
    ∃ stats ttfts itls,
      readSeedStats sampleStdlib .insertion "driver-seed1.csv" (some 1)
        (writeResults sampleStdlib (runOpenLoop sampleStdlib sampleWorkload)) ttftSloS = .ok stats ∧
      stats.n = 2 ∧ stats.errors = 1 ∧ stats.ttft = latency .insertion ttfts ∧ ttfts.Perm [1 / 10] ∧
      stats.itl = latency .insertion itls ∧ itls.length = 1 ∧ stats.ttftSloMiss = .num (1 / 2) := by
  have hcsv : sampleStdlib.RoundTrips
      ((sortedResults (runOpenLoop sampleStdlib sampleWorkload)).map (Result.row sampleStdlib)) := by
    rw [Stdlib.RoundTrips]
    decide +kernel
  obtain ⟨stats, ttfts, e2es, itls, hread, hn, -, herrors, httft, httfts, -, -, hitl, -, hitls, hmiss⟩ :=
    driver_and_analysis_agree .insertion "driver-seed1.csv" (some 1) ttftSloS exact_sampleWorkload hcsv
  have hdelays : ((completed sampleStdlib sampleWorkload).filterMap fun r => r.2.firstTokenDelay sampleStdlib) = [1 / 10] := by
    decide +kernel
  have hfailed : (sampleWorkload.filter fun r => !r.2.completes sampleStdlib).length = 1 := by decide +kernel
  have hgaps : ((completed sampleStdlib sampleWorkload).map fun r => r.2.tokens sampleStdlib - 1).sum = 1 := by
    decide +kernel
  have hcount : ((completed sampleStdlib sampleWorkload).countP fun r =>
      (r.2.firstTokenDelay sampleStdlib).any (· < ttftSloS)) = 1 := by decide +kernel
  have hnonempty : sampleWorkload ≠ [] := List.cons_ne_nil _ _
  rw [hcount, if_neg hnonempty] at hmiss
  refine ⟨stats, ttfts, itls, hread, hn, herrors.trans hfailed, httft, hdelays ▸ httfts, hitl, hitls.trans hgaps, ?_⟩
  rw [hmiss]
  decide +kernel

end CachingInLLMs.Benchmarks.LoadDriver

import CachingInLLMs.Benchmarks.CoverageGate
import CachingInLLMs.Library.Csv

/-!
# GPU telemetry

`dcgm_poll.py` asks every exporter for its metrics, round after round, and appends a row to `dcgm.csv` for each
sample of a field it knows. It may be stopped and started again, and a request that fails is left out. What
`utilization.py` reads of that file is what the GPU numbers of a cell are made of.

## The model

An exporter's answer is text. `lineRe` and `findLabels` are the two regular expressions, read from left to right;
`parse` ends where `float` raises, as the generator does. `session` is one run of `main`: what it appends to the
file. CSV is that of `Library.Csv`, and the file is read by `CoverageGate.readDcgm`. No number is infinite.

## What is proved

* `parse_unlines`: of the text of an exporter, the samples of the fields are parsed.
* `telemetry_round_trip`: `read_dcgm` returns every sample that an exporter has answered with, under the field and
  the GPU that it has there, in the order of time, and no other.
-/

namespace CachingInLLMs.Benchmarks.DcgmPoll

open CachingInLLMs.Library
open CoverageGate (dcgmFields addGpuSample parseCell formatCell readDcgm RunFiles)

/-! ### The exposition -/

/-- What polling uses of the standard library. -/
structure Stdlib where
  /-- The class of the characters of a word in a regular expression. -/
  isWord : Char → Bool
  /-- `float(text)`; none if it raises `ValueError`. -/
  float : Text → Option ℚ
  /-- A float, as `csv.writer` prints it. -/
  str : ℚ → Text
  /-- `round(x, 3)`. -/
  round3 : ℚ → ℚ
  /-- In ASCII, the characters of a word are letters, digits and the underscore. -/
  isWord_ascii : ∀ c : Char, c.toNat < 128 → isWord c = (c.isAlphanum || c = '_')

/-- `FIELDS`. -/
def fields : List Text := dcgmFields.map String.toList

/-- `metric in FIELDS`. -/
def isField (metric : Text) : Bool := fields.contains metric

theorem isField_iff {metric : Text} : isField metric = true ↔ metric ∈ fields := List.contains_iff_mem

/-- `[0-9eE.+-]`. -/
def isNumberChar (c : Char) : Bool := c.isDigit || c = 'e' || c = 'E' || c = '.' || c = '+' || c = '-'

/-- A sample: the metric, the GPU, the host and the value. -/
structure Sample where
  /-- The metric. -/
  metric : Text
  /-- `gpu`. -/
  gpu : Text
  /-- `Hostname`. -/
  hostname : Text
  /-- The value. -/
  value : ℚ

section Poll

variable (lib : Stdlib)

/-- `_LINE.match(line)`: the name, the labels and the number. -/
def lineRe (line : Text) : Option (Text × Text × Text) := do
  let (name, rest) ← many1 lib.isWord line
  let rest ← literal ['\x7b'] rest
  let closing ← literal ['\x7d'] (rest.dropWhile (· ≠ '\x7d'))
  let (_, number) ← many1 isSpace closing
  let number ← upToEnd isNumberChar number
  return (name, rest.takeWhile (· ≠ '\x7d'), number)

/-- A match of `_LABEL` at the beginning: the name and the value. -/
def labelRe (text : Text) : Option (Text × Text) := do
  let (name, rest) ← many1 lib.isWord text
  let rest ← literal "=\"".toList rest
  let _ ← literal ['"'] (rest.dropWhile (· ≠ '"'))
  return (name, rest.takeWhile (· ≠ '"'))

/-- `_LABEL.findall(text)`, after skipping some characters. -/
def findLabels : ℕ → Text → List (Text × Text)
  | _, [] => []
  | skip + 1, _ :: text => findLabels skip text
  | 0, c :: text =>
    match labelRe lib (c :: text) with
    | some (name, value) => (name, value) :: findLabels (name.length + value.length + 2) text
    | none => findLabels 0 text

/-- One turn of the loop of `parse`: what it yields, if anything. -/
def parseLine (line : Text) : Except PyError (Option Sample) :=
  match lineRe lib line with
  | none => .ok none
  | some (metric, labels, number) =>
    if !isField metric then .ok none
    else
      let labels := Dict.ofList (findLabels lib 0 labels)
      match lib.float number with
      | none => .error (.other "ValueError")
      | some value =>
        .ok (some ⟨metric, (labels.get? "gpu".toList).getD [], (labels.get? "Hostname".toList).getD [], value⟩)

/-- What the generator `parse` yields before it ends. -/
def parseLines : List Text → List Sample
  | [] => []
  | line :: lines =>
    match parseLine lib line with
    | .error _ => []
    | .ok none => parseLines lines
    | .ok (some sample) => sample :: parseLines lines

/-- `parse`. -/
def parse (text : Text) : List Sample := parseLines lib (splitlines text)

/-! ### Polling -/

/-- What a request of an exporter returns: nothing, or its text and the time then. -/
abbrev Fetch := Option (ℚ × Text)

/-- The header of the file. -/
def header : List Text := ["ts".toList, "metric".toList, "gpu".toList, "hostname".toList, "value".toList]

/-- The row of a sample. -/
def sampleRow (ts : ℚ) (sample : Sample) : List Text :=
  [lib.str ts, sample.metric, sample.gpu, sample.hostname, lib.str sample.value]

/-- The samples of a request, each with its time. -/
def fetched : Fetch → List (ℚ × Sample)
  | none => []
  | some (time, text) => (parse lib text).map (lib.round3 time, ·)

/-- `main`: what the file is when it ends. -/
def session (file : Text) (rounds : List (List Fetch)) : Text :=
  file ++ Csv.writeRows ((if file = [] then [header] else []) ++
    (rounds.flatten.flatMap (fetched lib)).map fun p => sampleRow lib p.1 p.2)

/-- The file after some sessions. -/
def pollFile (sessions : List (List (List Fetch))) : Text := sessions.foldl (session lib) []

end Poll

/-! ### What an exporter answers -/

/-- A line of an exporter. -/
inductive ExporterLine where
  /-- A sample: its metric, its labels and its value, as it is printed. -/
  | sample (metric : Text) (labels : List (Text × Text)) (number : Text)
  /-- Another line. -/
  | other (text : Text)

/-- `name="value"`. -/
def labelText (label : Text × Text) : Text := label.1 ++ "=\"".toList ++ label.2 ++ "\"".toList

/-- The line. -/
def ExporterLine.text : ExporterLine → Text
  | sample metric labels number =>
    metric ++ ['\x7b'] ++ [','].intercalate (labels.map labelText) ++ ['\x7d'] ++ [' '] ++ number
  | other text => text

/-- The line is as the format has it, and the value is a number. -/
structure WellFormedSample (lib : Stdlib) (metric : Text) (labels : List (Text × Text)) (number : Text) : Prop where
  /-- The metric is a word. -/
  metric : metric ≠ [] ∧ ∀ c ∈ metric, lib.isWord c = true
  /-- So are the names of the labels, and their values end with their quotes. -/
  labels : ∀ label ∈ labels, (label.1 ≠ [] ∧ ∀ c ∈ label.1, lib.isWord c = true) ∧ '"' ∉ label.2 ∧ '\x7d' ∉ label.2
  /-- The value is a number. -/
  number : number ≠ [] ∧ (∀ c ∈ number, isNumberChar c = true) ∧ (lib.float number).isSome

/-- A line of the format; one that is not a sample does not begin like a sample of a field. -/
def ExporterLine.WellFormed (lib : Stdlib) (line : ExporterLine) : Prop :=
  OneLine line.text ∧ match line with
    | sample metric labels number => WellFormedSample lib metric labels number
    | other text => ∀ field ∈ fields, ¬ field ++ ['\x7b'] <+: text

/-- The sample of the line, if it has one of a field. -/
def ExporterLine.sample? (lib : Stdlib) : ExporterLine → Option Sample
  | sample metric labels number =>
    if isField metric then
      some ⟨metric, ((Dict.ofList labels).get? "gpu".toList).getD [], ((Dict.ofList labels).get? "Hostname".toList).getD [],
        (lib.float number).getD 0⟩
    else none
  | other _ => none

section Parse

variable {lib : Stdlib} {text rest : Text} {labels : List (Text × Text)}

/-- A character of ASCII that is no letter, digit or underscore. -/
theorem isWord_eq_false (lib : Stdlib) {c : Char} (h : c.toNat < 128) (h' : (c.isAlphanum || c = '_') = false) :
    lib.isWord c = false := by rw [lib.isWord_ascii c h, h']

theorem takeWhile_ne_append {c : Char} (h : c ∉ text) (rest : Text) :
    (text ++ c :: rest).takeWhile (· ≠ c) = text ∧ (text ++ c :: rest).dropWhile (· ≠ c) = c :: rest := by
  have hall : ∀ d ∈ text, decide (d ≠ c) = true := by
    intro d hd
    exact decide_eq_true fun heq => h (heq ▸ hd)
  rw [List.takeWhile_append_of_pos hall, List.dropWhile_append_of_pos hall]
  simp

theorem labelRe_eq {name value : Text} (hname : name ≠ [] ∧ ∀ c ∈ name, lib.isWord c = true) (hvalue : '"' ∉ value)
    (rest : Text) : labelRe lib (labelText (name, value) ++ rest) = some (name, value) := by
  have hsplit : labelText (name, value) ++ rest = name ++ ("=\"".toList ++ (value ++ '"' :: rest)) := by
    simp [labelText]
  obtain ⟨htake, hdrop⟩ := takeWhile_ne_append hvalue rest
  have hword : many1 lib.isWord (name ++ ("=\"".toList ++ (value ++ '"' :: rest))) =
      some (name, "=\"".toList ++ (value ++ '"' :: rest)) := by
    refine many1_eq_some.mpr ⟨rfl, hname.1, hname.2, fun c hc => ?_⟩
    cases hc
    exact isWord_eq_false lib (by decide) (by decide)
  rw [hsplit, labelRe, hword]
  simp only [Option.bind_eq_bind, Option.bind_some]
  rw [literal_eq_some.mpr rfl]
  simp only [Option.bind_some, htake, hdrop]
  rw [literal_eq_some.mpr (List.singleton_append).symm]
  rfl

/-- Skipping is leaving out. -/
theorem findLabels_skip (lib : Stdlib) (text : Text) (n : ℕ) : findLabels lib n text = findLabels lib 0 (text.drop n) := by
  induction text generalizing n with
  | nil => cases n <;> rfl
  | cons c text ih =>
    cases n with
    | zero => rfl
    | succ n => exact ih n

theorem findLabels_label {name value : Text} (hname : name ≠ [] ∧ ∀ c ∈ name, lib.isWord c = true) (hvalue : '"' ∉ value)
    (rest : Text) :
    findLabels lib 0 (labelText (name, value) ++ rest) = (name, value) :: findLabels lib 0 rest := by
  have hmatch := labelRe_eq hname hvalue rest
  have hlength : (labelText (name, value)).length = name.length + value.length + 3 := by
    simp [labelText]
    omega
  cases htext : labelText (name, value) ++ rest with
  | nil =>
    rw [htext] at hmatch
    cases hmatch
  | cons c text =>
    have hdrop : text.drop (name.length + value.length + 2) = rest := by
      have h := congrArg (List.drop (name.length + value.length + 3)) htext
      rw [← hlength, List.drop_left, hlength] at h
      exact h.symm
    rw [htext] at hmatch
    rw [findLabels, hmatch]
    dsimp only
    rw [findLabels_skip, hdrop]

/-- The comma between two labels. -/
theorem findLabels_comma (lib : Stdlib) (text : Text) : findLabels lib 0 (',' :: text) = findLabels lib 0 text := by
  have hcomma : lib.isWord ',' = false := isWord_eq_false lib (by decide) (by decide)
  have hmatch : labelRe lib (',' :: text) = none := by simp [labelRe, many1, hcomma]
  rw [findLabels, hmatch]

/-- The labels of a line are found. -/
theorem findLabels_intercalate (h : ∀ label ∈ labels, (label.1 ≠ [] ∧ ∀ c ∈ label.1, lib.isWord c = true) ∧ '"' ∉ label.2) :
    findLabels lib 0 ([','].intercalate (labels.map labelText)) = labels := by
  induction labels with
  | nil => rfl
  | cons label labels ih =>
    obtain ⟨⟨hname, hvalue⟩, hlabels⟩ := List.forall_mem_cons.mp h
    cases labels with
    | nil =>
      rw [List.map_singleton, List.intercalate_singleton, ← List.append_nil (labelText label), findLabels_label hname hvalue]
      rfl
    | cons label' labels =>
      have hih := ih hlabels
      rw [List.map_cons] at hih
      rw [List.map_cons, List.map_cons, List.intercalate_cons_cons, List.append_assoc, findLabels_label hname hvalue,
        List.singleton_append, findLabels_comma, hih]

theorem brace_not_mem_intercalate
    (h : ∀ label ∈ labels, (label.1 ≠ [] ∧ ∀ c ∈ label.1, lib.isWord c = true) ∧ '"' ∉ label.2 ∧ '\x7d' ∉ label.2) :
    '\x7d' ∉ [','].intercalate (labels.map labelText) := by
  have hbrace : lib.isWord '\x7d' = false := isWord_eq_false lib (by decide) (by decide)
  have hlabel : ∀ label ∈ labels, '\x7d' ∉ labelText label := by
    intro label hmem hbad
    obtain ⟨⟨-, hname⟩, -, hvalue⟩ := h label hmem
    simp only [labelText, List.mem_append] at hbad
    rcases hbad with ((hbad | hbad) | hbad) | hbad
    · rw [hname _ hbad] at hbrace
      cases hbrace
    · exact absurd hbad (by decide)
    · exact hvalue hbad
    · exact absurd hbad (by decide)
  induction labels with
  | nil => exact List.not_mem_nil
  | cons label labels ih =>
    obtain ⟨hfirst, hrest⟩ := List.forall_mem_cons.mp hlabel
    cases labels with
    | nil => rwa [List.map_singleton, List.intercalate_singleton]
    | cons label' labels =>
      have hih := ih (fun l hl => h l (List.mem_cons_of_mem _ hl)) hrest
      rw [List.map_cons] at hih
      rw [List.map_cons, List.map_cons, List.intercalate_cons_cons, List.mem_append, List.mem_append, not_or, not_or]
      exact ⟨⟨hfirst, by decide⟩, hih⟩

theorem isSpace_eq_false_of_isNumberChar {c : Char} (h : isNumberChar c = true) : isSpace c = false := by
  simp only [isNumberChar, Bool.or_eq_true, decide_eq_true_eq] at h
  rcases h with ((((h | rfl) | rfl) | rfl) | rfl) | rfl
  · exact isSpace_eq_false_of_isDigit h
  all_goals decide

/-- The line of a sample is matched. -/
theorem lineRe_sample {metric number : Text} (h : WellFormedSample lib metric labels number) :
    lineRe lib (ExporterLine.sample metric labels number).text =
      some (metric, [','].intercalate (labels.map labelText), number) := by
  have hsplit : (ExporterLine.sample metric labels number).text =
      metric ++ ('\x7b' :: ([','].intercalate (labels.map labelText) ++ '\x7d' :: ([' '] ++ number))) := by
    simp [ExporterLine.text]
  obtain ⟨htake, hdrop⟩ := takeWhile_ne_append (brace_not_mem_intercalate h.labels) ([' '] ++ number)
  have hword : many1 lib.isWord
      (metric ++ ('\x7b' :: ([','].intercalate (labels.map labelText) ++ '\x7d' :: ([' '] ++ number)))) =
        some (metric, '\x7b' :: ([','].intercalate (labels.map labelText) ++ '\x7d' :: ([' '] ++ number))) := by
    refine many1_eq_some.mpr ⟨rfl, h.metric.1, h.metric.2, fun c hc => ?_⟩
    cases hc
    exact isWord_eq_false lib (by decide) (by decide)
  have hspace : many1 isSpace ([' '] ++ number) = some ([' '], number) := by
    refine many1_eq_some.mpr ⟨rfl, List.cons_ne_nil _ _, by simp; decide, fun c hc => ?_⟩
    exact isSpace_eq_false_of_isNumberChar (h.number.2.1 c (List.mem_of_mem_head? hc))
  rw [hsplit, lineRe, hword]
  simp only [Option.bind_eq_bind, Option.bind_some]
  rw [literal_eq_some.mpr (List.singleton_append).symm]
  simp only [Option.bind_some, htake, hdrop]
  rw [literal_eq_some.mpr (List.singleton_append).symm]
  simp only [Option.bind_some, hspace]
  rw [upToEnd_eq_some.mpr ⟨rfl, h.number.1, h.number.2.1⟩]
  rfl

/-- What is matched begins with its metric and a brace. -/
theorem prefix_of_lineRe {metric labels number : Text} (h : lineRe lib text = some (metric, labels, number)) :
    metric ++ ['\x7b'] <+: text := by
  rw [lineRe, Option.bind_eq_bind, Option.bind_eq_some_iff] at h
  obtain ⟨⟨name, rest⟩, hword, h⟩ := h
  obtain ⟨rfl, -⟩ := many1_eq_some.mp hword
  rw [Option.bind_eq_bind, Option.bind_eq_some_iff] at h
  obtain ⟨rest', hbrace, h⟩ := h
  rw [literal_eq_some] at hbrace
  simp only [Option.bind_eq_some_iff, Option.pure_def, Option.some.injEq, Prod.mk.injEq] at h
  obtain ⟨_, _, _, _, _, _, rfl, -⟩ := h
  rw [hbrace, ← List.append_assoc]
  exact List.prefix_append _ _

/-- A line is parsed as the sample that it has. -/
theorem parseLine_text {line : ExporterLine} (h : line.WellFormed lib) : parseLine lib line.text = .ok (line.sample? lib) := by
  obtain ⟨-, h⟩ := h
  cases line with
  | sample metric labels number =>
    obtain ⟨value, hvalue⟩ := Option.isSome_iff_exists.mp h.number.2.2
    have hlabels : findLabels lib 0 ([','].intercalate (labels.map labelText)) = labels :=
      findLabels_intercalate fun label hlabel => ⟨(h.labels label hlabel).1, (h.labels label hlabel).2.1⟩
    rw [parseLine, lineRe_sample h]
    dsimp only
    rw [ExporterLine.sample?]
    cases hfield : isField metric with
    | true =>
      rw [if_neg (by simp), if_pos rfl, hlabels, hvalue]
      rfl
    | false => rfl
  | other text =>
    rw [parseLine]
    cases hmatch : lineRe lib (ExporterLine.other text).text with
    | none => rfl
    | some found =>
      obtain ⟨metric, labels, number⟩ := found
      have hfield : isField metric = false :=
        Bool.eq_false_iff.mpr fun hmem => h metric (isField_iff.mp hmem) (prefix_of_lineRe hmatch)
      dsimp only
      rw [hfield]
      rfl

/-- **The text of an exporter** is parsed. -/
theorem parse_unlines {lines : List ExporterLine} (h : ∀ line ∈ lines, line.WellFormed lib) :
    parse lib (unlines (lines.map ExporterLine.text)) = lines.filterMap (ExporterLine.sample? lib) := by
  have hlines : ∀ text ∈ lines.map ExporterLine.text, OneLine text := by
    intro text htext
    obtain ⟨line, hline, rfl⟩ := List.mem_map.mp htext
    exact (h line hline).1
  rw [parse, splitlines_unlines hlines]
  clear hlines
  induction lines with
  | nil => rfl
  | cons line lines ih =>
    obtain ⟨hline, hlines⟩ := List.forall_mem_cons.mp h
    rw [List.map_cons, parseLines, parseLine_text hline]
    cases hsample : line.sample? lib with
    | none => rw [List.filterMap_cons_none hsample, ← ih hlines]
    | some sample => rw [List.filterMap_cons_some hsample, ← ih hlines]

end Parse

/-! ### The file -/

section File

variable {lib : Stdlib} {sessions : List (List (List Fetch))}

/-- The samples of all requests, each with its time, in the order in which they are written. -/
def polled (lib : Stdlib) (sessions : List (List (List Fetch))) : List (ℚ × Sample) :=
  sessions.flatMap fun rounds => rounds.flatten.flatMap (fetched lib)

theorem writeRows_append (rows rows' : List (List Text)) :
    Csv.writeRows (rows ++ rows') = Csv.writeRows rows ++ Csv.writeRows rows' := List.flatMap_append

theorem writeRows_header_ne_nil (rows : List (List Text)) : Csv.writeRows (header :: rows) ≠ [] := by
  rw [Csv.writeRows, List.flatMap_cons]
  refine List.append_ne_nil_of_left_ne_nil ?_ _
  decide

/-- A later session only adds rows. -/
theorem session_writeRows (lib : Stdlib) (rows : List (List Text)) (rounds : List (List Fetch)) :
    session lib (Csv.writeRows (header :: rows)) rounds = Csv.writeRows (header :: (rows ++
      (rounds.flatten.flatMap (fetched lib)).map fun p => sampleRow lib p.1 p.2)) := by
  rw [session, if_neg (writeRows_header_ne_nil rows), List.nil_append, ← writeRows_append, List.cons_append]

/-- The file has one header, and the rows of all sessions. -/
theorem pollFile_eq (hsessions : sessions ≠ []) :
    pollFile lib sessions = Csv.writeRows (header :: (polled lib sessions).map fun p => sampleRow lib p.1 p.2) := by
  induction sessions using List.reverseRecOn with
  | nil => exact absurd rfl hsessions
  | append_singleton sessions rounds ih =>
    rw [pollFile, List.foldl_append, List.foldl_cons, List.foldl_nil, ← pollFile, polled, List.flatMap_append,
      List.flatMap_singleton, ← polled, List.map_append]
    by_cases hfirst : sessions = []
    · rw [hfirst, pollFile, List.foldl_nil, session, if_pos rfl]
      rfl
    · rw [ih hfirst, session_writeRows]

end File

/-! ### Reading it -/

/-- Rows with the names of `read_dcgm`. -/
def namedRow (row : Dict Text Text) : Dict String (Option Text) :=
  Dict.ofList (row.items.map fun p => (String.ofList p.1, some p.2))

/-- The reader's CSV and floats. -/
structure Reads (lib : Stdlib) (reader : CoverageGate.Stdlib) : Prop where
  /-- `csv.DictReader(f)`, the file being opened with `newline=""`. -/
  csv : ∀ (text : Text) (rows : List (Dict Text Text)), Csv.dictReader (Csv.rawLines text) = .ok (rows.map Csv.fullRow) →
    reader.dictReader text = rows.map namedRow
  /-- `float` is one function. -/
  float : reader.float = lib.float

/-- Floats print as themselves: `isFloat` are the numbers that are floats. -/
structure Floats (lib : Stdlib) (isFloat : ℚ → Prop) : Prop where
  /-- `float` returns floats. -/
  float : ∀ text q, lib.float text = some q → isFloat q
  /-- `round` does. -/
  round3 : ∀ q, isFloat (lib.round3 q)
  /-- What is printed is parsed. -/
  str : ∀ q, isFloat q → lib.float (lib.str q) = some q

/-- `f"{hostname}/gpu{gpu}"`. -/
def gpuKey (sample : Sample) : String := String.ofList sample.hostname ++ "/gpu" ++ String.ofList sample.gpu

/-- The samples of a field and a GPU. -/
def samplesAt (field gpu : String) (samples : List (ℚ × Sample)) : Samples :=
  (samples.filter fun p => String.ofList p.2.metric = field ∧ gpuKey p.2 = gpu).map fun p => (p.1, p.2.value)

/-- What there is under a field and a GPU: nothing, if there is no sample. -/
def entry (pts : Samples) : Option Samples := if pts = [] then none else some pts

section Reading

variable {lib : Stdlib} {reader : CoverageGate.Stdlib} {isFloat : ℚ → Prop}

theorem namedRow_sampleRow (lib : Stdlib) (ts : ℚ) (sample : Sample) :
    namedRow (Dict.ofList (header.zip (sampleRow lib ts sample))) = Dict.ofList
      [("ts", some (lib.str ts)), ("metric", some sample.metric), ("gpu", some sample.gpu),
        ("hostname", some sample.hostname), ("value", some (lib.str sample.value))] := by
  have hnodup : ((header.zip (sampleRow lib ts sample)).map Prod.fst).Nodup := by
    have hkeys : (header.zip (sampleRow lib ts sample)).map Prod.fst = header := rfl
    rw [hkeys]
    decide +kernel
  rw [namedRow, Dict.items_ofList hnodup]
  simp [header, sampleRow]

/-- The columns of a row. -/
theorem get?_namedRow (lib : Stdlib) (ts : ℚ) (sample : Sample) :
    let row := namedRow (Dict.ofList (header.zip (sampleRow lib ts sample)))
    row.get? "ts" = some (some (lib.str ts)) ∧ row.get? "metric" = some (some sample.metric) ∧
      row.get? "gpu" = some (some sample.gpu) ∧ row.get? "hostname" = some (some sample.hostname) ∧
      row.get? "value" = some (some (lib.str sample.value)) := by
  rw [namedRow_sampleRow]
  simp only
  refine ⟨?_, ?_, ?_, ?_, ?_⟩ <;> rw [Dict.get?_ofList (by simp)] <;> rfl

/-- The samples with another. -/
def addSample (out : Dict String (Dict String Samples)) (p : ℚ × Sample) : Dict String (Dict String Samples) :=
  let gpus := (out.get? (String.ofList p.2.metric)).getD ∅
  out.set (String.ofList p.2.metric)
    (gpus.set (gpuKey p.2) ((gpus.get? (gpuKey p.2)).getD [] ++ [(p.1, p.2.value)]))

/-- One turn of the loop of `read_dcgm`, for a row that was polled. -/
theorem addGpuSample_namedRow (hreads : Reads lib reader) (hfloats : Floats lib isFloat) {p : ℚ × Sample}
    (hts : isFloat p.1) (hvalue : isFloat p.2.value) (hfield : p.2.metric ∈ fields)
    (out : Dict String (Dict String Samples)) :
    addGpuSample reader out (namedRow (Dict.ofList (header.zip (sampleRow lib p.1 p.2)))) = .ok (addSample out p) := by
  obtain ⟨hget_ts, hget_metric, hget_gpu, hget_hostname, hget_value⟩ := get?_namedRow lib p.1 p.2
  have hknown : String.ofList p.2.metric ∈ dcgmFields := by
    obtain ⟨field, hmem, heq⟩ := List.mem_map.mp hfield
    rw [← heq, String.ofList_toList]
    exact hmem
  have hcell (name : String) (q : ℚ) (hq : isFloat q)
      (hget : (namedRow (Dict.ofList (header.zip (sampleRow lib p.1 p.2)))).get? name = some (some (lib.str q))) :
      parseCell reader (namedRow (Dict.ofList (header.zip (sampleRow lib p.1 p.2)))) name = .ok (some q) := by
    rw [parseCell, hget]
    dsimp only
    rw [Option.bind_some, hreads.float, hfloats.str q hq]
  have hkey : formatCell (namedRow (Dict.ofList (header.zip (sampleRow lib p.1 p.2)))) "hostname" ++ "/gpu" ++
      formatCell (namedRow (Dict.ofList (header.zip (sampleRow lib p.1 p.2)))) "gpu" = gpuKey p.2 := by
    rw [formatCell, formatCell, hget_hostname, hget_gpu]
    rfl
  rw [addGpuSample, hget_metric]
  simp only [Option.join_some, hknown, not_true_eq_false, if_false, hkey, hcell "ts" p.1 hts hget_ts,
    hcell "value" p.2.value hvalue hget_value]
  rfl

/-- What is parsed is of a field, and its value is a float. -/
theorem of_mem_parseLines {lines : List Text} {sample : Sample} (h : sample ∈ parseLines lib lines) :
    sample.metric ∈ fields ∧ ∃ text, lib.float text = some sample.value := by
  induction lines with
  | nil => exact absurd h List.not_mem_nil
  | cons line lines ih =>
    rw [parseLines] at h
    cases hline : parseLine lib line with
    | error e =>
      rw [hline] at h
      exact absurd h List.not_mem_nil
    | ok found =>
      rw [hline] at h
      cases found with
      | none => exact ih h
      | some sample' =>
        rcases List.mem_cons.mp h with rfl | h
        · rw [parseLine] at hline
          split at hline
          · cases hline
          · split_ifs at hline with hfield
            · cases hline
            · dsimp only at hline
              split at hline
              · cases hline
              · next hfloat =>
                cases hline
                exact ⟨isField_iff.mp (by simpa using hfield), _, hfloat⟩
        · exact ih h

theorem of_mem_polled (hfloats : Floats lib isFloat) {sessions : List (List (List Fetch))} {p : ℚ × Sample}
    (h : p ∈ polled lib sessions) : isFloat p.1 ∧ isFloat p.2.value ∧ p.2.metric ∈ fields := by
  obtain ⟨rounds, -, h⟩ := List.mem_flatMap.mp h
  obtain ⟨fetch, -, h⟩ := List.mem_flatMap.mp h
  cases fetch with
  | none => exact absurd h List.not_mem_nil
  | some answer =>
    obtain ⟨sample, hsample, rfl⟩ := List.mem_map.mp h
    obtain ⟨hfield, text, hvalue⟩ := of_mem_parseLines hsample
    exact ⟨hfloats.round3 _, hfloats.float text _ hvalue, hfield⟩

/-- The loop of `read_dcgm`. -/
theorem foldlM_addGpuSample (hreads : Reads lib reader) (hfloats : Floats lib isFloat) {samples : List (ℚ × Sample)}
    (h : ∀ p ∈ samples, isFloat p.1 ∧ isFloat p.2.value ∧ p.2.metric ∈ fields) (out : Dict String (Dict String Samples)) :
    (samples.map fun p => namedRow (Dict.ofList (header.zip (sampleRow lib p.1 p.2)))).foldlM (addGpuSample reader) out =
      .ok (samples.foldl addSample out) := by
  induction samples generalizing out with
  | nil => rfl
  | cons p samples ih =>
    obtain ⟨⟨hts, hvalue, hfield⟩, hsamples⟩ := List.forall_mem_cons.mp h
    rw [List.map_cons, List.foldlM_cons, addGpuSample_namedRow hreads hfloats hts hvalue hfield, ok_bind, ih hsamples,
      List.foldl_cons]

/-- One sample more. -/
theorem get?_addSample (out : Dict String (Dict String Samples)) (p : ℚ × Sample) (field gpu : String) :
    ((addSample out p).get? field).bind (·.get? gpu) =
      if String.ofList p.2.metric = field ∧ gpuKey p.2 = gpu then
        some ((((out.get? field).bind (·.get? gpu)).getD []) ++ [(p.1, p.2.value)])
      else (out.get? field).bind (·.get? gpu) := by
  have hgpus (g : String) : ((out.get? field).getD ∅).get? g = (out.get? field).bind (·.get? g) := by
    cases out.get? field with
    | none => exact Dict.get?_empty g
    | some gpus => rfl
  rw [addSample, Dict.get?_set]
  by_cases hfield : String.ofList p.2.metric = field
  · rw [if_pos hfield.symm, hfield, Option.bind_some, Dict.get?_set, hgpus, hgpus]
    by_cases hgpu : gpuKey p.2 = gpu
    · rw [if_pos hgpu.symm, if_pos ⟨rfl, hgpu⟩, hgpu]
    · rw [if_neg (Ne.symm hgpu), if_neg (fun h => hgpu h.2)]
  · rw [if_neg (Ne.symm hfield), if_neg (fun h => hfield h.1)]

theorem samplesAt_concat (field gpu : String) (samples : List (ℚ × Sample)) (p : ℚ × Sample) :
    samplesAt field gpu (samples ++ [p]) = samplesAt field gpu samples ++
      if String.ofList p.2.metric = field ∧ gpuKey p.2 = gpu then [(p.1, p.2.value)] else [] := by
  rw [samplesAt, samplesAt, List.filter_append, List.map_append]
  congr 1
  split_ifs with hp <;> simp [hp]

theorem entry_concat (pts : Samples) (pt : ℚ × ℚ) : entry (pts ++ [pt]) = some ((entry pts).getD [] ++ [pt]) := by
  rw [entry, if_neg (by simp), entry]
  split_ifs with hnil
  · rw [hnil]
    rfl
  · rfl

/-- What has been added. -/
theorem get?_foldl_addSample (samples : List (ℚ × Sample)) (field gpu : String) :
    ((samples.foldl addSample ∅).get? field).bind (·.get? gpu) = entry (samplesAt field gpu samples) := by
  induction samples using List.reverseRecOn with
  | nil => rfl
  | append_singleton samples p ih =>
    rw [List.foldl_append, List.foldl_cons, List.foldl_nil, get?_addSample, ih, samplesAt_concat]
    split_ifs
    · rw [entry_concat]
    · rw [List.append_nil]

/-- The file is read as it was polled. -/
theorem readDcgm_pollFile (hreads : Reads lib reader) (hfloats : Floats lib isFloat) {sessions : List (List (List Fetch))}
    (hsessions : sessions ≠ [])
    (hlimit : ∀ p ∈ polled lib sessions, ∀ field ∈ sampleRow lib p.1 p.2, field.length ≤ Csv.fieldLimit)
    {files : RunFiles} (hfile : files "dcgm.csv" = some (pollFile lib sessions)) :
    ∃ out, readDcgm reader files = .ok out ∧
      ∀ field gpu, (out.get? field).bind (·.get? gpu) =
        (entry (samplesAt field gpu (polled lib sessions))).map (·.insertionSort SampleLe) := by
  have hheader : ∀ field ∈ header, field.length ≤ Csv.fieldLimit := by decide +kernel
  have hrows : ∀ row ∈ header :: (polled lib sessions).map (fun p => sampleRow lib p.1 p.2),
      row ≠ [] ∧ ∀ field ∈ row, field.length ≤ Csv.fieldLimit := by
    rw [List.forall_mem_cons]
    refine ⟨⟨List.cons_ne_nil _ _, hheader⟩, fun row hrow => ?_⟩
    obtain ⟨p, hp, rfl⟩ := List.mem_map.mp hrow
    exact ⟨List.cons_ne_nil _ _, hlimit p hp⟩
  have hlength : ∀ row ∈ (polled lib sessions).map (fun p => sampleRow lib p.1 p.2), row.length = header.length := by
    intro row hrow
    obtain ⟨p, -, rfl⟩ := List.mem_map.mp hrow
    rfl
  have hdicts := hreads.csv _ _
    (Csv.dictReader_of_reader (Csv.reader_rawLines hrows) (List.cons_ne_nil _ _) hlength)
  rw [← pollFile_eq hsessions, List.map_map, List.map_map] at hdicts
  have hpolled : ∀ p ∈ polled lib sessions, isFloat p.1 ∧ isFloat p.2.value ∧ p.2.metric ∈ fields :=
    fun p hp => of_mem_polled hfloats hp
  have hfold := foldlM_addGpuSample hreads hfloats hpolled ∅
  refine ⟨((polled lib sessions).foldl addSample ∅).mapValues fun gpus =>
    gpus.mapValues fun pts => pts.insertionSort SampleLe, ?_, fun field gpu => ?_⟩
  · rw [readDcgm, hfile]
    dsimp only
    rw [hdicts]
    simp only [Function.comp_def]
    rw [hfold, ok_bind]
    rfl
  · rw [Dict.get?_mapValues, ← get?_foldl_addSample]
    cases ((polled lib sessions).foldl addSample ∅).get? field with
    | none => rfl
    | some gpus => exact Dict.get?_mapValues _ _ _

/-- A request of an exporter: nothing, or its lines and the time then. -/
abbrev Scrape := Option (ℚ × List ExporterLine)

/-- What the request returns. -/
def Scrape.fetch (scrape : Scrape) : Fetch := scrape.map fun p => (p.1, unlines (p.2.map ExporterLine.text))

/-- The samples of the fields in the answer, each with its time. -/
def Scrape.samples (lib : Stdlib) (scrape : Scrape) : List (ℚ × Sample) :=
  (scrape.map fun p => (p.2.filterMap (ExporterLine.sample? lib)).map (lib.round3 p.1, ·)).getD []

/-- Its lines are of the format. -/
def Scrape.WellFormed (lib : Stdlib) (scrape : Scrape) : Prop := ∀ p, scrape = some p → ∀ line ∈ p.2, line.WellFormed lib

/-- The samples that the exporters have answered with. -/
def exported (lib : Stdlib) (sessions : List (List (List Scrape))) : List (ℚ × Sample) :=
  sessions.flatMap fun rounds => rounds.flatten.flatMap (Scrape.samples lib)

theorem fetched_fetch {scrape : Scrape} (h : scrape.WellFormed lib) : fetched lib scrape.fetch = scrape.samples lib := by
  cases scrape with
  | none => rfl
  | some p =>
    have hparse := parse_unlines (h p rfl)
    show (parse lib (unlines (p.2.map ExporterLine.text))).map (lib.round3 p.1, ·) = _
    rw [hparse]
    rfl

theorem polled_fetch {sessions : List (List (List Scrape))}
    (h : ∀ rounds ∈ sessions, ∀ round ∈ rounds, ∀ scrape ∈ round, scrape.WellFormed lib) :
    polled lib (sessions.map (·.map (·.map Scrape.fetch))) = exported lib sessions := by
  rw [polled, exported, List.flatMap_map]
  refine List.flatMap_congr fun rounds hrounds => ?_
  have hflatten : (rounds.map (·.map Scrape.fetch)).flatten = rounds.flatten.map Scrape.fetch := List.map_flatten.symm
  rw [hflatten, List.flatMap_map]
  refine List.flatMap_congr fun scrape hscrape => ?_
  obtain ⟨round, hround, hmem⟩ := List.mem_flatten.mp hscrape
  exact fetched_fetch (h rounds hrounds round hround scrape hmem)

/-- **Telemetry round trip**: however often polling was stopped and started again, and whichever requests failed,
`read_dcgm` returns the samples that the exporters have answered with, under their fields and their GPUs, in the
order of time. -/
theorem telemetry_round_trip (hreads : Reads lib reader) (hfloats : Floats lib isFloat)
    {sessions : List (List (List Scrape))} (hsessions : sessions ≠ [])
    (hlines : ∀ rounds ∈ sessions, ∀ round ∈ rounds, ∀ scrape ∈ round, scrape.WellFormed lib)
    (hlimit : ∀ p ∈ exported lib sessions, ∀ field ∈ sampleRow lib p.1 p.2, field.length ≤ Csv.fieldLimit)
    {files : RunFiles} (hfile : files "dcgm.csv" = some (pollFile lib (sessions.map (·.map (·.map Scrape.fetch))))) :
    ∃ out, readDcgm reader files = .ok out ∧
      ∀ field gpu, (out.get? field).bind (·.get? gpu) =
        (entry (samplesAt field gpu (exported lib sessions))).map (·.insertionSort SampleLe) := by
  have hpolled := polled_fetch hlines
  rw [← hpolled] at hlimit
  obtain ⟨out, hread, hentries⟩ := readDcgm_pollFile hreads hfloats (by simpa using hsessions) hlimit hfile
  exact ⟨out, hread, fun field gpu => by rw [hentries, hpolled]⟩

end Reading

/-! ### Two nodes -/

/-- The floats of the sample, as they are printed. -/
def sampleFloats : List (ℚ × Text) := [(5, "5.0".toList), (10, "10.0".toList), (90, "90.0".toList), (80, "80.0".toList)]

/-- What an exporter prints. -/
def sampleNumbers : List (Text × ℚ) := sampleFloats.map Prod.swap ++ [("90".toList, 90), ("80".toList, 80)]

/-- A library that knows them. -/
def sampleLib : Stdlib where
  isWord c := c.isAlphanum || c = '_'
  float text := sampleNumbers.lookup text
  str q := (sampleFloats.lookup q).getD []
  round3 q := if q = 5 then 5 else 10
  isWord_ascii _ _ := rfl

/-- Its reader. -/
def sampleReader : CoverageGate.Stdlib where
  jsonLoad _ := .ok .null
  jsonDump _ := []
  loadSeries _ := .ok []
  dictReader text :=
    match Csv.dictReader (Csv.rawLines text) with
    | .ok rows => rows.map fun row => Dict.ofList (row.columns.items.map fun p => (String.ofList p.1, p.2))
    | .error _ => []
  float := sampleLib.float

theorem reads_sampleReader : Reads sampleLib sampleReader where
  csv text rows h := by
    have hrow (row : Dict Text Text) : Dict.ofList ((Csv.fullRow row).columns.items.map fun p => (String.ofList p.1, p.2)) =
        namedRow row := by
      rw [Csv.fullRow, namedRow, Dict.mapValues, List.map_map]
      rfl
    rw [sampleReader]
    dsimp only
    rw [h]
    dsimp only
    rw [List.map_map]
    simp only [Function.comp_def, hrow]
  float := rfl

theorem floats_sampleLib : Floats sampleLib fun q => q ∈ [5, 10, 90, 80] where
  float text q h := by
    have hnumbers : ∀ p ∈ sampleNumbers, p.2 ∈ [5, 10, 90, 80] := by decide +kernel
    obtain ⟨before, after, hitems, -⟩ := List.lookup_eq_some_iff.mp h
    exact hnumbers (text, q) (by rw [hitems]; simp)
  round3 q := by
    show (if q = 5 then 5 else 10) ∈ _
    split_ifs <;> simp
  str q hq := by
    have hstr : ∀ q ∈ [5, 10, 90, 80], sampleLib.float (sampleLib.str q) = some q := by decide +kernel
    exact hstr q hq

/-- The labels of a GPU. -/
def gpuLabels (host : Text) : List (Text × Text) := [("gpu".toList, "0".toList), ("Hostname".toList, host)]

/-- A line with its utilization. -/
def utilLine (host number : Text) : ExporterLine := .sample "DCGM_FI_DEV_GPU_UTIL".toList (gpuLabels host) number

/-- Polling is started twice; each time one of two exporters does not answer. -/
def sampleSessions : List (List (List Scrape)) :=
  [[[some (10, [.other "# TYPE DCGM_FI_DEV_GPU_UTIL gauge".toList, utilLine "worker,0".toList "90".toList]), none]],
    [[none, some (10, [utilLine "worker1".toList "80".toList])],
      [some (5, [utilLine "worker,0".toList "80".toList]), none]]]

/-- The lines of the samples. -/
def sampleLines : List (Text × Text) :=
  [("worker,0".toList, "90".toList), ("worker1".toList, "80".toList), ("worker,0".toList, "80".toList)]

theorem wellFormed_utilLine {p : Text × Text} (hp : p ∈ sampleLines) : (utilLine p.1 p.2).WellFormed sampleLib := by
  have hline : ∀ p ∈ sampleLines, (utilLine p.1 p.2).text.all (fun c => !isLineBoundary c) = true := by decide +kernel
  have hlabels : ∀ p ∈ sampleLines, ∀ label ∈ gpuLabels p.1,
      (label.1 ≠ [] ∧ label.1.all sampleLib.isWord = true) ∧ '"' ∉ label.2 ∧ '\x7d' ∉ label.2 := by decide +kernel
  have hnumber : ∀ p ∈ sampleLines, p.2 ≠ [] ∧ p.2.all isNumberChar = true ∧ (sampleLib.float p.2).isSome := by
    decide +kernel
  have hmetric : "DCGM_FI_DEV_GPU_UTIL".toList.all sampleLib.isWord = true := by decide +kernel
  refine ⟨oneLine_of_all (hline p hp), ⟨by decide, List.all_eq_true.mp hmetric⟩, fun label hlabel => ?_, ?_⟩
  · obtain ⟨⟨hne, hword⟩, hvalue⟩ := hlabels p hp label hlabel
    exact ⟨⟨hne, List.all_eq_true.mp hword⟩, hvalue⟩
  · obtain ⟨hne, hchars, hfloat⟩ := hnumber p hp
    exact ⟨hne, List.all_eq_true.mp hchars, hfloat⟩

theorem wellFormed_comment : (ExporterLine.other "# TYPE DCGM_FI_DEV_GPU_UTIL gauge".toList).WellFormed sampleLib := by
  have hline : "# TYPE DCGM_FI_DEV_GPU_UTIL gauge".toList.all (fun c => !isLineBoundary c) = true := by decide +kernel
  have hfield : ∀ field ∈ fields, ¬ field ++ ['\x7b'] <+: "# TYPE DCGM_FI_DEV_GPU_UTIL gauge".toList := by decide +kernel
  exact ⟨oneLine_of_all hline, hfield⟩

theorem wellFormed_some {lib : Stdlib} {lines : List ExporterLine} (h : ∀ line ∈ lines, line.WellFormed lib) (time : ℚ) :
    Scrape.WellFormed lib (some (time, lines)) := by
  rintro p ⟨⟩
  exact h

theorem wellFormed_none (lib : Stdlib) : Scrape.WellFormed lib none := by
  rintro p ⟨⟩

theorem wellFormed_sampleSessions :
    ∀ rounds ∈ sampleSessions, ∀ round ∈ rounds, ∀ scrape ∈ round, scrape.WellFormed sampleLib := by
  have hutil (p : Text × Text) (hp : p ∈ sampleLines) (time : ℚ) :
      Scrape.WellFormed sampleLib (some (time, [utilLine p.1 p.2])) :=
    wellFormed_some (List.forall_mem_singleton.mpr (wellFormed_utilLine hp)) time
  have hfirst : Scrape.WellFormed sampleLib (some (10, [.other "# TYPE DCGM_FI_DEV_GPU_UTIL gauge".toList,
      utilLine "worker,0".toList "90".toList])) :=
    wellFormed_some (List.forall_mem_cons.mpr
      ⟨wellFormed_comment, List.forall_mem_singleton.mpr (wellFormed_utilLine List.mem_cons_self)⟩) 10
  have hround (a b : Scrape) (ha : a.WellFormed sampleLib) (hb : b.WellFormed sampleLib) :
      ∀ scrape ∈ [a, b], scrape.WellFormed sampleLib :=
    List.forall_mem_cons.mpr ⟨ha, List.forall_mem_singleton.mpr hb⟩
  have hnone := wellFormed_none sampleLib
  have hworker1 := hutil _ (List.mem_cons_of_mem _ List.mem_cons_self) 10
  have hworker0 := hutil _ (List.mem_cons_of_mem _ (List.mem_cons_of_mem _ List.mem_cons_self)) 5
  exact List.forall_mem_cons.mpr ⟨List.forall_mem_singleton.mpr (hround _ _ hfirst hnone),
    List.forall_mem_singleton.mpr (List.forall_mem_cons.mpr
      ⟨hround _ _ hnone hworker1, List.forall_mem_singleton.mpr (hround _ _ hworker0 hnone)⟩)⟩

/-- The files of the cell. -/
def sampleFiles : RunFiles := fun name =>
  if name = "dcgm.csv" then some (pollFile sampleLib (sampleSessions.map (·.map (·.map Scrape.fetch)))) else none

/-- The samples of `worker,0` come from both sessions, in the order of time. -/
theorem telemetry_round_trip_twoNodes : ∃ out, readDcgm sampleReader sampleFiles = .ok out ∧
    (out.get? "DCGM_FI_DEV_GPU_UTIL").bind (·.get? "worker,0/gpu0") = some [(5, 80), (10, 90)] := by
  have hne : sampleSessions ≠ [] := List.cons_ne_nil _ _
  have hlimit : ∀ p ∈ exported sampleLib sampleSessions, ∀ field ∈ sampleRow sampleLib p.1 p.2,
      field.length ≤ Csv.fieldLimit := by decide +kernel
  have hsamples : samplesAt "DCGM_FI_DEV_GPU_UTIL" "worker,0/gpu0" (exported sampleLib sampleSessions) =
      [(10, 90), (5, 80)] := by decide +kernel
  have hsorted : ([(10, 90), (5, 80)] : Samples).insertionSort SampleLe = [(5, 80), (10, 90)] := by decide +kernel
  have hfile : sampleFiles "dcgm.csv" = some (pollFile sampleLib (sampleSessions.map (·.map (·.map Scrape.fetch)))) :=
    if_pos rfl
  obtain ⟨out, hread, hentries⟩ := telemetry_round_trip reads_sampleReader floats_sampleLib hne
    wellFormed_sampleSessions hlimit hfile
  refine ⟨out, hread, ?_⟩
  rw [hentries, hsamples]
  exact congrArg some hsorted

end CachingInLLMs.Benchmarks.DcgmPoll

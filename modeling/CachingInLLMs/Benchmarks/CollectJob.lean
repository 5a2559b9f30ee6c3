import CachingInLLMs.Library.Dict
import CachingInLLMs.Library.Python
import CachingInLLMs.Library.Text
import Mathlib.Data.Char
import Mathlib.Data.Int.Cast.Basic
import Mathlib.Data.List.Lex
import Mathlib.Data.List.Sort

/-!
# Reading a Job log

A measured cell runs in a pod whose only channel out is its log. `collect_job.py` takes
the log apart: the marks `NODE`, `CELL_START` and `CELL_END`, and for each seed a frame of
base64 lines between `BEGIN` and `END`, which holds the gzipped CSV. Everything is checked,
and nothing is written unless all checks pass.

## The model

`parse` reads line after line. `readLine` is the body of its loop, on the line without its
newline; its state are the variables of the loop. Outside a frame `name` is `None`; inside,
every line but one that matches `END` is part of the body.

Base64, gzip, SHA-256 and `int` are functions of the standard library, and so is the class
of the decimal digits: `Stdlib` has them as parameters, each with the exceptions it may
raise. `Exc` has the exceptions that leave `parse`.
-/

namespace CachingInLLMs.Benchmarks.CollectJob

open CachingInLLMs.Library

/-- The bytes of a file. -/
abbrev Bytes := List UInt8

/-! ### The standard library -/

/-- What `base64.b64decode` may raise. -/
inductive Base64Error where
  /-- `binascii.Error`. -/
  | binasciiError (message : String)
  /-- `ValueError`. -/
  | valueError (message : String)
  deriving DecidableEq

/-- What `gzip.decompress` may raise. -/
inductive GzipError where
  /-- `OSError`, of which `BadGzipFile` is a subclass. -/
  | osError (message : String)
  /-- `EOFError`. -/
  | eofError (message : String)
  /-- `zlib.error`. -/
  | zlibError (message : String)
  deriving DecidableEq

/-- What reading a log uses of the standard library. -/
structure Stdlib where
  /-- The class of the decimal digits in a regular expression. -/
  isDecimal : Char → Bool
  /-- `int(text)`, or the message of its `ValueError`. -/
  int : Text → Except String ℤ
  /-- `base64.b64decode(text, validate=True)`. -/
  b64decode : Text → Except Base64Error Bytes
  /-- `gzip.decompress(raw)`. -/
  decompress : Bytes → Except GzipError Bytes
  /-- `hashlib.sha256(data).hexdigest()`. -/
  sha256 : Bytes → Text
  /-- A dictionary of strings, as it is printed. -/
  reprDict : Dict Text Text → String

/-- The exceptions that reading a log may end with. -/
inductive Exc where
  /-- `CollectError`: the log cannot be trusted. -/
  | collectError (message : String)
  /-- `ValueError`. -/
  | valueError (message : String)
  /-- `zlib.error`. -/
  | zlibError (message : String)
  deriving DecidableEq

/-! ### The patterns -/

/-- A non-empty text without whitespace, which is what `\S+` matches. -/
def IsWord (word : Text) : Prop := word ≠ [] ∧ ∀ c ∈ word, isSpace c = false

instance (word : Text) : Decidable (IsWord word) :=
  decidable_of_iff (word ≠ [] ∧ word.all (!isSpace ·)) (by simp [IsWord])

/-- `[0-9a-f]`. -/
def isHexDigit (c : Char) : Bool := ('0' ≤ c && c ≤ '9') || ('a' ≤ c && c ≤ 'f')

/-- The three marks. -/
def markKeys : List Text := ["NODE".toList, "CELL_START".toList, "CELL_END".toList]

/-- `BEGIN_RE`: the name, the checksum and the byte count. -/
def beginRe (isDecimal : Char → Bool) (line : Text) : Option (Text × Text × Text) := do
  let rest ← literal "BEGIN ".toList line
  let (name, rest) ← many1 (fun c => !isSpace c) rest
  let rest ← literal " sha256=".toList rest
  let (sha, rest) ← times 64 isHexDigit rest
  let rest ← literal " bytes=".toList rest
  let count ← upToEnd isDecimal rest
  return (name, sha, count)

/-- `END_RE`: the name. -/
def endRe (line : Text) : Option Text := do
  let rest ← literal "END ".toList line
  upToEnd (fun c => !isSpace c) rest

/-- `MARK_RE`: the key and the value. -/
def markRe (line : Text) : Option (Text × Text) :=
  markKeys.findSome? fun key => do
    let rest ← literal (key ++ [' ']) line
    let value ← upToEnd (fun c => !isSpace c) rest
    return (key, value)

/-! ### The loop -/

/-- The variables of the loop of `parse`. -/
structure ParseState where
  /-- `marks`. -/
  marks : Dict Text Text
  /-- `blobs`. -/
  blobs : Dict Text Bytes
  /-- `all_done`. -/
  allDone : Bool
  /-- `name`: the frame the line is in. -/
  name : Option Text
  /-- `meta`: the checksum and the byte count that its `BEGIN` declared. -/
  header : Text × ℤ
  /-- `body`: its lines so far. -/
  body : List Text
  deriving DecidableEq

/-- Before the first line. -/
def ParseState.start : ParseState := ⟨∅, ∅, false, none, ([], 0), []⟩

section Parse

variable (lib : Stdlib)

/-- `_decode`. -/
def decode (name b64 wantSha : Text) (wantBytes : ℤ) : Except Exc Bytes :=
  let blob := String.ofList name
  match lib.b64decode b64 with
  | .error (.binasciiError e) => .error (.collectError s!"{blob}: base64 did not decode ({e}) - log corrupted")
  | .error (.valueError e) => .error (.collectError s!"{blob}: base64 did not decode ({e}) - log corrupted")
  | .ok raw =>
    match lib.decompress raw with
    | .error (.osError e) => .error (.collectError s!"{blob}: gunzip failed ({e}) - blob truncated")
    | .error (.eofError e) => .error (.collectError s!"{blob}: gunzip failed ({e}) - blob truncated")
    | .error (.zlibError e) => .error (.zlibError e)  -- the except clause does not name it
    | .ok data =>
      let size := data.length
      let got := String.ofList ((lib.sha256 data).take 16)
      let declared := String.ofList (wantSha.take 16)
      if (size : ℤ) ≠ wantBytes then
        .error (.collectError s!"{blob}: decompressed to {size} bytes, header declared {wantBytes}")
      else if lib.sha256 data ≠ wantSha then
        .error (.collectError s!"{blob}: sha256 {got}… != declared {declared}…")
      else .ok data

/-- The byte count of a `BEGIN` line, `int(m.group(3))`. -/
def byteCount (count : Text) : Except Exc ℤ := (lib.int count).mapError .valueError

/-- The loop of `parse` outside a frame. -/
def readOutside (s : ParseState) (line : Text) : Except Exc ParseState :=
  match beginRe lib.isDecimal line with
  | some (name, sha, count) => do
    let bytes ← byteCount lib count
    return { s with name := some name, header := (sha, bytes), body := [] }
  | none =>
    match markRe line with
    | some (key, value) => .ok { s with marks := s.marks.set key value }
    | none => .ok (if line = "ALL_DONE".toList then { s with allDone := true } else s)

/-- The loop of `parse` inside the frame of a name. -/
def readInside (s : ParseState) (name line : Text) : Except Exc ParseState :=
  match endRe line with
  | some closing =>
    let closes := String.ofList closing
    let opened := String.ofList name
    if closing ≠ name then .error (.collectError s!"END {closes} closes BEGIN {opened} - log interleaved")
    else do
      let data ← decode lib name s.body.flatten s.header.1 s.header.2
      return { s with blobs := s.blobs.set name data, name := none }
  | none => .ok { s with body := s.body ++ [line] }

/-- The loop of `parse`, on a line without its newline. -/
def readLine (s : ParseState) (line : Text) : Except Exc ParseState :=
  match s.name with
  | none => readOutside lib s line
  | some name => readInside lib s name line

/-- `driver-seed<seed>.csv`. -/
def csvName (seed : Text) : Text := "driver-seed".toList ++ seed ++ ".csv".toList

/-- `', '.join(sorted(names))`. -/
def joinSorted (names : List Text) : String :=
  ", ".intercalate ((names.dedup.insertionSort (· ≤ ·)).map String.ofList)

/-- `if bad: raise CollectError(message)`. -/
def refuse (bad : Prop) [Decidable bad] (message : String) : Except Exc Unit :=
  if bad then .error (.collectError message) else .ok ()

/-- The two timestamps, `int(marks["CELL_START"]), int(marks["CELL_END"])`. -/
def window (marks : Dict Text Text) : Except String (ℤ × ℤ) := do
  let start ← lib.int ((marks.get? "CELL_START".toList).getD [])
  let stop ← lib.int ((marks.get? "CELL_END".toList).getD [])
  return (start, stop)

/-- The checks of `parse` after its loop. -/
def checkCell (s : ParseState) (expectedSeeds : List Text) : Except Exc (Dict Text Text × Dict Text Bytes) := do
  let opened := String.ofList (s.name.getD [])
  refuse (s.name ≠ none) s!"log ends inside {opened}: no END marker - truncated mid-blob"
  let absent := String.ofList ((markKeys.find? (· ∉ s.marks)).getD [])
  refuse (∃ key ∈ markKeys, key ∉ s.marks) s!"no {absent} line in the log"
  let marks := lib.reprDict s.marks
  let (start, stop) ← (window lib s.marks).mapError fun e =>
    Exc.collectError s!"non-integer window marker: {marks} ({e})"
  refuse (stop ≤ start) s!"CELL_END {stop} <= CELL_START {start} - window is not a window"
  let want := expectedSeeds.map csvName
  let missing := want.filter (· ∉ s.blobs)
  let extra := s.blobs.keys.filter (· ∉ want)
  let missingNames := joinSorted missing
  let extraNames := joinSorted extra
  refuse (missing ≠ []) s!"missing seeds: {missingNames}"
  refuse (extra ≠ []) s!"unexpected blobs: {extraNames}"
  refuse (s.allDone = false) "no ALL_DONE - the log is truncated after the last END"
  return (s.marks, s.blobs)

/-- `parse`. -/
def parse (lines : List Text) (expectedSeeds : List Text) : Except Exc (Dict Text Text × Dict Text Bytes) := do
  let s ← lines.foldlM (fun s raw => readLine lib s (rstripNewlines raw)) .start
  checkCell lib s expectedSeeds

/-- What `main` leaves behind. -/
structure Outcome where
  /-- Its return value. -/
  exitCode : ℕ
  /-- The lines it prints to stderr. -/
  stderr : List String
  /-- The lines it prints to stdout. -/
  stdout : List String
  /-- The CSV files it writes. -/
  csvs : List (Text × Bytes)
  /-- `window.env`, if it writes it. -/
  windowEnv : Option String

/-- `main`, on the text of the log. -/
def main (log : Text) (out : String) (seeds : List Text) (benchImage : String) : Except Exc Outcome :=
  match parse lib (fileLines log) seeds with
  | .error (.collectError e) =>
    .ok ⟨1, [s!"COLLECT FAILED: {e}", "nothing written - do not measure on this cell"], [], [], none⟩
  | .error e => .error e
  | .ok (marks, blobs) => do
    let csvs := blobs.items.insertionSort fun a b => a.1 ≤ b.1
    let written := csvs.map fun (name, data) =>
      let file := String.ofList name
      let rows := (data.count 10 : ℤ) - 1
      let size := data.length
      s!"  {file}: {rows} rows, {size} bytes"
    let mark (key : String) := String.ofList ((marks.get? key.toList).getD [])
    let (start, stop) ← (window lib marks).mapError .valueError
    let since := mark "CELL_START"
    let till := mark "CELL_END"
    let node := mark "NODE"
    let cells := blobs.keys.length
    let span := stop - start
    return ⟨0, [], written ++ [s!"collected {cells} seeds into {out}; window {since}..{till} ({span}s) on node {node}"],
      csvs, some s!"CELL_START={since}\nCELL_END={till}\nDRIVER_NODE={node}\nBENCH_IMAGE={benchImage}\n"⟩

end Parse

/-! ### What the patterns match -/

section Patterns

variable {isDecimal : Char → Bool} {line name sha count key value : Text}

theorem isWord_iff {word : Text} : IsWord word ↔ word ≠ [] ∧ ∀ c ∈ word, (!isSpace c) = true := by
  simp [IsWord]

theorem endRe_eq_some : endRe line = some name ↔ line = "END ".toList ++ name ∧ IsWord name := by
  rw [endRe, Option.bind_eq_bind, Option.bind_eq_some_iff, isWord_iff]
  constructor
  · rintro ⟨rest, hrest, h⟩
    obtain ⟨rfl, hname⟩ := upToEnd_eq_some.mp h
    exact ⟨literal_eq_some.mp hrest, hname⟩
  · rintro ⟨hline, hname⟩
    exact ⟨name, literal_eq_some.mpr hline, upToEnd_eq_some.mpr ⟨rfl, hname⟩⟩

theorem beginRe_eq_some :
    beginRe isDecimal line = some (name, sha, count) ↔
      line = "BEGIN ".toList ++ (name ++ (" sha256=".toList ++ (sha ++ (" bytes=".toList ++ count)))) ∧
        IsWord name ∧ (sha.length = 64 ∧ ∀ c ∈ sha, isHexDigit c) ∧ count ≠ [] ∧ ∀ c ∈ count, isDecimal c := by
  rw [beginRe, isWord_iff]
  simp only [Option.bind_eq_bind, Option.bind_eq_some_iff, Prod.exists, literal_eq_some, many1_eq_some, times_eq_some,
    upToEnd_eq_some, pure, Option.some.injEq, Prod.mk.injEq]
  constructor
  · rintro ⟨_, rfl, name', _, ⟨rfl, hne, hname, -⟩, _, rfl, sha', _, ⟨rfl, hsha⟩, _, rfl, count', ⟨rfl, hcount⟩, rfl,
      rfl, rfl⟩
    exact ⟨rfl, ⟨hne, hname⟩, hsha, hcount⟩
  · rintro ⟨rfl, ⟨hne, hname⟩, hsha, hcount⟩
    refine ⟨_, rfl, name, _, ⟨rfl, hne, hname, ?_⟩, _, rfl, sha, _, ⟨rfl, hsha⟩, _, rfl, count, ⟨rfl, hcount⟩, rfl, rfl, rfl⟩
    rintro c ⟨⟩
    rfl

theorem not_mem_of_mem_markKeys (hkey : key ∈ markKeys) : ' ' ∉ key := by
  revert key
  decide

/-- What a key that `MARK_RE` tries matches. -/
theorem of_markRe (h : markRe line = some (key, value)) :
    key ∈ markKeys ∧ line = key ++ ' ' :: value ∧ IsWord value := by
  obtain ⟨key', hkey', h⟩ := List.exists_of_findSome?_eq_some h
  simp only [Option.bind_eq_bind, Option.bind_eq_some_iff, literal_eq_some, upToEnd_eq_some, pure, Option.some.injEq,
    Prod.mk.injEq] at h
  obtain ⟨_, rfl, _, ⟨rfl, hvalue⟩, rfl, rfl⟩ := h
  exact ⟨hkey', by simp, isWord_iff.mpr hvalue⟩

theorem markRe_eq_some :
    markRe line = some (key, value) ↔ key ∈ markKeys ∧ line = key ++ ' ' :: value ∧ IsWord value := by
  refine ⟨of_markRe, fun ⟨hkey, hline, hvalue⟩ => ?_⟩
  have hsome : (markRe line).isSome := by
    rw [markRe, List.findSome?_isSome_iff]
    have hliteral : literal (key ++ [' ']) line = some value := literal_eq_some.mpr (by simp [hline])
    refine ⟨key, hkey, ?_⟩
    rw [hliteral]
    simp [upToEnd_eq_some.mpr ⟨rfl, isWord_iff.mp hvalue⟩]
  -- no other key is followed by the same blank
  obtain ⟨⟨key', value'⟩, h⟩ := Option.isSome_iff_exists.mp hsome
  obtain ⟨-, hline', -⟩ := of_markRe h
  have hblank : ' ' ∉ value := fun hmem => absurd (hvalue.2 ' ' hmem) (by decide)
  obtain ⟨rfl, -, rfl⟩ :=
    (List.append_cons_inj_of_notMem (not_mem_of_mem_markKeys hkey) hblank).mp (hline.symm.trans hline')
  exact h

end Patterns

/-! ### What the checks establish -/

section Checks

variable {lib : Stdlib} {s : ParseState} {seeds : List Text}

/-- No exception but `CollectError`. -/
def OnlyCollects {α : Type} (result : Except Exc α) : Prop :=
  ∀ e, result = .error e → ∃ message, e = .collectError message

theorem OnlyCollects.ok {α : Type} (a : α) : OnlyCollects (.ok a) := fun _ h => nomatch h

theorem OnlyCollects.collectError {α : Type} (message : String) :
    OnlyCollects (.error (.collectError message) : Except Exc α) := by
  rintro e ⟨⟩
  exact ⟨message, rfl⟩

theorem OnlyCollects.bind {α β : Type} {result : Except Exc α} {f : α → Except Exc β} (h : OnlyCollects result)
    (hf : ∀ a, OnlyCollects (f a)) : OnlyCollects (result >>= f) := by
  cases result with
  | error e =>
    obtain ⟨message, rfl⟩ := h e rfl
    exact .collectError message
  | ok a => exact hf a

theorem OnlyCollects.refuse (bad : Prop) [Decidable bad] (message : String) : OnlyCollects (refuse bad message) := by
  rw [CollectJob.refuse]
  split_ifs
  · exact .collectError message
  · exact .ok ()

/-- The checks refuse a log with a `CollectError` and nothing else. -/
theorem checkCell_onlyCollects (lib : Stdlib) (s : ParseState) (seeds : List Text) :
    OnlyCollects (checkCell lib s seeds) := by
  have hwindow : OnlyCollects ((window lib s.marks).mapError fun e =>
      Exc.collectError s!"non-integer window marker: {lib.reprDict s.marks} ({e})") := by
    cases window lib s.marks with
    | error e => exact .collectError _
    | ok times => exact .ok times
  rw [checkCell]
  refine .bind (.refuse _ _) fun _ => .bind (.refuse _ _) fun _ => .bind hwindow fun _ => ?_
  refine .bind (.refuse _ _) fun _ => .bind (.refuse _ _) fun _ => .bind (.refuse _ _) fun _ => ?_
  exact .bind (.refuse _ _) fun _ => .ok _

theorem refuse_eq_ok {bad : Prop} [Decidable bad] {message : String} {u : Unit} :
    refuse bad message = .ok u ↔ ¬ bad := by
  rw [refuse]
  split_ifs with hbad
  · exact ⟨(fun h => nomatch h), fun h => absurd hbad h⟩
  · exact ⟨fun _ => hbad, fun _ => rfl⟩

/-- What a cell has that passes the checks. -/
structure Complete (lib : Stdlib) (s : ParseState) (seeds : List Text) : Prop where
  /-- No frame is left open. -/
  outside : s.name = none
  /-- The marks are there. -/
  marks : ∀ key ∈ markKeys, key ∈ s.marks
  /-- The window is one. -/
  window : ∃ start stop, window lib s.marks = .ok (start, stop) ∧ start < stop
  /-- The blobs are those of the seeds. -/
  blobs : ∀ name, name ∈ s.blobs ↔ ∃ seed ∈ seeds, csvName seed = name
  /-- The log came to its end. -/
  allDone : s.allDone = true

theorem checkCell_eq_ok {marks : Dict Text Text} {blobs : Dict Text Bytes} :
    checkCell lib s seeds = .ok (marks, blobs) ↔ Complete lib s seeds ∧ marks = s.marks ∧ blobs = s.blobs := by
  have hnames : (∀ name, name ∈ s.blobs ↔ ∃ seed ∈ seeds, csvName seed = name) ↔
      (seeds.map csvName).filter (· ∉ s.blobs) = [] ∧ s.blobs.keys.filter (· ∉ seeds.map csvName) = [] := by
    simp only [List.filter_eq_nil_iff, decide_eq_true_eq, not_not, List.mem_map, Dict.mem_keys]
    constructor
    · exact fun h => ⟨fun name => (h name).mpr, fun name => (h name).mp⟩
    · exact fun h name => ⟨h.2 name, h.1 name⟩
  simp only [checkCell, bind_eq_ok, refuse_eq_ok, mapError_eq_ok]
  constructor
  · rintro ⟨_, houtside, _, hmarks, ⟨start, stop⟩, hwindow, _, hlt, _, hmissing, _, hextra, _, hdone, hcell⟩
    cases hcell
    refine ⟨⟨not_not.mp houtside, fun key hkey => ?_, ⟨start, stop, hwindow, not_le.mp hlt⟩, ?_, ?_⟩, rfl, rfl⟩
    · by_contra habsent
      exact hmarks ⟨key, hkey, habsent⟩
    · exact hnames.mpr ⟨not_not.mp hmissing, not_not.mp hextra⟩
    · simpa using hdone
  · rintro ⟨h, rfl, rfl⟩
    obtain ⟨start, stop, hwindow, hlt⟩ := h.window
    obtain ⟨hmissing, hextra⟩ := hnames.mp h.blobs
    have hmarks : ¬ ∃ key ∈ markKeys, key ∉ s.marks := fun ⟨key, hkey, habsent⟩ => habsent (h.marks key hkey)
    exact ⟨(), not_not.mpr h.outside, (), hmarks, (start, stop), hwindow, (), not_le.mpr hlt, (), not_not.mpr hmissing,
      (), not_not.mpr hextra, (), by simp [h.allDone], rfl⟩

/-- `main` returns where `parse` raises nothing but `CollectError`: with all the blobs
written if it returns a cell, and otherwise with the message and nothing written. -/
theorem main_returns_iff (lib : Stdlib) (log : Text) (out : String) (seeds : List Text) (benchImage : String) :
    (∃ outcome, main lib log out seeds benchImage = .ok outcome ∧
      ((∃ marks blobs, parse lib (fileLines log) seeds = .ok (marks, blobs) ∧ outcome.csvs.Perm blobs.items) ∨
        ∃ message : String, outcome.stderr.head? = some s!"COLLECT FAILED: {message}" ∧ outcome.csvs = [] ∧
          outcome.windowEnv = none)) ↔
      OnlyCollects (parse lib (fileLines log) seeds) := by
  rw [main]
  constructor
  · rintro ⟨outcome, houtcome, -⟩
    intro e he
    rw [he] at houtcome
    cases e with
    | collectError message => exact ⟨message, rfl⟩
    | valueError message => exact nomatch houtcome
    | zlibError message => exact nomatch houtcome
  · intro hcollects
    cases hparse : parse lib (fileLines log) seeds with
    | error e =>
      obtain ⟨message, rfl⟩ := hcollects e hparse
      exact ⟨_, rfl, .inr ⟨message, rfl, rfl, rfl⟩⟩
    | ok cell =>
      obtain ⟨s, -, hcheck⟩ := bind_eq_ok.mp hparse
      obtain ⟨hcomplete, hmarks, -⟩ := checkCell_eq_ok.mp hcheck
      obtain ⟨start, stop, hwindow, -⟩ := hcomplete.window
      dsimp only
      rw [hmarks, hwindow]
      exact ⟨_, rfl, .inl ⟨_, _, rfl, List.perm_insertionSort _ _⟩⟩

end Checks

/-! ### A small log -/

/-- A CSV with nothing but a header. -/
def sampleCsv : Bytes := [105, 110, 100, 101, 120, 10]

/-- Its SHA-256. -/
def sampleSha : Text := "f816b480f87144ec4de5862adf028ff66cc6964250325d53fd22bf8922824b6f".toList

/-- What gzip makes of it. -/
def sampleGzip : Bytes :=
  [31, 139, 8, 0, 0, 0, 0, 0, 2, 3, 203, 204, 75, 73, 173, 224, 2, 0, 98, 69, 80, 69, 6, 0, 0, 0]

/-- And base64 of that. -/
def sampleBase64 : Text := "H4sIAAAAAAACA8vMS0mt4AIAYkVQRQYAAAA=".toList

/-- The header of a gzip file, and a byte that is no deflate block. -/
def corruptGzip : Bytes := [31, 139, 8, 0, 0, 0, 0, 0, 2, 3, 255]

/-- Base64 of that. -/
def corruptBase64 : Text := "H4sIAAAAAAACA/8=".toList

/-- A library that knows these files. -/
def sampleLib : Stdlib where
  isDecimal := Char.isDigit
  int text :=
    if text ≠ [] ∧ text.all Char.isDigit then .ok (Nat.ofDigitChars 10 text 0)
    else .error "invalid literal for int() with base 10"
  b64decode text :=
    if text = sampleBase64 then .ok sampleGzip
    else if text = corruptBase64 then .ok corruptGzip
    else .error (.binasciiError "Incorrect padding")
  decompress raw :=
    if raw = sampleGzip then .ok sampleCsv
    else if raw = corruptGzip then .error (.zlibError "Error -3 while decompressing data: invalid block type")
    else .error (.osError "Not a gzipped file")
  sha256 data :=
    if data = sampleCsv then sampleSha
    else "e3b0c44298fc1c149afbf4c8996fb92427ae41e4649b934ca495991b7852b855".toList
  reprDict _ := "marks"

/-- A log with one frame, whose body is the given line. -/
def oneFrameLog (line : Text) : List Text :=
  ["NODE worker\n".toList, "CELL_START 5\n".toList, "CELL_END 9\n".toList,
    "BEGIN driver-seed1.csv sha256=".toList ++ sampleSha ++ " bytes=6\n".toList, line ++ ['\n'],
    "END driver-seed1.csv\n".toList, "ALL_DONE\n".toList]

/-- The log of a cell is accepted. -/
theorem parse_oneFrameLog : parse sampleLib (oneFrameLog sampleBase64) ["1".toList] =
    .ok (Dict.ofList [("NODE".toList, "worker".toList), ("CELL_START".toList, "5".toList), ("CELL_END".toList, "9".toList)],
      Dict.ofList [("driver-seed1.csv".toList, sampleCsv)]) := by decide +kernel

end CachingInLLMs.Benchmarks.CollectJob

import CachingInLLMs.Benchmarks.Frames
import CachingInLLMs.Library.Chunking

/-!
# The log of a Job

`in_pod.sh` prints the marks around the replay of the seeds, then a frame for each seed,
and `ALL_DONE` when everything is out. What the tools it calls print in between is
progress, which `parse` has to pass over.

## The model

An `Item` is what one command prints: a progress line, a mark, a frame or `ALL_DONE`.
A `JobLog` is the items of a run, with progress lines anywhere but inside a frame;
`InPod` has what a run of `in_pod.sh` prints, in the order of the script, and
`InPod.jobLog` shows that it is such a log.

gzip and base64 are programs: an `Encoder` has them as parameters. `Encodes` is what is
assumed of them and of the library that decodes what they wrote.

## What is proved

* `exists_pieces_of_items`: the items are pieces, and add to a cell what they say.
* `parse_jobLog`: `parse` gives back the marks and the CSVs.
-/

namespace CachingInLLMs.Benchmarks.CollectJob

open CachingInLLMs.Library

/-! ### What a run prints -/

/-- The programs that a frame is written with. -/
structure Encoder where
  /-- `gzip -9 -c`. -/
  gzip : Bytes → Bytes
  /-- The characters that `base64` prints, without the line ends. -/
  b64encode : Bytes → Text
  /-- How many characters it puts on a line. -/
  width : ℕ
  /-- At least one. -/
  width_pos : 0 < width

/-- What one command prints. -/
inductive Item where
  /-- A progress line. -/
  | progress (line : Text)
  /-- A mark. -/
  | mark (key value : Text)
  /-- The frame of a seed. -/
  | blob (seed : Text) (csv : Bytes)
  /-- `ALL_DONE`. -/
  | allDone
  deriving DecidableEq

/-- A progress line. -/
def Item.isProgress : Item → Bool
  | .progress _ => true
  | _ => false

/-- `BEGIN driver-seed$seed.csv sha256=… bytes=…`. -/
def beginLine (lib : Stdlib) (seed : Text) (csv : Bytes) : Text :=
  "BEGIN ".toList ++ (csvName seed ++ (" sha256=".toList ++ (lib.sha256 csv ++ (" bytes=".toList ++ natText csv.length))))

/-- `END driver-seed$seed.csv`. -/
def endLine (seed : Text) : Text := "END ".toList ++ csvName seed

/-- The lines of base64. -/
def Encoder.body (enc : Encoder) (csv : Bytes) : List Text := slices enc.width (enc.b64encode (enc.gzip csv))

/-- The lines of an item. -/
def Item.lines (lib : Stdlib) (enc : Encoder) : Item → List Text
  | .progress line => [line]
  | .mark key value => [key ++ ' ' :: value]
  | .blob seed csv => beginLine lib seed csv :: (enc.body csv ++ [endLine seed])
  | .allDone => ["ALL_DONE".toList]

/-- A line that says nothing to `parse`. -/
structure IsProgress (lib : Stdlib) (line : Text) : Prop where
  /-- It is one line. -/
  isLine : IsLine line
  /-- It is not `ALL_DONE`. -/
  ne_allDone : line ≠ "ALL_DONE".toList
  /-- It is no `BEGIN`. -/
  beginRe : beginRe lib.isDecimal line = none
  /-- It is no mark. -/
  markRe : markRe line = none

/-- What a run prints. -/
structure JobLog (lib : Stdlib) where
  /-- `$NODE_NAME`. -/
  node : Text
  /-- When the replay began. -/
  start : ℤ
  /-- When it ended. -/
  stop : ℤ
  /-- The seeds, each with its CSV. -/
  blobs : List (Text × Bytes)
  /-- What is printed before `ALL_DONE`. -/
  items : List Item
  /-- The lines after it. -/
  rest : List Text
  /-- It is the marks and the frames, but for the progress. -/
  core : items.filter (!·.isProgress) =
    [.mark "NODE".toList node, .mark "CELL_START".toList (intText start), .mark "CELL_END".toList (intText stop)] ++
      blobs.map fun b => .blob b.1 b.2
  /-- The name of the node is a word. -/
  node_isWord : IsWord node
  /-- The seeds are cut out at whitespace. -/
  seed_noSpace : ∀ b ∈ blobs, ∀ c ∈ b.1, isSpace c = false
  /-- The progress lines say nothing. -/
  progress : ∀ line, .progress line ∈ items ∨ line ∈ rest → IsProgress lib line

section Text

variable {lib : Stdlib} (enc : Encoder) (log : JobLog lib)

/-- `$SEEDS`. -/
def JobLog.seeds : List Text := log.blobs.map Prod.fst

/-- The lines before `ALL_DONE`. -/
def JobLog.lines : List Text := log.items.flatMap (Item.lines lib enc)

/-- The log up to the end of `ALL_DONE`. -/
def JobLog.upToAllDone : Text := unlines (log.lines enc) ++ "ALL_DONE".toList

/-- The log. -/
def JobLog.text : Text := log.upToAllDone enc ++ '\n' :: unlines log.rest

end Text

/-- The alphabet of base64. -/
def isBase64 (c : Char) : Bool := c.isAlphanum || c = '+' || c = '/' || c = '='

/-- What is assumed of the programs and the library, for one CSV. -/
structure Encodes (lib : Stdlib) (enc : Encoder) (csv : Bytes) : Prop where
  /-- base64 has its alphabet. -/
  alphabet : ∀ c ∈ enc.b64encode (enc.gzip csv), isBase64 c
  /-- base64 decodes to what was encoded. -/
  b64decode : lib.b64decode (enc.b64encode (enc.gzip csv)) = .ok (enc.gzip csv)
  /-- gzip decompresses to what was compressed. -/
  decompress : lib.decompress (enc.gzip csv) = .ok csv
  /-- A checksum has 64 hexadecimal digits. -/
  sha256 : (lib.sha256 csv).length = 64 ∧ ∀ c ∈ lib.sha256 csv, isHexDigit c
  /-- The digits are decimal digits. -/
  isDecimal : ∀ c ∈ natText csv.length, lib.isDecimal c
  /-- `int` reads the length. -/
  int : lib.int (natText csv.length) = .ok (csv.length : ℤ)

/-- An item that a run may print. -/
def Item.WellFormed (lib : Stdlib) (enc : Encoder) : Item → Prop
  | .progress line => IsProgress lib line
  | .mark key value => key ∈ markKeys ∧ IsWord value
  | .blob seed csv => (∀ c ∈ seed, isSpace c = false) ∧ Encodes lib enc csv
  | .allDone => True

/-! ### The lines of an item -/

section Lines

variable {lib : Stdlib} {enc : Encoder} {seed line : Text} {csv : Bytes}

theorem endRe_eq_none (h : ' ' ∉ line) : endRe line = none := by
  cases hend : endRe line with
  | none => rfl
  | some name =>
    rw [(endRe_eq_some.mp hend).1] at h
    exact absurd (List.mem_append_left _ (by decide)) h

theorem isWord_csvName (h : ∀ c ∈ seed, isSpace c = false) : IsWord (csvName seed) := by
  have hdriver : IsWord "driver-seed".toList := by decide
  have hcsv : IsWord ".csv".toList := by decide
  refine ⟨fun hnil => ?_, fun c hc => ?_⟩
  · exact absurd (List.append_eq_nil_iff.mp hnil).2 (by decide)
  · rcases List.mem_append.mp hc with hc | hc
    · rcases List.mem_append.mp hc with hc | hc
      · exact hdriver.2 c hc
      · exact h c hc
    · exact hcsv.2 c hc

theorem csvName_injective : Function.Injective csvName := fun _ _ h =>
  List.append_cancel_left (List.append_cancel_right h)

theorem beginRe_beginLine (hseed : ∀ c ∈ seed, isSpace c = false) (henc : Encodes lib enc csv) :
    beginRe lib.isDecimal (beginLine lib seed csv) = some (csvName seed, lib.sha256 csv, natText csv.length) :=
  beginRe_eq_some.mpr ⟨rfl, isWord_csvName hseed, henc.sha256, natText_ne_nil _, henc.isDecimal⟩

theorem endRe_endLine (hseed : ∀ c ∈ seed, isSpace c = false) : endRe (endLine seed) = some (csvName seed) :=
  endRe_eq_some.mpr ⟨rfl, isWord_csvName hseed⟩

theorem flatten_body (enc : Encoder) (csv : Bytes) : (enc.body csv).flatten = enc.b64encode (enc.gzip csv) :=
  flatten_slices enc.width_pos _

theorem isBase64_of_mem_body (henc : Encodes lib enc csv) (hline : line ∈ enc.body csv) {c : Char} (hc : c ∈ line) :
    isBase64 c := by
  refine henc.alphabet c ?_
  rw [← flatten_body]
  exact List.mem_flatten.mpr ⟨line, hline, hc⟩

/-- A line of base64, or what is left of it, closes no frame. -/
theorem endRe_of_prefix_body (henc : Encodes lib enc csv) (hline : line ∈ enc.body csv) {part : Text}
    (hpart : part <+: line) : endRe part = none :=
  endRe_eq_none fun hc => absurd (isBase64_of_mem_body henc hline (hpart.subset hc)) (by decide)

theorem of_beginRe {isDecimal : Char → Bool} {header : Text × Text × Text} (h : beginRe isDecimal line = some header) :
    line.head? = some 'B' ∧ ' ' ∈ line := by
  obtain ⟨hline, -⟩ := beginRe_eq_some.mp h
  rw [hline]
  exact ⟨rfl, List.mem_append_left _ (by decide)⟩

theorem head?_of_mem_markKeys {key : Text} (hkey : key ∈ markKeys) (text : Text) :
    (key ++ text).head? = some 'N' ∨ (key ++ text).head? = some 'C' := by
  simp only [markKeys, List.mem_cons, List.not_mem_nil, or_false] at hkey
  rcases hkey with rfl | rfl | rfl
  · exact .inl rfl
  · exact .inr rfl
  · exact .inr rfl

/-- A mark opens no frame. -/
theorem beginRe_mark {isDecimal : Char → Bool} {key : Text} (hkey : key ∈ markKeys) (value : Text) :
    beginRe isDecimal (key ++ ' ' :: value) = none := by
  cases hbegin : beginRe isDecimal (key ++ ' ' :: value) with
  | none => rfl
  | some header =>
    have hhead := (of_beginRe hbegin).1
    rcases head?_of_mem_markKeys hkey (' ' :: value) with hkey | hkey
    · exact nomatch hhead.symm.trans hkey
    · exact nomatch hhead.symm.trans hkey

theorem isLine_csvName (hseed : ∀ c ∈ seed, isSpace c = false) : IsLine (csvName seed) :=
  isLine_of_forall (p := fun c => !isSpace c) (isWord_iff.mp (isWord_csvName hseed)).2 rfl rfl

/-- What the lines of an item look like. -/
inductive ItemLine (lib : Stdlib) (enc : Encoder) : Item → Text → Prop where
  /-- The line of a progress. -/
  | progress {line : Text} : IsProgress lib line → ItemLine lib enc (.progress line) line
  /-- The line of a mark. -/
  | mark {key value : Text} : key ∈ markKeys → IsWord value → ItemLine lib enc (.mark key value) (key ++ ' ' :: value)
  /-- The `BEGIN` of a frame. -/
  | opening {seed : Text} {csv : Bytes} :
      (∀ c ∈ seed, isSpace c = false) → Encodes lib enc csv → ItemLine lib enc (.blob seed csv) (beginLine lib seed csv)
  /-- A line inside. -/
  | base64 {seed line : Text} {csv : Bytes} : (∀ c ∈ line, isBase64 c) → ItemLine lib enc (.blob seed csv) line
  /-- Its `END`. -/
  | closing {seed : Text} {csv : Bytes} :
      (∀ c ∈ seed, isSpace c = false) → ItemLine lib enc (.blob seed csv) (endLine seed)
  /-- `ALL_DONE`. -/
  | allDone : ItemLine lib enc .allDone "ALL_DONE".toList

/-- A line that an item prints is one of these. -/
theorem Item.WellFormed.itemLine {item : Item} (h : item.WellFormed lib enc) (hline : line ∈ item.lines lib enc) :
    ItemLine lib enc item line := by
  cases item with
  | progress line' =>
    cases List.mem_singleton.mp hline
    exact .progress h
  | mark key value =>
    cases List.mem_singleton.mp hline
    exact .mark h.1 h.2
  | blob seed csv =>
    obtain ⟨hseed, henc⟩ := h
    rcases List.mem_cons.mp hline with rfl | hline
    · exact .opening hseed henc
    · rcases List.mem_append.mp hline with hline | hline
      · exact .base64 fun c hc => isBase64_of_mem_body henc hline hc
      · cases List.mem_singleton.mp hline
        exact .closing hseed
  | allDone =>
    cases List.mem_singleton.mp hline
    exact .allDone

/-- What an item prints is lines. -/
theorem ItemLine.isLine {item : Item} (h : ItemLine lib enc item line) : IsLine line := by
  cases h with
  | progress hprogress => exact hprogress.isLine
  | @mark key value hkey hvalue =>
    have hkeys : ∀ key ∈ markKeys, IsLine (key ++ [' ']) := by decide
    have hword : IsLine value := isLine_of_forall (p := fun c => !isSpace c) (isWord_iff.mp hvalue).2 rfl rfl
    simpa using (hkeys key hkey).append hword
  | @opening seed csv hseed henc =>
    have hsha : IsLine (lib.sha256 csv) := isLine_of_forall henc.sha256.2 rfl rfl
    have hcount : IsLine (natText csv.length) :=
      isLine_of_forall (p := Char.isDigit) (fun _ => isDigit_of_mem_natText) rfl rfl
    have hwords : IsLine "BEGIN ".toList ∧ IsLine " sha256=".toList ∧ IsLine " bytes=".toList := by decide
    exact hwords.1.append ((isLine_csvName hseed).append (hwords.2.1.append (hsha.append (hwords.2.2.append hcount))))
  | base64 hbase => exact isLine_of_forall hbase rfl rfl
  | closing hseed =>
    have hend : IsLine "END ".toList := by decide
    exact hend.append (isLine_csvName hseed)
  | allDone => decide

end Lines

/-! ### The first words of a line -/

section Words

variable {lib : Stdlib} {enc : Encoder} {item : Item} {line : Text}

theorem head?_of_markRe {mark : Text × Text} (h : markRe line = some mark) :
    (line.head? = some 'N' ∨ line.head? = some 'C') ∧ ' ' ∈ line := by
  obtain ⟨hkey, hline, -⟩ := of_markRe h
  rw [hline]
  exact ⟨head?_of_mem_markKeys hkey _, List.mem_append_right _ List.mem_cons_self⟩

theorem head?_of_allDone (h : "ALL_DONE".toList <+: line) : line.head? = some 'A' ∧ '_' ∈ line := by
  obtain ⟨text, rfl⟩ := h
  exact ⟨rfl, List.mem_append_left _ (by decide)⟩

/-- A mark is printed as one. -/
theorem ItemLine.eq_mark (h : ItemLine lib enc item line) {key value : Text} (hmark : markRe line = some (key, value)) :
    item = .mark key value := by
  obtain ⟨hhead, hblank⟩ := head?_of_markRe hmark
  cases h with
  | progress hprogress => simp [hprogress.markRe] at hmark
  | mark hkey hvalue =>
    rw [markRe_eq_some.mpr ⟨hkey, rfl, hvalue⟩] at hmark
    cases hmark
    rfl
  | opening => rcases hhead with hhead | hhead <;> exact nomatch hhead
  | base64 hbase => exact absurd (hbase _ hblank) (by decide)
  | closing => rcases hhead with hhead | hhead <;> exact nomatch hhead
  | allDone => exact nomatch hmark

/-- A frame is opened as one. -/
theorem ItemLine.exists_blob (h : ItemLine lib enc item line) {name sha count : Text}
    (hbegin : beginRe lib.isDecimal line = some (name, sha, count)) :
    ∃ seed csv, item = .blob seed csv ∧ csvName seed = name := by
  obtain ⟨hhead, hblank⟩ := of_beginRe hbegin
  cases h with
  | progress hprogress => simp [hprogress.beginRe] at hbegin
  | mark hkey => simp [beginRe_mark hkey] at hbegin
  | opening hseed henc =>
    rw [beginRe_beginLine hseed henc] at hbegin
    cases hbegin
    exact ⟨_, _, rfl, rfl⟩
  | base64 hbase => exact absurd (hbase _ hblank) (by decide)
  | closing => exact nomatch hhead
  | allDone => exact nomatch hhead

/-- What begins with `ALL_DONE` is progress, if it is not the end. -/
theorem ItemLine.of_allDone (h : ItemLine lib enc item line) (hdone : "ALL_DONE".toList <+: line) :
    item = .progress line ∨ item = .allDone := by
  obtain ⟨hhead, hscore⟩ := head?_of_allDone hdone
  cases h with
  | progress => exact .inl rfl
  | @mark key value hkey =>
    rcases head?_of_mem_markKeys hkey (' ' :: value) with hkey | hkey <;> exact nomatch hhead.symm.trans hkey
  | opening => exact nomatch hhead
  | base64 hbase => exact absurd (hbase _ hscore) (by decide)
  | closing => exact nomatch hhead
  | allDone => exact .inr rfl

/-- `ALL_DONE` itself is the end. -/
theorem ItemLine.eq_allDone (h : ItemLine lib enc item "ALL_DONE".toList) : item = .allDone := by
  rcases h.of_allDone List.prefix_rfl with rfl | rfl
  · cases h with
    | progress hprogress => exact absurd rfl hprogress.ne_allDone
  · rfl

end Words

/-! ### What an item adds -/

/-- What an item says. -/
def Cell.add (c : Cell) : Item → Cell
  | .progress _ => c
  | .mark key value => { c with marks := c.marks.set key value }
  | .blob seed csv => { c with blobs := c.blobs.set (csvName seed) csv }
  | .allDone => { c with allDone := true }

section Items

variable {lib : Stdlib} {enc : Encoder}

/-- The frame of a seed. -/
def blobFrame {seed : Text} {csv : Bytes} (hseed : ∀ c ∈ seed, isSpace c = false) (henc : Encodes lib enc csv) :
    Frame lib where
  opening := beginLine lib seed csv
  name := csvName seed
  sha := lib.sha256 csv
  count := natText csv.length
  body := enc.body csv
  closing := endLine seed
  opens := beginRe_beginLine hseed henc
  inside _ hline := endRe_of_prefix_body henc hline List.prefix_rfl
  closes := endRe_endLine hseed

theorem decode_blobFrame {seed : Text} {csv : Bytes} (hseed : ∀ c ∈ seed, isSpace c = false)
    (henc : Encodes lib enc csv) : (blobFrame hseed henc).decode = .ok csv := by
  refine Frame.decode_eq_ok.mpr ⟨enc.gzip csv, ?_, henc.decompress, henc.int, rfl⟩
  rw [blobFrame, flatten_body]
  exact henc.b64decode

/-- An item is a piece of the log. -/
theorem exists_piece {item : Item} (h : item.WellFormed lib enc) :
    ∃ piece : Piece lib, piece.lines = item.lines lib enc ∧ ∀ c : Cell, c.read piece = .ok (c.add item) := by
  cases item with
  | progress line =>
    refine ⟨.stray line h.beginRe, rfl, fun c => ?_⟩
    rw [Cell.read, Cell.readStray, h.markRe, Cell.add]
    exact congrArg _ (if_neg h.ne_allDone)
  | mark key value =>
    refine ⟨.stray _ (beginRe_mark h.1 value), rfl, fun c => ?_⟩
    rw [Cell.read, Cell.readStray, markRe_eq_some.mpr ⟨h.1, rfl, h.2⟩, Cell.add]
  | blob seed csv =>
    refine ⟨.frame (blobFrame h.1 h.2), rfl, fun c => ?_⟩
    rw [Cell.read, decode_blobFrame h.1 h.2]
    rfl
  | allDone => exact ⟨.stray "ALL_DONE".toList rfl, rfl, fun c => rfl⟩

/-- **The items are pieces**, whose frames hold what they declare, and add what they say. -/
theorem exists_pieces_of_items {items : List Item} (h : ∀ item ∈ items, item.WellFormed lib enc) :
    ∃ pieces : List (Piece lib), unpiece pieces = items.flatMap (Item.lines lib enc) ∧ Accepted pieces ∧
      ∀ c : Cell, pieces.foldlM Cell.read c = .ok (items.foldl Cell.add c) := by
  induction items with
  | nil => exact ⟨[], rfl, accepted_nil, fun c => rfl⟩
  | cons item items ih =>
    obtain ⟨piece, hlines, hread⟩ := exists_piece (h item List.mem_cons_self)
    obtain ⟨pieces, hpieces, haccepted, hreads⟩ := ih fun item' h' => h item' (List.mem_cons_of_mem item h')
    refine ⟨piece :: pieces, by rw [unpiece_cons, hlines, hpieces, List.flatMap_cons], fun f hf => ?_, fun c => ?_⟩
    · rcases List.mem_cons.mp hf with rfl | hf
      · obtain ⟨data, hdata, -⟩ := bind_eq_ok.mp (hread .start)
        exact ⟨data, hdata⟩
      · exact haccepted f hf
    · rw [List.foldlM_cons, hread, ok_bind, hreads, List.foldl_cons]

/-- Progress adds nothing. -/
theorem foldl_add_filter (items : List Item) (c : Cell) :
    (items.filter (!·.isProgress)).foldl Cell.add c = items.foldl Cell.add c := by
  rw [List.foldl_filter]
  congr 1
  funext c item
  cases item <;> rfl

theorem foldl_add_blobs (blobs : List (Text × Bytes)) (c : Cell) :
    (blobs.map fun b => Item.blob b.1 b.2).foldl Cell.add c =
      { c with blobs := c.blobs.update (blobs.map fun b => (csvName b.1, b.2)) } := by
  induction blobs generalizing c with
  | nil => rfl
  | cons b blobs ih =>
    rw [List.map_cons, List.foldl_cons, ih]
    rfl

/-- Items that are marks and frames, but for the progress, and then the end. -/
theorem foldl_add_items {items : List Item} (marks : List (Text × Text)) {blobs : List (Text × Bytes)}
    (h : items.filter (!·.isProgress) = (marks.map fun m => .mark m.1 m.2) ++ blobs.map fun b => .blob b.1 b.2)
    (rest : List Text) (c : Cell) :
    (items ++ Item.allDone :: rest.map Item.progress).foldl Cell.add c =
      ⟨c.marks.update marks, c.blobs.update (blobs.map fun b => (csvName b.1, b.2)), true⟩ := by
  have hmarks (c : Cell) : (marks.map fun m => Item.mark m.1 m.2).foldl Cell.add c =
      { c with marks := c.marks.update marks } := by
    clear h
    induction marks generalizing c with
    | nil => rfl
    | cons m marks ih =>
      rw [List.map_cons, List.foldl_cons, ih]
      rfl
  have hrest (c : Cell) : (rest.map Item.progress).foldl Cell.add c = c := by
    rw [List.foldl_map]
    exact List.foldl_fixed rest
  rw [List.foldl_append, ← foldl_add_filter items, h, List.foldl_append, hmarks, foldl_add_blobs, List.foldl_cons, hrest]
  rfl

end Items

/-! ### What `in_pod.sh` prints -/

/-- The replay of one seed. -/
structure SeedRun where
  /-- `$seed`. -/
  seed : Text
  /-- The lines that `load_driver.py` prints. -/
  summary : List Text
  /-- The CSV that it writes. -/
  csv : Bytes

/-- A run of `in_pod.sh`. -/
structure InPod (lib : Stdlib) where
  /-- The lines that `verify_dataset.sh` prints. -/
  verified : List Text
  /-- `${NODE_NAME:-unknown}`. -/
  node : Text
  /-- The first `date +%s`. -/
  start : ℤ
  /-- The second. -/
  stop : ℤ
  /-- The seeds in their order. -/
  runs : List SeedRun
  /-- The name of the node is a word. -/
  node_isWord : IsWord node
  /-- The seeds are cut out at whitespace. -/
  seed_noSpace : ∀ run ∈ runs, ∀ c ∈ run.seed, isSpace c = false
  /-- The lines of the tools say nothing. -/
  progress : ∀ line, line ∈ verified ∨ (∃ run ∈ runs, line ∈ run.summary) → IsProgress lib line

section InPod

variable {lib : Stdlib}

/-- `==> seed $seed`. -/
def seedLine (seed : Text) : Text := "==> seed ".toList ++ seed

/-- What is printed before `CELL_END`. -/
def InPod.replay (pod : InPod lib) : List Item :=
  pod.verified.map .progress ++ .mark "NODE".toList pod.node :: .mark "CELL_START".toList (intText pod.start) ::
    pod.runs.flatMap fun run => .progress (seedLine run.seed) :: run.summary.map .progress

/-- What is printed from there up to `ALL_DONE`. -/
def InPod.emission (pod : InPod lib) : List Item :=
  .mark "CELL_END".toList (intText pod.stop) :: pod.runs.map fun run => .blob run.seed run.csv

theorem isProgress_seedLine {seed : Text} (hseed : ∀ c ∈ seed, isSpace c = false) : IsProgress lib (seedLine seed) := by
  have harrow : IsLine "==> seed ".toList := by decide
  refine ⟨harrow.append (isLine_of_forall (p := fun c => !isSpace c) (by simpa using hseed) rfl rfl), ?_, ?_, ?_⟩
  · exact fun h => nomatch (List.cons.inj h).1
  · cases hbegin : CollectJob.beginRe lib.isDecimal (seedLine seed) with
    | none => rfl
    | some header => exact nomatch (of_beginRe hbegin).1
  · cases hmark : CollectJob.markRe (seedLine seed) with
    | none => rfl
    | some mark =>
      rcases (head?_of_markRe hmark).1 with hhead | hhead
      · exact nomatch hhead
      · exact nomatch hhead

theorem filter_progress (lines : List Text) : (lines.map Item.progress).filter (!·.isProgress) = [] := by
  refine List.filter_eq_nil_iff.mpr fun item hitem => ?_
  obtain ⟨line, -, rfl⟩ := List.mem_map.mp hitem
  exact Bool.false_ne_true

/-- **What `in_pod.sh` prints is such a log.** -/
def InPod.jobLog (pod : InPod lib) : JobLog lib where
  node := pod.node
  start := pod.start
  stop := pod.stop
  blobs := pod.runs.map fun run => (run.seed, run.csv)
  items := pod.replay ++ pod.emission
  rest := []
  core := by
    have hruns : (pod.runs.flatMap fun run => Item.progress (seedLine run.seed) :: run.summary.map .progress).filter
        (!·.isProgress) = [] := by
      refine List.filter_eq_nil_iff.mpr fun item hitem => ?_
      obtain ⟨run, -, hitem⟩ := List.mem_flatMap.mp hitem
      have hnil := filter_progress (seedLine run.seed :: run.summary)
      exact List.filter_eq_nil_iff.mp hnil item hitem
    have hblobs : (pod.runs.map fun run => Item.blob run.seed run.csv).filter (!·.isProgress) =
        pod.runs.map fun run => Item.blob run.seed run.csv := by
      refine List.filter_eq_self.mpr fun item hitem => ?_
      obtain ⟨run, -, rfl⟩ := List.mem_map.mp hitem
      rfl
    rw [InPod.replay, InPod.emission, List.filter_append, List.filter_append, filter_progress,
      List.filter_cons_of_pos rfl, List.filter_cons_of_pos rfl, List.filter_cons_of_pos rfl, hruns, hblobs, List.map_map]
    rfl
  node_isWord := pod.node_isWord
  seed_noSpace := by
    rintro b hb
    obtain ⟨run, hrun, rfl⟩ := List.mem_map.mp hb
    exact pod.seed_noSpace run hrun
  progress := by
    rintro line (hline | hline)
    · have hemission : Item.progress line ∉ pod.emission := by simp [InPod.emission]
      have hreplay := (List.mem_append.mp hline).resolve_right hemission
      simp only [InPod.replay, List.mem_append, List.mem_map, List.mem_cons, List.mem_flatMap, reduceCtorEq, false_or,
        Item.progress.injEq] at hreplay
      rcases hreplay with ⟨_, hverified, rfl⟩ | ⟨run, hrun, rfl | ⟨_, hsummary, rfl⟩⟩
      · exact pod.progress _ (.inl hverified)
      · exact isProgress_seedLine (pod.seed_noSpace run hrun)
      · exact pod.progress _ (.inr ⟨run, hrun, hsummary⟩)
    · exact absurd hline List.not_mem_nil

end InPod

/-! ### The whole log -/

section Whole

variable {lib : Stdlib} {enc : Encoder} {log : JobLog lib}

/-- The items of a log, to its last line. -/
def JobLog.allItems (log : JobLog lib) : List Item := log.items ++ .allDone :: log.rest.map .progress

/-- The frames and the marks of a log are well-formed. -/
theorem JobLog.wellFormed (henc : ∀ b ∈ log.blobs, Encodes lib enc b.2) :
    ∀ item ∈ log.allItems, item.WellFormed lib enc := by
  intro item hitem
  have hcore : item.isProgress = false → item ∈ log.items → item.WellFormed lib enc := fun hprogress hitem => by
    have hmem : item ∈ log.items.filter (!·.isProgress) := List.mem_filter.mpr ⟨hitem, by rw [hprogress]; rfl⟩
    rw [log.core] at hmem
    rcases List.mem_append.mp hmem with hmem | hmem
    · have hword (n : ℤ) : IsWord (intText n) := ⟨intText_ne_nil n, fun _ => isSpace_eq_false_of_mem_intText⟩
      simp only [List.mem_cons, List.not_mem_nil, or_false] at hmem
      rcases hmem with rfl | rfl | rfl
      · exact ⟨by decide, log.node_isWord⟩
      · exact ⟨by decide, hword log.start⟩
      · exact ⟨by decide, hword log.stop⟩
    · obtain ⟨b, hb, rfl⟩ := List.mem_map.mp hmem
      exact ⟨log.seed_noSpace b hb, henc b hb⟩
  rcases List.mem_append.mp hitem with hitem | hitem
  · cases item with
    | progress line => exact log.progress line (.inl hitem)
    | mark key value => exact hcore rfl hitem
    | blob seed csv => exact hcore rfl hitem
    | allDone => trivial
  · rcases List.mem_cons.mp hitem with rfl | hitem
    · trivial
    · obtain ⟨line, hline, rfl⟩ := List.mem_map.mp hitem
      exact log.progress line (.inr hline)

theorem JobLog.lines_allItems (log : JobLog lib) :
    log.allItems.flatMap (Item.lines lib enc) = log.lines enc ++ "ALL_DONE".toList :: log.rest := by
  have hrest : (log.rest.map Item.progress).flatMap (Item.lines lib enc) = log.rest := by
    rw [List.flatMap_map]
    exact List.flatMap_singleton' log.rest
  rw [JobLog.allItems, List.flatMap_append, List.flatMap_cons, hrest]
  rfl

theorem JobLog.text_eq (log : JobLog lib) : log.text enc = unlines (log.allItems.flatMap (Item.lines lib enc)) := by
  rw [JobLog.text, JobLog.upToAllDone, JobLog.lines_allItems, unlines_append, unlines_cons, List.append_assoc]

/-- What well-formed items print is lines. -/
theorem isLine_of_items {items : List Item} (h : ∀ item ∈ items, item.WellFormed lib enc) {line : Text}
    (hline : line ∈ items.flatMap (Item.lines lib enc)) : IsLine line := by
  obtain ⟨item, hitem, hline⟩ := List.mem_flatMap.mp hline
  exact ((h item hitem).itemLine hline).isLine

/-- The log is read line by line as it was printed. -/
theorem JobLog.rstrip_fileLines (henc : ∀ b ∈ log.blobs, Encodes lib enc b.2) :
    (fileLines (log.text enc)).map rstripNewlines = log.allItems.flatMap (Item.lines lib enc) := by
  have hlines : ∀ line ∈ log.allItems.flatMap (Item.lines lib enc), IsLine line := fun line =>
    isLine_of_items (JobLog.wellFormed henc)
  rw [JobLog.text_eq, ← List.append_nil (unlines _), Library.rstrip_fileLines hlines (by decide), remnant, if_pos rfl,
    List.append_nil]

/-- What the items of a log say. -/
theorem JobLog.foldl_add (log : JobLog lib) :
    log.allItems.foldl Cell.add .start =
      ⟨Dict.ofList [("NODE".toList, log.node), ("CELL_START".toList, intText log.start),
        ("CELL_END".toList, intText log.stop)], Dict.ofList (log.blobs.map fun b => (csvName b.1, b.2)), true⟩ :=
  foldl_add_items [("NODE".toList, log.node), ("CELL_START".toList, intText log.start), ("CELL_END".toList, intText log.stop)]
    log.core log.rest .start

/-- **Decode undoes encode.** What `parse` reads from the log of a run are its marks and its
CSVs, each under the name of its seed. -/
theorem parse_jobLog (hstart : lib.int (intText log.start) = .ok log.start)
    (hstop : lib.int (intText log.stop) = .ok log.stop) (henc : ∀ b ∈ log.blobs, Encodes lib enc b.2)
    (hseeds : log.seeds.Nodup) (hlt : log.start < log.stop) :
    ∃ marks blobs, parse lib (fileLines (log.text enc)) log.seeds = .ok (marks, blobs) ∧
      marks.items = [("NODE".toList, log.node), ("CELL_START".toList, intText log.start),
        ("CELL_END".toList, intText log.stop)] ∧
      blobs.items = log.blobs.map fun b => (csvName b.1, b.2) := by
  obtain ⟨pieces, hpieces, haccepted, hreads⟩ := exists_pieces_of_items (JobLog.wellFormed henc)
  obtain ⟨s, hs, hname, hcell⟩ := read_accepted haccepted (s := .start) rfl
  have hadd : s.cell = _ := (Except.ok.inj (hcell.symm.trans (hreads _))).trans log.foldl_add
  obtain ⟨hmarks, hblobs, hdone⟩ := Cell.mk.inj hadd
  have hnames : ((log.blobs.map fun b => (csvName b.1, b.2)).map Prod.fst).Nodup := by
    have hmap := hseeds.map csvName_injective
    rw [JobLog.seeds, List.map_map] at hmap
    rwa [List.map_map]
  have hcomplete : Complete lib s log.seeds := by
    refine ⟨hname, ?_, ⟨log.start, log.stop, ?_, hlt⟩, fun name => ?_, hdone⟩
    · rw [hmarks]
      exact fun key hkey => hkey
    · have hfirst : s.marks.get? "CELL_START".toList = some (intText log.start) := by rw [hmarks]; rfl
      have hlast : s.marks.get? "CELL_END".toList = some (intText log.stop) := by rw [hmarks]; rfl
      rw [window, hfirst, hlast, Option.getD_some, Option.getD_some, hstart, hstop]
      rfl
    · rw [hblobs, ← Dict.mem_keys, Dict.keys, Dict.items_ofList hnames, List.map_map, JobLog.seeds]
      simp
  refine ⟨s.marks, s.blobs, ?_, ?_, ?_⟩
  · rw [parse_eq, JobLog.rstrip_fileLines henc, ← hpieces, hs, ok_bind]
    exact checkCell_eq_ok.mpr ⟨hcomplete, rfl, rfl⟩
  · rw [hmarks]
    rfl
  · rw [hblobs, Dict.items_ofList hnames]

end Whole

/-- The programs, as far as they know a CSV with nothing but a header. -/
def sampleEncoder : Encoder := ⟨fun _ => sampleGzip, fun _ => sampleBase64, 76, by decide⟩

theorem encodes_sample : Encodes sampleLib sampleEncoder sampleCsv :=
  ⟨List.all_eq_true.mp (by decide), by decide +kernel, by decide +kernel, ⟨by decide +kernel, List.all_eq_true.mp (by decide)⟩,
    List.all_eq_true.mp (by decide), by decide +kernel⟩

theorem isWord_worker : IsWord "worker".toList := by decide

theorem isWord_one : IsWord "1".toList := by decide

/-- A run with one seed and no requests. -/
def samplePod : InPod sampleLib where
  verified := ["dataset ok".toList]
  node := "worker".toList
  start := 5
  stop := 9
  runs := [⟨"1".toList, ["n=0 ok=0 err=0".toList], sampleCsv⟩]
  node_isWord := isWord_worker
  seed_noSpace run hrun := by
    cases List.mem_singleton.mp hrun
    exact isWord_one.2
  progress line hline := by
    simp only [List.mem_cons, List.not_mem_nil, or_false, exists_eq_left] at hline
    rcases hline with rfl | rfl
    · exact ⟨by decide, by decide, by decide, by decide⟩
    · exact ⟨by decide, by decide, by decide, by decide⟩

/-- A CSV with one row. -/
def rowCsv : Bytes := [105, 110, 100, 101, 120, 44, 115, 101, 101, 100, 10, 48, 44, 49, 10]

/-- What gzip makes of it. -/
def rowGzip : Bytes :=
  [31, 139, 8, 0, 0, 0, 0, 0, 2, 3, 203, 204, 75, 73, 173, 208, 41, 78, 77, 77, 225, 50, 208, 49, 228, 2, 0, 19, 190, 104,
    125, 15, 0, 0, 0]

/-- And base64 of that. -/
def rowBase64 : Text := "H4sIAAAAAAACA8vMS0mt0ClOTU3hMtAx5AIAE75ofQ8AAAA=".toList

/-- A library that knows both files. -/
def rowLib : Stdlib where
  isDecimal := sampleLib.isDecimal
  int := sampleLib.int
  b64decode text := if text = rowBase64 then .ok rowGzip else sampleLib.b64decode text
  decompress raw := if raw = rowGzip then .ok rowCsv else sampleLib.decompress raw
  sha256 data :=
    if data = rowCsv then "1980717b29476a18c101c00e584150eae86eb6358a40fa7c772163363ccce79e".toList
    else sampleLib.sha256 data
  reprDict := sampleLib.reprDict

/-- The programs, as far as they know both; twenty characters on a line. -/
def rowEncoder : Encoder where
  gzip csv := if csv = rowCsv then rowGzip else sampleGzip
  b64encode raw := if raw = rowGzip then rowBase64 else sampleBase64
  width := 20
  width_pos := by decide

/-- A run with two seeds. -/
def twoSeedPod : InPod rowLib where
  verified := ["dataset ok".toList]
  node := "worker".toList
  start := 5
  stop := 9
  runs := [⟨"0".toList, ["n=0 ok=0 err=0".toList], sampleCsv⟩, ⟨"1".toList, ["n=1 ok=1 err=0".toList], rowCsv⟩]
  node_isWord := isWord_worker
  seed_noSpace run hrun := by
    have hseeds : ∀ seed ∈ ["0".toList, "1".toList], IsWord seed := by decide
    simp only [List.mem_cons, List.not_mem_nil, or_false] at hrun
    rcases hrun with rfl | rfl
    · exact (hseeds _ (by decide)).2
    · exact (hseeds _ (by decide)).2
  progress line hline := by
    simp only [List.mem_cons, List.not_mem_nil, or_false, exists_eq_or_imp, exists_eq_left] at hline
    rcases hline with rfl | rfl | rfl
    · exact ⟨by decide, by decide, by decide, by decide⟩
    · exact ⟨by decide, by decide, by decide, by decide⟩
    · exact ⟨by decide, by decide, by decide, by decide⟩

theorem encodes_twoSeedPod : ∀ b ∈ twoSeedPod.jobLog.blobs, Encodes rowLib rowEncoder b.2 := by
  have hencodes (csv : Bytes) (hcsv : csv ∈ [sampleCsv, rowCsv]) : Encodes rowLib rowEncoder csv := by
    simp only [List.mem_cons, List.not_mem_nil, or_false] at hcsv
    rcases hcsv with rfl | rfl <;>
      exact ⟨List.all_eq_true.mp (by decide +kernel), by decide +kernel, by decide +kernel,
        ⟨by decide +kernel, List.all_eq_true.mp (by decide +kernel)⟩, List.all_eq_true.mp (by decide +kernel),
        by decide +kernel⟩
  intro b hb
  simp only [InPod.jobLog, twoSeedPod, List.map_cons, List.map_nil, List.mem_cons, List.not_mem_nil, or_false] at hb
  rcases hb with rfl | rfl
  · exact hencodes _ (by decide)
  · exact hencodes _ (by decide)

/-- The log of that run is read, each CSV under the name of its seed. -/
theorem parse_jobLog_twoSeedPod :
    ∃ marks blobs, parse rowLib (fileLines (twoSeedPod.jobLog.text rowEncoder)) twoSeedPod.jobLog.seeds =
        .ok (marks, blobs) ∧
      marks.items = [("NODE".toList, "worker".toList), ("CELL_START".toList, "5".toList), ("CELL_END".toList, "9".toList)] ∧
      blobs.items = [("driver-seed0.csv".toList, sampleCsv), ("driver-seed1.csv".toList, rowCsv)] :=
  @parse_jobLog rowLib rowEncoder twoSeedPod.jobLog (by decide +kernel) (by decide +kernel) encodes_twoSeedPod
    (by decide) (by decide)

end CachingInLLMs.Benchmarks.CollectJob

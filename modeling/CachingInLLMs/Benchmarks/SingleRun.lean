import CachingInLLMs.Benchmarks.JobLog

/-!
# One log, one run

`parse` keeps what it reads in dictionaries, so a mark or a frame that comes twice
replaces the first, and it keeps one flag for `ALL_DONE`, so frames may come after it. A
log that holds pieces of two runs can therefore be accepted as one cell
(`twoRuns_accepted`).

## The model

`SingleRun` says of the pieces of a log that they are those of one run. The log of a whole
run is a `JobLog`; before it or behind it stands any text, such as the log of another run
that was cut off. `ReturnsOnly` says that what `parse` returns of the two, if it returns
anything, is the cell of the whole run and that the log is a single run's.

What the other text does is said of its lines: `FramesHold`, `OnlyMarks` and `lastMark`.

## What is proved

* `unpiece_injective`: a log has one reading as pieces.
* `parse_append_iff`, `append_parse_iff`: when a text behind a whole log, or before it, is
  accepted together with it.
* `returnsOnly_iff`: when such a log is returned as the cell of the whole run only.
-/

namespace CachingInLLMs.Benchmarks.CollectJob

open CachingInLLMs.Library

/-! ### Logs of one run -/

/-- A key of one of the two dictionaries. -/
inductive Entry where
  /-- Of `marks`. -/
  | mark (key : Text)
  /-- Of `blobs`. -/
  | blob (name : Text)
  deriving DecidableEq

section SingleRun

variable {lib : Stdlib}

/-- The key that a piece sets. -/
def Piece.entry : Piece lib → Option Entry
  | .stray line _ => (markRe line).map fun mark => .mark mark.1
  | .frame f => some (.blob f.name)

/-- What a log sets, in order. -/
def entries (pieces : List (Piece lib)) : List Entry := pieces.filterMap Piece.entry

/-- A piece is a frame. -/
def Piece.IsFrame (piece : Piece lib) : Prop := ∃ f, piece = .frame f

/-- A piece is the line `ALL_DONE`. -/
def Piece.IsAllDone (piece : Piece lib) : Prop := ∃ h, piece = .stray "ALL_DONE".toList h

/-- After some `ALL_DONE` there is no frame. -/
def EndsDone (pieces : List (Piece lib)) : Prop :=
  ∃ before piece after, pieces = before ++ piece :: after ∧ piece.IsAllDone ∧ ∀ p ∈ after, ¬ p.IsFrame

/-- **One run**: each expected CSV is framed once, each mark occurs once outside the
frames, and `ALL_DONE` follows the last frame. -/
structure SingleRun (seeds : List Text) (pieces : List (Piece lib)) : Prop where
  /-- The frames. -/
  blobs : ∀ seed ∈ seeds, (entries pieces).count (.blob (csvName seed)) = 1
  /-- The marks. -/
  marks : ∀ key ∈ markKeys, (entries pieces).count (.mark key) = 1
  /-- The end. -/
  allDone : EndsDone pieces

/-! ### What is assumed -/

/-- What is assumed of the library on any text. -/
structure Stdlib.Validates (lib : Stdlib) : Prop where
  /-- `validate=True` refuses a text with any other character than base64's. -/
  b64decode : ∀ text raw, lib.b64decode text = .ok raw → ∀ c ∈ text, isBase64 c
  /-- A decimal digit is no whitespace. -/
  isDecimal : ∀ c, lib.isDecimal c → isSpace c = false

/-- A log whose CSVs and timestamps can be read, with different seeds and a window that is one. -/
structure JobLog.IsWhole (enc : Encoder) (log : JobLog lib) : Prop where
  /-- `int` reads the first timestamp. -/
  start : lib.int (intText log.start) = .ok log.start
  /-- And the second. -/
  stop : lib.int (intText log.stop) = .ok log.stop
  /-- The CSVs can be read. -/
  encodes : ∀ b ∈ log.blobs, Encodes lib enc b.2
  /-- No seed comes twice. -/
  seeds : log.seeds.Nodup
  /-- The window is one. -/
  lt : log.start < log.stop

/-! ### What a text says -/

/-- The lines that `parse` reads. -/
def linesOf (text : Text) : List Text := (fileLines text).map rstripNewlines

/-- What a line sets, outside the frames. -/
def lineEntry (lib : Stdlib) (line : Text) : Option Entry :=
  match beginRe lib.isDecimal line with
  | some (name, _, _) => some (.blob name)
  | none => (markRe line).map fun mark => .mark mark.1

/-- Each `BEGIN` opens a frame that holds what it declares, of an expected seed. -/
def FramesHold (lib : Stdlib) (seeds lines : List Text) : Prop :=
  ∀ before opening after, lines = before ++ opening :: after → beginRe lib.isDecimal opening ≠ none →
    ∃ (f : Frame lib) (data : Bytes) (rest : List Text), opening :: after = f.lines ++ rest ∧ f.decode = .ok data ∧
      ∃ seed ∈ seeds, csvName seed = f.name

/-- The marks are these, and there is no `BEGIN`. -/
structure OnlyMarks (lib : Stdlib) (lines : List Text) (marks : List (Text × Text)) : Prop where
  /-- No frame is opened. -/
  opens : ∀ line ∈ lines, beginRe lib.isDecimal line = none
  /-- The marks. -/
  marks : lines.filterMap markRe = marks

/-- The value of the last mark with a key, or what it was before. -/
def lastMark (key before : Text) (lines : List Text) : Text :=
  ((Dict.ofList (lines.filterMap markRe)).get? key).getD before

/-- The marks of a run. -/
def JobLog.marks (log : JobLog lib) : Dict Text Text :=
  Dict.ofList [("NODE".toList, log.node), ("CELL_START".toList, intText log.start), ("CELL_END".toList, intText log.stop)]

/-- The CSVs of a run. -/
def JobLog.csvs (log : JobLog lib) : Dict Text Bytes := Dict.ofList (log.blobs.map fun b => (csvName b.1, b.2))

/-- The window of a run is still one when the marks of these lines have replaced its own. -/
def JobLog.WindowHolds (log : JobLog lib) (lines : List Text) : Prop :=
  ∃ start stop, lib.int (lastMark "CELL_START".toList (intText log.start) lines) = .ok start ∧
    lib.int (lastMark "CELL_END".toList (intText log.stop) lines) = .ok stop ∧ start < stop

/-- The line `NODE $NODE_NAME`. -/
def JobLog.nodeLine (log : JobLog lib) : Text := "NODE".toList ++ ' ' :: log.node

/-- The progress before it. -/
def JobLog.preamble (log : JobLog lib) : List Item := log.items.takeWhile Item.isProgress

/-- The log up to that line. -/
def JobLog.upToNode (enc : Encoder) (log : JobLog lib) : Text :=
  unlines (log.preamble.flatMap (Item.lines lib enc)) ++ (log.nodeLine ++ ['\n'])

/-- **What is returned of a text, if anything is, is the cell of the run**, and the text is
the log of one run. -/
def JobLog.ReturnsOnly (log : JobLog lib) (text : Text) : Prop :=
  ∀ marks blobs, parse lib (fileLines text) log.seeds = .ok (marks, blobs) →
    marks = log.marks ∧ blobs = log.csvs ∧
      ∃ pieces : List (Piece lib), linesOf text = unpiece pieces ∧ SingleRun log.seeds pieces

end SingleRun

/-! ### Pieces -/

section Pieces

variable {lib : Stdlib}

@[simp] theorem entries_append (pieces pieces' : List (Piece lib)) :
    entries (pieces ++ pieces') = entries pieces ++ entries pieces' := List.filterMap_append

theorem mem_entries {pieces : List (Piece lib)} {entry : Entry} :
    entry ∈ entries pieces ↔ ∃ piece ∈ pieces, piece.entry = some entry := List.mem_filterMap

/-- Lines up to the first `END` can be cut in one way. -/
theorem first_end_inj {body body' after after' : List Text} {closing closing' : Text}
    (hbody : ∀ line ∈ body, endRe line = none) (hbody' : ∀ line ∈ body', endRe line = none)
    (hclosing : endRe closing ≠ none) (hclosing' : endRe closing' ≠ none)
    (h : body ++ closing :: after = body' ++ closing' :: after') : body = body' ∧ closing = closing' ∧ after = after' := by
  have htake {body : List Text} {closing : Text} (hbody : ∀ line ∈ body, endRe line = none)
      (hclosing : endRe closing ≠ none) (after : List Text) :
      (body ++ closing :: after).takeWhile (fun line => endRe line = none) = body := by
    rw [List.takeWhile_append_of_pos fun line hline => decide_eq_true (hbody line hline),
      List.takeWhile_cons_of_neg (by simp [hclosing]), List.append_nil]
  obtain rfl : body = body' := by rw [← htake hbody hclosing after, h, htake hbody' hclosing']
  exact ⟨rfl, List.cons.inj (List.append_cancel_left h)⟩

/-- The lines of a frame end with its first `END`. -/
theorem Frame.append_inj {f f' : Frame lib} {rest rest' : List Text}
    (h : f.lines ++ rest = f'.lines ++ rest') : f = f' ∧ rest = rest' := by
  have hcons (f : Frame lib) (rest : List Text) :
      f.lines ++ rest = f.opening :: (f.body ++ f.closing :: rest) := by
    simp [Frame.lines]
  rw [hcons, hcons] at h
  obtain ⟨hopening, hrest⟩ := List.cons.inj h
  obtain ⟨hbody, hclosing, hafter⟩ :=
    first_end_inj f.inside f'.inside (by simp [f.closes]) (by simp [f'.closes]) hrest
  have hopens := f.opens
  rw [hopening, f'.opens] at hopens
  obtain ⟨opening, name, sha, count, body, closing, opens, inside, closes⟩ := f
  obtain ⟨opening', name', sha', count', body', closing', opens', inside', closes'⟩ := f'
  cases hopening
  cases hbody
  cases hclosing
  cases hopens
  exact ⟨rfl, hafter⟩

/-- Lines that begin with pieces are these pieces and others. -/
theorem exists_append_of_unpiece {whole pieces : List (Piece lib)} {lines : List Text}
    (h : unpiece whole = unpiece pieces ++ lines) : ∃ rest, whole = pieces ++ rest ∧ unpiece rest = lines := by
  have hframe (f : Frame lib) {line : Text} {h : beginRe lib.isDecimal line = none}
      {rest rest' : List Text} :
      f.lines ++ rest ≠ (Piece.stray line h).lines ++ rest' := by
    intro heq
    have hopens := f.opens
    rw [(List.cons.inj heq).1, h] at hopens
    cases hopens
  induction pieces generalizing whole with
  | nil => exact ⟨whole, rfl, h⟩
  | cons piece pieces ih =>
    rw [unpiece_cons, List.append_assoc] at h
    cases whole with
    | nil => cases piece <;> simp [Piece.lines, Frame.lines] at h
    | cons piece' whole =>
      rw [unpiece_cons] at h
      cases piece with
      | stray line hline =>
        cases piece' with
        | stray line' hline' =>
          obtain ⟨rfl, hrest⟩ := List.cons.inj h
          obtain ⟨rest, rfl, hlines⟩ := ih hrest
          exact ⟨rest, rfl, hlines⟩
        | frame f' => exact absurd h (hframe f')
      | frame f =>
        cases piece' with
        | stray line' hline' => exact absurd h.symm (hframe f)
        | frame f' =>
          obtain ⟨rfl, hrest⟩ := Frame.append_inj h
          obtain ⟨rest, rfl, hlines⟩ := ih hrest
          exact ⟨rest, rfl, hlines⟩

/-- **A log has one reading** as pieces. -/
theorem unpiece_injective : Function.Injective (unpiece : List (Piece lib) → List Text) := by
  intro pieces pieces' h
  obtain ⟨rest, rfl, hrest⟩ := exists_append_of_unpiece (h.trans (List.append_nil _).symm)
  cases rest with
  | nil => exact List.append_nil pieces'
  | cons piece rest => cases piece <;> simp [Piece.lines, Frame.lines] at hrest

end Pieces

/-! ### Frames that hold what they declare -/

section Frames

variable {lib : Stdlib}

theorem lineEntry_of_begins {line name sha count : Text} (h : beginRe lib.isDecimal line = some (name, sha, count)) :
    lineEntry lib line = some (.blob name) := by
  rw [lineEntry, h]

theorem lineEntry_of_opens {line : Text} (h : beginRe lib.isDecimal line = none) :
    lineEntry lib line = (markRe line).map fun mark => .mark mark.1 := by
  rw [lineEntry, h]

theorem markRe_of_beginRe {line : Text} {header : Text × Text × Text} (h : beginRe lib.isDecimal line = some header) :
    markRe line = none := by
  cases hmark : markRe line with
  | none => rfl
  | some mark =>
    have hhead := (of_beginRe h).1
    rcases (head?_of_markRe hmark).1 with hmark | hmark
    · exact nomatch hhead.symm.trans hmark
    · exact nomatch hhead.symm.trans hmark

/-- A line without a blank, or an `END`, says nothing. -/
theorem says_nothing {line : Text} (h : ' ' ∉ line ∨ endRe line ≠ none) :
    beginRe lib.isDecimal line = none ∧ markRe line = none := by
  have hhead : endRe line ≠ none → line.head? = some 'E' := by
    intro hend
    obtain ⟨name, hname⟩ := Option.ne_none_iff_exists'.mp hend
    rw [(endRe_eq_some.mp hname).1]
    rfl
  constructor
  · cases hbegin : beginRe lib.isDecimal line with
    | none => rfl
    | some header =>
      obtain ⟨hB, hblank⟩ := of_beginRe hbegin
      rcases h with h | h
      · exact absurd hblank h
      · exact nomatch hB.symm.trans (hhead h)
  · cases hmark : markRe line with
    | none => rfl
    | some mark =>
      obtain ⟨hNC, hblank⟩ := head?_of_markRe hmark
      rcases h with h | h
      · exact absurd hblank h
      · rcases hNC with hN | hC
        · exact nomatch hN.symm.trans (hhead h)
        · exact nomatch hC.symm.trans (hhead h)

variable (hlib : lib.Validates)

include hlib

/-- In the body of a frame that is decoded there is no blank. -/
theorem Frame.blank_not_mem {f : Frame lib} {data : Bytes} (hf : f.decode = .ok data) {line : Text} (hline : line ∈ f.body) :
    ' ' ∉ line := by
  obtain ⟨raw, hb, -⟩ := Frame.decode_eq_ok.mp hf
  intro hblank
  exact absurd (hlib.b64decode _ _ hb ' ' (List.mem_flatten.mpr ⟨line, hline, hblank⟩)) (by decide)

/-- Of such a frame only the first line says anything. -/
theorem Frame.says_nothing {f : Frame lib} {data : Bytes} (hf : f.decode = .ok data) {line : Text}
    (hline : line ∈ f.body ++ [f.closing]) : beginRe lib.isDecimal line = none ∧ markRe line = none := by
  rcases List.mem_append.mp hline with hline | hline
  · exact CollectJob.says_nothing (.inl (f.blank_not_mem hlib hf hline))
  · cases List.mem_singleton.mp hline
    exact CollectJob.says_nothing (.inr (by simp [f.closes]))

theorem Frame.filterMap_lineEntry {f : Frame lib} {data : Bytes} (hf : f.decode = .ok data) :
    f.lines.filterMap (lineEntry lib) = [.blob f.name] := by
  have hrest : (f.body ++ [f.closing]).filterMap (lineEntry lib) = [] := by
    refine List.filterMap_eq_nil_iff.mpr fun line hline => ?_
    obtain ⟨hbegin, hmark⟩ := f.says_nothing hlib hf hline
    rw [lineEntry_of_opens hbegin, hmark, Option.map_none]
  rw [Frame.lines, List.filterMap_cons_some (lineEntry_of_begins f.opens), hrest]

theorem Frame.filterMap_markRe {f : Frame lib} {data : Bytes} (hf : f.decode = .ok data) :
    f.lines.filterMap markRe = [] := by
  refine List.filterMap_eq_nil_iff.mpr fun line hline => ?_
  rcases List.mem_cons.mp hline with rfl | hline
  · exact markRe_of_beginRe f.opens
  · exact (f.says_nothing hlib hf hline).2

/-- What pieces set is what their lines say. -/
theorem entries_eq {pieces : List (Piece lib)} (h : Accepted pieces) :
    entries pieces = (unpiece pieces).filterMap (lineEntry lib) := by
  induction pieces with
  | nil => rfl
  | cons piece pieces ih =>
    have hrest : entries pieces = _ := ih fun f hf => h f (List.mem_cons_of_mem _ hf)
    have hpiece : piece.lines.filterMap (lineEntry lib) = piece.entry.toList := by
      cases piece with
      | stray line hline =>
        rw [Piece.lines, Piece.entry, ← lineEntry_of_opens hline]
        cases hentry : lineEntry lib line <;> simp [hentry]
      | frame f =>
        obtain ⟨data, hdata⟩ := h f List.mem_cons_self
        exact f.filterMap_lineEntry hlib hdata
    rw [unpiece_cons, List.filterMap_append, hpiece, ← hrest, entries, entries, List.filterMap_cons]
    cases piece.entry <;> rfl

/-- The marks of a cell are those of the lines. -/
theorem Cell.marks_of_read {pieces : List (Piece lib)} {c c' : Cell} (h : pieces.foldlM Cell.read c = .ok c') :
    c'.marks = c.marks.update ((unpiece pieces).filterMap markRe) := by
  induction pieces generalizing c with
  | nil =>
    cases h
    rfl
  | cons piece pieces ih =>
    rw [List.foldlM_cons] at h
    obtain ⟨c₁, hpiece, hrest⟩ := bind_eq_ok.mp h
    rw [ih hrest, unpiece_cons, List.filterMap_append]
    cases piece with
    | stray line hline =>
      cases hpiece
      rw [Cell.readStray, Piece.lines]
      cases hmark : markRe line with
      | some mark => simp [hmark, Dict.update_cons]
      | none =>
        dsimp only
        split_ifs <;> simp [hmark]
    | frame f =>
      obtain ⟨data, hdata, hc⟩ := bind_eq_ok.mp hpiece
      cases hc
      rw [Piece.lines, f.filterMap_markRe hlib hdata, List.nil_append]

/-- **Each `BEGIN` opens a frame that holds** exactly when the lines are pieces whose frames
do, each of an expected seed. -/
theorem framesHold_iff {seeds lines : List Text} :
    FramesHold lib seeds lines ↔ ∃ pieces : List (Piece lib), lines = unpiece pieces ∧ Accepted pieces ∧
      ∀ f, .frame f ∈ pieces → ∃ seed ∈ seeds, csvName seed = f.name := by
  constructor
  · intro h
    obtain ⟨pieces, tail, rfl, htail⟩ := exists_pieces lib lines
    have hnil : tail = [] := by
      cases htail with
      | nil => rfl
      | @unclosed opening name sha count body hbegin hbody =>
        obtain ⟨f, data, rest, heq, -⟩ := h (unpiece pieces) opening body rfl (by simp [hbegin])
        have hclosing : f.closing ∈ body := by
          rw [(List.cons.inj heq).2]
          simp
        exact absurd (f.closes.symm.trans (hbody _ hclosing)) (by simp)
      | @interleaved opening name sha count closing other body after hbegin hbody hclosing hne =>
        obtain ⟨f, data, rest, heq, -⟩ := h (unpiece pieces) opening (body ++ closing :: after) rfl (by simp [hbegin])
        rw [Frame.lines, List.cons_append, List.append_assoc] at heq
        obtain ⟨rfl, hrest⟩ := List.cons.inj heq
        obtain ⟨-, rfl, -⟩ := first_end_inj hbody f.inside (by simp [hclosing]) (by simp [f.closes]) hrest
        -- the frame has the name of its opening line, and is closed by another
        have hname : name = f.name := (Prod.mk.inj (Option.some.inj (hbegin.symm.trans f.opens))).1
        exact absurd (Option.some.inj (hclosing.symm.trans f.closes)) (hname ▸ hne)
    subst hnil
    have hframe : ∀ f, .frame f ∈ pieces → (∃ data, f.decode = .ok data) ∧ ∃ seed ∈ seeds, csvName seed = f.name := by
      intro f hf
      obtain ⟨before, after, rfl⟩ := List.append_of_mem hf
      obtain ⟨f', data, rest, heq, hdata, hname⟩ := h (unpiece before) f.opening (f.body ++ [f.closing] ++ unpiece after)
        (by simp [Piece.lines, Frame.lines]) (by simp [f.opens])
      have hlines : f.lines ++ unpiece after = f'.lines ++ rest := by simpa [Frame.lines] using heq
      obtain ⟨rfl, -⟩ := Frame.append_inj hlines
      exact ⟨⟨data, hdata⟩, hname⟩
    exact ⟨pieces, List.append_nil _, fun f hf => (hframe f hf).1, fun f hf => (hframe f hf).2⟩
  · rintro ⟨pieces, rfl, haccepted, hnames⟩ before opening after heq hbegin
    obtain ⟨before, piece, after', head, rest, rfl, hpiece, rfl⟩ := exists_of_flatMap_eq_append_cons heq
    cases piece with
    | stray line hline =>
      have hmem : opening ∈ [line] := by
        rw [show [line] = head ++ opening :: rest from hpiece]
        simp
      cases List.mem_singleton.mp hmem
      exact absurd hline hbegin
    | frame f =>
      obtain ⟨data, hdata⟩ := haccepted f (by simp)
      cases head with
      | nil =>
        refine ⟨f, data, unpiece after', ?_, hdata, hnames f (by simp)⟩
        have hlines : unpiece (before ++ Piece.frame f :: after') = unpiece before ++ (f.lines ++ unpiece after') := by
          simp [Piece.lines]
        rw [hlines, List.append_nil] at heq
        exact (List.append_cancel_left heq).symm
      | cons line head =>
        -- a `BEGIN` behind the first line of the frame
        have hmem : opening ∈ f.body ++ [f.closing] := by
          rw [(List.cons.inj hpiece).2]
          simp
        exact absurd (f.says_nothing hlib hdata hmem).1 hbegin

/-- Pieces are cut at a line that belongs to no frame. -/
theorem exists_pieces_cut {whole : List (Piece lib)} (haccepted : Accepted whole) {lines after : List Text} {line : Text}
    (h : unpiece whole = lines ++ line :: after) (hbegin : beginRe lib.isDecimal line = none) (hend : endRe line = none)
    (hblank : ' ' ∈ line) :
    ∃ pieces pieces', whole = pieces ++ pieces' ∧ unpiece pieces = lines ++ [line] ∧ unpiece pieces' = after := by
  obtain ⟨before, piece, after', head, rest, rfl, hpiece, rfl⟩ := exists_of_flatMap_eq_append_cons h
  have hmem : line ∈ piece.lines := by
    rw [hpiece]
    simp
  cases piece with
  | stray line' hline =>
    cases List.mem_singleton.mp hmem
    obtain rfl : head = [] := by
      cases head with
      | nil => rfl
      | cons _ head => simp [Piece.lines] at hpiece
    refine ⟨before ++ [.stray line hline], after', by simp, by simp [Piece.lines, unpiece], ?_⟩
    simpa [Piece.lines, unpiece] using h
  | frame f =>
    obtain ⟨data, hdata⟩ := haccepted f (by simp)
    rw [Piece.lines, Frame.lines, List.mem_cons, List.mem_append, List.mem_singleton] at hmem
    rcases hmem with rfl | hmem | rfl
    · exact absurd (f.opens.symm.trans hbegin) (by simp)
    · exact absurd hblank (f.blank_not_mem hlib hdata hmem)
    · exact absurd (f.closes.symm.trans hend) (by simp)

end Frames

/-! ### What the checks see -/

section Checks

variable {lib : Stdlib} {seeds : List Text} {pieces : List (Piece lib)} {c c' : Cell}

/-- What a cell has that passes the checks. -/
structure Cell.Passes (lib : Stdlib) (c : Cell) (seeds : List Text) : Prop where
  /-- The marks are there. -/
  marks : ∀ key ∈ markKeys, key ∈ c.marks
  /-- The window is one. -/
  window : ∃ start stop, window lib c.marks = .ok (start, stop) ∧ start < stop
  /-- The blobs are those of the seeds. -/
  blobs : ∀ name, name ∈ c.blobs ↔ ∃ seed ∈ seeds, csvName seed = name
  /-- The log came to its end. -/
  allDone : c.allDone = true

theorem complete_iff {s : ParseState} : Complete lib s seeds ↔ s.name = none ∧ s.cell.Passes lib seeds :=
  ⟨fun h => ⟨h.outside, h.marks, h.window, h.blobs, h.allDone⟩,
    fun ⟨hname, h⟩ => ⟨hname, h.marks, h.window, h.blobs, h.allDone⟩⟩

/-- **A log is accepted** exactly when it is pieces that can be read, to a cell that passes the checks. -/
theorem parse_eq_ok_iff {lines : List Text} {marks : Dict Text Text} {blobs : Dict Text Bytes} :
    parse lib lines seeds = .ok (marks, blobs) ↔
      ∃ (pieces : List (Piece lib)) (c : Cell), lines.map rstripNewlines = unpiece pieces ∧
        pieces.foldlM Cell.read .start = .ok c ∧ c.Passes lib seeds ∧ marks = c.marks ∧ blobs = c.blobs := by
  rw [parse_eq]
  constructor
  · intro h
    obtain ⟨s, hs, hcheck⟩ := bind_eq_ok.mp h
    obtain ⟨hcomplete, rfl, rfl⟩ := checkCell_eq_ok.mp hcheck
    obtain ⟨hname, hpasses⟩ := complete_iff.mp hcomplete
    obtain ⟨pieces, hlines, hread⟩ := exists_pieces_of_read hs hname
    exact ⟨pieces, s.cell, hlines, hread, hpasses, rfl, rfl⟩
  · rintro ⟨pieces, c, hlines, hread, hpasses, rfl, rfl⟩
    rw [hlines]
    rcases (readPieces (s := .start) rfl pieces).cases with ⟨e, -, herror⟩ | ⟨s, hs, hname, hcell⟩
    · cases hread.symm.trans herror
    · obtain rfl : c = s.cell := Except.ok.inj (hread.symm.trans hcell)
      rw [hs, ok_bind]
      exact checkCell_eq_ok.mpr ⟨complete_iff.mpr ⟨hname, hpasses⟩, rfl, rfl⟩

theorem window_eq_ok {marks : Dict Text Text} {start stop : ℤ} :
    window lib marks = .ok (start, stop) ↔
      lib.int ((marks.get? "CELL_START".toList).getD []) = .ok start ∧
        lib.int ((marks.get? "CELL_END".toList).getD []) = .ok stop := by
  simp only [window, bind_eq_ok]
  constructor
  · rintro ⟨start', hstart, stop', hstop, h⟩
    cases h
    exact ⟨hstart, hstop⟩
  · rintro ⟨hstart, hstop⟩
    exact ⟨start, hstart, stop, hstop, rfl⟩

/-- Pieces that are read hold what they declare. -/
theorem accepted_of_read (h : pieces.foldlM Cell.read c = .ok c') : Accepted pieces := by
  induction pieces generalizing c with
  | nil => exact accepted_nil
  | cons piece pieces ih =>
    rw [List.foldlM_cons] at h
    obtain ⟨c₁, hpiece, hrest⟩ := bind_eq_ok.mp h
    intro f hf
    rcases List.mem_cons.mp hf with rfl | hf
    · obtain ⟨data, hdata, -⟩ := bind_eq_ok.mp hpiece
      exact ⟨data, hdata⟩
    · exact ih hrest f hf

theorem Cell.readStray_blobs (c : Cell) (line : Text) : (c.readStray line).blobs = c.blobs := by
  rw [Cell.readStray]
  split
  · rfl
  · split_ifs <;> rfl

/-- The blobs of a cell are those of its frames. -/
theorem Cell.mem_blobs_of_read (h : pieces.foldlM Cell.read c = .ok c') (name : Text) :
    name ∈ c'.blobs ↔ name ∈ c.blobs ∨ ∃ f, .frame f ∈ pieces ∧ f.name = name := by
  induction pieces generalizing c with
  | nil =>
    cases h
    simp
  | cons piece pieces ih =>
    rw [List.foldlM_cons] at h
    obtain ⟨c₁, hpiece, hrest⟩ := bind_eq_ok.mp h
    rw [ih hrest]
    cases piece with
    | stray line hline =>
      cases hpiece
      rw [Cell.readStray_blobs]
      simp
    | frame f =>
      obtain ⟨data, -, hc⟩ := bind_eq_ok.mp hpiece
      cases hc
      simp only [Dict.mem_set, List.mem_cons, Piece.frame.injEq]
      constructor
      · rintro ((rfl | hmem) | ⟨f', hf', hname⟩)
        · exact .inr ⟨f, .inl rfl, rfl⟩
        · exact .inl hmem
        · exact .inr ⟨f', .inr hf', hname⟩
      · rintro (hmem | ⟨f', rfl | hf', hname⟩)
        · exact .inl (.inr hmem)
        · exact .inl (.inl hname.symm)
        · exact .inr ⟨f', hf', hname⟩

/-- Lines outside frames leave the blobs. -/
theorem Cell.blobs_of_read (h : pieces.foldlM Cell.read c = .ok c') (hframes : ∀ f, .frame f ∉ pieces) :
    c'.blobs = c.blobs := by
  induction pieces generalizing c with
  | nil =>
    cases h
    rfl
  | cons piece pieces ih =>
    rw [List.foldlM_cons] at h
    obtain ⟨c₁, hpiece, hrest⟩ := bind_eq_ok.mp h
    rw [ih hrest fun f hf => hframes f (List.mem_cons_of_mem piece hf)]
    cases piece with
    | stray line hline =>
      cases hpiece
      exact c.readStray_blobs line
    | frame f => exact absurd List.mem_cons_self (hframes f)

/-- The end stays seen. -/
theorem Cell.allDone_of_read (h : pieces.foldlM Cell.read c = .ok c') (hdone : c.allDone = true) : c'.allDone = true := by
  induction pieces generalizing c with
  | nil =>
    cases h
    exact hdone
  | cons piece pieces ih =>
    rw [List.foldlM_cons] at h
    obtain ⟨c₁, hpiece, hrest⟩ := bind_eq_ok.mp h
    refine ih hrest ?_
    cases piece with
    | stray line hline =>
      cases hpiece
      rw [Cell.readStray]
      split
      · exact hdone
      · split_ifs
        · rfl
        · exact hdone
    | frame f =>
      obtain ⟨data, -, hc⟩ := bind_eq_ok.mp hpiece
      cases hc
      exact hdone

/-- A frame sets its name. -/
theorem blob_mem_entries {f : Frame lib} (h : .frame f ∈ pieces) : .blob f.name ∈ entries pieces :=
  mem_entries.mpr ⟨.frame f, h, rfl⟩

theorem not_frame_of_entries (keys : List Text) (h : entries pieces = keys.map .mark) (f : Frame lib) :
    .frame f ∉ pieces := by
  intro hf
  have hmem := blob_mem_entries hf
  rw [h] at hmem
  obtain ⟨_, -, heq⟩ := List.mem_map.mp hmem
  exact nomatch heq

theorem EndsDone.append_left {pieces' : List (Piece lib)} (h : EndsDone pieces') (pieces : List (Piece lib)) :
    EndsDone (pieces ++ pieces') := by
  obtain ⟨before, piece, after, rfl, hdone, hafter⟩ := h
  exact ⟨pieces ++ before, piece, after, by simp, hdone, hafter⟩

theorem EndsDone.append_right (h : EndsDone pieces) {pieces' : List (Piece lib)} (hframes : ∀ f, .frame f ∉ pieces') :
    EndsDone (pieces ++ pieces') := by
  obtain ⟨before, piece, after, rfl, hdone, hafter⟩ := h
  refine ⟨before, piece, after ++ pieces', by simp, hdone, fun p hp => ?_⟩
  rcases List.mem_append.mp hp with hp | hp
  · exact hafter p hp
  · rintro ⟨f, rfl⟩
    exact hframes f hp

/-! ### What lines say -/

/-- Where no frame is opened, the marks are all that is said. -/
theorem filterMap_lineEntry {lines : List Text} (h : ∀ line ∈ lines, beginRe lib.isDecimal line = none) :
    lines.filterMap (lineEntry lib) = (lines.filterMap markRe).map fun mark => .mark mark.1 := by
  rw [List.map_filterMap]
  exact List.filterMap_congr fun line hline => lineEntry_of_opens (h line hline)

/-- Where nothing but marks is said, there are only marks. -/
theorem onlyMarks_of_lineEntry {lines : List Text} (keys : List Text) (h : lines.filterMap (lineEntry lib) = keys.map .mark) :
    OnlyMarks lib lines (lines.filterMap markRe) ∧ (lines.filterMap markRe).map Prod.fst = keys := by
  have hopens : ∀ line ∈ lines, beginRe lib.isDecimal line = none := by
    intro line hline
    cases hbegin : beginRe lib.isDecimal line with
    | none => rfl
    | some header =>
      obtain ⟨name, sha, count⟩ := header
      have hmem := List.mem_filterMap.mpr ⟨line, hline, lineEntry_of_begins hbegin⟩
      rw [h] at hmem
      obtain ⟨_, -, heq⟩ := List.mem_map.mp hmem
      exact nomatch heq
  refine ⟨⟨hopens, rfl⟩, ?_⟩
  rw [filterMap_lineEntry hopens] at h
  have hinjective : Function.Injective Entry.mark := fun _ _ heq => Entry.mark.inj heq
  refine (List.map_injective_iff.mpr hinjective) ?_
  rw [← h, List.map_map]
  rfl

end Checks

/-! ### The log of a run -/

section Log

variable {lib : Stdlib} {enc : Encoder} {log : JobLog lib}

/-- What an item sets. -/
def Item.entry : Item → Option Entry
  | .mark key _ => some (.mark key)
  | .blob seed _ => some (.blob (csvName seed))
  | _ => none

/-- What a run sets. -/
def JobLog.entries (log : JobLog lib) : List Entry :=
  markKeys.map .mark ++ log.seeds.map fun seed => .blob (csvName seed)

theorem JobLog.mem_entries {entry : Entry} :
    entry ∈ log.entries ↔ (∃ key ∈ markKeys, .mark key = entry) ∨ ∃ seed ∈ log.seeds, .blob (csvName seed) = entry := by
  simp [JobLog.entries]

theorem JobLog.nodup_entries (h : log.seeds.Nodup) : log.entries.Nodup := by
  have hmark : Function.Injective Entry.mark := fun _ _ heq => Entry.mark.inj heq
  have hblob : Function.Injective fun seed => Entry.blob (csvName seed) := fun _ _ heq =>
    csvName_injective (Entry.blob.inj heq)
  have hkeys : markKeys.Nodup := by decide
  refine List.Nodup.append (hkeys.map hmark) (h.map hblob) fun entry hentry hentry' => ?_
  obtain ⟨_, -, rfl⟩ := List.mem_map.mp hentry
  obtain ⟨_, -, heq⟩ := List.mem_map.mp hentry'
  exact nomatch heq

/-- In a single run each entry comes once. -/
theorem SingleRun.count_eq_one {pieces : List (Piece lib)} (h : SingleRun log.seeds pieces) {entry : Entry}
    (hentry : entry ∈ log.entries) : (CollectJob.entries pieces).count entry = 1 := by
  rcases JobLog.mem_entries.mp hentry with ⟨key, hkey, rfl⟩ | ⟨seed, hseed, rfl⟩
  · exact h.marks key hkey
  · exact h.blobs seed hseed

theorem singleRun_of_entries {pieces : List (Piece lib)} (hseeds : log.seeds.Nodup)
    (hentries : CollectJob.entries pieces = log.entries) (hdone : EndsDone pieces) : SingleRun log.seeds pieces := by
  have hcount : ∀ entry ∈ log.entries, (CollectJob.entries pieces).count entry = 1 := fun entry hentry => by
    rw [hentries]
    exact List.count_eq_one_of_mem (JobLog.nodup_entries hseeds) hentry
  refine ⟨fun seed hseed => ?_, fun key hkey => ?_, hdone⟩
  · exact hcount _ (JobLog.mem_entries.mpr (.inr ⟨seed, hseed, rfl⟩))
  · exact hcount _ (JobLog.mem_entries.mpr (.inl ⟨key, hkey, rfl⟩))

/-- Pieces with frames of expected seeds set nothing else than a run does. -/
theorem mem_entries_of_expected {pieces : List (Piece lib)}
    (hnames : ∀ f, .frame f ∈ pieces → ∃ seed ∈ log.seeds, csvName seed = f.name) {entry : Entry}
    (hentry : entry ∈ CollectJob.entries pieces) : entry ∈ log.entries := by
  obtain ⟨piece, hpiece, hset⟩ := CollectJob.mem_entries.mp hentry
  cases piece with
  | stray line hline =>
    obtain ⟨mark, hmark, rfl⟩ := Option.map_eq_some_iff.mp hset
    exact JobLog.mem_entries.mpr (.inl ⟨mark.1, (of_markRe hmark).1, rfl⟩)
  | frame f =>
    cases hset
    obtain ⟨seed, hseed, hname⟩ := hnames f hpiece
    exact JobLog.mem_entries.mpr (.inr ⟨seed, hseed, congrArg _ hname⟩)

/-- What one part of a single run sets, another part does not. -/
theorem SingleRun.not_mem_entries {pieces pieces' : List (Piece lib)} (h : SingleRun log.seeds (pieces ++ pieces'))
    {entry : Entry} (hlog : entry ∈ log.entries) (hentry : entry ∈ CollectJob.entries pieces) :
    entry ∉ CollectJob.entries pieces' := by
  intro hentry'
  have hone := h.count_eq_one hlog
  rw [entries_append, List.count_append] at hone
  have hleft := List.count_pos_iff.mpr hentry
  have hright := List.count_pos_iff.mpr hentry'
  omega

/-- Before the part of a single run that sets all but one key, that key is set. -/
theorem SingleRun.entries_eq_singleton {pieces pieces' : List (Piece lib)} (h : SingleRun log.seeds (pieces ++ pieces'))
    (hseeds : log.seeds.Nodup) (hnames : ∀ f, .frame f ∈ pieces → ∃ seed ∈ log.seeds, csvName seed = f.name)
    {entry : Entry} (hrest : log.entries = entry :: CollectJob.entries pieces') : CollectJob.entries pieces = [entry] := by
  have honly : ∀ other ∈ CollectJob.entries pieces, other = entry := by
    intro other hother
    have hlog := mem_entries_of_expected hnames hother
    have hnot := h.not_mem_entries hlog hother
    rw [hrest, List.mem_cons] at hlog
    exact hlog.resolve_right hnot
  have hone : (CollectJob.entries pieces).count entry = 1 := by
    have hboth : (CollectJob.entries (pieces ++ pieces')).count entry = 1 := h.count_eq_one (by simp [hrest])
    have hnodup := JobLog.nodup_entries hseeds
    rw [hrest, List.nodup_cons] at hnodup
    rwa [entries_append, List.count_append, List.count_eq_zero.mpr hnodup.1, Nat.add_zero] at hboth
  have hreplicate := List.eq_replicate_of_mem honly
  rw [List.count_eq_length.mpr fun other hother => (honly other hother).symm] at hone
  rwa [hone] at hreplicate

/-- What items set, that are these marks and frames but for the progress. -/
theorem filterMap_entry {items : List Item} {marks : List (Text × Text)} {blobs : List (Text × Bytes)}
    (h : items.filter (!·.isProgress) = (marks.map fun m => .mark m.1 m.2) ++ blobs.map fun b => .blob b.1 b.2) :
    items.filterMap Item.entry = (marks.map fun m => .mark m.1) ++ blobs.map fun b => .blob (csvName b.1) := by
  have hprogress : items.filterMap Item.entry = (items.filter (!·.isProgress)).filterMap Item.entry := by
    rw [List.filterMap_filter]
    refine List.filterMap_congr fun item _ => ?_
    cases item <;> rfl
  rw [hprogress, h, List.filterMap_append, List.filterMap_map, List.filterMap_map]
  exact congrArg₂ _ (congrFun List.filterMap_eq_map' marks) (congrFun List.filterMap_eq_map' blobs)

variable (hlib : lib.Validates)

include hlib

/-- What the lines of items say is what the items set. -/
theorem lineEntry_items {items : List Item} (h : ∀ item ∈ items, item.WellFormed lib enc) :
    (items.flatMap (Item.lines lib enc)).filterMap (lineEntry lib) = items.filterMap Item.entry := by
  induction items with
  | nil => rfl
  | cons item items ih =>
    have hitem : (item.lines lib enc).filterMap (lineEntry lib) = item.entry.toList := by
      have hwf := h item List.mem_cons_self
      cases item with
      | progress line =>
        have hline : lineEntry lib line = none := by rw [lineEntry_of_opens hwf.beginRe, hwf.markRe, Option.map_none]
        simp [Item.lines, Item.entry, hline]
      | mark key value =>
        have hline : lineEntry lib (key ++ ' ' :: value) = some (.mark key) := by
          rw [lineEntry_of_opens (beginRe_mark hwf.1 value), markRe_eq_some.mpr ⟨hwf.1, rfl, hwf.2⟩, Option.map_some]
        simp [Item.lines, Item.entry, hline]
      | blob seed csv => exact (blobFrame hwf.1 hwf.2).filterMap_lineEntry hlib (decode_blobFrame hwf.1 hwf.2)
      | allDone => rfl
    rw [List.flatMap_cons, List.filterMap_append, hitem, ih fun item' h' => h item' (List.mem_cons_of_mem item h'),
      List.filterMap_cons]
    cases item.entry <;> rfl

variable (enc) in
/-- **The end of a log is pieces**, which add its marks and its CSVs and end with `ALL_DONE`. -/
theorem exists_pieces_of_log {items : List Item} (hitems : ∀ item ∈ items, item.WellFormed lib enc) {rest : List Text}
    (hrest : ∀ line ∈ rest, IsProgress lib line) (marks : List (Text × Text)) {blobs : List (Text × Bytes)}
    (h : items.filter (!·.isProgress) = (marks.map fun m => .mark m.1 m.2) ++ blobs.map fun b => .blob b.1 b.2) :
    ∃ pieces : List (Piece lib),
      unpiece pieces = (items ++ Item.allDone :: rest.map Item.progress).flatMap (Item.lines lib enc) ∧
        (∀ c : Cell, pieces.foldlM Cell.read c =
          .ok ⟨c.marks.update marks, c.blobs.update (blobs.map fun b => (csvName b.1, b.2)), true⟩) ∧
        entries pieces = (marks.map fun m => .mark m.1) ++ (blobs.map fun b => .blob (csvName b.1)) ∧
        EndsDone pieces := by
  have hprogress : ∀ item ∈ rest.map Item.progress, item.WellFormed lib enc := fun item hitem => by
    obtain ⟨line, hline, rfl⟩ := List.mem_map.mp hitem
    exact hrest line hline
  have hwf : ∀ item ∈ items ++ Item.allDone :: rest.map Item.progress, item.WellFormed lib enc := fun item hitem => by
    rcases List.mem_append.mp hitem with hitem | hitem
    · exact hitems item hitem
    · rcases List.mem_cons.mp hitem with rfl | hitem
      · trivial
      · exact hprogress item hitem
  have hnone : (rest.map Item.progress).filterMap Item.entry = [] := List.filterMap_eq_nil_iff.mpr fun item hitem => by
    obtain ⟨line, -, rfl⟩ := List.mem_map.mp hitem
    rfl
  obtain ⟨pieces, hpieces, haccepted, hreads⟩ := exists_pieces_of_items hwf
  obtain ⟨before, hbefore, -, -⟩ := exists_pieces_of_items hitems
  obtain ⟨after, hafter, hafterOk, -⟩ := exists_pieces_of_items hprogress
  have hsplit : pieces = before ++ .stray "ALL_DONE".toList rfl :: after := by
    refine unpiece_injective ?_
    rw [hpieces, unpiece_append, unpiece_cons, hbefore, hafter, List.flatMap_append, List.flatMap_cons]
    rfl
  have hframes : ∀ f, Piece.frame f ∉ after := not_frame_of_entries [] (by
    rw [entries_eq hlib hafterOk, hafter, lineEntry_items hlib hprogress, hnone, List.map_nil])
  refine ⟨pieces, hpieces, fun c => (hreads c).trans (congrArg _ (foldl_add_items marks h rest c)), ?_, ?_⟩
  · rw [entries_eq hlib haccepted, hpieces, lineEntry_items hlib hwf, List.filterMap_append, filterMap_entry h,
      List.filterMap_cons_none rfl, hnone, List.append_nil]
  · refine ⟨before, _, after, hsplit, ⟨rfl, rfl⟩, ?_⟩
    rintro p hp ⟨f, rfl⟩
    exact hframes f hp

end Log

/-! ### A text behind a whole log -/

section Behind

variable {lib : Stdlib} {enc : Encoder} {log : JobLog lib}

/-- The cell of a run. -/
def JobLog.cell (log : JobLog lib) : Cell := ⟨log.marks, log.csvs, true⟩

theorem JobLog.mem_csvs {name : Text} : name ∈ log.csvs ↔ ∃ seed ∈ log.seeds, csvName seed = name := by
  simp [JobLog.csvs, Dict.ofList, JobLog.seeds]

theorem linesOf_unlines_append {lines : List Text} (h : ∀ line ∈ lines, IsLine line) (rest : Text) :
    linesOf (unlines lines ++ rest) = lines ++ linesOf rest := by
  induction lines with
  | nil => rfl
  | cons line lines ih =>
    obtain ⟨hline, hlines⟩ := List.forall_mem_cons.mp h
    have hone : fileLines (line ++ ['\n']) = [line ++ ['\n']] := by
      have hlines : ∀ line' ∈ [line], IsLine line' := List.forall_mem_singleton.mpr hline
      simpa using fileLines_unlines hlines
    rw [unlines_cons, List.append_assoc, List.cons_append, linesOf, fileLines_newline_append, hone, List.map_append,
      List.map_singleton, rstripNewlines_append_newline hline.1, ← linesOf, ih hlines]
    rfl

theorem JobLog.linesOf_text_append (hwhole : log.IsWhole enc) (fragment : Text) :
    linesOf (log.text enc ++ fragment) = log.allItems.flatMap (Item.lines lib enc) ++ linesOf fragment := by
  rw [JobLog.text_eq]
  exact linesOf_unlines_append (fun _ => isLine_of_items (JobLog.wellFormed hwhole.encodes)) fragment

/-- The value that a key has when marks have replaced those of the run. -/
theorem JobLog.getD_update_marks {key value : Text} (h : log.marks.get? key = some value) (marks : List (Text × Text)) :
    ((log.marks.update marks).get? key).getD [] = ((Dict.ofList marks).get? key).getD value := by
  have hor (found : Option Text) : (found.or (some value)).getD [] = found.getD value := by cases found <;> rfl
  rw [Dict.get?_update, Dict.ofList, Dict.get?_update, Dict.get?_empty, Option.or_none, h]
  exact hor _

theorem JobLog.mem_marks {key : Text} (hkey : key ∈ markKeys) : key ∈ log.marks := hkey

variable (hlib : lib.Validates)

include hlib

/-- When the checks are passed by the cell of a run to which pieces are added. -/
theorem passes_behind_iff {pieces : List (Piece lib)} {c : Cell} (h : pieces.foldlM Cell.read log.cell = .ok c) :
    c.Passes lib log.seeds ↔
      (∀ f, .frame f ∈ pieces → ∃ seed ∈ log.seeds, csvName seed = f.name) ∧ log.WindowHolds (unpiece pieces) := by
  have hmarks : c.marks = log.marks.update ((unpiece pieces).filterMap markRe) := Cell.marks_of_read hlib h
  have hblobs : ∀ name, name ∈ c.blobs ↔ (∃ seed ∈ log.seeds, csvName seed = name) ∨
      ∃ f, .frame f ∈ pieces ∧ f.name = name := fun name =>
    (Cell.mem_blobs_of_read h name).trans (or_congr_left JobLog.mem_csvs)
  have hwindow : (∃ start stop, window lib c.marks = .ok (start, stop) ∧ start < stop) ↔
      log.WindowHolds (unpiece pieces) := by
    have hstart : log.marks.get? "CELL_START".toList = some (intText log.start) := rfl
    have hstop : log.marks.get? "CELL_END".toList = some (intText log.stop) := rfl
    simp only [window_eq_ok, hmarks, JobLog.getD_update_marks hstart, JobLog.getD_update_marks hstop, and_assoc]
    rfl
  constructor
  · intro hpasses
    exact ⟨fun f hf => (hpasses.blobs f.name).mp ((hblobs f.name).mpr (.inr ⟨f, hf, rfl⟩)), hwindow.mp hpasses.window⟩
  · rintro ⟨hnames, hholds⟩
    refine ⟨fun key hkey => ?_, hwindow.mpr hholds, fun name => ?_, Cell.allDone_of_read h rfl⟩
    · rw [hmarks, Dict.mem_update]
      exact .inr (JobLog.mem_marks hkey)
    · rw [hblobs]
      refine or_iff_left_of_imp ?_
      rintro ⟨f, hf, rfl⟩
      exact hnames f hf

/-- The log of a run is pieces. -/
theorem JobLog.exists_pieces (hwhole : log.IsWhole enc) :
    ∃ pieces : List (Piece lib), unpiece pieces = log.allItems.flatMap (Item.lines lib enc) ∧
      pieces.foldlM Cell.read .start = .ok log.cell ∧ CollectJob.entries pieces = log.entries ∧ EndsDone pieces := by
  have hwf := JobLog.wellFormed hwhole.encodes
  obtain ⟨pieces, hpieces, hread, hentries, hdone⟩ := exists_pieces_of_log enc hlib
    (fun item hitem => hwf item (List.mem_append_left _ hitem)) (fun line hline => log.progress line (.inr hline))
    [("NODE".toList, log.node), ("CELL_START".toList, intText log.start), ("CELL_END".toList, intText log.stop)] log.core
  refine ⟨pieces, hpieces, hread .start, ?_, hdone⟩
  rw [hentries, JobLog.entries, JobLog.seeds, List.map_map]
  rfl

/-- **When a log with a text behind it is accepted**: the text is pieces with frames of
expected seeds, and the window is still one. -/
theorem parse_append_iff (hwhole : log.IsWhole enc) {fragment : Text} {marks : Dict Text Text} {blobs : Dict Text Bytes} :
    parse lib (fileLines (log.text enc ++ fragment)) log.seeds = .ok (marks, blobs) ↔
      ∃ (pieces : List (Piece lib)) (c : Cell), linesOf fragment = unpiece pieces ∧
        pieces.foldlM Cell.read log.cell = .ok c ∧ (∀ f, .frame f ∈ pieces → ∃ seed ∈ log.seeds, csvName seed = f.name) ∧
        log.WindowHolds (linesOf fragment) ∧ marks = c.marks ∧ blobs = c.blobs := by
  obtain ⟨whole, hlines, hread, -⟩ := JobLog.exists_pieces hlib hwhole
  have htext := JobLog.linesOf_text_append hwhole fragment
  rw [parse_eq_ok_iff, ← linesOf, htext, ← hlines]
  constructor
  · rintro ⟨pieces, c, hpieces, hc, hpasses, hcell⟩
    obtain ⟨pieces, rfl, hfragment⟩ := exists_append_of_unpiece hpieces.symm
    rw [List.foldlM_append, hread, ok_bind] at hc
    obtain ⟨hnames, hwindow⟩ := (passes_behind_iff hlib hc).mp hpasses
    exact ⟨pieces, c, hfragment.symm, hc, hnames, hfragment ▸ hwindow, hcell⟩
  · rintro ⟨pieces, c, hfragment, hc, hnames, hwindow, hcell⟩
    refine ⟨whole ++ pieces, c, by rw [hfragment, unpiece_append], ?_, ?_, hcell⟩
    · rw [List.foldlM_append, hread, ok_bind, hc]
    · exact (passes_behind_iff hlib hc).mpr ⟨hnames, hfragment ▸ hwindow⟩

theorem returnsOnly_append_iff (hwhole : log.IsWhole enc) (fragment : Text) :
    log.ReturnsOnly (log.text enc ++ fragment) ↔
      OnlyMarks lib (linesOf fragment) [] ∨ ¬ FramesHold lib log.seeds (linesOf fragment) ∨
        ¬ log.WindowHolds (linesOf fragment) := by
  obtain ⟨whole, hlines, -, hentries, hdone⟩ := JobLog.exists_pieces hlib hwhole
  have htext := JobLog.linesOf_text_append hwhole fragment
  rw [← hlines] at htext
  constructor
  · intro honly
    by_contra hne
    simp only [not_or, not_not] at hne
    obtain ⟨hmarks, hframes, hwindow⟩ := hne
    obtain ⟨pieces, hfragment, haccepted, hnames⟩ := (framesHold_iff hlib).mp hframes
    obtain ⟨c, hc⟩ := haccepted.exists_read log.cell
    obtain ⟨-, -, pieces', hpieces', hsingle⟩ := honly c.marks c.blobs
      ((parse_append_iff hlib hwhole).mpr ⟨pieces, c, hfragment, hc, hnames, hwindow, rfl, rfl⟩)
    obtain rfl : whole ++ pieces = pieces' := unpiece_injective (by rw [unpiece_append, ← hfragment, ← htext, hpieces'])
    -- what the text sets is set by the log too, so it sets nothing
    have hnone : entries pieces = [] := by
      refine List.eq_nil_iff_forall_not_mem.mpr fun entry hentry => ?_
      have hmem := mem_entries_of_expected hnames hentry
      exact hsingle.not_mem_entries hmem (hentries ▸ hmem) hentry
    rw [entries_eq hlib haccepted, ← hfragment] at hnone
    obtain ⟨hstates, hkeys⟩ := onlyMarks_of_lineEntry [] hnone
    rw [List.map_eq_nil_iff.mp hkeys] at hstates
    exact hmarks hstates
  · intro hcases marks blobs hparse
    obtain ⟨pieces, c, hfragment, hc, hnames, hwindow, rfl, rfl⟩ := (parse_append_iff hlib hwhole).mp hparse
    rcases hcases with hstates | hframes | hrefused
    · have haccepted := accepted_of_read hc
      have hnone : entries pieces = [] := by
        rw [entries_eq hlib haccepted, ← hfragment, filterMap_lineEntry hstates.opens, hstates.marks, List.map_nil]
      have hframes := not_frame_of_entries [] (hnone.trans List.map_nil.symm)
      refine ⟨?_, Cell.blobs_of_read hc hframes, whole ++ pieces, by rw [htext, hfragment, unpiece_append], ?_⟩
      · rw [Cell.marks_of_read hlib hc, ← hfragment, hstates.marks]
        rfl
      · refine singleRun_of_entries hwhole.seeds ?_ (hdone.append_right hframes)
        rw [entries_append, hentries, hnone, List.append_nil]
    · exact absurd ((framesHold_iff hlib).mpr ⟨pieces, hfragment, accepted_of_read hc, hnames⟩) hframes
    · exact absurd hwindow hrefused

end Behind

/-! ### A text before a whole log -/

section Before

variable {lib : Stdlib} {enc : Encoder} {log : JobLog lib}

/-- What is printed from `NODE` on is the two timestamps and the frames, but for the progress. -/
theorem JobLog.exists_tail (log : JobLog lib) :
    ∃ items, log.items = log.preamble ++ .mark "NODE".toList log.node :: items ∧
      items.filter (!·.isProgress) =
        ([("CELL_START".toList, intText log.start), ("CELL_END".toList, intText log.stop)].map fun m => .mark m.1 m.2) ++
          log.blobs.map fun b => .blob b.1 b.2 := by
  obtain ⟨before, items, hitems, hbefore, -, htail⟩ := List.filter_eq_cons_iff.mp log.core
  have hpreamble : log.preamble = before := by
    rw [JobLog.preamble, hitems, List.takeWhile_append_of_pos fun item hitem => by simpa using hbefore item hitem,
      List.takeWhile_cons_of_neg (by simp [Item.isProgress]), List.append_nil]
  exact ⟨items, by rw [hpreamble, hitems], htail⟩

theorem JobLog.isLine_nodeLine : IsLine log.nodeLine := by
  have hkey : IsLine "NODE ".toList := by decide
  have hnode : IsLine log.node :=
    isLine_of_forall (p := fun c => !isSpace c) (isWord_iff.mp log.node_isWord).2 rfl rfl
  exact hkey.append hnode

/-- The line `NODE` at the end of another line opens and closes no frame. -/
theorem JobLog.nodeLine_says (hlib : lib.Validates) (log : JobLog lib) (before : Text) :
    beginRe lib.isDecimal (before ++ log.nodeLine) = none ∧ endRe (before ++ log.nodeLine) = none ∧
      ' ' ∈ before ++ log.nodeLine := by
  have hline : before ++ log.nodeLine = (before ++ "NODE".toList) ++ ' ' :: log.node := by
    rw [JobLog.nodeLine, List.append_assoc]
  have hnode : ' ' ∉ log.node := fun hblank => absurd (log.node_isWord.2 ' ' hblank) (by decide)
  refine ⟨?_, ?_, by simp [hline]⟩
  · cases hbegin : beginRe lib.isDecimal (before ++ log.nodeLine) with
    | none => rfl
    | some header =>
      obtain ⟨name, sha, count⟩ := header
      obtain ⟨hheader, -, ⟨hlength, hsha⟩, -, hcount⟩ := beginRe_eq_some.mp hbegin
      have hbytes : ' ' ∉ "bytes=".toList ++ count := by
        rw [List.mem_append, not_or]
        exact ⟨by decide, fun hblank => absurd (hlib.isDecimal ' ' (hcount ' ' hblank)) (by decide)⟩
      -- before the last blank the one line has an `E`, the other a digit of the checksum
      have hcut : (before ++ "NODE".toList) ++ ' ' :: log.node =
          ("BEGIN ".toList ++ (name ++ (" sha256=".toList ++ sha))) ++ ' ' :: ("bytes=".toList ++ count) := by
        rw [← hline, hheader]
        simp
      obtain ⟨hleft, -⟩ := append_cons_inj_of_last hnode hbytes hcut
      have hlast : sha.getLast? = some 'E' := by
        have hne : sha ≠ [] := List.ne_nil_of_length_pos (by omega)
        have hright := congrArg List.getLast? hleft
        rw [List.getLast?_append, ← List.append_assoc, ← List.append_assoc, List.getLast?_append_of_ne_nil _ hne] at hright
        exact hright.symm
      exact absurd (hsha 'E' (List.mem_of_getLast? hlast)) (by decide)
  · cases hend : endRe (before ++ log.nodeLine) with
    | none => rfl
    | some name =>
      obtain ⟨hclosing, hname⟩ := endRe_eq_some.mp hend
      have hcut : (before ++ "NODE".toList) ++ ' ' :: log.node = "END".toList ++ ' ' :: name := by
        rw [← hline, hclosing]
        rfl
      have hblank : ' ' ∉ name := fun hmem => absurd (hname.2 ' ' hmem) (by decide)
      have hlength := congrArg List.length (append_cons_inj_of_last hnode hblank hcut).1
      rw [List.length_append] at hlength
      have hnode : "NODE".toList.length = 4 := rfl
      have hthree : "END".toList.length = 3 := rfl
      omega

variable (hlib : lib.Validates)

include hlib

/-- The lines of a text and of a log behind it, up to `NODE` and from there on. -/
theorem JobLog.linesOf_append_text (hwhole : log.IsWhole enc) (fragment : Text) :
    ∃ pieces : List (Piece lib),
      linesOf (fragment ++ log.text enc) = linesOf (fragment ++ log.upToNode enc) ++ unpiece pieces ∧
        (∀ c : Cell, pieces.foldlM Cell.read c =
          .ok ⟨c.marks.update [("CELL_START".toList, intText log.start), ("CELL_END".toList, intText log.stop)],
            c.blobs.update (log.blobs.map fun b => (csvName b.1, b.2)), true⟩) ∧
        log.entries = .mark "NODE".toList :: CollectJob.entries pieces ∧ EndsDone pieces := by
  have hwf := JobLog.wellFormed hwhole.encodes
  obtain ⟨items, hitems, htail⟩ := log.exists_tail
  have hrest : ∀ item ∈ items ++ Item.allDone :: log.rest.map Item.progress, item.WellFormed lib enc := fun item hitem =>
    hwf item (by
      rw [JobLog.allItems, hitems, List.append_assoc, List.cons_append]
      exact List.mem_append_right _ (List.mem_cons_of_mem _ hitem))
  obtain ⟨pieces, hpieces, hread, hentries, hdone⟩ := exists_pieces_of_log enc hlib
    (fun item hitem => hrest item (List.mem_append_left _ hitem)) (fun line hline => log.progress line (.inr hline)) _ htail
  refine ⟨pieces, ?_, hread, ?_, hdone⟩
  · have htext : fragment ++ log.text enc =
        (fragment ++ (unlines (log.preamble.flatMap (Item.lines lib enc)) ++ log.nodeLine)) ++ '\n' :: unlines (unpiece pieces) := by
      rw [JobLog.text_eq, JobLog.allItems, hitems, hpieces]
      simp [Item.lines, JobLog.nodeLine]
    have hlines := linesOf_unlines_append (fun _ hline => isLine_of_items hrest (hpieces ▸ hline)) []
    have hnil : linesOf [] = [] := rfl
    rw [List.append_nil, hnil, List.append_nil] at hlines
    rw [linesOf, htext, fileLines_newline_append, List.map_append, ← linesOf, ← linesOf, hlines]
    simp [JobLog.upToNode, linesOf]
  · rw [hentries, JobLog.entries, JobLog.seeds, List.map_map]
    rfl

/-- The marks of a run behind other marks: the timestamps are its own. -/
theorem passes_before_iff {pieces : List (Piece lib)} {c c' : Cell} (hwhole : log.IsWhole enc)
    (h : pieces.foldlM Cell.read .start = .ok c)
    (hc' : c' = ⟨c.marks.update [("CELL_START".toList, intText log.start), ("CELL_END".toList, intText log.stop)],
      c.blobs.update (log.blobs.map fun b => (csvName b.1, b.2)), true⟩) :
    c'.Passes lib log.seeds ↔
      (∀ f, .frame f ∈ pieces → ∃ seed ∈ log.seeds, csvName seed = f.name) ∧
        ∃ node, ("NODE".toList, node) ∈ (unpiece pieces).filterMap markRe := by
  have hmarks : c.marks = Dict.ofList ((unpiece pieces).filterMap markRe) := Cell.marks_of_read hlib h
  have hblobs (name : Text) : name ∈ c'.blobs ↔ (∃ seed ∈ log.seeds, csvName seed = name) ∨
      ∃ f, .frame f ∈ pieces ∧ f.name = name := by
    have hread := Cell.mem_blobs_of_read h name
    rw [hc', Dict.mem_update, hread]
    simp [Cell.start, JobLog.seeds]
  have hnode : "NODE".toList ∈ c'.marks ↔ ∃ node, ("NODE".toList, node) ∈ (unpiece pieces).filterMap markRe := by
    have hother : "NODE".toList ∉ [("CELL_START".toList, intText log.start), ("CELL_END".toList, intText log.stop)].map
        Prod.fst := by
      have hkeys : "NODE".toList ∉ ["CELL_START".toList, "CELL_END".toList] := by decide
      exact hkeys
    rw [hc', Dict.mem_update, or_iff_right hother, hmarks, Dict.ofList, Dict.mem_update,
      or_iff_left (Dict.not_mem_empty _)]
    simp
  constructor
  · intro hpasses
    exact ⟨fun f hf => (hpasses.blobs f.name).mp ((hblobs f.name).mpr (.inr ⟨f, hf, rfl⟩)),
      hnode.mp (hpasses.marks _ (by decide))⟩
  · rintro ⟨hnames, hnamed⟩
    refine ⟨fun key hkey => ?_, ⟨log.start, log.stop, window_eq_ok.mpr ?_, hwhole.lt⟩, fun name => ?_, by rw [hc']⟩
    · simp only [markKeys, List.mem_cons, List.not_mem_nil, or_false] at hkey
      rcases hkey with rfl | rfl | rfl
      · exact hnode.mpr hnamed
      · rw [hc', Dict.mem_update]
        exact .inl List.mem_cons_self
      · rw [hc', Dict.mem_update]
        exact .inl (List.mem_cons_of_mem _ List.mem_cons_self)
    · have hstart : c'.marks.get? "CELL_START".toList = some (intText log.start) := by
        rw [hc', Dict.get?_update]
        rfl
      have hstop : c'.marks.get? "CELL_END".toList = some (intText log.stop) := by
        rw [hc', Dict.get?_update]
        rfl
      rw [hstart, hstop, Option.getD_some, Option.getD_some]
      exact ⟨hwhole.start, hwhole.stop⟩
    · rw [hblobs]
      refine or_iff_left_of_imp ?_
      rintro ⟨f, hf, rfl⟩
      exact hnames f hf

/-- **When a log with a text before it is accepted**: the text and the beginning of the log
are pieces with frames of expected seeds, and name a node. -/
theorem append_parse_iff (hwhole : log.IsWhole enc) {fragment : Text} {after : List (Piece lib)}
    (hlines : linesOf (fragment ++ log.text enc) = linesOf (fragment ++ log.upToNode enc) ++ unpiece after)
    (hread : ∀ c : Cell, after.foldlM Cell.read c =
      .ok ⟨c.marks.update [("CELL_START".toList, intText log.start), ("CELL_END".toList, intText log.stop)],
        c.blobs.update (log.blobs.map fun b => (csvName b.1, b.2)), true⟩)
    {marks : Dict Text Text} {blobs : Dict Text Bytes} :
    parse lib (fileLines (fragment ++ log.text enc)) log.seeds = .ok (marks, blobs) ↔
      ∃ (pieces : List (Piece lib)) (c : Cell), linesOf (fragment ++ log.upToNode enc) = unpiece pieces ∧
        pieces.foldlM Cell.read .start = .ok c ∧ (∀ f, .frame f ∈ pieces → ∃ seed ∈ log.seeds, csvName seed = f.name) ∧
        (∃ node, ("NODE".toList, node) ∈ (linesOf (fragment ++ log.upToNode enc)).filterMap markRe) ∧
        marks = c.marks.update [("CELL_START".toList, intText log.start), ("CELL_END".toList, intText log.stop)] ∧
        blobs = c.blobs.update (log.blobs.map fun b => (csvName b.1, b.2)) := by
  rw [parse_eq_ok_iff, ← linesOf, hlines]
  constructor
  · rintro ⟨whole, c', hpieces, hc', hpasses, hcell⟩
    obtain ⟨lines, before, hnode⟩ := exists_rstrip_fileLines_line
      (fragment ++ unlines (log.preamble.flatMap (Item.lines lib enc))) log.isLine_nodeLine (by simp [JobLog.nodeLine])
    have hupTo : linesOf (fragment ++ log.upToNode enc) = lines ++ [before ++ log.nodeLine] := by
      rw [← hnode, linesOf, JobLog.upToNode, List.append_assoc]
    obtain ⟨hbegin, hend, hblank⟩ := JobLog.nodeLine_says hlib log before
    -- the line `NODE` is in no frame, so the pieces are cut behind it
    have hcut : unpiece whole = lines ++ (before ++ log.nodeLine) :: unpiece after := by
      rw [← hpieces, hupTo, List.append_assoc, List.singleton_append]
    obtain ⟨pieces, pieces', rfl, hpieces₁, hpieces₂⟩ :=
      exists_pieces_cut hlib (accepted_of_read hc') hcut hbegin hend hblank
    obtain rfl := unpiece_injective hpieces₂
    rw [List.foldlM_append] at hc'
    obtain ⟨c, hc, hrest⟩ := bind_eq_ok.mp hc'
    obtain rfl := Except.ok.inj ((hread c).symm.trans hrest)
    rw [hupTo, ← hpieces₁]
    obtain ⟨hnames, hnode⟩ := (passes_before_iff hlib hwhole hc rfl).mp hpasses
    exact ⟨pieces, c, rfl, hc, hnames, hnode, hcell⟩
  · rintro ⟨pieces, c, hpieces, hc, hnames, hnode, hcell⟩
    refine ⟨pieces ++ after, ⟨_, _, true⟩, by rw [hpieces, unpiece_append], ?_, ?_, hcell⟩
    · rw [List.foldlM_append, hc, ok_bind, hread]
      rfl
    · exact (passes_before_iff hlib hwhole hc rfl).mpr ⟨hnames, hpieces ▸ hnode⟩

theorem append_returnsOnly_iff (hwhole : log.IsWhole enc) (fragment : Text) :
    log.ReturnsOnly (fragment ++ log.text enc) ↔
      OnlyMarks lib (linesOf (fragment ++ log.upToNode enc)) [("NODE".toList, log.node)] ∨
        ¬ FramesHold lib log.seeds (linesOf (fragment ++ log.upToNode enc)) ∨
        ¬ ∃ node, ("NODE".toList, node) ∈ (linesOf (fragment ++ log.upToNode enc)).filterMap markRe := by
  obtain ⟨after, hlines, hread, hentries, hdone⟩ := JobLog.linesOf_append_text hlib hwhole fragment
  have hparse := @append_parse_iff lib enc log hlib hwhole fragment after hlines hread
  generalize linesOf (fragment ++ log.upToNode enc) = upTo at hlines hparse ⊢
  constructor
  · intro honly
    by_contra hne
    simp only [not_or, not_not] at hne
    obtain ⟨hmarks, hframes, hnode⟩ := hne
    obtain ⟨pieces, hpieces, haccepted, hnames⟩ := (framesHold_iff hlib).mp hframes
    obtain ⟨c, hc⟩ := haccepted.exists_read .start
    obtain ⟨hlog, -, whole, hwholeLines, hsingle⟩ := honly _ _ (hparse.mpr ⟨pieces, c, hpieces, hc, hnames, hnode, rfl, rfl⟩)
    obtain rfl : pieces ++ after = whole := unpiece_injective (by rw [unpiece_append, ← hpieces, ← hlines, hwholeLines])
    -- all but `NODE` is set behind, so nothing but `NODE` is set before, and once
    have hnodes : entries pieces = ["NODE".toList].map .mark := hsingle.entries_eq_singleton hwhole.seeds hnames hentries
    rw [entries_eq hlib haccepted, ← hpieces] at hnodes
    obtain ⟨hstates, hkeys⟩ := onlyMarks_of_lineEntry _ hnodes
    obtain ⟨⟨key, value⟩, hmark⟩ := List.length_eq_one_iff.mp ((List.length_map (f := Prod.fst)).symm.trans (congrArg _ hkeys))
    obtain rfl : key = "NODE".toList := by
      rw [hmark] at hkeys
      exact (List.cons.inj hkeys).1
    have hvalue := congrArg (Dict.get? · "NODE".toList) hlog
    have hget : log.marks.get? "NODE".toList = some log.node := rfl
    rw [Cell.marks_of_read hlib hc, ← hpieces, hmark, hget] at hvalue
    obtain rfl : value = log.node := Option.some.inj hvalue
    rw [hmark] at hstates
    exact hmarks hstates
  · intro hcases marks blobs hok
    obtain ⟨pieces, c, hpieces, hc, hnames, hnode, rfl, rfl⟩ := hparse.mp hok
    rcases hcases with hstates | hframes | hrefused
    · have hbefore : entries pieces = ["NODE".toList].map .mark := by
        rw [entries_eq hlib (accepted_of_read hc), ← hpieces, filterMap_lineEntry hstates.opens, hstates.marks]
        rfl
      refine ⟨?_, ?_, pieces ++ after, by rw [hlines, hpieces, unpiece_append], ?_⟩
      · rw [Cell.marks_of_read hlib hc, ← hpieces, hstates.marks]
        rfl
      · rw [Cell.blobs_of_read hc (not_frame_of_entries _ hbefore)]
        rfl
      · refine singleRun_of_entries hwhole.seeds ?_ (hdone.append_left pieces)
        rw [entries_append, hbefore, hentries]
        rfl
    · exact absurd ((framesHold_iff hlib).mpr ⟨pieces, hpieces, accepted_of_read hc, hnames⟩) hframes
    · exact absurd hnode hrefused

end Before

/-- **When a whole log and another text are returned as the cell of that log only.**

Behind the log: exactly when the text has no `BEGIN` and no mark, or is refused with it, for a
`BEGIN` that opens no frame that holds what it declares, of an expected seed, or for a
window that its marks spoil.

Before the log: exactly when the text, with the beginning of the log, has no `BEGIN` and no
mark but the log's own `NODE`, or is refused with it, for such a `BEGIN` or because its last line
swallows the `NODE` and there is no other. -/
theorem returnsOnly_iff {lib : Stdlib} (hlib : lib.Validates) {enc : Encoder} {log : JobLog lib}
    (hwhole : log.IsWhole enc) (fragment : Text) :
    (log.ReturnsOnly (log.text enc ++ fragment) ↔
      OnlyMarks lib (linesOf fragment) [] ∨ ¬ FramesHold lib log.seeds (linesOf fragment) ∨
        ¬ log.WindowHolds (linesOf fragment)) ∧
    (log.ReturnsOnly (fragment ++ log.text enc) ↔
      OnlyMarks lib (linesOf (fragment ++ log.upToNode enc)) [("NODE".toList, log.node)] ∨
        ¬ FramesHold lib log.seeds (linesOf (fragment ++ log.upToNode enc)) ∨
        ¬ ∃ node, ("NODE".toList, node) ∈ (linesOf (fragment ++ log.upToNode enc)).filterMap markRe) :=
  ⟨returnsOnly_append_iff hlib hwhole fragment, append_returnsOnly_iff hlib hwhole fragment⟩

theorem validates_rowLib : rowLib.Validates := by
  have hbase : ∀ text ∈ [rowBase64, sampleBase64, corruptBase64], ∀ c ∈ text, isBase64 c := by
    intro text htext
    simp only [List.mem_cons, List.not_mem_nil, or_false] at htext
    rcases htext with rfl | rfl | rfl
    · exact List.all_eq_true.mp (by decide +kernel)
    · exact List.all_eq_true.mp (by decide +kernel)
    · exact List.all_eq_true.mp (by decide +kernel)
  refine ⟨fun text raw h => ?_, fun c hc => isSpace_eq_false_of_isDigit hc⟩
  rw [rowLib, sampleLib] at h
  dsimp only at h
  split_ifs at h with h₁ h₂ h₃
  · exact hbase text (by simp [h₁])
  · exact hbase text (by simp [h₂])
  · exact hbase text (by simp [h₃])

theorem isWhole_twoSeedPod : twoSeedPod.jobLog.IsWhole rowEncoder :=
  ⟨by decide +kernel, by decide +kernel, encodes_twoSeedPod, by decide, by decide⟩

theorem framesHold_of_opens {lib : Stdlib} {seeds lines : List Text}
    (h : ∀ line ∈ lines, beginRe lib.isDecimal line = none) : FramesHold lib seeds lines := by
  rintro before opening after rfl hbegin
  exact absurd (h opening (by simp)) hbegin

/-- The marks of another run behind the log or before it are mixed with its own; a line of
progress is not. -/
theorem returnsOnly_iff_twoSeedPod :
    ¬ twoSeedPod.jobLog.ReturnsOnly
        (twoSeedPod.jobLog.text rowEncoder ++ "NODE other\nCELL_START 15\nCELL_END 19\n".toList) ∧
      ¬ twoSeedPod.jobLog.ReturnsOnly ("NODE other\nCELL_STA".toList ++ twoSeedPod.jobLog.text rowEncoder) ∧
      twoSeedPod.jobLog.ReturnsOnly (twoSeedPod.jobLog.text rowEncoder ++ "==> seed 0\nn=0 o".toList) := by
  have hiff := returnsOnly_iff validates_rowLib isWhole_twoSeedPod
  refine ⟨fun honly => ?_, fun honly => ?_, ?_⟩
  · rcases (hiff _).1.mp honly with hmarks | hframes | hwindow
    · exact absurd hmarks.marks (by decide +kernel)
    · exact hframes (framesHold_of_opens (by decide +kernel))
    · exact hwindow ⟨15, 19, by decide +kernel, by decide +kernel, by decide⟩
  · rcases (hiff _).2.mp honly with hmarks | hframes | hnode
    · exact absurd hmarks.marks (by decide +kernel)
    · exact hframes (framesHold_of_opens (by decide +kernel))
    · exact hnode ⟨"worker".toList, by decide +kernel⟩
  · exact (hiff _).1.mpr (.inl ⟨by decide +kernel, by decide +kernel⟩)

/-- The log of a run, and the start of another one's. -/
def twoRuns : List Text :=
  oneFrameLog sampleBase64 ++
    ["NODE other\n".toList, "CELL_START 15\n".toList, "CELL_END 19\n".toList]

/-- Its pieces. -/
def twoRunsPieces : List (Piece sampleLib) :=
  [.stray "NODE worker".toList (by decide), .stray "CELL_START 5".toList (by decide),
    .stray "CELL_END 9".toList (by decide),
    .frame {
      opening := "BEGIN driver-seed1.csv sha256=".toList ++ sampleSha ++ " bytes=6".toList
      name := "driver-seed1.csv".toList
      sha := sampleSha
      count := "6".toList
      body := [sampleBase64]
      closing := "END driver-seed1.csv".toList
      opens := by decide
      inside := by decide
      closes := by decide },
    .stray "ALL_DONE".toList (by decide), .stray "NODE other".toList (by decide),
    .stray "CELL_START 15".toList (by decide), .stray "CELL_END 19".toList (by decide)]

/-- It is accepted, with the CSV of the one and the window of the other. And if a run that
is cut off comes first, the log of the other is accepted with the node of the first. -/
theorem twoRuns_accepted :
    parse sampleLib twoRuns ["1".toList] =
      .ok (Dict.ofList [("NODE".toList, "other".toList), ("CELL_START".toList, "15".toList),
          ("CELL_END".toList, "19".toList)], Dict.ofList [("driver-seed1.csv".toList, sampleCsv)]) ∧
      (∀ pieces : List (Piece sampleLib), twoRuns.map rstripNewlines = unpiece pieces →
        ¬ SingleRun ["1".toList] pieces) ∧
      parse sampleLib (fileLines ("NODE other\nCELL_STA".toList ++ (oneFrameLog sampleBase64).flatten)) ["1".toList] =
        .ok (Dict.ofList [("NODE".toList, "other".toList), ("CELL_START".toList, "5".toList),
          ("CELL_END".toList, "9".toList)], Dict.ofList [("driver-seed1.csv".toList, sampleCsv)]) := by
  refine ⟨by decide +kernel, fun pieces hlines hsingle => ?_, by decide +kernel⟩
  have hpieces : twoRuns.map rstripNewlines = unpiece twoRunsPieces := by decide +kernel
  obtain rfl : twoRunsPieces = pieces := unpiece_injective (hpieces.symm.trans hlines)
  have htwice : (entries twoRunsPieces).count (.mark "NODE".toList) = 2 := by decide +kernel
  have honce := hsingle.marks "NODE".toList (by decide)
  rw [htwice] at honce
  exact absurd honce (by decide)

end CachingInLLMs.Benchmarks.CollectJob

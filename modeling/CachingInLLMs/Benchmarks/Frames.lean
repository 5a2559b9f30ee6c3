import CachingInLLMs.Benchmarks.CollectJob

/-!
# The frames of a log

A log may contain anything: stray lines inside a frame, a `BEGIN` within a frame, marks in
a body, frames in any order. `parse` reads all of it as a sequence of pieces, each a line
outside the frames or a whole frame, and perhaps a last frame that is not closed by an
`END` of its own name.

## The model

A `Frame` is a line that opens it, the lines up to the next that matches `END`, and this
line, which names the frame. A `Piece` is a frame, or a line outside frames that opens none.
`Cell.read` is what a piece adds to a cell, without the variables of the loop.

## What is proved

* `readPieces`: on pieces the loop does what `Cell.read` says, so nothing of one frame
  reaches the next.
* `exists_pieces`: a log is pieces and at most one frame without its end.
* `acceptance_sound`: what an accepted log contains.
* `raises_only_collectError_iff`: when `parse` ends with an exception of another class.
-/

namespace CachingInLLMs.Benchmarks.CollectJob

open CachingInLLMs.Library

/-! ### Pieces -/

/-- A frame. -/
structure Frame (lib : Stdlib) where
  /-- The line that opens it. -/
  opening : Text
  /-- The name on that line. -/
  name : Text
  /-- The checksum on that line. -/
  sha : Text
  /-- The byte count on that line. -/
  count : Text
  /-- The lines inside. -/
  body : List Text
  /-- The line that closes it. -/
  closing : Text
  /-- The first line is a `BEGIN`. -/
  opens : beginRe lib.isDecimal opening = some (name, sha, count)
  /-- No line inside is an `END`. -/
  inside : ∀ line ∈ body, endRe line = none
  /-- The last line is the `END` of the name. -/
  closes : endRe closing = some name

/-- A piece of a log. -/
inductive Piece (lib : Stdlib) where
  /-- A line outside the frames. -/
  | stray (line : Text) (h : beginRe lib.isDecimal line = none)
  /-- A frame. -/
  | frame (f : Frame lib)

/-- What the log has said so far. -/
structure Cell where
  /-- `marks`. -/
  marks : Dict Text Text
  /-- `blobs`. -/
  blobs : Dict Text Bytes
  /-- `all_done`. -/
  allDone : Bool

variable {lib : Stdlib}

/-- The lines of a frame. -/
def Frame.lines (f : Frame lib) : List Text := f.opening :: (f.body ++ [f.closing])

/-- The lines of a piece. -/
def Piece.lines : Piece lib → List Text
  | .stray line _ => [line]
  | .frame f => f.lines

/-- The lines of pieces. -/
def unpiece (pieces : List (Piece lib)) : List Text := pieces.flatMap Piece.lines

/-- The bytes that a frame holds. -/
def Frame.decode (f : Frame lib) : Except Exc Bytes := do
  let bytes ← byteCount lib f.count
  CollectJob.decode lib f.name f.body.flatten f.sha bytes

/-- The cell before the first line. -/
def Cell.start : Cell := ⟨∅, ∅, false⟩

/-- A line outside the frames. -/
def Cell.readStray (c : Cell) (line : Text) : Cell :=
  match markRe line with
  | some (key, value) => { c with marks := c.marks.set key value }
  | none => if line = "ALL_DONE".toList then { c with allDone := true } else c

/-- What a piece adds. -/
def Cell.read (c : Cell) : Piece lib → Except Exc Cell
  | .stray line _ => .ok (c.readStray line)
  | .frame f => do
    let data ← f.decode
    return { c with blobs := c.blobs.set f.name data }

/-- The pieces whose frames all hold what they declare. -/
def Accepted (pieces : List (Piece lib)) : Prop := ∀ f, .frame f ∈ pieces → ∃ data, f.decode = .ok data

@[simp] theorem unpiece_nil : unpiece ([] : List (Piece lib)) = [] := rfl

@[simp] theorem unpiece_cons (piece : Piece lib) (pieces : List (Piece lib)) :
    unpiece (piece :: pieces) = piece.lines ++ unpiece pieces := List.flatMap_cons

@[simp] theorem unpiece_append (pieces pieces' : List (Piece lib)) :
    unpiece (pieces ++ pieces') = unpiece pieces ++ unpiece pieces' := List.flatMap_append

@[simp] theorem accepted_nil : Accepted ([] : List (Piece lib)) := by
  intro f hf
  simp at hf

theorem Accepted.append {pieces pieces' : List (Piece lib)} (h : Accepted pieces) (h' : Accepted pieces') :
    Accepted (pieces ++ pieces') := by
  intro f hf
  rcases List.mem_append.mp hf with hf | hf
  · exact h f hf
  · exact h' f hf

/-! ### The loop reads pieces -/

/-- The variables of the loop that outlive a frame. -/
def ParseState.cell (s : ParseState) : Cell := ⟨s.marks, s.blobs, s.allDone⟩

/-- The loop is outside the frames and has the cell, or both have raised the same. -/
def Reaches : Except Exc ParseState → Except Exc Cell → Prop
  | .ok s, .ok c => s.name = none ∧ s.cell = c
  | .error e, .error e' => e = e'
  | _, _ => False

theorem Reaches.cases {r : Except Exc ParseState} {r' : Except Exc Cell} (h : Reaches r r') :
    (∃ e, r = .error e ∧ r' = .error e) ∨ ∃ s, r = .ok s ∧ s.name = none ∧ r' = .ok s.cell := by
  cases r with
  | error e =>
    cases r' with
    | error e' => exact Or.inl ⟨e, rfl, congrArg _ h.symm⟩
    | ok c => exact h.elim
  | ok s =>
    cases r' with
    | error e' => exact h.elim
    | ok c => exact Or.inr ⟨s, rfl, h.1, congrArg _ h.2.symm⟩

theorem readLine_outside {s : ParseState} (hs : s.name = none) (line : Text) :
    readLine lib s line = readOutside lib s line := by
  rw [readLine, hs]

theorem readLine_inside {s : ParseState} {name : Text} (hs : s.name = some name) (line : Text) :
    readLine lib s line = readInside lib s name line := by
  rw [readLine, hs]

/-- A line outside the frames that opens none. -/
theorem readLine_stray {s : ParseState} (hs : s.name = none) {line : Text} (h : beginRe lib.isDecimal line = none) :
    Reaches (readLine lib s line) (.ok (s.cell.readStray line)) := by
  rw [readLine_outside hs, readOutside, h, Cell.readStray]
  cases markRe line with
  | some mark => exact ⟨hs, rfl⟩
  | none =>
    dsimp only
    split_ifs
    · exact ⟨hs, rfl⟩
    · exact ⟨hs, rfl⟩

/-- The line that opens a frame. -/
theorem readLine_opening {s : ParseState} (hs : s.name = none) {line name sha count : Text}
    (h : beginRe lib.isDecimal line = some (name, sha, count)) :
    readLine lib s line = (byteCount lib count).map fun bytes =>
      { s with name := some name, header := (sha, bytes), body := [] } := by
  rw [readLine_outside hs, readOutside, h]
  dsimp only
  cases byteCount lib count <;> rfl

/-- Inside a frame, lines that are no `END` are collected. -/
theorem readLine_body {s : ParseState} {name : Text} (hs : s.name = some name) {lines : List Text}
    (h : ∀ line ∈ lines, endRe line = none) :
    lines.foldlM (readLine lib) s = .ok { s with body := s.body ++ lines } := by
  induction lines generalizing s with
  | nil =>
    rw [List.append_nil]
    rfl
  | cons line lines ih =>
    rw [List.foldlM_cons, readLine_inside hs, readInside, h line List.mem_cons_self]
    refine (ih (s := { s with body := s.body ++ [line] }) hs fun line' h' => h line' (List.mem_cons_of_mem line h')).trans ?_
    rw [List.append_assoc, List.singleton_append]

/-- The line that closes a frame, or another. -/
theorem readLine_closing {s : ParseState} {name closing : Text} (hs : s.name = some name) {line : Text}
    (h : endRe line = some closing) :
    readLine lib s line =
      if closing ≠ name then
        .error (.collectError
          s!"END {String.ofList closing} closes BEGIN {String.ofList name} - log interleaved")
      else (decode lib name s.body.flatten s.header.1 s.header.2).map fun data =>
        { s with blobs := s.blobs.set name data, name := none } := by
  rw [readLine_inside hs, readInside, h]
  dsimp only
  split_ifs
  · rfl
  · cases decode lib name s.body.flatten s.header.1 s.header.2 <;> rfl

theorem readPiece {s : ParseState} (hs : s.name = none) (piece : Piece lib) :
    Reaches (piece.lines.foldlM (readLine lib) s) (s.cell.read piece) := by
  cases piece with
  | stray line h =>
    rw [Piece.lines, List.foldlM_cons, Cell.read]
    have hline := readLine_stray hs h
    cases hread : readLine lib s line with
    | error e => rwa [hread] at hline
    | ok s' => rwa [hread] at hline
  | frame f =>
    rw [Piece.lines, Frame.lines, List.foldlM_cons, readLine_opening hs f.opens, Cell.read, Frame.decode]
    cases byteCount lib f.count with
    | error e => rfl
    | ok bytes =>
      rw [Except.map, ok_bind, List.foldlM_append, readLine_body rfl f.inside, ok_bind, List.foldlM_cons,
        readLine_closing rfl f.closes, if_neg (not_not.mpr rfl), ok_bind, List.nil_append]
      cases decode lib f.name f.body.flatten f.sha bytes with
      | error e => rfl
      | ok data => exact ⟨rfl, rfl⟩

/-- **On pieces, the loop does what the pieces say.** -/
theorem readPieces {s : ParseState} (hs : s.name = none) (pieces : List (Piece lib)) :
    Reaches ((unpiece pieces).foldlM (readLine lib) s) (pieces.foldlM Cell.read s.cell) := by
  induction pieces generalizing s with
  | nil => exact ⟨hs, rfl⟩
  | cons piece pieces ih =>
    rw [unpiece_cons, List.foldlM_append, List.foldlM_cons]
    rcases (readPiece hs piece).cases with ⟨e, hread, hcell⟩ | ⟨s', hread, hs', hcell⟩
    · rw [hread, hcell]
      rfl
    · rw [hread, hcell]
      exact ih hs'

/-! ### Every log is pieces -/

/-- What may follow the pieces: nothing, or a frame that is not closed by its own `END`. -/
inductive Tail (lib : Stdlib) : List Text → Prop where
  /-- Nothing. -/
  | nil : Tail lib []
  /-- A frame in which the log ends. -/
  | unclosed {opening name sha count : Text} {body : List Text} :
      beginRe lib.isDecimal opening = some (name, sha, count) → (∀ line ∈ body, endRe line = none) →
        Tail lib (opening :: body)
  /-- A frame in which another one is closed. -/
  | interleaved {opening name sha count closing other : Text} {body : List Text} (after : List Text) :
      beginRe lib.isDecimal opening = some (name, sha, count) → (∀ line ∈ body, endRe line = none) →
        endRe closing = some other → other ≠ name → Tail lib (opening :: (body ++ closing :: after))

/-- The first `END` of some lines, if there is one. -/
theorem exists_first_end (lines : List Text) :
    (∀ line ∈ lines, endRe line = none) ∨
      ∃ body closing after name, lines = body ++ closing :: after ∧ (∀ line ∈ body, endRe line = none) ∧
        endRe closing = some name := by
  cases hfind : lines.find? fun line => (endRe line).isSome with
  | none =>
    rw [List.find?_eq_none] at hfind
    exact .inl fun line hline => by simpa using hfind line hline
  | some closing =>
    obtain ⟨hclosing, body, after, rfl, hbody⟩ := List.find?_eq_some_iff_append.mp hfind
    obtain ⟨name, hname⟩ := Option.isSome_iff_exists.mp hclosing
    exact .inr ⟨body, closing, after, name, rfl, fun line hline => by simpa using hbody line hline, hname⟩

/-- **Every log is pieces**, and at most one frame without its end. -/
theorem exists_pieces (lib : Stdlib) (lines : List Text) :
    ∃ (pieces : List (Piece lib)) (tail : List Text), lines = unpiece pieces ++ tail ∧ Tail lib tail := by
  induction hn : lines.length using Nat.strong_induction_on generalizing lines with
  | _ n ih =>
    cases lines with
    | nil => exact ⟨[], [], rfl, .nil⟩
    | cons line lines =>
      rw [List.length_cons] at hn
      cases hbegin : beginRe lib.isDecimal line with
      | none =>
        obtain ⟨pieces, tail, rfl, htail⟩ := ih lines.length (by omega) lines rfl
        exact ⟨.stray line hbegin :: pieces, tail, by simp [Piece.lines], htail⟩
      | some header =>
        obtain ⟨name, sha, count⟩ := header
        rcases exists_first_end lines with hbody | ⟨body, closing, after, other, rfl, hbody, hclosing⟩
        · exact ⟨[], line :: lines, rfl, .unclosed hbegin hbody⟩
        · by_cases hname : other = name
          · subst hname
            rw [List.length_append, List.length_cons] at hn
            obtain ⟨pieces, tail, hafter, htail⟩ := ih after.length (by omega) after rfl
            refine ⟨.frame ⟨line, other, sha, count, body, closing, hbegin, hbody, hclosing⟩ :: pieces, tail, ?_, htail⟩
            simp [Piece.lines, Frame.lines, hafter]
          · exact ⟨[], line :: (body ++ closing :: after), rfl, .interleaved after hbegin hbody hclosing hname⟩

section Tails

variable {s : ParseState} {opening name sha count : Text} {body : List Text}

theorem read_unclosed (hs : s.name = none) (hbegin : beginRe lib.isDecimal opening = some (name, sha, count))
    (hbody : ∀ line ∈ body, endRe line = none) :
    (opening :: body).foldlM (readLine lib) s = (byteCount lib count).map fun bytes =>
      { s with name := some name, header := (sha, bytes), body := body } := by
  rw [List.foldlM_cons, readLine_opening hs hbegin]
  cases byteCount lib count with
  | error e => rfl
  | ok bytes =>
    rw [Except.map, ok_bind, readLine_body rfl hbody, List.nil_append]
    rfl

theorem read_interleaved (hs : s.name = none) (hbegin : beginRe lib.isDecimal opening = some (name, sha, count))
    (hbody : ∀ line ∈ body, endRe line = none) {closing other : Text} (hclosing : endRe closing = some other)
    (hne : other ≠ name) (after : List Text) :
    (opening :: (body ++ closing :: after)).foldlM (readLine lib) s = (byteCount lib count).bind fun _ =>
      .error (.collectError
        s!"END {String.ofList other} closes BEGIN {String.ofList name} - log interleaved") := by
  rw [← List.cons_append, List.foldlM_append, read_unclosed hs hbegin hbody]
  cases byteCount lib count with
  | error e => rfl
  | ok bytes =>
    rw [Except.map, ok_bind, List.foldlM_cons, readLine_closing rfl hclosing, if_pos hne]
    rfl

end Tails

theorem parse_eq (lib : Stdlib) (lines seeds : List Text) :
    parse lib lines seeds =
      (lines.map rstripNewlines).foldlM (readLine lib) .start >>= fun s => checkCell lib s seeds := by
  rw [List.foldlM_map]
  rfl

/-! ### What is accepted -/

theorem decode_eq_ok {name b64 wantSha : Text} {wantBytes : ℤ} {data : Bytes} :
    decode lib name b64 wantSha wantBytes = .ok data ↔
      ∃ raw, lib.b64decode b64 = .ok raw ∧ lib.decompress raw = .ok data ∧ (data.length : ℤ) = wantBytes ∧
        lib.sha256 data = wantSha := by
  rw [decode]
  dsimp only
  split
  · next hb => simp [hb]
  · next hb => simp [hb]
  · next raw hb =>
    split
    · next hg => simp [hb, hg]
    · next hg => simp [hb, hg]
    · next hg => simp [hb, hg]
    · next data' hg =>
      constructor
      · intro h
        split_ifs at h with hsize hsha
        cases h
        exact ⟨raw, hb, hg, not_not.mp hsize, not_not.mp hsha⟩
      · rintro ⟨raw', hb', hg', hsize, hsha⟩
        cases hb.symm.trans hb'
        cases hg.symm.trans hg'
        rw [if_neg (not_not.mpr hsize), if_neg (not_not.mpr hsha)]

/-- What a frame holds. -/
theorem Frame.decode_eq_ok {f : Frame lib} {data : Bytes} :
    f.decode = .ok data ↔
      ∃ raw, lib.b64decode f.body.flatten = .ok raw ∧ lib.decompress raw = .ok data ∧
        lib.int f.count = .ok (data.length : ℤ) ∧ lib.sha256 data = f.sha := by
  simp only [Frame.decode, bind_eq_ok, byteCount, mapError_eq_ok, CollectJob.decode_eq_ok]
  constructor
  · rintro ⟨_, hcount, raw, hb, hg, rfl, hsha⟩
    exact ⟨raw, hb, hg, hcount, hsha⟩
  · rintro ⟨raw, hb, hg, hcount, hsha⟩
    exact ⟨_, hcount, raw, hb, hg, rfl, hsha⟩

/-- Everything in the cell is in the pieces. -/
structure Supported (pieces : List (Piece lib)) (c : Cell) : Prop where
  /-- A blob is what a frame of its name holds. -/
  blobs : ∀ name data, c.blobs.get? name = some data →
    ∃ f : Frame lib, .frame f ∈ pieces ∧ f.name = name ∧ f.decode = .ok data
  /-- A mark is on a line outside the frames. -/
  marks : ∀ key value, c.marks.get? key = some value →
    ∃ line h, Piece.stray line h ∈ pieces ∧ markRe line = some (key, value)
  /-- `ALL_DONE` is a line outside the frames. -/
  allDone : c.allDone = true → ∃ h, Piece.stray "ALL_DONE".toList h ∈ pieces

theorem supported_start : Supported ([] : List (Piece lib)) .start :=
  ⟨(fun _ _ h => nomatch h), (fun _ _ h => nomatch h), (fun h => nomatch h)⟩

theorem Supported.mono {pieces : List (Piece lib)} {c : Cell} (h : Supported pieces c) (piece : Piece lib) :
    Supported (pieces ++ [piece]) c := by
  have hold : ∀ piece', piece' ∈ pieces → piece' ∈ pieces ++ [piece] := fun _ => List.mem_append_left _
  refine ⟨?_, ?_, ?_⟩
  · intro name data hget
    obtain ⟨f, hf, hname⟩ := h.blobs name data hget
    exact ⟨f, hold _ hf, hname⟩
  · intro key value hget
    obtain ⟨line, hline, hmem, hmark⟩ := h.marks key value hget
    exact ⟨line, hline, hold _ hmem, hmark⟩
  · intro hdone
    obtain ⟨hline, hmem⟩ := h.allDone hdone
    exact ⟨hline, hold _ hmem⟩

/-- What a piece adds is in it. -/
theorem Supported.read {pieces : List (Piece lib)} {c c' : Cell} (h : Supported pieces c) (piece : Piece lib)
    (hread : c.read piece = .ok c') : Supported (pieces ++ [piece]) c' := by
  have hmono := h.mono piece
  have hnew : piece ∈ pieces ++ [piece] := List.mem_append_right _ (List.mem_singleton_self piece)
  cases piece with
  | stray line hline =>
    cases hread
    rw [Cell.readStray]
    cases hmark : markRe line with
    | some mark =>
      refine ⟨hmono.blobs, ?_, hmono.allDone⟩
      intro key value hget
      by_cases hkey : key = mark.1
      · subst hkey
        rw [Dict.get?_set_self] at hget
        cases hget
        exact ⟨line, hline, hnew, hmark⟩
      · rw [Dict.get?_set_of_ne _ _ hkey] at hget
        exact hmono.marks key value hget
    | none =>
      dsimp only
      split_ifs with hd
      · subst hd
        exact ⟨hmono.blobs, hmono.marks, fun _ => ⟨hline, hnew⟩⟩
      · exact hmono
  | frame f =>
    obtain ⟨data, hdata, hc⟩ := bind_eq_ok.mp hread
    cases hc
    refine ⟨?_, hmono.marks, hmono.allDone⟩
    intro name data' hget
    by_cases hname : name = f.name
    · subst hname
      rw [Dict.get?_set_self] at hget
      cases hget
      exact ⟨f, hnew, rfl, hdata⟩
    · rw [Dict.get?_set_of_ne _ _ hname] at hget
      exact hmono.blobs name data' hget

theorem supported_of_read {pieces : List (Piece lib)} {c : Cell} (h : pieces.foldlM Cell.read .start = .ok c) :
    Supported pieces c := by
  induction pieces using List.reverseRecOn generalizing c with
  | nil =>
    cases h
    exact supported_start
  | append_singleton pieces piece ih =>
    obtain ⟨c', hc', hread⟩ := foldlM_concat_eq_ok.mp h
    exact (ih hc').read piece hread

/-- A log that comes through the loop and ends outside the frames is pieces. -/
theorem exists_pieces_of_read {lines : List Text} {s : ParseState} (h : lines.foldlM (readLine lib) .start = .ok s)
    (hs : s.name = none) :
    ∃ pieces : List (Piece lib), lines = unpiece pieces ∧ pieces.foldlM Cell.read .start = .ok s.cell := by
  obtain ⟨pieces, tail, rfl, htail⟩ := exists_pieces lib lines
  rw [List.foldlM_append] at h
  obtain ⟨s', hs', hrest⟩ := bind_eq_ok.mp h
  rcases (readPieces (s := .start) rfl pieces).cases with ⟨e, hread, -⟩ | ⟨s'', hread, hs'name, hcell⟩
  · cases hs'.symm.trans hread
  · obtain rfl : s' = s'' := Except.ok.inj (hs'.symm.trans hread)
    cases htail with
    | nil =>
      cases hrest
      exact ⟨pieces, List.append_nil _, hcell⟩
    | unclosed hbegin hbody =>
      rw [read_unclosed hs'name hbegin hbody] at hrest
      cases hcount : byteCount lib _ with
      | error e =>
        rw [hcount] at hrest
        exact nomatch hrest
      | ok bytes =>
        rw [hcount] at hrest
        cases hrest
        exact nomatch hs
    | interleaved after hbegin hbody hclosing hne =>
      rw [read_interleaved hs'name hbegin hbody hclosing hne] at hrest
      obtain ⟨bytes, -, hrest⟩ := bind_eq_ok.mp hrest
      exact nomatch hrest

/-- **What an accepted log contains.** It is lines outside frames and closed frames. Each
blob is what a frame of its name holds, with the length and the checksum that the frame
declares; the names are those of the expected seeds; the marks are there, with a window
that is one, and `ALL_DONE` is a line outside the frames. -/
theorem acceptance_sound {lines seeds : List Text} {marks : Dict Text Text} {blobs : Dict Text Bytes}
    (h : parse lib lines seeds = .ok (marks, blobs)) :
    ∃ pieces : List (Piece lib), lines.map rstripNewlines = unpiece pieces ∧
      (∀ name, name ∈ blobs ↔ ∃ seed ∈ seeds, csvName seed = name) ∧
      (∀ name data, blobs.get? name = some data → ∃ f : Frame lib, .frame f ∈ pieces ∧ f.name = name ∧
        ∃ raw, lib.b64decode f.body.flatten = .ok raw ∧ lib.decompress raw = .ok data ∧
          lib.int f.count = .ok (data.length : ℤ) ∧ lib.sha256 data = f.sha) ∧
      (∃ node, marks.get? "NODE".toList = some node) ∧
      (∃ first last start stop, marks.get? "CELL_START".toList = some first ∧
        marks.get? "CELL_END".toList = some last ∧ lib.int first = .ok start ∧ lib.int last = .ok stop ∧ start < stop) ∧
      (∀ key value, marks.get? key = some value →
        ∃ line hline, Piece.stray line hline ∈ pieces ∧ markRe line = some (key, value)) ∧
      ∃ hline, Piece.stray "ALL_DONE".toList hline ∈ pieces := by
  rw [parse_eq] at h
  obtain ⟨s, hs, hcheck⟩ := bind_eq_ok.mp h
  obtain ⟨hcomplete, rfl, rfl⟩ := checkCell_eq_ok.mp hcheck
  obtain ⟨pieces, hlines, hcell⟩ := exists_pieces_of_read hs hcomplete.outside
  have hsupported := supported_of_read hcell
  have hmark : ∀ key ∈ markKeys, ∃ value, s.marks.get? key = some value := fun key hkey =>
    Dict.exists_get?_of_mem (hcomplete.marks key hkey)
  refine ⟨pieces, hlines, hcomplete.blobs, fun name data hget => ?_, hmark _ (by decide), ?_, hsupported.marks,
    hsupported.allDone hcomplete.allDone⟩
  · obtain ⟨f, hf, hname, hdata⟩ := hsupported.blobs name data hget
    exact ⟨f, hf, hname, Frame.decode_eq_ok.mp hdata⟩
  · obtain ⟨first, hfirst⟩ := hmark "CELL_START".toList (by decide)
    obtain ⟨last, hlast⟩ := hmark "CELL_END".toList (by decide)
    obtain ⟨start, stop, hwindow, hlt⟩ := hcomplete.window
    rw [window, hfirst, hlast] at hwindow
    obtain ⟨start', hstart, hwindow⟩ := bind_eq_ok.mp hwindow
    obtain ⟨stop', hstop, hwindow⟩ := bind_eq_ok.mp hwindow
    cases hwindow
    exact ⟨first, last, start, stop, hfirst, hlast, hstart, hstop, hlt⟩

/-- In the log of one frame, `ALL_DONE` is outside the frame. -/
theorem acceptance_sound_oneFrameLog :
    ∃ pieces : List (Piece sampleLib), (oneFrameLog sampleBase64).map rstripNewlines = unpiece pieces ∧
      ∃ hline, Piece.stray "ALL_DONE".toList hline ∈ pieces := by
  obtain ⟨pieces, hlines, -, -, -, -, -, hdone⟩ := acceptance_sound parse_oneFrameLog
  exact ⟨pieces, hlines, hdone⟩

/-! ### What escapes -/

/-- The beginnings of a log that end `parse` with another exception. -/
inductive Fatal (lib : Stdlib) : List Text → Prop where
  /-- A `BEGIN` with a byte count that `int` refuses. -/
  | refused {line name sha count : Text} {message : String} (rest : List Text) :
      beginRe lib.isDecimal line = some (name, sha, count) → lib.int count = .error message → Fatal lib (line :: rest)
  /-- A frame whose body is base64, for bytes that `zlib` refuses. -/
  | corrupt {bytes : ℤ} {raw : Bytes} {message : String} (f : Frame lib) (rest : List Text) :
      lib.int f.count = .ok bytes → lib.b64decode f.body.flatten = .ok raw →
        lib.decompress raw = .error (.zlibError message) → Fatal lib (f.lines ++ rest)

/-- Nothing fatal follows pieces that are accepted. -/
def NothingFatal (lib : Stdlib) (lines : List Text) : Prop :=
  ∀ (pieces : List (Piece lib)) (rest : List Text), lines = unpiece pieces ++ rest → Accepted pieces → ¬ Fatal lib rest

theorem byteCount_onlyCollects {count : Text} (h : ∀ message, lib.int count ≠ .error message) :
    OnlyCollects (byteCount lib count) := by
  rw [byteCount]
  cases hint : lib.int count with
  | error message => exact absurd hint (h message)
  | ok bytes => exact .ok bytes

theorem decode_onlyCollects {name b64 wantSha : Text} {wantBytes : ℤ}
    (h : ∀ raw message, lib.b64decode b64 = .ok raw → lib.decompress raw ≠ .error (.zlibError message)) :
    OnlyCollects (decode lib name b64 wantSha wantBytes) := by
  rw [decode]
  dsimp only
  split
  · exact .collectError _
  · exact .collectError _
  · next raw hb =>
    split
    · exact .collectError _
    · exact .collectError _
    · next message hg => exact absurd hg (h raw message hb)
    · split_ifs
      · exact .collectError _
      · exact .collectError _
      · exact .ok _

/-- A frame that is not fatal. -/
theorem Frame.decode_onlyCollects {f : Frame lib} (h : ¬ Fatal lib f.lines) : OnlyCollects f.decode := by
  cases hint : lib.int f.count with
  | error message => exact absurd (.refused _ f.opens hint) h
  | ok bytes =>
    refine (byteCount_onlyCollects fun message => by simp [hint]).bind fun _ =>
      CollectJob.decode_onlyCollects fun raw message hb hg => h ?_
    have hfatal := Fatal.corrupt f [] hint hb hg
    rwa [List.append_nil] at hfatal

theorem Fatal.append {lines : List Text} (h : Fatal lib lines) (after : List Text) : Fatal lib (lines ++ after) := by
  cases h with
  | refused rest hbegin hint => exact .refused _ hbegin hint
  | corrupt f rest hint hb hg =>
    rw [List.append_assoc]
    exact .corrupt f _ hint hb hg

/-- Pieces whose frames hold what they declare are read to their end. -/
theorem Accepted.exists_read {pieces : List (Piece lib)} (h : Accepted pieces) (c : Cell) :
    ∃ c', pieces.foldlM Cell.read c = .ok c' := by
  induction pieces generalizing c with
  | nil => exact ⟨c, rfl⟩
  | cons piece pieces ih =>
    have hread : ∃ c', c.read piece = .ok c' := by
      cases piece with
      | stray line hline => exact ⟨_, rfl⟩
      | frame f =>
        obtain ⟨data, hdata⟩ := h f List.mem_cons_self
        exact ⟨_, bind_eq_ok.mpr ⟨data, hdata, rfl⟩⟩
    obtain ⟨c', hc'⟩ := hread
    rw [List.foldlM_cons, hc']
    exact ih (fun f hf => h f (List.mem_cons_of_mem _ hf)) c'

theorem read_accepted {pieces : List (Piece lib)} (h : Accepted pieces) {s : ParseState} (hs : s.name = none) :
    ∃ s', (unpiece pieces).foldlM (readLine lib) s = .ok s' ∧ s'.name = none ∧
      pieces.foldlM Cell.read s.cell = .ok s'.cell := by
  obtain ⟨c, hc⟩ := h.exists_read s.cell
  rcases (readPieces hs pieces).cases with ⟨e, -, herror⟩ | hreads
  · cases hc.symm.trans herror
  · exact hreads

/-- What is fatal raises another exception. -/
theorem Fatal.raises {lines : List Text} (h : Fatal lib lines) {s : ParseState} (hs : s.name = none) :
    ¬ OnlyCollects (lines.foldlM (readLine lib) s) := by
  intro hcollects
  cases h with
  | refused rest hbegin hint =>
    rw [List.foldlM_cons, readLine_opening hs hbegin, byteCount, hint] at hcollects
    obtain ⟨message, hmessage⟩ := hcollects _ rfl
    exact nomatch hmessage
  | @corrupt bytes raw message f rest hint hb hg =>
    have hdecode : f.decode = .error (.zlibError message) := by
      rw [Frame.decode, byteCount, hint, Except.mapError, ok_bind, decode, hb]
      dsimp only
      rw [hg]
    rw [List.foldlM_append] at hcollects
    rcases (readPiece hs (.frame f)).cases with ⟨e, hread, hcell⟩ | ⟨s', -, -, hcell⟩
    · rw [Cell.read, hdecode, error_bind] at hcell
      cases hcell
      rw [Piece.lines] at hread
      rw [hread, error_bind] at hcollects
      obtain ⟨message, hmessage⟩ := hcollects _ rfl
      cases hmessage
    · rw [Cell.read, hdecode, error_bind] at hcell
      cases hcell

/-- A frame without its end raises nothing else, if its byte count is read. -/
theorem Tail.onlyCollects {tail : List Text} (htail : Tail lib tail) {s : ParseState} (hs : s.name = none)
    (hcount : ∀ opening rest name sha count, tail = opening :: rest →
      beginRe lib.isDecimal opening = some (name, sha, count) → OnlyCollects (byteCount lib count)) :
    OnlyCollects (tail.foldlM (readLine lib) s) := by
  cases htail with
  | nil => exact .ok s
  | unclosed hbegin hbody =>
    rw [read_unclosed hs hbegin hbody]
    exact (hcount _ _ _ _ _ rfl hbegin).bind fun _ => .ok _
  | interleaved after hbegin hbody hclosing hne =>
    rw [read_interleaved hs hbegin hbody hclosing hne]
    exact (hcount _ _ _ _ _ rfl hbegin).bind fun _ => .collectError _

/-- If nothing fatal is reached, the loop ends with a `CollectError` at the most. -/
theorem read_onlyCollects {pieces : List (Piece lib)} {tail : List Text} (htail : Tail lib tail) {s : ParseState}
    (hs : s.name = none) (h : NothingFatal lib (unpiece pieces ++ tail)) :
    OnlyCollects ((unpiece pieces ++ tail).foldlM (readLine lib) s) := by
  have hfatal : ¬ Fatal lib (unpiece pieces ++ tail) := h [] _ rfl accepted_nil
  induction pieces generalizing s with
  | nil =>
    rw [unpiece_nil, List.nil_append]
    refine htail.onlyCollects hs ?_
    rintro opening rest name sha count rfl hbegin
    exact byteCount_onlyCollects fun message hint => hfatal (.refused rest hbegin hint)
  | cons piece pieces ih =>
    rw [unpiece_cons, List.append_assoc] at hfatal h ⊢
    rw [List.foldlM_append]
    rcases (readPiece hs piece).cases with ⟨e, hread, hcell⟩ | ⟨s', hread, hs', hcell⟩
    · rw [hread]
      cases piece with
      | stray line hline => cases hcell
      | frame f =>
        rw [Cell.read] at hcell
        cases hdecode : f.decode with
        | ok data =>
          rw [hdecode] at hcell
          cases hcell
        | error e' =>
          rw [hdecode] at hcell
          cases hcell
          obtain ⟨message, rfl⟩ := Frame.decode_onlyCollects (fun hf => hfatal (hf.append _)) e hdecode
          exact .collectError message
    · rw [hread]
      have hpieces : NothingFatal lib (unpiece pieces ++ tail) := by
        intro pieces' rest heq haccepted
        refine h (piece :: pieces') rest ?_ fun f hf => ?_
        · rw [unpiece_cons, List.append_assoc, heq]
        · rcases List.mem_cons.mp hf with rfl | hf
          · obtain ⟨data, hdata, -⟩ := bind_eq_ok.mp hcell
            exact ⟨data, hdata⟩
          · exact haccepted f hf
      exact ih hs' hpieces (hpieces [] _ rfl accepted_nil)

theorem parse_onlyCollects_iff (lines seeds : List Text) :
    OnlyCollects (parse lib lines seeds) ↔ NothingFatal lib (lines.map rstripNewlines) := by
  rw [parse_eq]
  constructor
  · intro hcollects pieces rest hlines haccepted hfatal
    obtain ⟨s, hread, hs, -⟩ := read_accepted haccepted (s := .start) rfl
    refine hfatal.raises hs fun e he => hcollects e ?_
    rw [hlines, List.foldlM_append, hread, ok_bind, he, error_bind]
  · intro h
    obtain ⟨pieces, tail, hlines, htail⟩ := exists_pieces lib (lines.map rstripNewlines)
    rw [hlines] at h ⊢
    exact (read_onlyCollects htail rfl h).bind fun s => checkCell_onlyCollects lib s seeds

/-- **When another exception escapes.** `parse` returns a cell with the blobs of the expected
seeds or raises a `CollectError`, exactly when nothing fatal follows accepted pieces of the
log: no byte count that `int` refuses, and no frame whose bytes `zlib` refuses. Exactly then
`main` returns, with all blobs written or with the message and nothing written. -/
theorem raises_only_collectError_iff (lib : Stdlib) (lines seeds : List Text) :
    (((∃ marks blobs, parse lib lines seeds = .ok (marks, blobs) ∧
        ∀ name, name ∈ blobs ↔ ∃ seed ∈ seeds, csvName seed = name) ∨
      ∃ message, parse lib lines seeds = .error (.collectError message)) ↔
      NothingFatal lib (lines.map rstripNewlines)) ∧
    ∀ log out benchImage, fileLines log = lines →
      ((∃ outcome, main lib log out seeds benchImage = .ok outcome ∧
        ((∃ marks blobs, parse lib lines seeds = .ok (marks, blobs) ∧ outcome.csvs.Perm blobs.items) ∨
          ∃ message : String, outcome.stderr.head? = some s!"COLLECT FAILED: {message}" ∧ outcome.csvs = [] ∧
            outcome.windowEnv = none)) ↔
        NothingFatal lib (lines.map rstripNewlines)) := by
  constructor
  · rw [← parse_onlyCollects_iff lines seeds]
    constructor
    · rintro (⟨marks, blobs, hok, -⟩ | ⟨message, herror⟩)
      · rw [hok]
        exact .ok _
      · rw [herror]
        exact .collectError message
    · intro hcollects
      cases hparse : parse lib lines seeds with
      | error e =>
        obtain ⟨message, rfl⟩ := hcollects e hparse
        exact .inr ⟨message, rfl⟩
      | ok cell =>
        obtain ⟨s, -, hcheck⟩ := bind_eq_ok.mp hparse
        obtain ⟨hcomplete, -, hblobs⟩ := checkCell_eq_ok.mp hcheck
        exact .inl ⟨cell.1, cell.2, rfl, hblobs ▸ hcomplete.blobs⟩
  · rintro log out benchImage rfl
    rw [← parse_onlyCollects_iff _ seeds]
    exact main_returns_iff lib log out seeds benchImage

/-- A frame with the header of a gzip file and no deflate block ends `parse` with a
`zlib.error`. -/
theorem zlib_error_escapes :
    ¬ ((∃ marks blobs, parse sampleLib (oneFrameLog corruptBase64) ["1".toList] = .ok (marks, blobs) ∧
        ∀ name, name ∈ blobs ↔ ∃ seed ∈ ["1".toList], csvName seed = name) ∨
      ∃ message, parse sampleLib (oneFrameLog corruptBase64) ["1".toList] = .error (.collectError message)) := by
  have hparse : parse sampleLib (oneFrameLog corruptBase64) ["1".toList] =
      .error (.zlibError "Error -3 while decompressing data: invalid block type") := by decide +kernel
  rw [hparse]
  rintro (⟨marks, blobs, hok, -⟩ | ⟨message, herror⟩)
  · exact nomatch hok
  · exact nomatch herror

end CachingInLLMs.Benchmarks.CollectJob

import CachingInLLMs.Benchmarks.JobLog

/-!
# A log that is cut off

A connection may break while the log is on its way, at any character. What arrives is some
lines and the beginning of another, which may look like a line of a different kind: a
`BEGIN` with a shorter byte count, an `END` with a shorter name, a progress line cut off
to a mark.

## The model

A `Cut` of a log is the items that are whole, the lines that are whole of the next, and
what is left of the line where the log ends. It is cut off before the end of `ALL_DONE`,
which is the last thing that `in_pod.sh` prints.

`JobLog.Quiet` excludes the one progress line that can be mistaken for the end: one that
begins with `ALL_DONE` when all else is out. The script prints no progress there
(`InPod.quiet`). `JobLog.ReadsCounts` says that `int` reads the byte counts that a cut can leave; it
refuses numerals with thousands of digits.

## What is proved

* `JobLog.exists_cut`: whatever the character, what is read are the lines of a `Cut`.
* `Cut.exists_tail`: they are accepted pieces, and perhaps a frame without its end.
* `Cut.of_allDone_mem`: `ALL_DONE` is among them only if a progress line was cut off to it.
* `truncation_raises`: `parse` ends with a `CollectError`.
* `truncation_missed`: a progress line that those two exclude is mistaken for the end, or raises
  something else.
-/

namespace CachingInLLMs.Benchmarks.CollectJob

open CachingInLLMs.Library

/-! ### Cuts -/

section Cut

variable {lib : Stdlib} {enc : Encoder} {log : JobLog lib}

/-- Where the text of some items can be cut off. -/
theorem of_prefix_items {items : List Item} {cut : Text} (h : cut <+: unlines (items.flatMap (Item.lines lib enc))) :
    (∃ before item after head line rest part, items = before ++ item :: after ∧
        item.lines lib enc = head ++ line :: rest ∧ part <+: line ∧
        cut = unlines (before.flatMap (Item.lines lib enc) ++ head) ++ part) ∨
      cut = unlines (items.flatMap (Item.lines lib enc)) := by
  rw [← List.append_nil (unlines _)] at h
  rcases prefix_unlines h with ⟨before, line, after, part, hlines, hpart, rfl⟩ | ⟨part, hpart, rfl⟩
  · obtain ⟨before, item, after, head, rest, rfl, hitem, rfl⟩ := exists_of_flatMap_eq_append_cons hlines
    exact .inl ⟨before, item, after, head, line, rest, part, rfl, hitem, hpart, rfl⟩
  · rw [List.prefix_nil.mp hpart, List.append_nil]
    exact .inr rfl

/-- What is left of a line is a piece, or opens a frame. -/
theorem exists_tail_remnant (part : Text) :
    ∃ (pieces : List (Piece lib)) (tail : List Text), remnant part = unpiece pieces ++ tail ∧ Accepted pieces ∧
      Tail lib tail := by
  rcases remnant_eq_nil_or part with hnil | hpart
  · exact ⟨[], [], hnil, accepted_nil, .nil⟩
  · rw [hpart]
    cases hbegin : beginRe lib.isDecimal part with
    | none =>
      refine ⟨[.stray part hbegin], [], rfl, ?_, .nil⟩
      intro f hf
      simp at hf
    | some header => exact ⟨[], [part], rfl, accepted_nil, .unclosed hbegin (by simp)⟩

/-- What is left of the `END` of a frame may close it, or close another one, or neither. -/
theorem exists_tail_closing {seed : Text} {csv : Bytes} (hseed : ∀ c ∈ seed, isSpace c = false)
    (henc : Encodes lib enc csv) (part : Text) :
    ∃ (pieces : List (Piece lib)) (tail : List Text),
      beginLine lib seed csv :: (enc.body csv ++ remnant part) = unpiece pieces ++ tail ∧ Accepted pieces ∧
        Tail lib tail := by
  have hbegin := beginRe_beginLine hseed henc
  have hinside : ∀ line ∈ enc.body csv, endRe line = none := fun line hline =>
    endRe_of_prefix_body henc hline List.prefix_rfl
  cases hend : endRe part with
  | none =>
    refine ⟨[], _, rfl, accepted_nil, .unclosed hbegin ?_⟩
    intro line hline
    rcases List.mem_append.mp hline with hline | hline
    · exact hinside line hline
    · rwa [eq_of_mem_remnant hline]
  | some other =>
    have hne : part ≠ [] := by
      rintro rfl
      exact nomatch hend
    rw [remnant, if_neg hne]
    by_cases hother : other = csvName seed
    · have hwhole : part = endLine seed := by
        rw [(endRe_eq_some.mp hend).1, hother]
        rfl
      refine ⟨[.frame (blobFrame hseed henc)], [], ?_, ?_, .nil⟩
      · rw [hwhole, unpiece_cons, unpiece_nil, List.append_nil, List.append_nil]
        rfl
      · intro f hf
        cases List.mem_singleton.mp hf
        exact ⟨csv, decode_blobFrame hseed henc⟩
    · exact ⟨[], _, rfl, accepted_nil, .interleaved [] hbegin hinside hend hother⟩

/-- The same for an item. -/
theorem Item.WellFormed.exists_tail {item : Item} (h : item.WellFormed lib enc) {head rest : List Text}
    {line part : Text} (hlines : item.lines lib enc = head ++ line :: rest) (hpart : part <+: line) :
    ∃ (pieces : List (Piece lib)) (tail : List Text), head ++ remnant part = unpiece pieces ++ tail ∧
      Accepted pieces ∧ Tail lib tail := by
  cases head with
  | nil => exact exists_tail_remnant part
  | cons first head =>
    -- only a frame has a second line
    cases item with
    | progress line' => simp [Item.lines] at hlines
    | mark key value => simp [Item.lines] at hlines
    | allDone => simp [Item.lines] at hlines
    | blob seed csv =>
      obtain ⟨hseed, henc⟩ := h
      obtain ⟨rfl, hbody⟩ := List.cons.inj hlines
      rcases List.eq_nil_or_concat rest with rfl | ⟨rest, last, rfl⟩
      · obtain ⟨rfl, -⟩ := List.append_inj' hbody rfl
        exact exists_tail_closing hseed henc part
      · -- what is left is base64
        have hconcat : enc.body csv ++ [endLine seed] = (head ++ line :: rest) ++ [last] := by simpa using hbody
        have hhead : enc.body csv = head ++ line :: rest := (List.append_inj' hconcat rfl).1
        refine ⟨[], _, rfl, accepted_nil, .unclosed (beginRe_beginLine hseed henc) ?_⟩
        intro line' hline'
        rcases List.mem_append.mp hline' with hline' | hline'
        · exact endRe_of_prefix_body henc (by simp [hhead, hline']) List.prefix_rfl
        · rw [eq_of_mem_remnant hline']
          exact endRe_of_prefix_body henc (by simp [hhead]) hpart

/-- `int` reads the byte count of every `BEGIN` that a line of the log may be cut off to. -/
def JobLog.ReadsCounts (enc : Encoder) (log : JobLog lib) : Prop :=
  ∀ line ∈ log.lines enc, ∀ part, part <+: line → ∀ name sha count,
    beginRe lib.isDecimal part = some (name, sha, count) → ∃ bytes, lib.int count = .ok bytes

/-- Once the marks and the frames of the expected seeds are out, no progress line begins with
`ALL_DONE`. -/
def JobLog.Quiet (log : JobLog lib) (expectedSeeds : List Text) : Prop :=
  ∀ before line after, log.items = before ++ .progress line :: after → "ALL_DONE".toList <+: line →
    ¬ ((∃ value, .mark "CELL_END".toList value ∈ before) ∧ ∀ seed ∈ expectedSeeds, ∃ csv, .blob seed csv ∈ before)

/-- After `CELL_END` the script prints no progress. -/
theorem InPod.quiet (pod : InPod lib) (expectedSeeds : List Text) : pod.jobLog.Quiet expectedSeeds := by
  rintro before line after hitems - ⟨⟨value, hstop⟩, -⟩
  rcases List.append_eq_append_iff.mp hitems with ⟨text, hbefore, hemission⟩ | ⟨text, hreplay, -⟩
  · have hprogress : Item.progress line ∈ pod.emission := by simp [hemission]
    simp [InPod.emission] at hprogress
  · have hmark : Item.mark "CELL_END".toList value ∈ pod.replay := by
      rw [hreplay]
      exact List.mem_append_left _ hstop
    simp [InPod.replay] at hmark

theorem JobLog.allDone_not_mem (log : JobLog lib) : .allDone ∉ log.items := by
  intro hmem
  have hcore : Item.allDone ∈ log.items.filter (!·.isProgress) := List.mem_filter.mpr ⟨hmem, rfl⟩
  rw [log.core] at hcore
  simp at hcore

/-- `ALL_DONE` is only at the end. -/
theorem JobLog.of_items {before after : List Item} {item : Item}
    (h : log.items ++ [Item.allDone] = before ++ item :: after) :
    (item = .allDone ∧ before = log.items) ∨ ∃ after', log.items = before ++ item :: after' := by
  rcases List.eq_nil_or_concat after with rfl | ⟨after, last, rfl⟩
  · obtain ⟨hitems, hitem⟩ := List.append_inj' h rfl
    exact .inl ⟨(List.cons.inj hitem).1.symm, hitems.symm⟩
  · have hconcat : log.items ++ [Item.allDone] = (before ++ item :: after) ++ [last] := by simpa using h
    exact .inr ⟨after, (List.append_inj' hconcat rfl).1⟩

/-- A log that is cut off before the end of `ALL_DONE`. -/
structure Cut (enc : Encoder) (log : JobLog lib) where
  /-- The items that are whole. -/
  before : List Item
  /-- The one that is not. -/
  item : Item
  /-- Its lines that are whole. -/
  head : List Text
  /-- The one that is not. -/
  line : Text
  /-- What is left of that. -/
  part : Text
  /-- They are items of the log. -/
  items : ∃ after, log.items ++ [.allDone] = before ++ item :: after
  /-- They are lines of the item. -/
  lines_item : ∃ rest, item.lines lib enc = head ++ line :: rest
  /-- It is left of the line. -/
  part_prefix : part <+: line
  /-- `ALL_DONE` is not whole. -/
  short : item = .allDone → part ≠ line

/-- The lines that are read. -/
def Cut.lines (c : Cut enc log) : List Text :=
  c.before.flatMap (Item.lines lib enc) ++ (c.head ++ remnant c.part)

theorem Cut.mem_items (c : Cut enc log) : ∀ item ∈ c.before ++ [c.item], item ∈ log.items ++ [.allDone] := by
  intro item hitem
  obtain ⟨after, hafter⟩ := c.items
  rw [hafter, List.append_cons]
  exact List.mem_append_left _ hitem

theorem Cut.wellFormed (c : Cut enc log) (henc : ∀ b ∈ log.blobs, Encodes lib enc b.2) :
    ∀ item ∈ c.before ++ [c.item], item.WellFormed lib enc := by
  intro item hitem
  refine JobLog.wellFormed henc item ?_
  rw [JobLog.allItems, List.append_cons]
  exact List.mem_append_left _ (c.mem_items item hitem)

theorem Cut.mem_lines_item (c : Cut enc log) : ∀ line ∈ c.head ++ [c.line], line ∈ c.item.lines lib enc := by
  intro line hline
  obtain ⟨rest, hrest⟩ := c.lines_item
  rw [hrest, List.append_cons]
  exact List.mem_append_left _ hline

theorem Cut.itemLine (c : Cut enc log) (henc : ∀ b ∈ log.blobs, Encodes lib enc b.2) {item : Item}
    (hitem : item ∈ c.before ++ [c.item]) {line : Text} (hline : line ∈ item.lines lib enc) :
    ItemLine lib enc item line :=
  (c.wellFormed henc item hitem).itemLine hline

/-- A text that is cut off is read as one of these. -/
theorem JobLog.exists_cut (henc : ∀ b ∈ log.blobs, Encodes lib enc b.2) {cut : Text} (hcut : cut <+: log.text enc)
    (hshort : ¬ log.upToAllDone enc <+: cut) : ∃ c : Cut enc log, (fileLines cut).map rstripNewlines = c.lines := by
  have hwhole : unlines ((log.items ++ [Item.allDone]).flatMap (Item.lines lib enc)) = log.upToAllDone enc ++ ['\n'] := by
    rw [List.flatMap_append, unlines_append, JobLog.upToAllDone, JobLog.lines, List.append_assoc]
    rfl
  have hprefix : cut <+: unlines ((log.items ++ [Item.allDone]).flatMap (Item.lines lib enc)) := by
    rw [hwhole]
    rcases List.prefix_or_prefix_of_prefix hcut (List.prefix_append (log.upToAllDone enc) _) with h | h
    · exact h.trans (List.prefix_append _ _)
    · exact absurd h hshort
  rcases of_prefix_items hprefix with ⟨before, item, after, head, line, rest, part, hitems, hlines, hpart, rfl⟩ | rfl
  · by_cases hend : item = .allDone ∧ part = line
    · obtain ⟨rfl, rfl⟩ := hend
      cases head with
      | nil =>
        obtain ⟨rfl, -⟩ := List.cons.inj hlines
        rcases JobLog.of_items hitems with ⟨-, hbefore⟩ | ⟨after', hafter'⟩
        · rw [hbefore, List.append_nil] at hshort
          exact absurd List.prefix_rfl hshort
        · refine absurd ?_ log.allDone_not_mem
          rw [hafter']
          exact List.mem_append_right _ List.mem_cons_self
      | cons first head => simp [Item.lines] at hlines
    · let c : Cut enc log :=
        ⟨before, item, head, line, part, ⟨after, hitems⟩, ⟨rest, hlines⟩, hpart, fun h h' => hend ⟨h, h'⟩⟩
      have hitem : c.item ∈ c.before ++ [c.item] := by simp
      have hread : ∀ line' ∈ before.flatMap (Item.lines lib enc) ++ head, IsLine line' := fun line' hline' => by
        rcases List.mem_append.mp hline' with hline' | hline'
        · obtain ⟨item', hitem', hline'⟩ := List.mem_flatMap.mp hline'
          exact (c.itemLine henc (List.mem_append_left _ hitem') hline').isLine
        · exact (c.itemLine henc hitem (c.mem_lines_item line' (List.mem_append_left _ hline'))).isLine
      have hline : IsLine line := (c.itemLine henc hitem (c.mem_lines_item line (by simp [c]))).isLine
      refine ⟨c, ?_⟩
      rw [Library.rstrip_fileLines hread (hline.of_prefix hpart), List.append_assoc, Cut.lines]
  · rw [hwhole] at hshort
    exact absurd (List.prefix_append _ _) hshort

/-- Of an item that is one line, no line is whole. -/
theorem Cut.head_eq_nil (c : Cut enc log) {line : Text} (h : c.item.lines lib enc = [line]) : c.head = [] := by
  obtain ⟨rest, hrest⟩ := c.lines_item
  have hlength := congrArg List.length (h.symm.trans hrest)
  rw [List.length_singleton, List.length_append, List.length_cons] at hlength
  exact List.eq_nil_of_length_eq_zero (by omega)

/-- A line that is read is a line of an item, or what is left of one. -/
theorem Cut.of_mem_lines (c : Cut enc log) {line : Text} (h : line ∈ c.lines) :
    (∃ item ∈ c.before, line ∈ item.lines lib enc) ∨ line ∈ c.head ∨ line = c.part := by
  rcases List.mem_append.mp h with h | h
  · exact .inl (List.mem_flatMap.mp h)
  · rcases List.mem_append.mp h with h | h
    · exact .inr (.inl h)
    · exact .inr (.inr (eq_of_mem_remnant h))

/-- Either way it begins a line of the log. -/
theorem Cut.exists_line (c : Cut enc log) {line : Text} (h : line ∈ c.lines) :
    ∃ line' ∈ log.lines enc ++ ["ALL_DONE".toList], line <+: line' := by
  have hitems : ∀ item ∈ c.before ++ [c.item], ∀ line' ∈ item.lines lib enc,
      line' ∈ log.lines enc ++ ["ALL_DONE".toList] := by
    intro item hitem line' hline'
    rcases List.mem_append.mp (c.mem_items item hitem) with hmem | hmem
    · exact List.mem_append_left _ (List.mem_flatMap.mpr ⟨item, hmem, hline'⟩)
    · cases List.mem_singleton.mp hmem
      exact List.mem_append_right _ hline'
  rcases c.of_mem_lines h with ⟨item, hitem, hline⟩ | hline | rfl
  · exact ⟨line, hitems item (List.mem_append_left _ hitem) line hline, List.prefix_rfl⟩
  · exact ⟨line, hitems c.item (by simp) line (c.mem_lines_item line (List.mem_append_left _ hline)), List.prefix_rfl⟩
  · exact ⟨c.line, hitems c.item (by simp) c.line (c.mem_lines_item c.line (by simp)), c.part_prefix⟩

/-- What is read is accepted pieces, and perhaps a frame without its end. -/
theorem Cut.exists_tail (c : Cut enc log) (henc : ∀ b ∈ log.blobs, Encodes lib enc b.2) :
    ∃ (pieces : List (Piece lib)) (tail : List Text), c.lines = unpiece pieces ++ tail ∧ Accepted pieces ∧
      Tail lib tail := by
  obtain ⟨pieces, hpieces, haccepted, -⟩ := exists_pieces_of_items fun item hitem =>
    c.wellFormed henc item (List.mem_append_left _ hitem)
  obtain ⟨rest, hrest⟩ := c.lines_item
  obtain ⟨pieces', tail, htail, haccepted', hopen⟩ := (c.wellFormed henc c.item (by simp)).exists_tail hrest c.part_prefix
  refine ⟨pieces ++ pieces', tail, ?_, haccepted.append haccepted', hopen⟩
  rw [Cut.lines, htail, ← hpieces, unpiece_append, List.append_assoc]

/-- A log that is cut off raises nothing else. -/
theorem Cut.onlyCollects (c : Cut enc log) (henc : ∀ b ∈ log.blobs, Encodes lib enc b.2) (hreads : log.ReadsCounts enc)
    (expectedSeeds : List Text) :
    OnlyCollects (c.lines.foldlM (readLine lib) .start >>= fun s => checkCell lib s expectedSeeds) := by
  obtain ⟨pieces, tail, hlines, haccepted, htail⟩ := c.exists_tail henc
  obtain ⟨s, hs, hname, -⟩ := read_accepted haccepted (s := .start) rfl
  have hcount : ∀ opening rest name sha count, tail = opening :: rest →
      beginRe lib.isDecimal opening = some (name, sha, count) → OnlyCollects (byteCount lib count) := by
    rintro opening rest name sha count rfl hbegin
    have hmem : opening ∈ c.lines := by
      rw [hlines]
      exact List.mem_append_right _ List.mem_cons_self
    obtain ⟨line, hline, hpart⟩ := c.exists_line hmem
    rcases List.mem_append.mp hline with hline | hline
    · obtain ⟨bytes, hbytes⟩ := hreads line hline opening hpart name sha count hbegin
      exact byteCount_onlyCollects fun message => by simp [hbytes]
    · obtain ⟨text, htext⟩ := List.mem_singleton.mp hline ▸ hpart
      have hhead := (of_beginRe hbegin).1
      cases opening with
      | nil => exact nomatch hhead
      | cons first opening =>
        cases hhead
        exact nomatch (List.cons.inj htext).1
  rw [hlines, List.foldlM_append, hs, ok_bind]
  exact (htail.onlyCollects hname hcount).bind fun s => checkCell_onlyCollects lib s expectedSeeds

/-- If `ALL_DONE` is read, a progress line was cut off to it. -/
theorem Cut.of_allDone_mem (c : Cut enc log) (henc : ∀ b ∈ log.blobs, Encodes lib enc b.2)
    (h : "ALL_DONE".toList ∈ c.lines) : c.item = .progress c.line ∧ c.part = "ALL_DONE".toList := by
  have hlast : c.item ∈ c.before ++ [c.item] := by simp
  rcases c.of_mem_lines h with ⟨item, hitem, hline⟩ | hline | hpart
  · obtain rfl := (c.itemLine henc (List.mem_append_left _ hitem) hline).eq_allDone
    obtain ⟨after, hafter⟩ := c.items
    refine absurd ?_ log.allDone_not_mem
    rcases JobLog.of_items hafter with ⟨-, hitems⟩ | ⟨after', hitems⟩
    · rwa [← hitems]
    · rw [hitems]
      exact List.mem_append_left _ hitem
  · have hdone := (c.itemLine henc hlast (c.mem_lines_item _ (List.mem_append_left _ hline))).eq_allDone
    rw [c.head_eq_nil (by rw [hdone]; rfl : c.item.lines lib enc = ["ALL_DONE".toList])] at hline
    exact absurd hline List.not_mem_nil
  · have hline := c.mem_lines_item c.line (by simp)
    rcases (c.itemLine henc hlast hline).of_allDone (hpart ▸ c.part_prefix) with hitem | hitem
    · exact ⟨hitem, hpart.symm⟩
    · rw [hitem] at hline
      exact absurd (hpart.symm.trans (List.mem_singleton.mp hline).symm) (c.short hitem)

/-- What `int` raises on the byte count of a `BEGIN` is not caught. -/
theorem parse_of_int_eq_error {part name sha count : Text} {message : String} (hpart : IsLine part)
    (hbegin : beginRe lib.isDecimal part = some (name, sha, count)) (hcount : lib.int count = .error message)
    (expectedSeeds : List Text) : parse lib (fileLines part) expectedSeeds = .error (.valueError message) := by
  have hne : part ≠ [] := by
    rintro rfl
    exact nomatch hbegin
  have hlines : (fileLines part).map rstripNewlines = [part] := by
    have hcut := Library.rstrip_fileLines (fun _ h => absurd h List.not_mem_nil) hpart
    rwa [remnant, if_neg hne] at hcut
  rw [parse_eq, hlines, List.foldlM_cons, readLine_opening rfl hbegin, byteCount, hcount]
  rfl

/-- A log that is cut off is not accepted. -/
theorem Cut.parse_ne_ok (c : Cut enc log) (henc : ∀ b ∈ log.blobs, Encodes lib enc b.2) {expectedSeeds : List Text}
    (hquiet : log.Quiet expectedSeeds) {lines : List Text} (hlines : lines.map rstripNewlines = c.lines)
    (cell : Dict Text Text × Dict Text Bytes) : parse lib lines expectedSeeds ≠ .ok cell := by
  intro hok
  obtain ⟨pieces, hpieces, hnames, hblobs, -, ⟨-, last, -, -, -, hlast, -⟩, hmarks, hline, hdone⟩ :=
    acceptance_sound hok
  have hmem : ∀ piece ∈ pieces, ∀ line ∈ piece.lines, line ∈ c.lines := fun piece hpiece line hline => by
    rw [← hlines, hpieces]
    exact List.mem_flatMap.mpr ⟨piece, hpiece, hline⟩
  obtain ⟨hitem, hpart⟩ := c.of_allDone_mem henc (hmem _ hdone _ (List.mem_singleton_self _))
  -- but for the line that was cut off, what is read are lines of items
  have hbefore : ∀ line ∈ c.lines, line ≠ "ALL_DONE".toList → ∃ item ∈ c.before, ItemLine lib enc item line := by
    intro line hline hne
    rcases c.of_mem_lines hline with ⟨item, hmem, hline⟩ | hline | hline
    · exact ⟨item, hmem, c.itemLine henc (List.mem_append_left _ hmem) hline⟩
    · rw [c.head_eq_nil (by rw [hitem]; rfl : c.item.lines lib enc = [c.line])] at hline
      exact absurd hline List.not_mem_nil
    · exact absurd (hline.trans hpart) hne
  obtain ⟨after, hafter⟩ := c.items
  rw [hitem] at hafter
  rcases JobLog.of_items hafter with ⟨hend, -⟩ | ⟨after', hitems⟩
  · exact nomatch hend
  · refine hquiet c.before c.line after' hitems (hpart ▸ c.part_prefix) ⟨?_, fun seed hseed => ?_⟩
    · obtain ⟨line, hline, hstray, hmark⟩ := hmarks _ _ hlast
      have hne : line ≠ "ALL_DONE".toList := by
        rintro rfl
        exact nomatch hmark
      obtain ⟨item, hitem', hitemLine⟩ := hbefore line (hmem _ hstray line (List.mem_singleton_self _)) hne
      exact ⟨last, hitemLine.eq_mark hmark ▸ hitem'⟩
    · obtain ⟨data, hdata⟩ := Dict.exists_get?_of_mem ((hnames (csvName seed)).mpr ⟨seed, hseed, rfl⟩)
      obtain ⟨f, hf, hname, -⟩ := hblobs _ _ hdata
      have hne : f.opening ≠ "ALL_DONE".toList := by
        intro hopening
        have hopens := f.opens
        rw [hopening] at hopens
        exact nomatch hopens
      obtain ⟨item, hitem', hitemLine⟩ := hbefore f.opening (hmem _ hf f.opening List.mem_cons_self) hne
      obtain ⟨seed', csv, rfl, hname'⟩ := hitemLine.exists_blob f.opens
      rw [csvName_injective (hname'.trans hname)] at hitem'
      exact ⟨csv, hitem'⟩

/-- **Truncation is detected.** A log that is cut off at any character before the end of `ALL_DONE`
ends `parse` with a `CollectError`. -/
theorem truncation_raises (henc : ∀ b ∈ log.blobs, Encodes lib enc b.2) (hreads : log.ReadsCounts enc)
    {expectedSeeds : List Text} (hquiet : log.Quiet expectedSeeds) {cut : Text} (hcut : cut <+: log.text enc)
    (hshort : ¬ log.upToAllDone enc <+: cut) :
    ∃ message, parse lib (fileLines cut) expectedSeeds = .error (.collectError message) := by
  obtain ⟨c, hlines⟩ := JobLog.exists_cut henc hcut hshort
  have hcollects : OnlyCollects (parse lib (fileLines cut) expectedSeeds) := by
    rw [parse_eq, hlines]
    exact c.onlyCollects henc hreads expectedSeeds
  cases hparse : parse lib (fileLines cut) expectedSeeds with
  | error e =>
    obtain ⟨message, rfl⟩ := hcollects e hparse
    exact ⟨message, rfl⟩
  | ok cell => exact absurd hparse (c.parse_ne_ok henc hquiet hlines cell)

end Cut

theorem readsCounts_sampleLib (enc : Encoder) (log : JobLog sampleLib) : log.ReadsCounts enc := by
  intro line hline part hpart name sha count hbegin
  obtain ⟨-, -, -, hne, hdigits⟩ := beginRe_eq_some.mp hbegin
  exact ⟨_, if_pos ⟨hne, List.all_eq_true.mpr hdigits⟩⟩

/-- The log of that run, without its last newline and the `E` before it. -/
def sampleCut : Text := (samplePod.jobLog.text sampleEncoder).dropLast.dropLast

/-- It is refused. -/
theorem truncation_raises_sampleCut :
    ∃ message, parse sampleLib (fileLines sampleCut) samplePod.jobLog.seeds = .error (.collectError message) := by
  have hencodes : ∀ b ∈ samplePod.jobLog.blobs, Encodes sampleLib sampleEncoder b.2 := by
    intro b hb
    cases List.mem_singleton.mp hb
    exact encodes_sample
  have hcut : sampleCut <+: samplePod.jobLog.text sampleEncoder :=
    (List.dropLast_prefix _).trans (List.dropLast_prefix _)
  exact truncation_raises hencodes (readsCounts_sampleLib sampleEncoder _) (samplePod.quiet _) hcut (by decide +kernel)

/-- A log with a progress line after the last frame. -/
def lateLog : JobLog sampleLib where
  node := "worker".toList
  start := 5
  stop := 9
  blobs := [("1".toList, sampleCsv)]
  items := [.mark "NODE".toList "worker".toList, .mark "CELL_START".toList "5".toList, .mark "CELL_END".toList "9".toList,
    .blob "1".toList sampleCsv, .progress "ALL_DONE soon".toList]
  rest := []
  core := by decide
  node_isWord := isWord_worker
  seed_noSpace b hb := by
    cases List.mem_singleton.mp hb
    exact isWord_one.2
  progress line hline := by
    simp only [List.mem_cons, List.not_mem_nil, or_false, reduceCtorEq, false_or, Item.progress.injEq] at hline
    rw [hline]
    exact ⟨by decide, by decide, by decide, by decide⟩

/-- That log, up to the blank in the progress line. -/
def lateCut : Text :=
  unlines ((lateLog.items.take 4).flatMap (Item.lines sampleLib sampleEncoder)) ++ "ALL_DONE".toList

/-- What is cut off. -/
theorem upToAllDone_lateLog : lateLog.upToAllDone sampleEncoder = lateCut ++ " soon\nALL_DONE".toList := by
  have hitems : lateLog.items = lateLog.items.take 4 ++ [.progress "ALL_DONE soon".toList] := rfl
  have hline : unlines ([Item.progress "ALL_DONE soon".toList].flatMap (Item.lines sampleLib sampleEncoder)) ++
      "ALL_DONE".toList = "ALL_DONE".toList ++ " soon\nALL_DONE".toList := by decide
  rw [JobLog.upToAllDone, JobLog.lines, hitems, List.flatMap_append, unlines_append, List.append_assoc, hline,
    ← List.append_assoc]
  rfl

/-- It is taken for the whole. -/
theorem parse_lateCut : parse sampleLib (fileLines lateCut) lateLog.seeds =
    .ok (Dict.ofList [("NODE".toList, "worker".toList), ("CELL_START".toList, "5".toList), ("CELL_END".toList, "9".toList)],
      Dict.ofList [("driver-seed1.csv".toList, sampleCsv)]) := by decide +kernel

/-- A library that reads numerals of at most 4300 digits. -/
def limitedLib : Stdlib where
  isDecimal := sampleLib.isDecimal
  int text :=
    if text.length ≤ 4300 then sampleLib.int text
    else .error "Exceeds the limit (4300 digits) for integer string conversion"
  b64decode := sampleLib.b64decode
  decompress := sampleLib.decompress
  sha256 := sampleLib.sha256
  reprDict := sampleLib.reprDict

theorem int_limitedLib {text : Text} (h : 4300 < text.length) :
    limitedLib.int text = .error "Exceeds the limit (4300 digits) for integer string conversion" :=
  if_neg (not_le.mpr h)

/-- The digits of a byte count. -/
def hugeCount : Text := List.replicate 4301 '1'

/-- A `BEGIN` with that byte count. -/
def hugeBegin : Text :=
  "BEGIN ".toList ++ ("x".toList ++ (" sha256=".toList ++ (sampleSha ++ (" bytes=".toList ++ hugeCount))))

theorem isDigit_of_mem_hugeCount : ∀ c ∈ hugeCount, c.isDigit := by
  intro c hc
  rw [List.eq_of_mem_replicate hc]
  rfl

theorem beginRe_hugeBegin : beginRe limitedLib.isDecimal hugeBegin = some ("x".toList, sampleSha, hugeCount) :=
  beginRe_eq_some.mpr ⟨rfl, by decide, ⟨by decide +kernel, List.all_eq_true.mp (by decide)⟩,
    List.ne_nil_of_length_pos (by rw [hugeCount, List.length_replicate]; omega), isDigit_of_mem_hugeCount⟩

theorem isLine_hugeBegin : IsLine hugeBegin := by
  have hwords : IsLine "BEGIN ".toList ∧ IsLine "x".toList ∧ IsLine " sha256=".toList ∧ IsLine sampleSha ∧
      IsLine " bytes=".toList := by decide
  obtain ⟨hbegin, hname, hsha, hvalue, hbytes⟩ := hwords
  have hcount : IsLine hugeCount := isLine_of_forall (p := Char.isDigit) isDigit_of_mem_hugeCount rfl rfl
  exact hbegin.append (hname.append (hsha.append (hvalue.append (hbytes.append hcount))))

theorem head?_hugeBegin (text : Text) : (hugeBegin ++ text).head? = some 'B' := by
  have hhead : hugeBegin.head? = some 'B' := rfl
  rw [List.head?_append, hhead, Option.some_or]

/-- With an exclamation mark at its end it is no `BEGIN`. -/
theorem isProgress_hugeBegin : IsProgress limitedLib (hugeBegin ++ ['!']) := by
  have hmark : IsLine ['!'] := by decide
  have hhead := head?_hugeBegin ['!']
  refine ⟨isLine_hugeBegin.append hmark, fun hdone => ?_, ?_, ?_⟩
  · rw [hdone] at hhead
    exact nomatch hhead
  · cases hbegin : CollectJob.beginRe limitedLib.isDecimal (hugeBegin ++ ['!']) with
    | none => rfl
    | some header =>
      -- the last character would be a digit
      obtain ⟨name, sha, count⟩ := header
      obtain ⟨hline, -, -, hne, hdigits⟩ := beginRe_eq_some.mp hbegin
      rw [← List.dropLast_append_getLast hne] at hline
      simp only [← List.append_assoc] at hline
      have hlast : '!' = count.getLast hne := (List.cons.inj (List.append_inj' hline rfl).2).1
      exact absurd (hlast ▸ hdigits _ (List.getLast_mem hne)) (by decide)
  · cases hmark : CollectJob.markRe (hugeBegin ++ ['!']) with
    | none => rfl
    | some mark =>
      rcases (head?_of_markRe hmark).1 with hhead' | hhead'
      · exact nomatch hhead.symm.trans hhead'
      · exact nomatch hhead.symm.trans hhead'

/-- A run that prints it before the replay. -/
def hugePod : InPod limitedLib where
  verified := [hugeBegin ++ ['!']]
  node := "worker".toList
  start := 5
  stop := 9
  runs := [⟨"1".toList, [], sampleCsv⟩]
  node_isWord := isWord_worker
  seed_noSpace run hrun := by
    cases List.mem_singleton.mp hrun
    exact isWord_one.2
  progress line hline := by
    simp only [List.mem_cons, List.not_mem_nil, or_false, exists_eq_left] at hline
    rw [hline]
    exact isProgress_hugeBegin

theorem prefix_upToAllDone_hugePod : hugeBegin ++ ['!'] <+: hugePod.jobLog.upToAllDone sampleEncoder := by
  obtain ⟨items, hitems⟩ : ∃ items, hugePod.jobLog.items = .progress (hugeBegin ++ ['!']) :: items := ⟨_, rfl⟩
  rw [JobLog.upToAllDone, JobLog.lines, hitems, List.flatMap_cons, unlines_append, Item.lines, unlines_cons,
    List.append_assoc, List.append_assoc]
  exact List.prefix_append _ _

/-- Without the exclamation mark, `int` refuses its byte count. -/
theorem parse_hugeBegin (expectedSeeds : List Text) : parse limitedLib (fileLines hugeBegin) expectedSeeds =
    .error (.valueError "Exceeds the limit (4300 digits) for integer string conversion") := by
  have hcount : 4300 < hugeCount.length := by
    rw [hugeCount, List.length_replicate]
    omega
  exact parse_of_int_eq_error isLine_hugeBegin beginRe_hugeBegin (int_limitedLib hcount) expectedSeeds

/-- **Not every truncation is.** A progress line may be cut off to `ALL_DONE`, and one that the
script itself may print to a `BEGIN` that no `CollectError` refuses. -/
theorem truncation_missed :
    (Encodes sampleLib sampleEncoder sampleCsv ∧ lateCut <+: lateLog.text sampleEncoder ∧
      ¬ lateLog.upToAllDone sampleEncoder <+: lateCut ∧
        ¬ ∃ message, parse sampleLib (fileLines lateCut) lateLog.seeds = .error (.collectError message)) ∧
    (Encodes limitedLib sampleEncoder sampleCsv ∧ hugeBegin <+: hugePod.jobLog.text sampleEncoder ∧
      ¬ hugePod.jobLog.upToAllDone sampleEncoder <+: hugeBegin ∧
        ¬ ∃ message, parse limitedLib (fileLines hugeBegin) hugePod.jobLog.seeds = .error (.collectError message)) := by
  refine ⟨⟨encodes_sample, ?_, ?_, ?_⟩, ?_, ?_, ?_, ?_⟩
  · rw [JobLog.text, upToAllDone_lateLog, List.append_assoc]
    exact List.prefix_append _ _
  · intro hwhole
    have hlength := hwhole.length_le
    have hpos : 0 < " soon\nALL_DONE".toList.length := by decide
    rw [upToAllDone_lateLog, List.length_append] at hlength
    omega
  · rintro ⟨message, hmessage⟩
    rw [parse_lateCut] at hmessage
    cases hmessage
  · exact ⟨encodes_sample.alphabet, encodes_sample.b64decode, encodes_sample.decompress, encodes_sample.sha256,
      encodes_sample.isDecimal, by decide +kernel⟩
  · exact (List.prefix_append hugeBegin ['!']).trans (prefix_upToAllDone_hugePod.trans (List.prefix_append _ _))
  · intro hwhole
    have hlength := (prefix_upToAllDone_hugePod.trans hwhole).length_le
    rw [List.length_append, List.length_singleton] at hlength
    omega
  · rintro ⟨message, hmessage⟩
    rw [parse_hugeBegin] at hmessage
    cases hmessage

end CachingInLLMs.Benchmarks.CollectJob

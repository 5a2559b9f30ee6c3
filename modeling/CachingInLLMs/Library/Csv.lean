import CachingInLLMs.Library.Dict
import CachingInLLMs.Library.Python
import CachingInLLMs.Library.Text

/-!
# CSV

The `excel` dialect of Python's `csv` module, as a writer quotes it and as the reader takes it apart again, one
character after another. A field in quotes may run over several lines; the reader is given the lines of a file,
and between them it sees only that one has ended.

A file that is opened with `newline=""` keeps its line ends (`rawLines`); in text mode they become `\n` first
(`fileLines`), also those in quotes.

## What is proved

* `reader_rawLines`: what was written is read, whatever is in the fields.
* `reader_fileLines`: in text mode too, except that the line ends in the fields are `\n`.
* `dictReader_of_reader`: rows as long as the header have all their columns.
-/

namespace CachingInLLMs.Library

namespace Csv

/-! ### Writing -/

/-- A character for which a field is quoted. -/
def special (c : Char) : Bool := c = ',' || c = '"' || c = '\r' || c = '\n'

/-- The quotes are doubled. -/
def escape (field : Text) : Text := field.flatMap fun c => if c = '"' then ['"', '"'] else [c]

/-- A field in quotes. -/
def quote (field : Text) : Text := '"' :: (escape field ++ ['"'])

/-- A field as it is written. -/
def fieldText (field : Text) : Text := if field.any special then quote field else field

/-- A row as it is written, with its line end; a row of one empty field is quoted. -/
def rowText (eol : Text) (fields : List Text) : Text :=
  (if fields = [[]] then quote [] else [','].intercalate (fields.map fieldText)) ++ eol

/-- What `writerows` writes. -/
def writeRows (rows : List (List Text)) : Text := rows.flatMap (rowText "\r\n".toList)

/-! ### Reading -/

/-- Where the reader is. -/
inductive State where
  /-- Before a row. -/
  | startRecord
  /-- Before a field. -/
  | startField
  /-- In a field. -/
  | inField
  /-- In a field in quotes. -/
  | inQuotedField
  /-- After a quote in such a field. -/
  | quoteInQuotedField
  /-- After a row. -/
  | eatCrnl
  deriving DecidableEq

/-- A reader: where it is, the field it is in, and the fields before it. -/
structure Reader where
  /-- Where it is. -/
  state : State
  /-- The field. -/
  field : Text
  /-- The fields before it. -/
  fields : List Text

/-- `csv.field_size_limit()`. -/
def fieldLimit : ℕ := 131072

/-- The character ends a line. -/
def isNewline (c : Char) : Bool := c = '\n' || c = '\r'

namespace Reader

/-- Before the first row. -/
def start : Reader := ⟨.startRecord, [], []⟩

/-- Another character of the field. -/
def add (r : Reader) (c : Char) (state : State) : Except PyError Reader :=
  if r.field.length < fieldLimit then .ok ⟨state, r.field ++ [c], r.fields⟩ else .error (.other "Error")

/-- The field is complete. -/
def save (r : Reader) (state : State) : Reader := ⟨state, [], r.fields ++ [r.field]⟩

/-- The first character of a field. -/
def processStart (r : Reader) (c : Char) : Except PyError Reader :=
  if isNewline c then .ok (r.save .eatCrnl)
  else if c = '"' then .ok { r with state := .inQuotedField }
  else if c = ',' then .ok (r.save .startField)
  else r.add c .inField

/-- The next character. -/
def process (r : Reader) (c : Char) : Except PyError Reader :=
  match r.state with
  | .startRecord => if isNewline c then .ok { r with state := .eatCrnl } else r.processStart c
  | .startField => r.processStart c
  | .inField =>
    if isNewline c then .ok (r.save .eatCrnl)
    else if c = ',' then .ok (r.save .startField)
    else r.add c .inField
  | .inQuotedField => if c = '"' then .ok { r with state := .quoteInQuotedField } else r.add c .inQuotedField
  | .quoteInQuotedField =>
    if c = '"' then r.add c .inQuotedField
    else if c = ',' then .ok (r.save .startField)
    else if isNewline c then .ok (r.save .eatCrnl)
    else r.add c .inField
  | .eatCrnl => if isNewline c then .ok r else .error (.other "Error")

/-- The end of a line. -/
def endLine (r : Reader) : Reader :=
  match r.state with
  | .startRecord => r
  | .startField => r.save .startRecord
  | .inField => r.save .startRecord
  | .inQuotedField => r
  | .quoteInQuotedField => r.save .startRecord
  | .eatCrnl => { r with state := .startRecord }

/-- A line. -/
def line (r : Reader) (text : Text) : Except PyError Reader := do
  let r ← text.foldlM process r
  return r.endLine

/-- The rows, from within one. -/
def records : Reader → List Text → Except PyError (List (List Text))
  | r, [] => .ok (if r.field ≠ [] ∨ r.state = .inQuotedField then [r.fields ++ [r.field]] else [])
  | r, text :: lines => do
    let r ← r.line text
    if r.state = .startRecord then
      let rows ← records start lines
      return r.fields :: rows
    else records r lines

end Reader

/-- `list(csv.reader(lines))`. -/
def reader (lines : List Text) : Except PyError (List (List Text)) := Reader.start.records lines

/-- The lines of a file that is opened with `newline=""`. -/
def rawLines : Text → List Text
  | [] => []
  | '\r' :: '\n' :: text => ['\r', '\n'] :: rawLines text
  | c :: text => if isNewline c then [c] :: rawLines text else consHead c (rawLines text)

/-- A row of `csv.DictReader`: its columns, `None` where the row is too short, and what it has too many. -/
structure DictRow where
  /-- The columns. -/
  columns : Dict Text (Option Text)
  /-- `row[None]`. -/
  rest : Option (List Text)

/-- A row with its field names. -/
def dictRow (fieldnames row : List Text) : DictRow where
  columns := Dict.ofList (fieldnames.zip (row.map some) ++ (fieldnames.drop row.length).map (·, none))
  rest := if fieldnames.length < row.length then some (row.drop fieldnames.length) else none

/-- A row with all its columns. -/
def fullRow (row : Dict Text Text) : DictRow := ⟨row.mapValues some, none⟩

/-- `list(csv.DictReader(lines))`: the first row has the field names, and empty rows are left out. -/
def dictReader (lines : List Text) : Except PyError (List DictRow) := do
  match ← reader lines with
  | [] => return []
  | fieldnames :: rows => return (rows.filter (· ≠ [])).map (dictRow fieldnames)

/-! ### One character after another -/

section Characters

variable {r r' : Reader} {c : Char} {text : Text}

theorem rawLines_cons_of_isNewline_eq_false (h : isNewline c = false) (text : Text) :
    rawLines (c :: text) = consHead c (rawLines text) := by
  rw [rawLines, if_neg (by simp [h])]
  rintro text' rfl
  cases h

theorem rawLines_newline (text : Text) : rawLines ('\n' :: text) = ['\n'] :: rawLines text := by
  have h : isNewline '\n' = true := rfl
  rw [rawLines, if_pos h]
  rintro text' h
  cases h

theorem rawLines_ne_nil (h : text ≠ []) : rawLines text ≠ [] := by
  cases text using rawLines.fun_cases with
  | case1 => exact absurd rfl h
  | case2 text => simp [rawLines]
  | case3 c text _ hc => simp_all [rawLines]
  | case4 c text _ hc =>
    rw [rawLines_cons_of_isNewline_eq_false (by simpa using hc)]
    exact consHead_ne_nil _ _

theorem Reader.line_cons (r : Reader) (c : Char) (text : Text) : r.line (c :: text) = r.process c >>= (·.line text) := by
  rw [line, List.foldlM_cons, bind_assoc]
  rfl

/-- A character that ends no line. -/
theorem records_cons (hc : isNewline c = false) (hprocess : r.process c = .ok r') (htext : text ≠ []) :
    r.records (rawLines (c :: text)) = r'.records (rawLines text) := by
  obtain ⟨line, lines, hlines⟩ := List.exists_cons_of_ne_nil (rawLines_ne_nil htext)
  rw [rawLines_cons_of_isNewline_eq_false hc, hlines, consHead, Reader.records, Reader.line_cons, hprocess, ok_bind,
    Reader.records]

/-- Between quotes it does not matter where the lines end. -/
theorem records_quoted (hstate : r.state = .inQuotedField) (hc : c ≠ '"') (hlength : r.field.length < fieldLimit)
    (text : Text) :
    r.records (rawLines (c :: text)) = Reader.records ⟨.inQuotedField, r.field ++ [c], r.fields⟩ (rawLines text) := by
  have hprocess : r.process c = .ok ⟨.inQuotedField, r.field ++ [c], r.fields⟩ := by
    rw [Reader.process, hstate]
    simp [hc, Reader.add, hlength]
  -- the end of a line leaves the reader where it is
  have hline (lines : List Text) : r.records ([c] :: lines) =
      Reader.records ⟨.inQuotedField, r.field ++ [c], r.fields⟩ lines := by
    rw [Reader.records, Reader.line_cons, hprocess]
    rfl
  by_cases hnewline : isNewline c = true
  · by_cases hcrlf : c = '\r' ∧ ∃ text', text = '\n' :: text'
    · obtain ⟨rfl, text', rfl⟩ := hcrlf
      rw [rawLines, rawLines_newline, Reader.records, Reader.line_cons, hprocess, ok_bind, Reader.records]
    · rw [rawLines, if_pos hnewline, hline]
      rintro text' hcr rfl
      exact hcrlf ⟨hcr, text', rfl⟩
  · rw [Bool.not_eq_true] at hnewline
    cases text with
    | nil =>
      rw [rawLines_cons_of_isNewline_eq_false hnewline]
      exact hline []
    | cons d text => exact records_cons hnewline hprocess (List.cons_ne_nil d text)

end Characters

/-! ### Fields -/

section Fields

variable {r : Reader} {field rest : Text}

/-- A field in quotes, after the first of them. -/
theorem records_escape (hstate : r.state = .inQuotedField) (hlength : r.field.length + field.length ≤ fieldLimit)
    (hrest : rest ≠ []) :
    r.records (rawLines (escape field ++ '"' :: rest)) =
      Reader.records ⟨.quoteInQuotedField, r.field ++ field, r.fields⟩ (rawLines rest) := by
  induction field generalizing r with
  | nil =>
    rw [List.append_nil]
    refine records_cons rfl ?_ hrest
    rw [Reader.process, hstate]
    rfl
  | cons c field ih =>
    rw [List.length_cons] at hlength
    have hlt : r.field.length < fieldLimit := by omega
    have hafter := ih (r := ⟨.inQuotedField, r.field ++ [c], r.fields⟩) rfl
      (by rw [List.length_append, List.length_singleton]; omega)
    rw [List.append_assoc, List.singleton_append] at hafter
    by_cases hc : c = '"'
    · have hescape : escape (c :: field) ++ '"' :: rest = '"' :: '"' :: (escape field ++ '"' :: rest) := by simp [escape, hc]
      have hquote : r.process '"' = .ok { r with state := .quoteInQuotedField } := by
        rw [Reader.process, hstate]
        rfl
      have hagain : Reader.process { r with state := .quoteInQuotedField } '"' =
          .ok ⟨.inQuotedField, r.field ++ [c], r.fields⟩ := by
        simp [Reader.process, Reader.add, hlt, hc]
      rw [hescape, records_cons rfl hquote (List.cons_ne_nil _ _), records_cons rfl hagain (by simp), hafter]
    · have hescape : escape (c :: field) ++ '"' :: rest = c :: (escape field ++ '"' :: rest) := by simp [escape, hc]
      rw [hescape, records_quoted hstate hc hlt, hafter]

theorem not_special {c : Char} (h : special c = false) : isNewline c = false ∧ c ≠ ',' ∧ c ≠ '"' := by
  simp only [special, Bool.or_eq_false_iff, decide_eq_false_iff_not] at h
  simp [isNewline, h]

/-- A field without quotes, from within. -/
theorem records_plain (hstate : r.state = .inField) (hplain : field.any special = false)
    (hlength : r.field.length + field.length ≤ fieldLimit) (hrest : rest ≠ []) :
    r.records (rawLines (field ++ rest)) = Reader.records ⟨.inField, r.field ++ field, r.fields⟩ (rawLines rest) := by
  induction field generalizing r with
  | nil =>
    rw [List.append_nil, ← hstate]
    rfl
  | cons c field ih =>
    rw [List.any_cons, Bool.or_eq_false_iff] at hplain
    rw [List.length_cons] at hlength
    obtain ⟨hnewline, hcomma, -⟩ := not_special hplain.1
    have hprocess : r.process c = .ok ⟨.inField, r.field ++ [c], r.fields⟩ := by
      rw [Reader.process, hstate]
      simp [hnewline, hcomma, Reader.add]
      omega
    rw [List.cons_append, records_cons hnewline hprocess (by simp [hrest]), ih rfl hplain.2
      (by rw [List.length_append, List.length_singleton]; omega), List.append_assoc, List.singleton_append]

/-- A field may end here. -/
def Reader.AtEnd (r : Reader) : Prop := r.state = .startField ∨ r.state = .inField ∨ r.state = .quoteInQuotedField

theorem records_quote (hstate : r.state = .startRecord ∨ r.state = .startField) (hfield : r.field = [])
    (hlength : field.length ≤ fieldLimit) (hrest : rest ≠ []) :
    r.records (rawLines (quote field ++ rest)) =
      Reader.records ⟨.quoteInQuotedField, field, r.fields⟩ (rawLines rest) := by
  have hprocess : r.process '"' = .ok { r with state := .inQuotedField } := by
    rcases hstate with h | h <;> rw [Reader.process, h] <;> rfl
  have hescape : Reader.records { r with state := .inQuotedField } (rawLines (escape field ++ '"' :: rest)) =
      Reader.records ⟨.quoteInQuotedField, r.field ++ field, r.fields⟩ (rawLines rest) :=
    records_escape rfl (by rw [hfield, List.length_nil, Nat.zero_add]; exact hlength) hrest
  rw [quote, List.cons_append, List.append_assoc, List.singleton_append, records_cons rfl hprocess (by simp), hescape,
    hfield, List.nil_append]

/-- A field as it is written. -/
theorem records_fieldText (hstate : r.state = .startRecord ∨ r.state = .startField) (hfield : r.field = [])
    (hlength : field.length ≤ fieldLimit) (hrest : rest ≠ []) :
    ∃ state, r.records (rawLines (fieldText field ++ rest)) = Reader.records ⟨state, field, r.fields⟩ (rawLines rest) ∧
      (field = [] ∧ state = r.state ∨ state = .inField ∨ state = .quoteInQuotedField) := by
  rw [fieldText]
  split_ifs with hspecial
  · exact ⟨_, records_quote hstate hfield hlength hrest, .inr (.inr rfl)⟩
  · cases field with
    | nil =>
      have hsame : (⟨r.state, [], r.fields⟩ : Reader) = r := by rw [← hfield]
      exact ⟨r.state, by rw [hsame]; rfl, .inl ⟨rfl, rfl⟩⟩
    | cons c field =>
      rw [Bool.not_eq_true, List.any_cons, Bool.or_eq_false_iff] at hspecial
      rw [List.length_cons] at hlength
      obtain ⟨hnewline, hcomma, hquote⟩ := not_special hspecial.1
      have hadd : r.add c .inField = .ok ⟨.inField, [c], r.fields⟩ := by
        simp [Reader.add, hfield, fieldLimit]
      have hprocess : r.process c = .ok ⟨.inField, [c], r.fields⟩ := by
        rcases hstate with h | h <;> rw [Reader.process, h] <;>
          simp [hnewline, hcomma, hquote, Reader.processStart, hadd]
      refine ⟨.inField, ?_, .inr (.inl rfl)⟩
      rw [List.cons_append, records_cons hnewline hprocess (by simp [hrest])]
      exact records_plain rfl hspecial.2 (by rw [List.length_singleton]; omega) hrest

/-- The comma after it. -/
theorem process_comma (h : r.AtEnd ∨ r.state = .startRecord) : r.process ',' = .ok (r.save .startField) := by
  rcases h with (h | h | h) | h <;> rw [Reader.process, h] <;> rfl

/-- The line end after a row. -/
def IsEol (eol : Text) : Prop := eol = "\r\n".toList ∨ eol = "\n".toList

theorem records_eol (h : r.AtEnd) {eol : Text} (heol : IsEol eol) (rest : Text) :
    r.records (rawLines (eol ++ rest)) =
      (Reader.start.records (rawLines rest)).map ((r.fields ++ [r.field]) :: ·) := by
  have hprocess (c : Char) (hc : isNewline c = true) : r.process c = .ok (r.save .eatCrnl) := by
    rcases h with h | h | h <;> rw [Reader.process, h]
    · simp [Reader.processStart, hc]
    · simp [hc]
    · have hquote : c ≠ '"' := by rintro rfl; cases hc
      have hcomma : c ≠ ',' := by rintro rfl; cases hc
      simp [hc, hquote, hcomma]
  have hline (line : Text) (lines : List Text) (hr : r.line line = .ok (r.save .startRecord)) :
      r.records (line :: lines) = (Reader.start.records lines).map ((r.fields ++ [r.field]) :: ·) := by
    have hstart : (r.save .startRecord).state = .startRecord := rfl
    rw [Reader.records, hr, ok_bind, if_pos hstart]
    cases Reader.start.records lines <;> rfl
  rcases heol with rfl | rfl
  · exact hline ['\r', '\n'] (rawLines rest) (by rw [Reader.line_cons, hprocess _ rfl]; rfl)
  · have hrest : rawLines ("\n".toList ++ rest) = ['\n'] :: rawLines rest := rawLines_newline rest
    rw [hrest]
    exact hline _ _ (by rw [Reader.line_cons, hprocess _ rfl]; rfl)

end Fields

/-! ### Rows -/

section Rows

variable {r : Reader} {eol : Text} {fields : List Text} {rows : List (List Text)}

theorem IsEol.ne_nil (h : IsEol eol) : eol ≠ [] := by
  rcases h with rfl | rfl <;> decide

/-- Some fields, with the commas between them. -/
theorem records_intercalate (heol : IsEol eol) (hfield : r.field = [])
    (hstate : r.state = .startRecord ∧ fields ≠ [[]] ∨ r.state = .startField) (hne : fields ≠ [])
    (hlength : ∀ field ∈ fields, field.length ≤ fieldLimit) (rest : Text) :
    r.records (rawLines ([','].intercalate (fields.map fieldText) ++ (eol ++ rest))) =
      (Reader.start.records (rawLines rest)).map ((r.fields ++ fields) :: ·) := by
  induction fields generalizing r with
  | nil => exact absurd rfl hne
  | cons field fields ih =>
    rw [List.forall_mem_cons] at hlength
    have hbefore : r.state = .startRecord ∨ r.state = .startField := hstate.imp_left And.left
    cases fields with
    | nil =>
      obtain ⟨state, hread, hend⟩ := records_fieldText hbefore hfield hlength.1
        (List.append_ne_nil_of_left_ne_nil heol.ne_nil rest)
      rw [List.map_singleton, List.intercalate_singleton, hread]
      refine records_eol (r := ⟨state, field, r.fields⟩) ?_ heol rest
      rcases hend with ⟨rfl, rfl⟩ | hend
      · exact .inl (hstate.resolve_left fun h => h.2 rfl)
      · exact .inr hend
    | cons field' fields =>
      have hmap : [','].intercalate ((field :: field' :: fields).map fieldText) ++ (eol ++ rest) =
          fieldText field ++ ',' :: ([','].intercalate ((field' :: fields).map fieldText) ++ (eol ++ rest)) := by
        simp [List.intercalate_cons_cons]
      have hne' : [','].intercalate ((field' :: fields).map fieldText) ++ (eol ++ rest) ≠ [] := by
        simp [heol.ne_nil]
      obtain ⟨state, hread, hend⟩ := records_fieldText hbefore hfield hlength.1 (List.cons_ne_nil _ _)
      have hcomma : Reader.process ⟨state, field, r.fields⟩ ',' = .ok ⟨.startField, [], r.fields ++ [field]⟩ := by
        refine process_comma (r := ⟨state, field, r.fields⟩) ?_
        rcases hend with ⟨-, rfl⟩ | hend
        · exact hbefore.symm.imp_left .inl
        · exact .inl (.inr hend)
      rw [hmap, hread, records_cons rfl hcomma hne',
        ih (r := ⟨.startField, [], r.fields ++ [field]⟩) rfl (.inr rfl) (List.cons_ne_nil _ _) hlength.2,
        List.append_assoc, List.singleton_append]

theorem records_rowText (heol : IsEol eol) (hne : fields ≠ [])
    (hlength : ∀ field ∈ fields, field.length ≤ fieldLimit) (rest : Text) :
    Reader.start.records (rawLines (rowText eol fields ++ rest)) =
      (Reader.start.records (rawLines rest)).map (fields :: ·) := by
  rw [rowText, List.append_assoc]
  split_ifs with hempty
  · rw [records_quote (.inl rfl) rfl (Nat.zero_le _) (List.append_ne_nil_of_left_ne_nil heol.ne_nil rest),
      records_eol (.inr (.inr rfl)) heol, hempty]
    rfl
  · exact records_intercalate heol rfl (.inl ⟨rfl, hempty⟩) hne hlength rest

theorem reader_flatMap_rowText (heol : IsEol eol)
    (h : ∀ fields ∈ rows, fields ≠ [] ∧ ∀ field ∈ fields, field.length ≤ fieldLimit) :
    reader (rawLines (rows.flatMap (rowText eol))) = .ok rows := by
  induction rows with
  | nil => rfl
  | cons fields rows ih =>
    rw [List.forall_mem_cons] at h
    rw [List.flatMap_cons, reader, records_rowText heol h.1.1 h.1.2, ← reader, ih h.2]
    rfl

/-- **What was written is read.** -/
theorem reader_rawLines (h : ∀ fields ∈ rows, fields ≠ [] ∧ ∀ field ∈ fields, field.length ≤ fieldLimit) :
    reader (rawLines (writeRows rows)) = .ok rows := reader_flatMap_rowText (.inl rfl) h

end Rows

/-! ### Text mode -/

section TextMode

variable {field : Text} {fields : List Text} {rows : List (List Text)}

/-- In text mode the lines are those of the text with its line ends as `\n`. -/
theorem fileLines_eq_rawLines (text : Text) : fileLines text = rawLines (universalNewlines text) := by
  have hraw (t : Text) (h : '\r' ∉ t) : splitKeepends t = rawLines t := by
    induction t with
    | nil => rfl
    | cons c t ih =>
      rw [List.mem_cons, not_or] at h
      by_cases hc : c = '\n'
      · rw [splitKeepends, if_pos hc, ih h.2, hc, rawLines_newline]
      · have hnewline : isNewline c = false := by simp [isNewline, hc, Ne.symm h.1]
        rw [splitKeepends, if_neg hc, ih h.2, rawLines_cons_of_isNewline_eq_false hnewline]
  exact hraw _ (return_not_mem_universalNewlines text)

theorem escape_cons_of_ne {c : Char} (h : c ≠ '"') (field : Text) : escape (c :: field) = c :: escape field := by
  simp [escape, h]

/-- A line end is not divided. -/
theorem escape_append_ne_newline (h : ∀ field', field ≠ '\n' :: field') (rest rest' : Text) :
    escape field ++ '"' :: rest ≠ '\n' :: rest' := by
  cases field with
  | nil => simp [escape]
  | cons c field =>
    by_cases hc : c = '"'
    · simp [escape, hc]
    · rw [escape_cons_of_ne hc, List.cons_append]
      intro heq
      exact h field (by rw [(List.cons.inj heq).1])

theorem universalNewlines_escape (field rest : Text) : universalNewlines (escape field ++ '"' :: rest) =
    escape (universalNewlines field) ++ '"' :: universalNewlines rest := by
  fun_induction universalNewlines field with
  | case1 => exact universalNewlines_cons (by decide) rest
  | case2 field ih =>
    rw [escape_cons_of_ne (by decide), escape_cons_of_ne (by decide), escape_cons_of_ne (by decide), List.cons_append,
      List.cons_append, universalNewlines, ih, List.cons_append]
  | case3 field hnot ih =>
    rw [escape_cons_of_ne (by decide), escape_cons_of_ne (by decide), List.cons_append,
      universalNewlines_return fun _ => escape_append_ne_newline hnot rest _, ih, List.cons_append]
  | case4 c field _ hc ih =>
    have hc : c ≠ '\r' := hc
    by_cases hquote : c = '"'
    · have hescape (t : Text) : escape (c :: t) = '"' :: '"' :: escape t := by simp [escape, hquote]
      rw [hescape, hescape, List.cons_append, List.cons_append, universalNewlines_cons (by decide),
        universalNewlines_cons (by decide), ih, List.cons_append, List.cons_append]
    · rw [escape_cons_of_ne hquote, escape_cons_of_ne hquote, List.cons_append, universalNewlines_cons hc, ih,
        List.cons_append]

theorem universalNewlines_quote (field rest : Text) :
    universalNewlines (quote field ++ rest) = quote (universalNewlines field) ++ universalNewlines rest := by
  rw [quote, List.cons_append, List.append_assoc, List.singleton_append, universalNewlines_cons (by decide),
    universalNewlines_escape, quote, List.cons_append, List.append_assoc, List.singleton_append]

theorem any_special_universalNewlines (field : Text) : (universalNewlines field).any special = field.any special := by
  fun_induction universalNewlines field with
  | case1 => rfl
  | case2 field ih => rfl
  | case3 field _ ih => rfl
  | case4 c field _ _ ih => rw [List.any_cons, List.any_cons, ih]

/-- A field is quoted in the one if it is in the other. -/
theorem universalNewlines_fieldText (field rest : Text) :
    universalNewlines (fieldText field ++ rest) = fieldText (universalNewlines field) ++ universalNewlines rest := by
  rw [fieldText, fieldText, any_special_universalNewlines]
  split_ifs with hspecial
  · exact universalNewlines_quote field rest
  · have hreturn : '\r' ∉ field := by
      intro hmem
      exact hspecial (List.any_eq_true.mpr ⟨_, hmem, rfl⟩)
    rw [universalNewlines_append_of_not_mem hreturn, universalNewlines_of_not_mem hreturn]

theorem universalNewlines_intercalate (fields : List Text) (rest : Text) :
    universalNewlines ([','].intercalate (fields.map fieldText) ++ rest) =
      [','].intercalate ((fields.map universalNewlines).map fieldText) ++ universalNewlines rest := by
  induction fields with
  | nil => rfl
  | cons field fields ih =>
    cases fields with
    | nil =>
      rw [List.map_singleton, List.map_singleton, List.map_singleton, List.intercalate_singleton,
        List.intercalate_singleton, universalNewlines_fieldText]
    | cons field' fields =>
      simp only [List.map_cons, List.intercalate_cons_cons, List.append_assoc, List.singleton_append] at ih ⊢
      rw [universalNewlines_fieldText, List.cons_append, universalNewlines_cons (by decide), ih, List.cons_append]

theorem universalNewlines_eq_nil : universalNewlines field = [] ↔ field = [] := by
  constructor
  · intro h
    fun_cases universalNewlines field <;> simp_all [universalNewlines]
  · rintro rfl
    rfl

theorem universalNewlines_rowText (fields : List Text) (rest : Text) :
    universalNewlines (rowText "\r\n".toList fields ++ rest) =
      rowText "\n".toList (fields.map universalNewlines) ++ universalNewlines rest := by
  have hempty : fields.map universalNewlines = [[]] ↔ fields = [[]] := by
    cases fields with
    | nil => simp
    | cons field fields => simp [universalNewlines_eq_nil]
  rw [rowText, rowText, List.append_assoc, List.append_assoc]
  by_cases h : fields = [[]]
  · rw [if_pos h, if_pos (hempty.mpr h)]
    exact universalNewlines_quote [] _
  · rw [if_neg h, if_neg (mt hempty.mp h)]
    exact universalNewlines_intercalate fields _

theorem universalNewlines_writeRows (rows : List (List Text)) :
    universalNewlines (writeRows rows) = (rows.map (·.map universalNewlines)).flatMap (rowText "\n".toList) := by
  induction rows with
  | nil => rfl
  | cons fields rows ih =>
    rw [writeRows, List.flatMap_cons, ← writeRows, universalNewlines_rowText, ih, List.map_cons, List.flatMap_cons]

/-- **In text mode** what was written is read, with the line ends in the fields as `\n`. -/
theorem reader_fileLines (h : ∀ fields ∈ rows, fields ≠ [] ∧ ∀ field ∈ fields, field.length ≤ fieldLimit) :
    reader (fileLines (writeRows rows)) = .ok (rows.map (·.map universalNewlines)) := by
  rw [fileLines_eq_rawLines, universalNewlines_writeRows]
  refine reader_flatMap_rowText (.inr rfl) fun fields hfields => ?_
  obtain ⟨fields, hmem, rfl⟩ := List.mem_map.mp hfields
  obtain ⟨hne, hlength⟩ := h fields hmem
  refine ⟨by simpa using hne, fun field hfield => ?_⟩
  obtain ⟨field, hmem, rfl⟩ := List.mem_map.mp hfield
  exact (length_universalNewlines_le field).trans (hlength field hmem)

end TextMode

/-! ### Rows with names -/

/-- A row as long as the header has all its columns. -/
theorem dictRow_of_length {fieldnames row : List Text} (h : row.length = fieldnames.length) :
    dictRow fieldnames row = fullRow (Dict.ofList (fieldnames.zip row)) := by
  have hdrop : fieldnames.drop row.length = [] := by rw [h, List.drop_length]
  have hzip : fieldnames.zip (row.map some) = (fieldnames.zip row).map fun p => (p.1, some p.2) := by
    rw [List.zip_map_right]
    rfl
  rw [dictRow, fullRow, hdrop, List.map_nil, List.append_nil, if_neg (by omega), hzip, Dict.mapValues_ofList]

theorem dictReader_of_reader {lines : List Text} {fieldnames : List Text} {rows : List (List Text)}
    (h : reader lines = .ok (fieldnames :: rows)) (hne : fieldnames ≠ [])
    (hlength : ∀ row ∈ rows, row.length = fieldnames.length) :
    dictReader lines = .ok ((rows.map fun row => Dict.ofList (fieldnames.zip row)).map fullRow) := by
  have hpos : 0 < fieldnames.length := List.length_pos_iff.mpr hne
  -- no row is empty
  have hfilter : rows.filter (· ≠ []) = rows := by
    rw [List.filter_eq_self]
    intro row hrow
    have hrow := hlength row hrow
    simpa using List.length_pos_iff.mp (by omega)
  have hrows : rows.map (dictRow fieldnames) = (rows.map fun row => Dict.ofList (fieldnames.zip row)).map fullRow := by
    rw [List.map_map]
    exact List.map_congr_left fun row hrow => dictRow_of_length (hlength row hrow)
  rw [dictReader, h, ok_bind]
  dsimp only
  rw [hfilter, hrows]
  rfl

end Csv

end CachingInLLMs.Library

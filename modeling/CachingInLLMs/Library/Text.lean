import CachingInLLMs.Library.Split
import Mathlib.Data.List.DropRight
import Mathlib.Data.List.Infix

/-!
# Text and its lines

Text is a list of characters. The first part reads a regular expression from left to
right: `literal`, `many1`, `times` and `upToEnd` take what one part of the expression
matches and leave the rest. Each takes as much as it can, which is all there is to try as long as
the next part cannot begin with a character that `many1` takes.

The second part is about lines. `fileLines` cuts a text into the lines that reading a
text file yields, each with its newline; a text that consists of lines gives them back
(`rstrip_fileLines`), and a text that is cut off anywhere is some of its lines and the
beginning of the next (`prefix_unlines`).
-/

namespace CachingInLLMs.Library

/-- Text. -/
abbrev Text := List Char

/-- `c.isspace()`. -/
def isSpace (c : Char) : Bool :=
  let n := c.toNat
  (9 ≤ n && n ≤ 13) || (28 ≤ n && n ≤ 32) || n == 0x85 || n == 0xa0 || n == 0x1680 ||
    (0x2000 ≤ n && n ≤ 0x200a) || n == 0x2028 || n == 0x2029 || n == 0x202f || n == 0x205f || n == 0x3000

/-! ### Matching from left to right -/

/-- A fixed word. -/
def literal (word text : Text) : Option Text :=
  if word.isPrefixOf text then some (text.drop word.length) else none

/-- One character or more of a class. -/
def many1 (p : Char → Bool) (text : Text) : Option (Text × Text) :=
  if text.takeWhile p = [] then none else some (text.takeWhile p, text.dropWhile p)

/-- One character or more of a class, and the end. -/
def upToEnd (p : Char → Bool) (text : Text) : Option Text := if text ≠ [] ∧ text.all p then some text else none

/-- Exactly `n` characters of a class. -/
def times (n : ℕ) (p : Char → Bool) (text : Text) : Option (Text × Text) :=
  if (text.take n).length = n ∧ (text.take n).all p then some (text.take n, text.drop n) else none

section Matching

variable {word text rest : Text} {p : Char → Bool} {n : ℕ}

theorem literal_eq_some : literal word text = some rest ↔ text = word ++ rest := by
  rw [literal]
  constructor
  · intro h
    split_ifs at h with hword
    obtain ⟨rest', rfl⟩ := List.isPrefixOf_iff_prefix.mp hword
    rw [List.drop_left] at h
    rw [Option.some.inj h]
  · rintro rfl
    rw [if_pos (List.isPrefixOf_iff_prefix.mpr (List.prefix_append word rest)), List.drop_left]

theorem many1_eq_some :
    many1 p text = some (word, rest) ↔
      text = word ++ rest ∧ word ≠ [] ∧ (∀ c ∈ word, p c) ∧ ∀ c, rest.head? = some c → p c = false := by
  rw [many1]
  constructor
  · intro h
    split_ifs at h with hne
    cases h
    refine ⟨List.takeWhile_append_dropWhile.symm, hne, fun c hc => List.mem_takeWhile_imp hc, fun c hc => ?_⟩
    exact Bool.eq_false_iff.mpr fun hp => by simpa [hp, hc] using List.head?_dropWhile_not p text
  · rintro ⟨rfl, hne, hword, hrest⟩
    have htake : (word ++ rest).takeWhile p = word := by
      rw [List.takeWhile_append_of_pos hword]
      cases rest with
      | nil => simp
      | cons c rest => simp [hrest c rfl]
    have hdrop : (word ++ rest).dropWhile p = rest := by
      rw [List.dropWhile_append_of_pos hword]
      cases rest with
      | nil => rfl
      | cons c rest => simp [hrest c rfl]
    rw [htake, hdrop, if_neg hne]

theorem upToEnd_eq_some : upToEnd p text = some word ↔ text = word ∧ word ≠ [] ∧ ∀ c ∈ word, p c := by
  rw [upToEnd]
  constructor
  · intro h
    split_ifs at h with hword
    cases h
    exact ⟨rfl, hword.1, List.all_eq_true.mp hword.2⟩
  · rintro ⟨rfl, hne, hword⟩
    rw [if_pos ⟨hne, List.all_eq_true.mpr hword⟩]

theorem times_eq_some :
    times n p text = some (word, rest) ↔ text = word ++ rest ∧ word.length = n ∧ ∀ c ∈ word, p c := by
  rw [times]
  constructor
  · intro h
    split_ifs at h with hn
    cases h
    exact ⟨(List.take_append_drop n text).symm, hn.1, List.all_eq_true.mp hn.2⟩
  · rintro ⟨rfl, rfl, hword⟩
    rw [List.take_left, List.drop_left, if_pos ⟨rfl, List.all_eq_true.mpr hword⟩]

end Matching

/-! ### Lines -/

/-- What reading in text mode makes of the line ends. -/
def universalNewlines : Text → Text
  | [] => []
  | '\r' :: '\n' :: text => '\n' :: universalNewlines text
  | '\r' :: text => '\n' :: universalNewlines text
  | c :: text => c :: universalNewlines text

/-- The lines of a text, each with its newline. -/
def splitKeepends : Text → List Text
  | [] => []
  | c :: text => if c = '\n' then [c] :: splitKeepends text else consHead c (splitKeepends text)

/-- `str.splitlines` ends a line at this character. -/
def isLineBoundary (c : Char) : Bool :=
  let n := c.toNat
  (10 ≤ n && n ≤ 13) || (28 ≤ n && n ≤ 30) || n == 0x85 || n == 0x2028 || n == 0x2029

/-- `text.splitlines()`. -/
def splitlines : Text → List Text
  | [] => []
  | '\r' :: '\n' :: text => [] :: splitlines text
  | c :: text => if isLineBoundary c then [] :: splitlines text else consHead c (splitlines text)

/-- The lines that iterating over a text file yields. -/
def fileLines (text : Text) : List Text := splitKeepends (universalNewlines text)

/-- `line.rstrip("\n")`. -/
def rstripNewlines (line : Text) : Text := line.rdropWhile (· = '\n')

/-- The text of some lines. -/
def unlines (lines : List Text) : Text := (lines.map (· ++ ['\n'])).flatten

/-- No line ends within. -/
def IsLine (line : Text) : Prop := '\n' ∉ line ∧ '\r' ∉ line

instance (line : Text) : Decidable (IsLine line) := inferInstanceAs (Decidable (_ ∧ _))

theorem isLine_of_forall {line : Text} {p : Char → Bool} (h : ∀ c ∈ line, p c) (hnewline : p '\n' = false)
    (hreturn : p '\r' = false) : IsLine line :=
  ⟨fun hc => absurd (h _ hc) (by simp [hnewline]), fun hc => absurd (h _ hc) (by simp [hreturn])⟩

theorem IsLine.append {line line' : Text} (h : IsLine line) (h' : IsLine line') : IsLine (line ++ line') := by
  rw [IsLine, List.mem_append, List.mem_append, not_or, not_or]
  exact ⟨⟨h.1, h'.1⟩, h.2, h'.2⟩

theorem IsLine.of_prefix {line part : Text} (h : IsLine line) (hpart : part <+: line) : IsLine part :=
  ⟨fun hc => h.1 (hpart.subset hc), fun hc => h.2 (hpart.subset hc)⟩

/-- No line ends within, for `splitlines`. -/
def OneLine (text : Text) : Prop := ∀ c ∈ text, isLineBoundary c = false

theorem oneLine_of_all {text : Text} (h : text.all (fun c => !isLineBoundary c) = true) : OneLine text := by
  intro c hc
  simpa using List.all_eq_true.mp h c hc

@[simp] theorem unlines_nil : unlines [] = [] := rfl

@[simp] theorem unlines_cons (line : Text) (lines : List Text) :
    unlines (line :: lines) = line ++ '\n' :: unlines lines := by
  simp [unlines]

@[simp] theorem unlines_append (lines lines' : List Text) : unlines (lines ++ lines') = unlines lines ++ unlines lines' := by
  simp [unlines]

theorem universalNewlines_of_not_mem {text : Text} (h : '\r' ∉ text) : universalNewlines text = text := by
  induction text with
  | nil => rfl
  | cons c text ih =>
    rw [List.mem_cons, not_or] at h
    rw [universalNewlines, ih h.2]
    · rintro text' rfl
      exact absurd rfl h.1
    · rintro rfl
      exact absurd rfl h.1

theorem universalNewlines_cons {c : Char} (h : c ≠ '\r') (text : Text) :
    universalNewlines (c :: text) = c :: universalNewlines text := by
  rw [universalNewlines]
  · rintro _ rfl
    exact absurd rfl h
  · exact h

theorem universalNewlines_return {text : Text} (h : ∀ text', text ≠ '\n' :: text') :
    universalNewlines ('\r' :: text) = '\n' :: universalNewlines text := by
  rw [universalNewlines]
  exact h

theorem universalNewlines_append_of_not_mem {text : Text} (h : '\r' ∉ text) (rest : Text) :
    universalNewlines (text ++ rest) = text ++ universalNewlines rest := by
  induction text with
  | nil => rfl
  | cons c text ih =>
    rw [List.mem_cons, not_or] at h
    rw [List.cons_append, universalNewlines_cons (Ne.symm h.1), ih h.2, List.cons_append]

/-- Line ends are read piece by piece, unless a pair is cut. -/
theorem universalNewlines_append {text rest : Text} (h : text.getLast? = some '\r' → rest.head? ≠ some '\n') :
    universalNewlines (text ++ rest) = universalNewlines text ++ universalNewlines rest := by
  fun_induction universalNewlines text with
  | case1 => rfl
  | case2 text ih =>
    have hrest : text.getLast? = some '\r' → rest.head? ≠ some '\n' := fun hlast => h (by simp [List.getLast?_cons, hlast])
    rw [List.cons_append, List.cons_append, universalNewlines, ih hrest, List.cons_append]
  | case3 text hnewline ih =>
    have hrest : text.getLast? = some '\r' → rest.head? ≠ some '\n' := fun hlast => h (by simp [List.getLast?_cons, hlast])
    rw [List.cons_append, universalNewlines_return, ih hrest, List.cons_append]
    rintro text' heq
    cases text with
    | nil => exact h rfl (by rw [List.nil_append] at heq; rw [heq]; rfl)
    | cons c text => exact hnewline text (by rw [(List.cons.inj heq).1])
  | case4 c text _ hc ih =>
    have hrest : text.getLast? = some '\r' → rest.head? ≠ some '\n' := fun hlast => h (by simp [List.getLast?_cons, hlast])
    rw [List.cons_append, universalNewlines_cons hc, ih hrest, List.cons_append]

/-- A newline stays one. -/
theorem exists_universalNewlines_newline (text : Text) : ∃ text', universalNewlines (text ++ ['\n']) = text' ++ ['\n'] := by
  by_cases hlast : text.getLast? = some '\r'
  · obtain ⟨text, rfl⟩ := List.getLast?_eq_some_iff.mp hlast
    refine ⟨universalNewlines text, ?_⟩
    rw [List.append_assoc, universalNewlines_append (by simp)]
    rfl
  · exact ⟨universalNewlines text, universalNewlines_append fun h => absurd h hlast⟩

theorem return_not_mem_universalNewlines (text : Text) : '\r' ∉ universalNewlines text := by
  fun_induction universalNewlines text with
  | case1 => exact List.not_mem_nil
  | case2 text ih => simpa using ih
  | case3 text _ ih => simpa using ih
  | case4 c text _ hc ih =>
    rw [List.mem_cons, not_or]
    exact ⟨fun h => hc h.symm, ih⟩

theorem length_universalNewlines_le (text : Text) : (universalNewlines text).length ≤ text.length := by
  fun_induction universalNewlines text with
  | case1 => exact le_rfl
  | case2 text ih => simp only [List.length_cons]; omega
  | case3 text _ ih => simp only [List.length_cons]; omega
  | case4 c text _ _ ih => simp only [List.length_cons]; omega

theorem splitKeepends_append_newline {line : Text} (h : '\n' ∉ line) (text : Text) :
    splitKeepends (line ++ '\n' :: text) = (line ++ ['\n']) :: splitKeepends text := by
  induction line with
  | nil => rfl
  | cons c line ih =>
    rw [List.mem_cons, not_or] at h
    rw [List.cons_append, splitKeepends, if_neg (Ne.symm h.1), ih h.2]
    rfl

theorem splitKeepends_of_not_mem {line : Text} (h : '\n' ∉ line) (hne : line ≠ []) : splitKeepends line = [line] := by
  induction line with
  | nil => exact absurd rfl hne
  | cons c line ih =>
    rw [List.mem_cons, not_or] at h
    rw [splitKeepends, if_neg (Ne.symm h.1)]
    cases line with
    | nil => rfl
    | cons c' line => rw [ih h.2 (List.cons_ne_nil c' line), consHead]

theorem splitKeepends_ne_nil {text : Text} (h : text ≠ []) : splitKeepends text ≠ [] := by
  cases text with
  | nil => exact absurd rfl h
  | cons c text =>
    rw [splitKeepends]
    split_ifs
    · exact List.cons_ne_nil _ _
    · exact consHead_ne_nil c _

/-- A newline ends a line. -/
theorem splitKeepends_newline_append (text rest : Text) :
    splitKeepends (text ++ '\n' :: rest) = splitKeepends (text ++ ['\n']) ++ splitKeepends rest := by
  induction text with
  | nil => rfl
  | cons c text ih =>
    rw [List.cons_append, List.cons_append, splitKeepends, splitKeepends, ih]
    split_ifs
    · rfl
    · cases hlines : splitKeepends (text ++ ['\n']) with
      | nil => exact absurd hlines (splitKeepends_ne_nil (by simp))
      | cons line lines => rfl

/-- The last line of a text ends with what the text ends with. -/
theorem exists_splitKeepends_line (text : Text) {line : Text} (h : '\n' ∉ line) :
    ∃ lines before, splitKeepends (text ++ (line ++ ['\n'])) = lines ++ [before ++ line ++ ['\n']] ∧ '\n' ∉ before := by
  induction text with
  | nil => exact ⟨[], [], splitKeepends_append_newline h [], List.not_mem_nil⟩
  | cons c text ih =>
    obtain ⟨lines, before, hlines, hbefore⟩ := ih
    rw [List.cons_append, splitKeepends, hlines]
    split_ifs with hc
    · exact ⟨[c] :: lines, before, rfl, hbefore⟩
    · cases lines with
      | nil => exact ⟨[], c :: before, rfl, by simp [hbefore, Ne.symm hc]⟩
      | cons first lines => exact ⟨(c :: first) :: lines, before, rfl, hbefore⟩

theorem splitlines_append_newline {line : Text} (h : OneLine line) (text : Text) :
    splitlines (line ++ '\n' :: text) = line :: splitlines text := by
  induction line with
  | nil =>
    have hnewline : isLineBoundary '\n' = true := by decide
    rw [List.nil_append, splitlines, if_pos hnewline]
    rintro _ h
    cases h
  | cons c line ih =>
    obtain ⟨hc, hline⟩ := List.forall_mem_cons.mp h
    rw [List.cons_append, splitlines, if_neg (by simp [hc]), ih hline, consHead]
    rintro _ rfl
    cases hc

theorem splitlines_unlines {lines : List Text} (h : ∀ line ∈ lines, OneLine line) :
    splitlines (unlines lines) = lines := by
  induction lines with
  | nil => rfl
  | cons line lines ih =>
    obtain ⟨hline, hlines⟩ := List.forall_mem_cons.mp h
    rw [unlines_cons, splitlines_append_newline hline, ih hlines]

theorem rstripNewlines_of_not_mem {line : Text} (h : '\n' ∉ line) : rstripNewlines line = line := by
  rw [rstripNewlines, List.rdropWhile_eq_self_iff]
  intro hne hlast
  exact h (of_decide_eq_true hlast ▸ List.getLast_mem hne)

theorem rstripNewlines_append_newline {line : Text} (h : '\n' ∉ line) : rstripNewlines (line ++ ['\n']) = line := by
  rw [rstripNewlines, List.rdropWhile_concat_pos _ _ _ rfl]
  exact rstripNewlines_of_not_mem h

/-- What follows a newline is read on its own. -/
theorem fileLines_newline_append (text rest : Text) :
    fileLines (text ++ '\n' :: rest) = fileLines (text ++ ['\n']) ++ fileLines rest := by
  obtain ⟨text', htext⟩ := exists_universalNewlines_newline text
  have happend : universalNewlines (text ++ '\n' :: rest) = text' ++ '\n' :: universalNewlines rest := by
    rw [List.append_cons text, universalNewlines_append (by simp), htext, ← List.append_cons]
  rw [fileLines, fileLines, fileLines, happend, htext, splitKeepends_newline_append]

/-- A line that is printed behind any text is the end of the last line. -/
theorem exists_rstrip_fileLines_line (text : Text) {line : Text} (h : IsLine line) (hne : line ≠ []) :
    ∃ lines before, (fileLines (text ++ (line ++ ['\n']))).map rstripNewlines = lines ++ [before ++ line] := by
  have hhead : (line ++ ['\n']).head? ≠ some '\n' := by
    cases line with
    | nil => exact absurd rfl hne
    | cons c line => exact fun heq => h.1 (by simp_all)
  have hreturn : '\r' ∉ line ++ ['\n'] := by simp [h.2]
  obtain ⟨lines, before, hlines, hbefore⟩ := exists_splitKeepends_line (universalNewlines text) h.1
  refine ⟨lines.map rstripNewlines, before, ?_⟩
  rw [fileLines, universalNewlines_append fun _ => hhead, universalNewlines_of_not_mem hreturn, hlines, List.map_append,
    List.map_singleton, rstripNewlines_append_newline (by simp [hbefore, h.1])]

/-- What is left of a line that was cut off: nothing, or a line without its newline. -/
def remnant (text : Text) : List Text := if text = [] then [] else [text]

theorem remnant_eq_nil_or (part : Text) : remnant part = [] ∨ remnant part = [part] := by
  rw [remnant]
  split_ifs
  · exact .inl rfl
  · exact .inr rfl

theorem eq_of_mem_remnant {line part : Text} (h : line ∈ remnant part) : line = part := by
  rcases remnant_eq_nil_or part with hnil | hpart
  · exact absurd h (by simp [hnil])
  · rwa [hpart, List.mem_singleton] at h

/-- Lines, and a line that was cut off, are read as they are. -/
theorem rstrip_fileLines {lines : List Text} {cut : Text} (hlines : ∀ line ∈ lines, IsLine line) (hcut : IsLine cut) :
    (fileLines (unlines lines ++ cut)).map rstripNewlines = lines ++ remnant cut := by
  have hreturn : '\r' ∉ unlines lines ++ cut := by
    rw [List.mem_append, not_or]
    refine ⟨fun h => ?_, hcut.2⟩
    obtain ⟨text, htext, hmem⟩ := List.mem_flatten.mp h
    obtain ⟨line, hline, rfl⟩ := List.mem_map.mp htext
    rcases List.mem_append.mp hmem with hmem | hmem
    · exact (hlines line hline).2 hmem
    · exact absurd (List.mem_singleton.mp hmem) (by decide)
  rw [fileLines, universalNewlines_of_not_mem hreturn]
  clear hreturn
  induction lines with
  | nil =>
    rw [unlines_nil, List.nil_append, List.nil_append, remnant]
    split_ifs with hnil
    · rw [hnil]
      rfl
    · rw [splitKeepends_of_not_mem hcut.1 hnil, List.map_singleton, rstripNewlines_of_not_mem hcut.1]
  | cons line lines ih =>
    have hline := (hlines line List.mem_cons_self).1
    rw [unlines_cons, List.append_assoc, List.cons_append, splitKeepends_append_newline hline, List.map_cons,
      rstripNewlines_append_newline hline, ih fun line' h => hlines line' (List.mem_cons_of_mem line h)]
    rfl

/-- Lines are read with their newlines. -/
theorem fileLines_unlines {lines : List Text} (h : ∀ line ∈ lines, IsLine line) :
    fileLines (unlines lines) = lines.map (· ++ ['\n']) := by
  have hreturn : '\r' ∉ unlines lines := by
    intro hmem
    obtain ⟨text, htext, hmem⟩ := List.mem_flatten.mp hmem
    obtain ⟨line, hline, rfl⟩ := List.mem_map.mp htext
    exact (h line hline).2 (by simpa using hmem)
  rw [fileLines, universalNewlines_of_not_mem hreturn]
  clear hreturn
  induction lines with
  | nil => rfl
  | cons line lines ih =>
    rw [unlines_cons, splitKeepends_append_newline (h line List.mem_cons_self).1,
      ih fun line' h' => h line' (List.mem_cons_of_mem line h'), List.map_cons]

/-- Where a text of lines can be cut off: within a line, or within what follows the lines. -/
theorem prefix_unlines {lines : List Text} {last cut : Text} (h : cut <+: unlines lines ++ last) :
    (∃ before line after part, lines = before ++ line :: after ∧ part <+: line ∧ cut = unlines before ++ part) ∨
      ∃ part, part <+: last ∧ cut = unlines lines ++ part := by
  induction lines generalizing cut with
  | nil => exact .inr ⟨cut, h, rfl⟩
  | cons line lines ih =>
    have hline : line <+: unlines (line :: lines) ++ last := by
      rw [unlines_cons, List.append_assoc]
      exact List.prefix_append _ _
    rcases List.prefix_or_prefix_of_prefix h hline with hcut | ⟨cut', rfl⟩
    · exact .inl ⟨[], line, lines, cut, rfl, hcut, rfl⟩
    · rw [unlines_cons, List.append_assoc, List.prefix_append_right_inj, List.cons_append] at h
      rcases cut' with _ | ⟨c, cut'⟩
      · exact .inl ⟨[], line, lines, line, rfl, List.prefix_rfl, List.append_nil line⟩
      · obtain ⟨rfl, hrest⟩ := List.cons_prefix_cons.mp h
        rcases ih hrest with ⟨before, line', after, part, rfl, hpart, rfl⟩ | ⟨part, hpart, rfl⟩
        · exact .inl ⟨line :: before, line', after, part, rfl, hpart, by simp⟩
        · exact .inr ⟨part, hpart, by simp⟩

/-- An entry of what a list is made into comes from one of its members. -/
theorem exists_of_flatMap_eq_append_cons {α β : Type*} {f : α → List β} {l : List α} {before after : List β} {b : β}
    (h : l.flatMap f = before ++ b :: after) :
    ∃ l₁ a l₂ head rest, l = l₁ ++ a :: l₂ ∧ f a = head ++ b :: rest ∧ before = l₁.flatMap f ++ head := by
  induction l generalizing before with
  | nil => exact absurd h.symm (by simp)
  | cons a l ih =>
    rw [List.flatMap_cons] at h
    have hlater : ∀ before', l.flatMap f = before' ++ b :: after → before = f a ++ before' →
        ∃ l₁ a' l₂ head rest, a :: l = l₁ ++ a' :: l₂ ∧ f a' = head ++ b :: rest ∧ before = l₁.flatMap f ++ head := by
      rintro before' hl rfl
      obtain ⟨l₁, a', l₂, head, rest, rfl, ha', rfl⟩ := ih hl
      exact ⟨a :: l₁, a', l₂, head, rest, rfl, ha', by simp⟩
    rcases List.append_eq_append_iff.mp h with ⟨before', hbefore, hl⟩ | ⟨rest, ha, hl⟩
    · exact hlater before' hl hbefore
    · cases rest with
      | nil => exact hlater [] hl.symm (by simpa using ha.symm)
      | cons c rest =>
        obtain ⟨rfl, -⟩ := List.cons.inj hl
        exact ⟨[], a, l, before, rest, rfl, ha, rfl⟩

/-- A list is cut at its last separator in one way. -/
theorem append_cons_inj_of_last {α : Type*} {l l' r r' : List α} {a : α} (hr : a ∉ r) (hr' : a ∉ r')
    (h : l ++ a :: r = l' ++ a :: r') : l = l' ∧ r = r' := by
  have hcut {m r r' : List α} (hr : a ∉ r) (h : a :: r = m ++ a :: r') : m = [] := by
    cases m with
    | nil => rfl
    | cons b m =>
      rw [(List.cons.inj h).2] at hr
      exact absurd (List.mem_append_right m List.mem_cons_self) hr
  rcases List.append_eq_append_iff.mp h with ⟨m, rfl, hm⟩ | ⟨m, rfl, hm⟩
  · obtain rfl := hcut hr hm
    exact ⟨(List.append_nil l).symm, (List.cons.inj hm).2⟩
  · obtain rfl := hcut hr' hm
    exact ⟨List.append_nil l', (List.cons.inj hm).2.symm⟩

/-! ### Numerals -/

/-- The decimal numeral of a natural number. -/
def natText (n : ℕ) : Text := Nat.toDigits 10 n

/-- `str(n)`. -/
def intText : ℤ → Text
  | .ofNat n => natText n
  | .negSucc n => '-' :: natText (n + 1)

theorem isDigit_of_mem_natText {n : ℕ} {c : Char} (h : c ∈ natText n) : c.isDigit :=
  Nat.isDigit_of_mem_toDigits (by decide) le_rfl h

theorem natText_ne_nil (n : ℕ) : natText n ≠ [] := Nat.toDigits_ne_nil

theorem isSpace_eq_false_of_isDigit {c : Char} (h : c.isDigit) : isSpace c = false := by
  rw [Char.isDigit, Bool.and_eq_true, decide_eq_true_eq, decide_eq_true_eq] at h
  have hlow : 48 ≤ c.toNat := UInt32.le_iff_toNat_le.mp h.1
  have hhigh : c.toNat ≤ 57 := UInt32.le_iff_toNat_le.mp h.2
  simp only [isSpace, Bool.or_eq_false_iff, Bool.and_eq_false_iff, decide_eq_false_iff_not, beq_eq_false_iff_ne]
  omega

theorem isSpace_eq_false_of_mem_intText {n : ℤ} {c : Char} (h : c ∈ intText n) : isSpace c = false := by
  cases n with
  | ofNat n => exact isSpace_eq_false_of_isDigit (isDigit_of_mem_natText h)
  | negSucc n =>
    rcases List.mem_cons.mp h with rfl | h
    · rfl
    · exact isSpace_eq_false_of_isDigit (isDigit_of_mem_natText h)

theorem intText_ne_nil (n : ℤ) : intText n ≠ [] := by
  cases n with
  | ofNat n => exact natText_ne_nil n
  | negSucc n => exact List.cons_ne_nil _ _

end CachingInLLMs.Library

import CachingInLLMs.Library.Run
import Mathlib.Logic.Function.Basic

/-!
# Replacing a file

A file is replaced by writing the new text to another path, and renaming that. The
operations are those of a process: `create` empties a file or makes it, `append` adds one character
to it, and `rename` puts it in the place of another. A process that dies has done the first few of its
operations, and `replace_take` says what each number of them leaves: before the rename the
old file as it was, after it the whole new text, and never a part.

A command that reads files, makes a text of them and puts it in the place of one of them is
tried until it succeeds: `Attempts` are runs of it, each stopped after some number of
operations, and `attempts_replace` says that they come to what one of them does.

What is not a matter of the process is left out: the operations reach the disk in their order.
-/

namespace CachingInLLMs.Library

variable {π α : Type} [DecidableEq π]

/-- The contents of the files; none where there is no file. -/
abbrev Files (π α : Type) := π → Option (List α)

/-- An operation on a file. -/
inductive FileOp (π α : Type) where
  /-- `open(path, "w")`. -/
  | create (path : π)
  /-- Write one character. -/
  | append (path : π) (x : α)
  /-- `os.replace(src, dst)`. -/
  | rename (src dst : π)

/-- What an operation does. -/
def FileOp.apply : FileOp π α → Files π α → Files π α
  | .create path, files => Function.update files path (some [])
  | .append path x, files => Function.update files path ((files path).map (· ++ [x]))
  | .rename src dst, files => Function.update (Function.update files dst (files src)) src none

/-- What operations do, one after another. -/
def Files.after (files : Files π α) (ops : List (FileOp π α)) : Files π α := ops.foldl (fun files op => op.apply files) files

/-- The operations that write a text to `tmp`. -/
def writeOps (tmp : π) (text : List α) : List (FileOp π α) := .create tmp :: text.map (.append tmp)

/-- The operations that replace the file at `path` by way of `tmp`. -/
def replaceOps (tmp path : π) (text : List α) : List (FileOp π α) := writeOps tmp text ++ [.rename tmp path]

variable {files : Files π α} {tmp path : π} {text : List α}

omit [DecidableEq π] in
@[simp] theorem length_replaceOps : (replaceOps tmp path text).length = text.length + 2 := by
  simp [replaceOps, writeOps]

theorem Files.after_append (ops ops' : List (FileOp π α)) : files.after (ops ++ ops') = (files.after ops).after ops' :=
  List.foldl_append

/-- The characters that are written one after another are the text. -/
theorem after_appends (files : Files π α) (written : List α) (h : files tmp = some written) (text : List α) :
    files.after (text.map (.append tmp)) = Function.update files tmp (some (written ++ text)) := by
  induction text generalizing files written with
  | nil =>
    rw [List.append_nil, ← h, Function.update_eq_self]
    rfl
  | cons x text ih =>
    have hhead : ((FileOp.append tmp x).apply files) tmp = some (written ++ [x]) := by
      rw [FileOp.apply, Function.update_self, h, Option.map_some]
    have hrest := ih _ (written ++ [x]) hhead
    rw [FileOp.apply, Function.update_idem, List.append_assoc, List.singleton_append] at hrest
    exact hrest

theorem after_writeOps (text : List α) : files.after (writeOps tmp text) = Function.update files tmp (some text) := by
  have happends := after_appends (Function.update files tmp (some [])) [] (Function.update_self ..) text
  rw [Function.update_idem, List.nil_append] at happends
  exact happends

theorem after_replaceOps (text : List α) : files.after (replaceOps tmp path text) =
    Function.update (Function.update files path (some text)) tmp none := by
  rw [replaceOps, Files.after_append, after_writeOps]
  show (FileOp.rename tmp path).apply (Function.update files tmp (some text)) = _
  rw [FileOp.apply, Function.update_self]
  by_cases hpath : path = tmp
  · simp only [hpath, Function.update_idem]
  · rw [Function.update_comm hpath, Function.update_idem, Function.update_comm hpath]

/-- Before the rename, only `tmp` has changed. -/
theorem after_take_of_lt {k : ℕ} (hk : k < text.length + 2) {other : π} (hother : other ≠ tmp) :
    files.after ((replaceOps tmp path text).take k) other = files other := by
  have htake : (replaceOps tmp path text).take k = (writeOps tmp text).take k := by
    rw [replaceOps, List.take_append_of_le_length]
    simp only [writeOps, List.length_cons, List.length_map]
    omega
  rw [htake]
  cases k with
  | zero => rfl
  | succ k =>
    have hwrite : (writeOps tmp text).take (k + 1) = writeOps tmp (text.take k) := by
      simp only [writeOps, List.take_succ_cons, List.map_take]
    rw [hwrite, after_writeOps, Function.update_of_ne hother]

/-- **A file is replaced as a whole.** After any number of the operations, the file has its old text
or the new one, the new one exactly if all are done; no other file has changed but `tmp`. -/
theorem replace_take (files : Files π α) (text : List α) (hne : path ≠ tmp) (k : ℕ) :
    files.after ((replaceOps tmp path text).take k) path = (if text.length + 2 ≤ k then some text else files path) ∧
      ∀ other, other ≠ path → other ≠ tmp → files.after ((replaceOps tmp path text).take k) other = files other := by
  by_cases hk : text.length + 2 ≤ k
  · have hall : (replaceOps tmp path text).take k = replaceOps tmp path text :=
      List.take_of_length_le (by rw [length_replaceOps]; exact hk)
    rw [hall, after_replaceOps, if_pos hk]
    constructor
    · rw [Function.update_of_ne hne, Function.update_self]
    · intro other hpath htmp
      rw [Function.update_of_ne htmp, Function.update_of_ne hpath]
  · rw [if_neg hk]
    exact ⟨after_take_of_lt (Nat.lt_of_not_le hk) hne, fun other _ htmp => after_take_of_lt (Nat.lt_of_not_le hk) htmp⟩

/-! ### Attempts -/

section Attempts

variable {next : Files π α → Option (List α)} {files' : Files π α} {new : List α} {ks : List ℕ}

/-- One attempt, stopped after `k` operations: the text to write is read off the files, if there is one. -/
def attempt (tmp path : π) (next : Files π α → Option (List α)) (files : Files π α) (k : ℕ) : Files π α :=
  match next files with
  | some text => files.after ((replaceOps tmp path text).take k)
  | none => files

/-- Attempts one after another. -/
abbrev Attempts (tmp path : π) (next : Files π α → Option (List α)) : Files π α → List ℕ → Files π α → Prop :=
  Run fun files k files' => files' = attempt tmp path next files k

/-- Attempts can be stopped anywhere. -/
theorem exists_attempts (tmp path : π) (next : Files π α → Option (List α)) (files : Files π α) (ks : List ℕ) :
    ∃ files', Attempts tmp path next files ks files' := by
  induction ks generalizing files with
  | nil => exact ⟨files, Run.nil files⟩
  | cons k ks ih =>
    obtain ⟨files', hrest⟩ := ih (attempt tmp path next files k)
    exact ⟨files', Run.cons rfl hrest⟩

/-- The files are the same, but for `tmp`. -/
def SameBut (tmp : π) (files files' : Files π α) : Prop := ∀ other, other ≠ tmp → files' other = files other

/-- The text is the same before the file is replaced and after. -/
structure Settled (tmp path : π) (next : Files π α → Option (List α)) (files : Files π α) (new : List α) : Prop where
  /-- Before. -/
  before : ∀ files', SameBut tmp files files' → next files' = some new
  /-- After. -/
  after : ∀ files', SameBut tmp (Function.update files path (some new)) files' → next files' = some new

theorem attempt_of_sameBut (hne : path ≠ tmp) (hsame : SameBut tmp files files') (hnext : next files' = some new)
    (k : ℕ) : SameBut tmp (if new.length + 2 ≤ k then Function.update files path (some new) else files)
      (attempt tmp path next files' k) := by
  have htake := replace_take files' new hne k
  intro other hother
  rw [attempt, hnext]
  by_cases hpath : other = path
  · subst hpath
    show files'.after ((replaceOps tmp other new).take k) other = _
    rw [htake.1]
    split_ifs
    · rw [Function.update_self]
    · exact hsame other hother
  · have hrest := (htake.2 other hpath hother).trans (hsame other hother)
    split_ifs
    · rw [Function.update_of_ne hpath]
      exact hrest
    · exact hrest

/-- Attempts after the file is replaced leave it so. -/
theorem attempts_of_replaced (hne : path ≠ tmp) (h : Settled tmp path next files new)
    (hsame : SameBut tmp (Function.update files path (some new)) files') {files'' : Files π α}
    (hrun : Attempts tmp path next files' ks files'') : SameBut tmp (Function.update files path (some new)) files'' := by
  refine hrun.invariant_of (Q := fun _ => True) (fun s k s' _ hs hstep => ?_) (fun _ _ => trivial) hsame
  have hnext := attempt_of_sameBut hne hs (h.after s hs) k
  rw [Function.update_idem, ite_self] at hnext
  rw [hstep]
  exact hnext

/-- **Attempts come to one.** However many attempts are stopped, and wherever, the file has its old text
until one of them is not stopped before its end, and the new text from then on; no other file changes but `tmp`. -/
theorem attempts_replace (hne : path ≠ tmp) (h : Settled tmp path next files new)
    (hsame : SameBut tmp files files') {files'' : Files π α} (hrun : Attempts tmp path next files' ks files'') :
    SameBut tmp (if ∃ k ∈ ks, new.length + 2 ≤ k then Function.update files path (some new) else files) files'' := by
  induction ks generalizing files' with
  | nil =>
    obtain rfl := run_nil_iff.mp hrun
    simpa using hsame
  | cons k ks ih =>
    obtain ⟨t, rfl, hrest⟩ := run_cons_iff.mp hrun
    have hattempt := attempt_of_sameBut hne hsame (h.before files' hsame) k
    by_cases hk : new.length + 2 ≤ k
    · rw [if_pos hk] at hattempt
      rw [if_pos ⟨k, List.mem_cons_self, hk⟩]
      exact attempts_of_replaced hne h hattempt hrest
    · rw [if_neg hk] at hattempt
      simpa [hk] using ih hattempt hrest

end Attempts

end CachingInLLMs.Library

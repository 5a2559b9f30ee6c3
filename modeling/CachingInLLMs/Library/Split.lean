import Mathlib.Data.List.Basic

/-!
# Splitting at a separator

`splitOn sep l` cuts `l` at the non-overlapping occurrences of the non-empty
separator `sep`, found from the left, as Python's `str.split(sep)` does: `n`
occurrences give `n + 1` pieces.
-/

namespace CachingInLLMs.Library

universe u

variable {α : Type u} [DecidableEq α]

/-- Put `x` before the first piece. -/
def consHead (x : α) : List (List α) → List (List α)
  | [] => [[x]]
  | p :: ps => (x :: p) :: ps

/-- Split, after skipping `skip` items of a separator already recognized. -/
def splitFrom (sep : List α) : ℕ → List α → List (List α)
  | _, [] => [[]]
  | skip + 1, _ :: l => splitFrom sep skip l
  | 0, x :: l => if sep.isPrefixOf (x :: l) then [] :: splitFrom sep (sep.length - 1) l
      else consHead x (splitFrom sep 0 l)

/-- `l.split(sep)`, for a non-empty separator. -/
def splitOn (sep l : List α) : List (List α) := splitFrom sep 0 l

omit [DecidableEq α] in
theorem consHead_ne_nil (x : α) (ps : List (List α)) : consHead x ps ≠ [] := by
  cases ps <;> simp [consHead]

theorem splitFrom_ne_nil (sep : List α) (n : ℕ) (l : List α) : splitFrom sep n l ≠ [] := by
  induction l generalizing n with
  | nil => simp [splitFrom]
  | cons x l ih =>
    cases n with
    | zero =>
      rw [splitFrom]
      split
      · simp
      · exact consHead_ne_nil _ _
    | succ n => exact ih n

/-- There is always a first piece. -/
theorem splitOn_ne_nil (sep l : List α) : splitOn sep l ≠ [] := splitFrom_ne_nil sep 0 l

theorem splitOn_cons_of_not_isPrefix {sep : List α} {x : α} {l : List α}
    (h : sep.isPrefixOf (x :: l) = false) : splitOn sep (x :: l) = consHead x (splitOn sep l) := by
  simp [splitOn, splitFrom, h]

/-- Text without the separator is one piece. -/
theorem splitOn_singleton_of_not_mem {c : α} {l : List α} (h : c ∉ l) : splitOn [c] l = [l] := by
  induction l with
  | nil => rfl
  | cons x l ih =>
    rw [List.mem_cons, not_or] at h
    rw [splitOn_cons_of_not_isPrefix (by simp [List.isPrefixOf, h.1]), ih h.2, consHead]

/-- With a one-item separator, what follows its last occurrence is the last piece, and
it is not the only one. -/
theorem splitOn_singleton_append {c : α} (l : List α) {p : List α} (h : c ∉ p) :
    ∃ q qs, splitOn [c] (l ++ c :: p) = q :: qs ∧ qs.getLast? = some p := by
  induction l with
  | nil =>
    refine ⟨[], [p], ?_, rfl⟩
    have hp : splitFrom [c] 0 p = [p] := splitOn_singleton_of_not_mem h
    simp [splitOn, splitFrom, hp]
  | cons x l ih =>
    obtain ⟨q, qs, hq, hlast⟩ := ih
    by_cases hx : c = x
    · refine ⟨[], q :: qs, ?_, ?_⟩
      · have : splitFrom [c] 0 (l ++ c :: p) = q :: qs := hq
        simp [splitOn, splitFrom, hx.symm, this]
      · rw [List.getLast?_cons, hlast]
        rfl
    · refine ⟨x :: q, qs, ?_, hlast⟩
      rw [List.cons_append, splitOn_cons_of_not_isPrefix (by simp [List.isPrefixOf, hx]), hq, consHead]

end CachingInLLMs.Library

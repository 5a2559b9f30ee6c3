import Mathlib.Algebra.Order.Group.Nat
import Mathlib.Data.List.Basic
import Mathlib.Data.List.Induction
import Mathlib.Tactic.Common

/-!
# Cutting a list into chunks

A list is cut from the left into chunks of a fixed size; what is left over at the
end makes a short final chunk. Chunk `n` has the elements from `n * size` up to
`chunkStop size length n`, and there are `chunkCount size length` chunks.

The stops increase strictly and the last one is the length. The chunks of a prefix
that ends at a stop are the first chunks of the list (`slices_take`), and
a list is its chunks, one after another (`flatten_slices`).

The last section is about the common prefix of two lists, and about folds that
remember the whole list they were given.
-/

namespace CachingInLLMs.Library

universe u v

variable {α : Type u} {β : Type v}

/-- How many chunks a list of that length has. -/
def chunkCount (size length : ℕ) : ℕ := (length + size - 1) / size

/-- Where chunk `n` stops. -/
def chunkStop (size length n : ℕ) : ℕ := min ((n + 1) * size) length

/-- `[l[s : s + size] for s in range(0, len(l), size)]`. -/
def slices (size : ℕ) (l : List α) : List (List α) :=
  (List.range (chunkCount size l.length)).map fun n => (l.drop (n * size)).take size

/-! ### Counts and stops -/

section Stops

variable {size length n m : ℕ}

theorem lt_chunkCount (hsize : 0 < size) : n < chunkCount size length ↔ n * size < length := by
  rw [chunkCount, ← Nat.succ_le_iff, Nat.le_div_iff_mul_le hsize, Nat.succ_mul]
  omega

theorem chunkStop_le : chunkStop size length n ≤ length := Nat.min_le_right _ _

theorem chunkStop_pos (hsize : 0 < size) (hn : n < chunkCount size length) : 0 < chunkStop size length n := by
  have hlen := (lt_chunkCount hsize).mp hn
  have hstop : 0 < (n + 1) * size := Nat.mul_pos n.succ_pos hsize
  rw [chunkStop]
  omega

/-- A chunk before another is full. -/
theorem chunkStop_of_lt (hsize : 0 < size) (hnm : n < m) (hm : m < chunkCount size length) :
    chunkStop size length n = (n + 1) * size := by
  have hlen := (lt_chunkCount hsize).mp hm
  have hle : (n + 1) * size ≤ m * size := Nat.mul_le_mul_right size hnm
  rw [chunkStop]
  omega

theorem chunkStop_lt_chunkStop (hsize : 0 < size) (hnm : n < m) (hm : m < chunkCount size length) :
    chunkStop size length n < chunkStop size length m := by
  have hlen := (lt_chunkCount hsize).mp hm
  have hle : (n + 1) * size ≤ m * size := Nat.mul_le_mul_right size hnm
  have hsucc : (m + 1) * size = m * size + size := Nat.succ_mul m size
  rw [chunkStop_of_lt hsize hnm hm, chunkStop]
  omega

/-- The last chunk stops at the end. -/
theorem chunkStop_last (hsize : 0 < size) (hn : n + 1 = chunkCount size length) :
    chunkStop size length n = length := by
  have hlast : ¬ n + 1 < chunkCount size length := by omega
  rw [lt_chunkCount hsize] at hlast
  rw [chunkStop]
  omega

/-- Cutting at a stop leaves the chunks up to it. -/
theorem chunkCount_chunkStop (hsize : 0 < size) (hn : n < chunkCount size length) :
    chunkCount size (chunkStop size length n) = n + 1 := by
  have hlen := (lt_chunkCount hsize).mp hn
  have hsucc : (n + 1) * size = n * size + size := Nat.succ_mul n size
  have hlt : n < chunkCount size (chunkStop size length n) := by
    rw [lt_chunkCount hsize, chunkStop]
    omega
  have hge : ¬ n + 1 < chunkCount size (chunkStop size length n) := by
    rw [lt_chunkCount hsize, chunkStop]
    omega
  omega

end Stops

/-! ### Slices -/

theorem flatten_slices_range (size : ℕ) (l : List α) (n : ℕ) :
    ((List.range n).map fun m => (l.drop (m * size)).take size).flatten = l.take (n * size) := by
  induction n with
  | zero => simp
  | succ n ih =>
    rw [List.range_succ, List.map_append, List.flatten_append, ih, Nat.succ_mul, List.take_add]
    simp

/-- A list is its chunks, one after another. -/
theorem flatten_slices {size : ℕ} (hsize : 0 < size) (l : List α) : (slices size l).flatten = l := by
  rw [slices, flatten_slices_range]
  refine List.take_of_length_le ?_
  have : ¬ chunkCount size l.length < chunkCount size l.length := lt_irrefl _
  rw [lt_chunkCount hsize] at this
  omega

/-- The chunks of a prefix that ends at a stop are the first chunks of the list. -/
theorem slices_take {size n : ℕ} (hsize : 0 < size) {l : List α} (hn : n < chunkCount size l.length) :
    slices size (l.take (chunkStop size l.length n)) =
      (List.range (n + 1)).map fun m => (l.drop (m * size)).take size := by
  have hlength : (l.take (chunkStop size l.length n)).length = chunkStop size l.length n :=
    List.length_take_of_le chunkStop_le
  rw [slices, hlength, chunkCount_chunkStop hsize hn]
  refine List.map_congr_left fun m hm => ?_
  have hmn : (m + 1) * size ≤ (n + 1) * size := Nat.mul_le_mul_right size (List.mem_range.mp hm)
  have hsucc : (m + 1) * size = m * size + size := Nat.succ_mul m size
  rw [List.drop_take, List.take_take, List.take_eq_take_iff, List.length_drop, chunkStop]
  omega

/-! ### Common prefixes -/

/-- How long the common prefix of two lists is. -/
def commonPrefixLength [DecidableEq α] : List α → List α → ℕ
  | a :: l, b :: m => if a = b then commonPrefixLength l m + 1 else 0
  | _, _ => 0

section CommonPrefix

variable [DecidableEq α]

theorem commonPrefixLength_le_left (l m : List α) : commonPrefixLength l m ≤ l.length := by
  induction l, m using commonPrefixLength.induct with
  | case1 l a m ih => simpa [commonPrefixLength] using ih
  | case2 a l b m h => simp [commonPrefixLength, h]
  | case3 l m h => simp [commonPrefixLength]

theorem commonPrefixLength_le_right (l m : List α) : commonPrefixLength l m ≤ m.length := by
  induction l, m using commonPrefixLength.induct with
  | case1 l a m ih => simpa [commonPrefixLength] using ih
  | case2 a l b m h => simp [commonPrefixLength, h]
  | case3 l m h => simp [commonPrefixLength]

/-- Up to there the two lists agree. -/
theorem take_eq_of_le_commonPrefixLength {l m : List α} {n : ℕ} (hn : n ≤ commonPrefixLength l m) :
    l.take n = m.take n := by
  induction l, m using commonPrefixLength.induct generalizing n with
  | case1 l a m ih =>
    cases n with
    | zero => rfl
    | succ n =>
      rw [commonPrefixLength, if_pos rfl] at hn
      rw [List.take_succ_cons, List.take_succ_cons, ih (Nat.le_of_succ_le_succ hn)]
  | case2 a l b m h =>
    obtain rfl : n = 0 := by simpa [commonPrefixLength, h] using hn
    rfl
  | case3 l m h =>
    obtain rfl : n = 0 := by simpa [commonPrefixLength] using hn
    rfl

end CommonPrefix

/-! ### Folds that remember -/

/-- A fold whose step forgets nothing and never gives back the start value is
different on different lists. -/
theorem foldl_injective {f : β → α → β} {b : β} (hinj : ∀ x y a c, f x a = f y c → x = y ∧ a = c)
    (hstart : ∀ x a, f x a ≠ b) {l m : List α} (h : l.foldl f b = m.foldl f b) : l = m := by
  induction l using List.reverseRecOn generalizing m with
  | nil =>
    cases m using List.reverseRecOn with
    | nil => rfl
    | append_singleton m c => exact absurd (by simpa using h.symm) (hstart _ c)
  | append_singleton l a ih =>
    cases m using List.reverseRecOn with
    | nil => exact absurd (by simpa using h) (hstart _ a)
    | append_singleton m c =>
      rw [List.foldl_concat, List.foldl_concat] at h
      obtain ⟨hlm, rfl⟩ := hinj _ _ _ _ h
      rw [ih hlm]

end CachingInLLMs.Library

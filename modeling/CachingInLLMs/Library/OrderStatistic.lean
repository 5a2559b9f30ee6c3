import Mathlib.Data.List.Sort
import Mathlib.Order.Bounds.Defs

/-!
# Order statistics

The `i`-th smallest entry of a list, from 0 on. It is at most `v` exactly if more than
`i` entries are (`kth_le_iff`), and from this one fact follow the others: it grows with
`i`, it does not depend on the order of the list, and it grows with the entries.
-/

namespace CachingInLLMs.Library

variable {α : Type*} [LinearOrder α] {l l' : List α} {i j : ℕ} {v x y : α}

/-- The `i`-th smallest entry. -/
def kth (l : List α) (i : ℕ) : Option α := (l.insertionSort (· ≤ ·))[i]?

/-- In a sorted list, the entries up to a threshold come first. -/
theorem getElem_le_iff (h : l.Pairwise (· ≤ ·)) (hx : l[i]? = some x) :
    x ≤ v ↔ i < l.countP (· ≤ v) := by
  induction l generalizing i with
  | nil => simp at hx
  | cons a l ih =>
    obtain ⟨ha, hl⟩ := List.pairwise_cons.mp h
    by_cases hav : a ≤ v
    · rw [List.countP_cons_of_pos (by simpa using hav)]
      cases i with
      | zero =>
        rw [List.getElem?_cons_zero, Option.some.injEq] at hx
        exact iff_of_true (hx ▸ hav) (Nat.succ_pos _)
      | succ i =>
        rw [List.getElem?_cons_succ] at hx
        rw [ih hl hx, Nat.succ_lt_succ_iff]
    · -- then no later entry is at most the threshold either
      have hcount : l.countP (· ≤ v) = 0 := by
        refine List.countP_eq_zero.mpr fun b hb => ?_
        simpa using lt_of_lt_of_le (not_le.mp hav) (ha b hb)
      have hax : a ≤ x := by
        rcases List.mem_cons.mp (List.mem_of_getElem? hx) with rfl | hmem
        · exact le_rfl
        · exact ha x hmem
      rw [List.countP_cons_of_neg (by simpa using hav), hcount]
      exact iff_of_false (fun hxv => hav (hax.trans hxv)) (Nat.not_lt_zero i)

/-- **The `i`-th smallest entry is at most `v`** exactly if more than `i` entries are. -/
theorem kth_le_iff (hx : kth l i = some x) : x ≤ v ↔ i < l.countP (· ≤ v) := by
  rw [getElem_le_iff (List.pairwise_insertionSort _ l) hx,
    (List.perm_insertionSort (· ≤ ·) l).countP_eq]

theorem exists_kth (h : i < l.length) : ∃ x, kth l i = some x := by
  rw [← List.length_insertionSort (r := (· ≤ ·))] at h
  exact ⟨_, List.getElem?_eq_getElem h⟩

theorem mem_of_kth (h : kth l i = some x) : x ∈ l :=
  (List.mem_insertionSort (· ≤ ·)).mp (List.mem_of_getElem? h)

theorem kth_mono (hij : i ≤ j) (hx : kth l i = some x) (hy : kth l j = some y) : x ≤ y :=
  (kth_le_iff hx).mpr (hij.trans_lt ((kth_le_iff hy).mp le_rfl))

theorem kth_zero (h : kth l 0 = some x) : IsLeast {a | a ∈ l} x :=
  ⟨mem_of_kth h, fun _ ha => (kth_le_iff h).mpr (List.countP_pos_iff.mpr ⟨_, ha, by simp⟩)⟩

theorem kth_last (h : kth l (l.length - 1) = some x) : IsGreatest {a | a ∈ l} x := by
  refine ⟨mem_of_kth h, fun a ha => ?_⟩
  have hcount : l.length - 1 < l.countP (· ≤ x) := (kth_le_iff h).mp le_rfl
  have hle : l.countP (· ≤ x) ≤ l.length := List.countP_le_length
  have hall := List.countP_eq_length.mp (show l.countP (· ≤ x) = l.length by omega)
  exact of_decide_eq_true (hall a ha)

/-- Sorted, lists of the same entries are the same. -/
theorem insertionSort_eq_iff : l.insertionSort (· ≤ ·) = l'.insertionSort (· ≤ ·) ↔ l.Perm l' := by
  have hl := l.perm_insertionSort (· ≤ ·)
  have hl' := l'.perm_insertionSort (· ≤ ·)
  constructor
  · intro h
    exact hl.symm.trans (h ▸ hl')
  · intro h
    exact (hl.trans (h.trans hl'.symm)).eq_of_pairwise (fun _ _ _ _ => le_antisymm)
      (List.pairwise_insertionSort _ l) (List.pairwise_insertionSort _ l')

theorem kth_perm (h : l.Perm l') (i : ℕ) : kth l i = kth l' i := by
  rw [kth, kth, insertionSort_eq_iff.mpr h]

/-- Of larger entries, fewer are at most a threshold. -/
theorem countP_le_of_forall₂ (h : List.Forall₂ (· ≤ ·) l l') (v : α) :
    l'.countP (· ≤ v) ≤ l.countP (· ≤ v) := by
  induction h with
  | nil => exact le_rfl
  | @cons a b l l' hab _ ih =>
    rw [List.countP_cons, List.countP_cons]
    by_cases hb : b ≤ v
    · simpa [hb, hab.trans hb] using ih
    · simpa [hb] using ih.trans (Nat.le_add_right _ _)

theorem kth_le_kth (h : List.Forall₂ (· ≤ ·) l l') (hx : kth l i = some x)
    (hy : kth l' i = some y) : x ≤ y :=
  (kth_le_iff hx).mpr (((kth_le_iff hy).mp le_rfl).trans_le (countP_le_of_forall₂ h y))

end CachingInLLMs.Library

import Mathlib.Algebra.Order.BigOperators.Group.List
import Mathlib.Algebra.Order.Group.Defs
import Mathlib.Algebra.BigOperators.Ring.List
import Mathlib.Tactic.Abel

/-!
# Sums over the steps of a list

`stepSum f l` is the sum of `f a b` over the neighbours `a`, `b` in a list: how far a path
is, if `f a b` is the way from `a` to `b`. Differences telescope (`stepSum_sub`). If no way
is shorter for a stop on it, a path with fewer stops is no longer (`stepSum_le_of_sublist`).

`rises v l` is by how much the values rise along a list. It is no less than what the last is above
the first, and just that where no value is below the one before it (`rises_eq_sub_iff`).
-/

namespace CachingInLLMs.Library

variable {α M : Type*}

/-- The sum of `f` over the neighbours in a list. -/
def stepSum [AddCommMonoid M] (f : α → α → M) (l : List α) : M :=
  ((l.zip l.tail).map fun p => f p.1 p.2).sum

/-- Neighbours in an ordered list are in order. -/
theorem rel_of_mem_zip_tail {R : α → α → Prop} {l : List α} (hl : l.Pairwise R) :
    ∀ p ∈ l.zip l.tail, R p.1 p.2 := by
  induction l with
  | nil => exact fun p hp => absurd hp List.not_mem_nil
  | cons a l ih =>
    cases l with
    | nil => exact fun p hp => absurd hp List.not_mem_nil
    | cons b l =>
      obtain ⟨ha, hl⟩ := List.pairwise_cons.mp hl
      intro p hp
      rcases List.mem_cons.mp hp with rfl | hp
      · exact ha b List.mem_cons_self
      · exact ih hl p hp

section Monoid

variable [AddCommMonoid M] {f g : α → α → M}

@[simp] theorem stepSum_nil : stepSum f [] = 0 := rfl

@[simp] theorem stepSum_singleton (a : α) : stepSum f [a] = 0 := rfl

@[simp] theorem stepSum_cons_cons (a b : α) (l : List α) :
    stepSum f (a :: b :: l) = f a b + stepSum f (b :: l) :=
  List.sum_cons

theorem stepSum_map {β : Type*} (h : β → α) (l : List β) :
    stepSum f (l.map h) = stepSum (fun a b => f (h a) (h b)) l := by
  rw [stepSum, ← List.map_tail, List.zip_map, List.map_map]
  rfl

theorem stepSum_add (f g : α → α → M) (l : List α) :
    stepSum (fun a b => f a b + g a b) l = stepSum f l + stepSum g l := List.sum_map_add

/-- A path, and one more stop. -/
theorem stepSum_concat (a : α) (l : List α) (b : α) :
    stepSum f (a :: (l ++ [b])) = stepSum f (a :: l) + f (l.getLastD a) b := by
  induction l generalizing a with
  | nil => simp
  | cons c l ih => rw [List.cons_append, stepSum_cons_cons, ih, stepSum_cons_cons,
    List.getLastD_cons, add_assoc]

/-- A path, and another one from where it ends. -/
theorem stepSum_append (a : α) (l l' : List α) :
    stepSum f (a :: (l ++ l')) = stepSum f (a :: l) + stepSum f (l.getLastD a :: l') := by
  induction l generalizing a with
  | nil => rw [List.nil_append, stepSum_singleton, zero_add, List.getLastD_nil]
  | cons b l ih => rw [List.cons_append, stepSum_cons_cons, ih, stepSum_cons_cons, List.getLastD_cons, add_assoc]

/-- A path that passes through `a`. -/
theorem stepSum_append_cons (l : List α) (a : α) (l' : List α) :
    stepSum f (l ++ a :: l') = stepSum f (l ++ [a]) + stepSum f (a :: l') := by
  cases l with
  | nil => rw [List.nil_append, List.nil_append, stepSum_singleton, zero_add]
  | cons b l =>
    rw [List.cons_append, List.append_cons, stepSum_append, List.getLastD_concat]
    rfl

theorem stepSum_congr {R : α → α → Prop} (h : ∀ a b, R a b → f a b = g a b) {l : List α}
    (hl : l.IsChain R) :
    stepSum f l = stepSum g l := by
  induction l with
  | nil => rfl
  | cons a l ih =>
    cases l with
    | nil => rfl
    | cons b l =>
      obtain ⟨hab, hl⟩ := List.isChain_cons_cons.mp hl
      rw [stepSum_cons_cons, stepSum_cons_cons, h a b hab, ih hl]

end Monoid

/-- Differences telescope. -/
theorem stepSum_sub [AddCommGroup M] (g : α → M) (a : α) (l : List α) :
    stepSum (fun a b => g b - g a) (a :: l) = g (l.getLastD a) - g a := by
  induction l generalizing a with
  | nil => simp
  | cons b l ih =>
    rw [stepSum_cons_cons, ih, List.getLastD_cons]
    abel

theorem stepSum_mul [NonUnitalNonAssocSemiring M] (c : M) (f : α → α → M) (l : List α) :
    stepSum (fun a b => c * f a b) l = c * stepSum f l :=
  List.sum_map_mul_left (l.zip l.tail) (fun p => f p.1 p.2) c

section Order

variable [AddCommMonoid M] [PartialOrder M] [IsOrderedAddMonoid M] {f g : α → α → M}
  {R : α → α → Prop}

theorem stepSum_le (h : ∀ a b, R a b → f a b ≤ g a b) {l : List α} (hl : l.IsChain R) :
    stepSum f l ≤ stepSum g l := by
  induction l with
  | nil => exact le_rfl
  | cons a l ih =>
    cases l with
    | nil => exact le_rfl
    | cons b l =>
      obtain ⟨hab, hl⟩ := List.isChain_cons_cons.mp hl
      rw [stepSum_cons_cons, stepSum_cons_cons]
      exact add_le_add (h a b hab) (ih hl)

theorem stepSum_nonneg (h : ∀ a b, R a b → 0 ≤ f a b) {l : List α} (hl : l.IsChain R) :
    0 ≤ stepSum f l := by
  have hzero : stepSum (fun _ _ => (0 : M)) l = 0 := by simp [stepSum]
  rw [← hzero]
  exact stepSum_le h hl

/-- **With fewer stops between the same ends a path is no longer**, if a stop on the way makes
no way shorter. -/
theorem stepSum_le_of_sublist (htriangle : ∀ a b c, R a b → R b c → f a c ≤ f a b + f b c)
    {inner' inner : List α}
    (h : inner'.Sublist inner) {a z : α} (hl : (a :: (inner ++ [z])).Pairwise R) :
    stepSum f (a :: (inner' ++ [z])) ≤ stepSum f (a :: (inner ++ [z])) := by
  induction h generalizing a with
  | slnil => exact le_rfl
  | @cons inner' inner b h ih =>
    -- the stop `b` is left out: the next one is reached without it
    obtain ⟨ha, hb⟩ := List.pairwise_cons.mp hl
    refine le_trans ?_ (add_le_add_right (ih hb) (f a b))
    have hnext : ∃ c rest, inner' ++ [z] = c :: rest ∧ c ∈ inner ++ [z] := by
      cases inner' with
      | nil => exact ⟨z, [], rfl, by simp⟩
      | cons c rest => exact ⟨c, rest ++ [z], rfl,
        List.mem_append_left _ (h.subset List.mem_cons_self)⟩
    obtain ⟨c, rest, hrest, hc⟩ := hnext
    rw [hrest, stepSum_cons_cons, stepSum_cons_cons, ← add_assoc]
    have hab : R a b := ha b List.mem_cons_self
    have hbc : R b c := (List.pairwise_cons.mp hb).1 c hc
    exact add_le_add_left (htriangle a b c hab hbc) _
  | @cons_cons inner' inner b h ih =>
    obtain ⟨-, hb⟩ := List.pairwise_cons.mp hl
    rw [List.cons_append, List.cons_append, stepSum_cons_cons, stepSum_cons_cons]
    exact add_le_add_right (ih hb) _

end Order

/-! ### Rises -/

section Rises

variable [AddCommGroup M] [LinearOrder M] {v : α → M}

/-- By how much the values rise. -/
def rises (v : α → M) (l : List α) : M := stepSum (fun a b => max 0 (v b - v a)) l

theorem rises_cons_cons (a b : α) (l : List α) : rises v (a :: b :: l) = max 0 (v b - v a) + rises v (b :: l) :=
  stepSum_cons_cons a b l

variable [IsOrderedAddMonoid M]

theorem rises_nonneg (l : List α) : 0 ≤ rises v l := by
  refine List.sum_nonneg fun q hq => ?_
  obtain ⟨p, -, rfl⟩ := List.mem_map.mp hq
  exact le_max_left _ _

/-- They do not rise exactly if each is at most the one before it. -/
theorem rises_eq_zero_iff {l : List α} : rises v l = 0 ↔ l.IsChain fun a b => v b ≤ v a := by
  induction l with
  | nil => simp [rises]
  | cons a l ih =>
    cases l with
    | nil => simp [rises]
    | cons b l =>
      have hrest : 0 ≤ rises v (b :: l) := rises_nonneg _
      have hstep : max 0 (v b - v a) = 0 ↔ v b ≤ v a := by rw [max_eq_left_iff, sub_nonpos]
      rw [List.isChain_cons_cons, ← ih, ← hstep, rises_cons_cons, add_eq_zero_iff_of_nonneg (le_max_left _ _) hrest]

/-- They rise by what the last is above the first, or more. -/
theorem sub_le_rises (a : α) (l : List α) : v (l.getLastD a) - v a ≤ rises v (a :: l) := by
  rw [← stepSum_sub]
  exact List.sum_le_sum fun _ _ => le_max_right _ _

/-- **They rise by just that** exactly if each is at least the one before it. -/
theorem rises_eq_sub_iff {a : α} {l : List α} :
    rises v (a :: l) = v (l.getLastD a) - v a ↔ (a :: l).IsChain fun a b => v a ≤ v b := by
  induction l generalizing a with
  | nil => simp [rises]
  | cons b l ih =>
    have hrest := sub_le_rises (v := v) b l
    have hstep : v b - v a ≤ max 0 (v b - v a) := le_max_right _ _
    have hsplit : v (l.getLastD b) - v a = (v b - v a) + (v (l.getLastD b) - v b) := by abel
    have hrise : max 0 (v b - v a) = v b - v a ↔ v a ≤ v b := by rw [max_eq_right_iff, sub_nonneg]
    rw [List.isChain_cons_cons, ← ih, ← hrise, List.getLastD_cons, rises_cons_cons, hsplit, eq_comm,
      add_eq_add_iff_eq_and_eq hstep hrest]
    exact and_congr eq_comm eq_comm

end Rises

end CachingInLLMs.Library

import CachingInLLMs.Library.Python
import Mathlib.Algebra.Order.Field.Rat
import Mathlib.Algebra.Ring.Parity
import Mathlib.Data.List.Sort
import Mathlib.Data.Rat.Floor

/-!
# Numbers that may be missing

Python's floats as statistics code uses them: a number, exact here, or NaN.
Arithmetic carries NaN along, and every comparison with NaN is false, `==`
included. `PyFloat.Equals` is `==`; equality of `PyFloat`s as Lean has it equates NaN
with itself, as `is nan` would.

`sorted` uses `<` alone. On numbers the result is determined, since the sort is
stable; on a list with NaN in it the documentation promises a permutation and
nothing else. `PySort` is any function with these two properties.
-/

namespace CachingInLLMs.Library

/-- A float: a number or NaN. -/
inductive PyFloat where
  /-- A number. -/
  | num (q : ℚ)
  /-- `float("nan")`. -/
  | nan
  deriving DecidableEq, Inhabited

namespace PyFloat

/-! ### Comparisons -/

/-- `a < b`. -/
def Lt : PyFloat → PyFloat → Prop
  | num a, num b => a < b
  | _, _ => False

instance : LT PyFloat := ⟨Lt⟩

/-- `a == b`. -/
def Equals : PyFloat → PyFloat → Prop
  | num a, num b => a = b
  | _, _ => False

instance : DecidableLT PyFloat
  | num a, num b => inferInstanceAs (Decidable (a < b))
  | num _, nan => .isFalse fun h => h
  | nan, _ => .isFalse fun h => h

instance : DecidableRel Equals
  | num a, num b => inferInstanceAs (Decidable (a = b))
  | num _, nan => .isFalse fun h => h
  | nan, _ => .isFalse fun h => h

/-- `min(a, b)`: the first, unless the second is less. -/
def pyMin (a b : PyFloat) : PyFloat := if b < a then b else a

/-- `max(a, b)`: the first, unless it is less than the second. -/
def pyMax (a b : PyFloat) : PyFloat := if a < b then b else a

/-! ### Arithmetic -/

/-- `a - b`. -/
def sub : PyFloat → PyFloat → PyFloat
  | num a, num b => num (a - b)
  | _, _ => nan

instance : Sub PyFloat := ⟨sub⟩

/-- `a / b`. -/
def div (a b : PyFloat) : Except PyError PyFloat :=
  if b.Equals (num 0) then .error .zeroDivisionError
  else match a, b with
    | num a, num b => .ok (num (a / b))
    | _, _ => .ok nan

/-- `abs(a)`. -/
def abs : PyFloat → PyFloat
  | num a => num |a|
  | nan => nan

/-- A division raises only on a zero denominator. -/
theorem div_ok (a : PyFloat) {b : PyFloat} (hb : ¬ b.Equals (num 0)) : ∃ c, a.div b = .ok c := by
  unfold div
  rw [if_neg hb]
  cases a <;> cases b <;> exact ⟨_, rfl⟩

end PyFloat

/-- `round(q)`: to the nearest integer, to the even one of two. -/
def pyRound (q : ℚ) : ℤ :=
  if q - ⌊q⌋ < 1 / 2 then ⌊q⌋
  else if 1 / 2 < q - ⌊q⌋ then ⌊q⌋ + 1
  else if Even ⌊q⌋ then ⌊q⌋
  else ⌊q⌋ + 1

example : [pyRound (1 / 2), pyRound (3 / 2), pyRound (8 / 5)] = [0, 2, 2] := by decide +kernel

/-- The result is nearest. -/
theorem abs_pyRound_sub_le (q : ℚ) : |(pyRound q : ℚ) - q| ≤ 1 / 2 := by
  have hfloor : (⌊q⌋ : ℚ) ≤ q := Int.floor_le q
  have hsucc : q < ⌊q⌋ + 1 := Int.lt_floor_add_one q
  rw [pyRound, abs_le]
  split_ifs <;> push_cast <;> constructor <;> linarith

/-- As the result is nearest, it grows with the number: between two results in the wrong order
there is a midpoint, and each number would be on the far side of it. -/
theorem pyRound_mono {q r : ℚ} (h : q ≤ r) : pyRound q ≤ pyRound r := by
  by_contra hlt
  have hle : (pyRound r : ℚ) + 1 ≤ pyRound q := by exact_mod_cast not_le.mp hlt
  have hq := (abs_le.mp (abs_pyRound_sub_le q)).2
  have hr := (abs_le.mp (abs_pyRound_sub_le r)).1
  have heq : q = r := le_antisymm h (by linarith)
  exact hlt (heq ▸ le_rfl)

@[simp] theorem pyRound_intCast (n : ℤ) : pyRound n = n := by
  rw [pyRound, Int.floor_intCast, sub_self, if_pos (by norm_num)]

/-! ### Sorting -/

/-- `sorted`, by a key. -/
structure PySort where
  /-- `sorted(l, key=key)`. -/
  sorted : {α : Type} → (α → PyFloat) → List α → List α
  /-- The elements stay. -/
  perm : ∀ {α : Type} (key : α → PyFloat) (l : List α), (sorted key l).Perm l
  /-- Numbers are sorted, and the sort is stable. -/
  stable : ∀ {α : Type} (key : α → PyFloat) (l : List α), (∀ a ∈ l, key a ≠ .nan) →
    sorted key l = l.insertionSort fun a b => ¬ key b < key a

section Numbers

variable {α : Type} (sort : PySort) {key : α → PyFloat} {v : α → ℚ} {l : List α} (h : ∀ a ∈ l, key a = .num (v a))

include h

/-- By a key that is a number, any sort is the insertion sort. -/
theorem PySort.sorted_num : sort.sorted key l = l.insertionSort fun a b => v a ≤ v b := by
  rw [sort.stable key l fun a ha => by simp [h a ha]]
  have hle : ∀ a ∈ l, ∀ b ∈ l, ¬ key b < key a ↔ v (id a) ≤ v (id b) := by
    intro a ha b hb
    rw [h a ha, h b hb]
    exact not_lt (a := v b) (b := v a)
  have hmap := List.map_insertionSort (fun a b => ¬ key b < key a) (fun a b => v a ≤ v b) id l hle
  rwa [List.map_id, List.map_id] at hmap

theorem PySort.pairwise_sorted : (sort.sorted key l).Pairwise fun a b => v a ≤ v b := by
  rw [sort.sorted_num h]
  have : Std.Total fun a b : α => v a ≤ v b := ⟨fun a b => le_total (v a) (v b)⟩
  have : IsTrans α fun a b => v a ≤ v b := ⟨fun _ _ _ => le_trans⟩
  exact List.pairwise_insertionSort _ l

end Numbers

/-- The insertion sort, which looks for no order among the rest either. -/
def PySort.insertion : PySort where
  sorted key l := l.insertionSort fun a b => ¬ key b < key a
  perm _ l := l.perm_insertionSort _
  stable _ _ _ := rfl

end CachingInLLMs.Library

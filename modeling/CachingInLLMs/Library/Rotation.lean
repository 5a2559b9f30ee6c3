import Mathlib.Data.Int.CardIntervalMod
import Mathlib.Data.List.Nodup
import Mathlib.Data.List.Range

/-!
# Taking turns

Entry number `k` modulo the length has turn `k`. Over any `m` turns in a row, each of
`n` distinct entries comes up `m / n` times, rounded down or up (`count_turns`).
-/

namespace CachingInLLMs.Library

universe u

variable {α : Type u}

/-- The entry whose turn it is. -/
def turn (l : List α) (k : ℕ) : Option α := l[k % l.length]?

@[simp] theorem turn_nil (k : ℕ) : turn ([] : List α) k = none := rfl

theorem exists_turn {l : List α} (h : l ≠ []) (k : ℕ) : ∃ a ∈ l, turn l k = some a := by
  have hlt : k % l.length < l.length := Nat.mod_lt k (List.length_pos_of_ne_nil h)
  exact ⟨l[k % l.length], List.getElem_mem hlt, List.getElem?_eq_getElem hlt⟩

/-- Of distinct entries, number `i` has the turns that leave the remainder `i`. -/
theorem turn_eq_some_iff {l : List α} (hnodup : l.Nodup) {i : ℕ} (hi : i < l.length) {k : ℕ} :
    turn l k = some l[i] ↔ k ≡ i [MOD l.length] := by
  have hlt : k % l.length < l.length := Nat.mod_lt k (Nat.zero_lt_of_lt hi)
  rw [turn, List.getElem?_eq_getElem hlt, Option.some_inj, hnodup.getElem_inj_iff, Nat.ModEq, Nat.mod_eq_of_lt hi]

theorem countP_range' (q : ℕ → Prop) [DecidablePred q] (k m : ℕ) :
    (List.range' k m).countP (fun j => q j) + Nat.count q k = Nat.count q (k + m) := by
  induction m with
  | zero => simp
  | succ m ih =>
    rw [List.range'_1_concat, List.countP_append, ← Nat.add_assoc k m 1, Nat.count_succ, ← ih, List.countP_singleton]
    by_cases hq : q (k + m)
    · rw [if_pos (decide_eq_true hq), if_pos hq]
      omega
    · rw [if_neg (by simpa using hq), if_neg hq]
      omega

/-- How many of `m` numbers in a row leave the remainder `i`. -/
theorem count_residue {n i : ℕ} (hi : i < n) (k m : ℕ) :
    m / n ≤ (List.range' k m).countP (fun j => j ≡ i [MOD n]) ∧
      (List.range' k m).countP (fun j => j ≡ i [MOD n]) ≤ (m + (n - 1)) / n := by
  have hn : 0 < n := Nat.zero_lt_of_lt hi
  have hcount := countP_range' (· ≡ i [MOD n]) k m
  rw [Nat.count_modEq_card k hn, Nat.count_modEq_card (k + m) hn, Nat.mod_eq_of_lt hi, Nat.add_div hn, Nat.add_mod] at hcount
  have hk : k % n < n := Nat.mod_lt k hn
  have hm : m % n < n := Nat.mod_lt m hn
  have hup : (m + (n - 1)) / n = m / n + if 1 ≤ m % n then 1 else 0 := by
    rw [Nat.add_div hn, Nat.div_eq_of_lt (Nat.sub_lt hn one_pos), Nat.mod_eq_of_lt (Nat.sub_lt hn one_pos)]
    split_ifs <;> omega
  rw [hup]
  rcases Nat.lt_or_ge (k % n + m % n) n with hlt | hge
  · rw [Nat.mod_eq_of_lt hlt] at hcount
    split_ifs at hcount ⊢ <;> omega
  · have hmod : (k % n + m % n) % n = k % n + m % n - n := by
      rw [Nat.mod_eq_sub_mod hge, Nat.mod_eq_of_lt (by omega)]
    rw [hmod] at hcount
    split_ifs at hcount ⊢ <;> omega

/-- **Turns are fair.** -/
theorem count_turns [DecidableEq α] {l : List α} (hnodup : l.Nodup) {a : α} (ha : a ∈ l) (k m : ℕ) :
    m / l.length ≤ ((List.range' k m).map (turn l)).count (some a) ∧
      ((List.range' k m).map (turn l)).count (some a) ≤ (m + (l.length - 1)) / l.length := by
  obtain ⟨i, hi, rfl⟩ := List.getElem_of_mem ha
  have hcount : ((List.range' k m).map (turn l)).count (some l[i]) =
      (List.range' k m).countP (fun j => j ≡ i [MOD l.length]) := by
    rw [List.count, List.countP_map]
    refine List.countP_congr fun j _ => ?_
    simp only [Function.comp_apply, beq_iff_eq, decide_eq_true_eq, turn_eq_some_iff hnodup hi]
  rw [hcount]
  exact count_residue hi k m

end CachingInLLMs.Library

import CachingInLLMs.Benchmarks.Statistics
import CachingInLLMs.Library.OrderStatistic
import Mathlib.Tactic.Linarith

/-!
# Percentiles

`percentile` reads one entry of the sorted list, at an index that is rounded half to even
and clamped. So a percentile is one of the values, it grows with the percentage, from the
smallest value to the largest, and it grows with the values.

The bootstrap takes percentiles of resamples, and of the medians of these. Its interval is
between two relative reductions that were observed (`percentile_spec`).
-/

namespace CachingInLLMs.Benchmarks

open CachingInLLMs.Library

/-! ### The index -/

/-- The index that is read, of `n` values. -/
def rankIndex (n : ℕ) (p : ℚ) : ℕ :=
  (min ((n : ℤ) - 1) (max 0 (pyRound (p / 100 * ((n : ℤ) - 1 : ℤ))))).toNat

section RankIndex

variable {n : ℕ} {p q : ℚ}

theorem rankIndex_lt (hn : 0 < n) (p : ℚ) : rankIndex n p < n := by
  rw [rankIndex]
  omega

theorem rankIndex_mono (n : ℕ) : Monotone (rankIndex n) := by
  intro p q h
  rcases Nat.eq_zero_or_pos n with rfl | hn
  · simp [rankIndex]
  · have hlast : (0 : ℚ) ≤ ((n : ℤ) - 1 : ℤ) := by
      exact_mod_cast Int.le_sub_one_of_lt (Int.natCast_pos.mpr hn)
    have hround := pyRound_mono
      (mul_le_mul_of_nonneg_right (div_le_div_of_nonneg_right h (by norm_num : (0 : ℚ) ≤ 100)) hlast)
    exact Int.toNat_le_toNat (min_le_min_left _ (max_le_max_left _ hround))

theorem rankIndex_zero (n : ℕ) : rankIndex n 0 = 0 := by
  have hround : pyRound (0 / 100 * ((n : ℤ) - 1 : ℤ)) = 0 := by
    rw [zero_div, zero_mul]
    exact pyRound_intCast 0
  rw [rankIndex, hround]
  omega

theorem rankIndex_hundred (n : ℕ) : rankIndex n 100 = n - 1 := by
  have hround : pyRound (100 / 100 * ((n : ℤ) - 1 : ℤ)) = (n : ℤ) - 1 := by
    rw [div_self (by norm_num), one_mul, pyRound_intCast]
  rw [rankIndex, hround]
  omega

end RankIndex

/-! ### The value -/

section Percentile

variable {xs ys : List ℚ} {x y p q : ℚ}

/-- Of numbers, a percentile is an order statistic. -/
theorem percentile_num (sort : PySort) (hxs : xs ≠ []) (h : kth xs (rankIndex xs.length p) = some x) :
    percentile sort (xs.map .num) p = .num x := by
  have hsort : sort.sorted id (xs.map PyFloat.num) = (xs.insertionSort (· ≤ ·)).map .num := by
    have hstable := sort.stable id (xs.map PyFloat.num) (by simp)
    rw [hstable, List.map_insertionSort (· ≤ ·) fun a b => ¬ id b < id a]
    exact fun a _ b _ => (not_lt (a := b) (b := a)).symm
  rw [percentile, if_neg (by simpa using hxs), hsort]
  dsimp only
  rw [List.length_map, List.length_insertionSort, List.getD_eq_getElem?_getD, List.getElem?_map]
  exact congrArg (fun o => (Option.map PyFloat.num o).getD .nan) h

/-- A percentile of numbers is one of them. -/
theorem exists_percentile (sort : PySort) (hxs : xs ≠ []) (p : ℚ) :
    ∃ x, percentile sort (xs.map .num) p = .num x ∧ kth xs (rankIndex xs.length p) = some x := by
  obtain ⟨x, hx⟩ := exists_kth (rankIndex_lt (List.length_pos_iff.mpr hxs) p)
  exact ⟨x, percentile_num sort hxs hx, hx⟩

/-- A percentile does not depend on the order. -/
theorem percentile_perm (sort : PySort) (hxs : xs ≠ []) (h : xs.Perm ys) (p : ℚ) :
    percentile sort (ys.map .num) p = percentile sort (xs.map .num) p := by
  obtain ⟨x, hx, hkth⟩ := exists_percentile sort hxs p
  have hys : ys ≠ [] := fun hnil => hxs (hnil ▸ h).eq_nil
  rw [hx]
  apply percentile_num sort hys
  rw [← kth_perm h, ← h.length_eq, hkth]

/-- A percentile grows with the values. -/
theorem percentile_le_percentile (sort : PySort) (h : List.Forall₂ (· ≤ ·) xs ys)
    (hx : percentile sort (xs.map .num) p = .num x) :
    ∃ y, percentile sort (ys.map .num) p = .num y ∧ x ≤ y := by
  have hxs : xs ≠ [] := by
    rintro rfl
    simp at hx
  have hys : ys ≠ [] := by
    rintro rfl
    exact hxs (List.forall₂_nil_right_iff.mp h)
  obtain ⟨x', hx', hkth⟩ := exists_percentile sort hxs p
  obtain ⟨y, hy, hkth'⟩ := exists_percentile sort hys p
  obtain rfl : x = x' := PyFloat.num.inj (hx.symm.trans hx')
  rw [← h.length_eq] at hkth'
  exact ⟨y, hy, kth_le_kth h hkth hkth'⟩

end Percentile

/-! ### The bootstrap -/

/-- `(b - c) / b`, of numbers. -/
def relReduction (pair : ℚ × ℚ) : ℚ := (pair.2 - pair.1) / pair.2

section Bootstrap

variable {draw : ℕ → ℕ} {cand base rel : List ℚ}

/-- A list of numbers, each in a set. -/
theorem exists_map_num {ι : Type} {S : Set ℚ} {l : List ι} {g : ι → PyFloat}
    (h : ∀ i ∈ l, ∃ x ∈ S, g i = .num x) :
    ∃ xs : List ℚ, l.map g = xs.map .num ∧ xs.length = l.length ∧ ∀ x ∈ xs, x ∈ S := by
  induction l with
  | nil => exact ⟨[], rfl, rfl, by simp⟩
  | cons i l ih =>
    obtain ⟨xs, hmap, hlength, hmem⟩ := ih fun i' hi' => h i' (List.mem_cons_of_mem i hi')
    obtain ⟨x, hx, hi⟩ := h i List.mem_cons_self
    refine ⟨x :: xs, ?_, ?_, ?_⟩
    · rw [List.map_cons, List.map_cons, hi, hmap]
    · rw [List.length_cons, List.length_cons, hlength]
    · simpa using ⟨hx, hmem⟩

/-- A draw is one of the values. -/
theorem exists_choice (draw : ℕ → ℕ) (hrel : rel ≠ []) (k : ℕ) :
    ∃ x ∈ {x | x ∈ rel}, choice draw (rel.map .num) k = .num x := by
  have hlt : draw k % rel.length < rel.length := Nat.mod_lt _ (List.length_pos_iff.mpr hrel)
  refine ⟨_, List.getElem_mem hlt, ?_⟩
  rw [choice, List.length_map, List.getD_eq_getElem?_getD, List.getElem?_map,
    List.getElem?_eq_getElem hlt]
  rfl

/-- The median of a resample is one of the values. -/
theorem exists_median (sort : PySort) (draw : ℕ → ℕ) (hrel : rel ≠ []) (iter : ℕ) :
    ∃ x ∈ {x | x ∈ rel}, percentile sort ((List.range rel.length).map fun k =>
      choice draw (rel.map .num) (iter * rel.length + k)) 50 = .num x := by
  obtain ⟨resample, hmap, hlength, hmem⟩ := exists_map_num (l := List.range rel.length)
    fun k _ => exists_choice draw hrel (iter * rel.length + k)
  have hne : resample ≠ [] := by
    rw [← List.length_pos_iff, hlength, List.length_range]
    exact List.length_pos_iff.mpr hrel
  obtain ⟨x, hx, hkth⟩ := exists_percentile sort hne 50
  exact ⟨x, hmem x (mem_of_kth hkth), by rw [hmap, hx]⟩

/-- The relative reductions of numbers, over baselines that are not zero. -/
theorem mapM_relReduction (hbase : ∀ pair ∈ cand.zip base, pair.2 ≠ 0) :
    ((cand.map PyFloat.num).zip (base.map PyFloat.num)).mapM (fun (c, b) => (b - c).div b) =
      .ok (((cand.zip base).map relReduction).map .num) := by
  rw [List.zip_map, List.mapM_map, List.map_map]
  refine mapM_eq_map fun pair hpair => ?_
  exact if_neg (hbase pair hpair)

/-- **The interval** is between two of the relative reductions. -/
theorem bootstrap_num (sort : PySort) (draw : ℕ → ℕ) {iters : ℕ} (hiters : 0 < iters)
    (hpairs : cand.zip base ≠ []) (hbase : ∀ pair ∈ cand.zip base, pair.2 ≠ 0) :
    ∃ point lo hi, bootstrapCiMedianRelReduction sort draw (cand.map .num) (base.map .num) iters =
        .ok ⟨point, .num lo, .num hi⟩ ∧
      lo ≤ hi ∧ lo ∈ (cand.zip base).map relReduction ∧ hi ∈ (cand.zip base).map relReduction := by
  have hrel : (cand.zip base).map relReduction ≠ [] := by simpa using hpairs
  obtain ⟨medians, hmap, hlength, hmem⟩ := exists_map_num (l := List.range iters)
    fun iter _ => exists_median sort draw hrel iter
  have hne : medians ≠ [] := by
    rw [← List.length_pos_iff, hlength, List.length_range]
    exact hiters
  obtain ⟨lo, hlo, hlokth⟩ := exists_percentile sort hne (5 / 2)
  obtain ⟨hi, hhi, hhikth⟩ := exists_percentile sort hne (195 / 2)
  have hindex := rankIndex_mono medians.length (show (5 / 2 : ℚ) ≤ 195 / 2 by norm_num)
  refine ⟨percentile sort (((cand.zip base).map relReduction).map .num) 50, lo, hi, ?_,
    kth_mono hindex hlokth hhikth, hmem lo (mem_of_kth hlokth), hmem hi (mem_of_kth hhikth)⟩
  rw [bootstrapCiMedianRelReduction, mapM_relReduction hbase, ok_bind, List.length_map, hmap]
  dsimp only
  rw [hlo, hhi]
  rfl

end Bootstrap

/-- **Percentiles.** Of numbers, a percentile is one of them, grows with the percentage from the
smallest to the largest, does not depend on their order, and grows with them. So the bootstrap's
interval is between two observed reductions, the smaller one first, whatever is drawn. -/
theorem percentile_spec (sort : PySort) :
    (∀ xs : List ℚ, xs ≠ [] → ∃ value : ℚ → ℚ,
      (∀ p, percentile sort (xs.map .num) p = .num (value p)) ∧ (∀ p, value p ∈ xs) ∧
      Monotone value ∧ IsLeast {x | x ∈ xs} (value 0) ∧ IsGreatest {x | x ∈ xs} (value 100) ∧
      (∀ xs' : List ℚ, xs.Perm xs' → ∀ p, percentile sort (xs'.map .num) p = .num (value p)) ∧
      ∀ ys : List ℚ, List.Forall₂ (· ≤ ·) xs ys → ∀ p, ∃ y,
        percentile sort (ys.map .num) p = .num y ∧ value p ≤ y) ∧
    ∀ (draw : ℕ → ℕ) (cand base : List ℚ) (iters : ℕ), 0 < iters → cand.zip base ≠ [] →
      (∀ pair ∈ cand.zip base, pair.2 ≠ 0) → ∃ point lo hi,
      bootstrapCiMedianRelReduction sort draw (cand.map .num) (base.map .num) iters =
        .ok ⟨point, .num lo, .num hi⟩ ∧
      lo ≤ hi ∧ lo ∈ (cand.zip base).map relReduction ∧ hi ∈ (cand.zip base).map relReduction := by
  constructor
  · intro xs hxs
    choose value hvalue hkth using exists_percentile sort hxs
    refine ⟨value, hvalue, fun p => mem_of_kth (hkth p), ?_, ?_, ?_, ?_, ?_⟩
    · intro p q h
      exact kth_mono (rankIndex_mono xs.length h) (hkth p) (hkth q)
    · have h := hkth 0
      rw [rankIndex_zero] at h
      exact kth_zero h
    · have h := hkth 100
      rw [rankIndex_hundred] at h
      exact kth_last h
    · intro xs' h p
      rw [percentile_perm sort hxs h, hvalue]
    · intro ys h p
      exact percentile_le_percentile sort h (hvalue p)
  · intro draw cand base iters hiters hpairs hbase
    exact bootstrap_num sort draw hiters hpairs hbase

/-- Of three seeds. -/
theorem percentile_spec_threeSeeds :
    (∃ value : ℚ → ℚ, (∀ p, percentile .insertion ([3, 1, 2].map .num) p = .num (value p)) ∧
      Monotone value) ∧
    ∃ point lo hi, bootstrapCiMedianRelReduction .insertion id ([1, 1, 3].map .num)
      ([2, 4, 4].map .num) 10000 = .ok ⟨point, .num lo, .num hi⟩ ∧ lo ≤ hi := by
  obtain ⟨value, hvalue, -, hmono, -⟩ := (percentile_spec .insertion).1 [3, 1, 2] (by decide)
  obtain ⟨point, lo, hi, heffect, hle, -⟩ := (percentile_spec .insertion).2 id [1, 1, 3] [2, 4, 4]
    10000 (by decide) (by decide) (by decide)
  exact ⟨⟨value, hvalue, hmono⟩, point, lo, hi, heffect, hle⟩

end CachingInLLMs.Benchmarks

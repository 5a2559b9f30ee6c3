import CachingInLLMs.Benchmarks.Utilization
import Mathlib.Tactic.FieldSimp
import Mathlib.Tactic.Linarith
import Mathlib.Tactic.Ring

/-!
# What coverage charges

Between the ends of a window, the samples inside it leave stretches: one before the first,
one between neighbours, one after the last. They add up to the window. `_covered_fraction`
takes from the whole what each of them is longer than a tolerance (`coveredFraction_eq`).

The tolerance is twice the median gap of the samples, so that it follows the cadence of the
collector. Fewer samples leave longer stretches, and by this lower the coverage
(`coveredFraction_le`); but if they also raise the median gap, the coverage can rise with
it (`coveredFraction_rises`).
-/

namespace CachingInLLMs.Benchmarks

open CachingInLLMs.Library

/-- The stretches of a window without a sample: the leading edge, the gaps, the trailing edge. -/
def stretches (start first : ℚ) (rest : List ℚ) (stop : ℚ) : List ℚ :=
  (first - start) :: (gaps (first :: rest) ++ [stop - rest.getLastD first])

/-! ### Sums of stretches -/

section Sums

variable {start first stop tol : ℚ} {rest : List ℚ}

theorem sum_map_gaps (f : ℚ → ℚ) (l : List ℚ) :
    ((gaps l).map f).sum = stepSum (fun a b => f (b - a)) l := by
  rw [gaps, List.map_map]
  rfl

/-- Whatever is summed over the stretches is summed along the window. -/
theorem sum_map_stretches (f : ℚ → ℚ) :
    ((stretches start first rest stop).map f).sum =
      stepSum (fun a b => f (b - a)) (start :: (first :: rest ++ [stop])) := by
  rw [List.cons_append, stepSum_cons_cons, stepSum_concat, ← sum_map_gaps, stretches, List.map_cons,
    List.sum_cons, List.map_append, List.sum_append, List.map_singleton, List.sum_singleton]

/-- The stretches add up to the window. -/
theorem sum_stretches : (stretches start first rest stop).sum = stop - start := by
  have hsum := @sum_map_stretches start first stop rest id
  rw [List.map_id] at hsum
  rw [hsum]
  have htelescope := stepSum_sub (fun t : ℚ => t) start (first :: rest ++ [stop])
  rw [List.getLastD_concat] at htelescope
  exact htelescope

theorem covered_eq : covered first rest start stop tol =
    ((stretches start first rest stop).map fun g => min g tol).sum := by
  rw [covered, stretches, List.map_cons, List.sum_cons, List.map_append, List.sum_append,
    List.map_singleton, List.sum_singleton]
  ring

/-- What is not charged is covered. -/
theorem covered_eq_sub : covered first rest start stop tol =
    stop - start - ((stretches start first rest stop).map fun g => max 0 (g - tol)).sum := by
  have hsplit (g : ℚ) : min g tol + max 0 (g - tol) = g := by
    rcases le_total g tol with h | h
    · rw [min_eq_left h, max_eq_left (sub_nonpos.mpr h), add_zero]
    · rw [min_eq_right h, max_eq_right (sub_nonneg.mpr h)]
      ring
  rw [covered_eq, eq_sub_iff_add_eq, ← List.sum_map_add]
  simp only [hsplit, List.map_id', sum_stretches]

theorem charge_nonneg (l : List ℚ) : 0 ≤ (l.map fun g => max 0 (g - tol)).sum := by
  refine List.sum_nonneg fun q hq => ?_
  obtain ⟨g, -, rfl⟩ := List.mem_map.mp hq
  exact le_max_left 0 _

end Sums

/-! ### The samples in a window -/

section Inside

variable {pts : Samples} {start stop : ℚ}

theorem mem_inside {t : ℚ} :
    t ∈ inside pts start stop ↔ (∃ p ∈ pts, p.1 = t) ∧ start ≤ t ∧ t ≤ stop := by
  rw [inside, List.mem_insertionSort, List.mem_filter, List.mem_map, decide_eq_true_eq]

theorem pairwise_inside (pts : Samples) (start stop : ℚ) :
    (inside pts start stop).Pairwise (· ≤ ·) :=
  List.pairwise_insertionSort _ _

/-- The window is in order: its start, the samples, its end. -/
theorem pairwise_window (hne : inside pts start stop ≠ []) :
    (start :: (inside pts start stop ++ [stop])).Pairwise (· ≤ ·) := by
  obtain ⟨t, ht⟩ := List.exists_mem_of_ne_nil _ hne
  have hwindow : start ≤ stop := (mem_inside.mp ht).2.1.trans (mem_inside.mp ht).2.2
  rw [List.pairwise_cons, List.pairwise_append]
  refine ⟨fun t ht => ?_, pairwise_inside pts start stop, List.pairwise_singleton _ _,
    fun t ht t' ht' => ?_⟩
  · rcases List.mem_append.mp ht with ht | ht
    · exact (mem_inside.mp ht).2.1
    · rwa [List.mem_singleton.mp ht]
  · rw [List.mem_singleton.mp ht']
    exact (mem_inside.mp ht).2.2

theorem gaps_nonneg {l : List ℚ} (hl : l.Pairwise (· ≤ ·)) : ∀ g ∈ gaps l, 0 ≤ g := by
  intro g hg
  obtain ⟨p, hp, rfl⟩ := List.mem_map.mp hg
  exact sub_nonneg.mpr (rel_of_mem_zip_tail hl p hp)

/-- What is sorted is sorted in one way. -/
theorem inside_congr {pts' : Samples}
    (h : ((pts'.map (·.1)).filter fun t => start ≤ t ∧ t ≤ stop).Perm
      ((pts.map (·.1)).filter fun t => start ≤ t ∧ t ≤ stop)) :
      inside pts' start stop = inside pts start stop :=
  List.Perm.eq_of_pairwise' (pairwise_inside pts' start stop) (pairwise_inside pts start stop)
    ((List.perm_insertionSort _ _).trans (h.trans (List.perm_insertionSort _ _).symm))

end Inside

/-! ### The tolerance -/

theorem median_nonneg {xs : List ℚ} (h : ∀ x ∈ xs, 0 ≤ x) : 0 ≤ median xs := by
  have hget (i : ℕ) : 0 ≤ (xs.insertionSort (· ≤ ·)).getD i 0 := by
    rw [List.getD_eq_getElem?_getD]
    cases hi : (xs.insertionSort (· ≤ ·))[i]? with
    | none => exact le_rfl
    | some x => exact h x ((List.mem_insertionSort _).mp (List.mem_of_getElem? hi))
  rw [median]
  split_ifs
  · exact hget _
  · have hlow := hget ((xs.insertionSort (· ≤ ·)).length / 2 - 1)
    have hhigh := hget ((xs.insertionSort (· ≤ ·)).length / 2)
    linarith

theorem tolerance_eq {l : List ℚ} (hl : ∀ g ∈ l, 0 ≤ g) (defaultStep : ℚ) :
    tolerance l defaultStep = if l = [] ∨ median l = 0 then 2 * defaultStep else 2 * median l := by
  have hmedian := median_nonneg hl
  rw [tolerance, gapToleranceSteps]
  by_cases hnil : l = []
  · simp [hnil]
  · rcases hmedian.eq_or_lt with hzero | hpos
    · simp [hnil, ← hzero]
    · simp [hnil, hpos.ne', hpos.not_ge]

theorem tolerance_nonneg {l : List ℚ} (hl : ∀ g ∈ l, 0 ≤ g) {defaultStep : ℚ}
    (hdefault : 0 ≤ defaultStep) :
    0 ≤ tolerance l defaultStep := by
  have hmedian := median_nonneg hl
  rw [tolerance_eq hl]
  split_ifs
  · linarith
  · linarith

/-! ### The closed form -/

section ClosedForm

variable {pts : Samples} {start stop first defaultStep : ℚ} {rest : List ℚ}

/-- What is charged is not more than the window, so the quotient needs no bound. -/
theorem covered_div_le_one (hwindow : start < stop) (tol : ℚ) :
    covered first rest start stop tol / (stop - start) ≤ 1 := by
  have hpos : 0 < stop - start := sub_pos.mpr hwindow
  have hcharge := @charge_nonneg tol (stretches start first rest stop)
  rw [div_le_one₀ hpos, covered_eq_sub]
  linarith

theorem coveredFraction_of_inside (hwindow : start < stop)
    (hinside : inside pts start stop = first :: rest) :
    coveredFraction pts start stop defaultStep =
      covered first rest start stop (tolerance (gaps (first :: rest)) defaultStep) /
        (stop - start) := by
  rw [coveredFraction, hinside]
  dsimp only
  rw [if_neg (not_le.mpr (sub_pos.mpr hwindow)), min_eq_right (covered_div_le_one hwindow _)]

theorem exists_inside (hsome : ∃ p ∈ pts, start ≤ p.1 ∧ p.1 ≤ stop) :
    ∃ first rest, inside pts start stop = first :: rest := by
  obtain ⟨p, hp, hin⟩ := hsome
  exact List.exists_cons_of_ne_nil (List.ne_nil_of_mem (mem_inside.mpr ⟨⟨p, hp, rfl⟩, hin⟩))

theorem tolerance_inside_nonneg (hdefault : 0 ≤ defaultStep) (pts : Samples) (start stop : ℚ) :
    0 ≤ tolerance (gaps (inside pts start stop)) defaultStep :=
  tolerance_nonneg (gaps_nonneg (pairwise_inside pts start stop)) hdefault

/-- A window without a length is not covered. -/
theorem coveredFraction_of_le (h : stop ≤ start) :
    coveredFraction pts start stop defaultStep = 0 := by
  rw [coveredFraction]
  split
  · rfl
  · rw [if_pos (sub_nonpos.mpr h)]

theorem coveredFraction_nonneg (hdefault : 0 ≤ defaultStep) :
    0 ≤ coveredFraction pts start stop defaultStep := by
  rcases le_or_gt stop start with hwindow | hwindow
  · rw [coveredFraction_of_le hwindow]
  · cases hinside : inside pts start stop with
    | nil => rw [coveredFraction, hinside]
    | cons first rest =>
      have htol := tolerance_inside_nonneg hdefault pts start stop
      have hne : inside pts start stop ≠ [] := by simp [hinside]
      have horder := pairwise_window hne
      rw [hinside] at htol horder
      rw [coveredFraction_of_inside hwindow hinside, covered_eq, sum_map_stretches]
      refine div_nonneg (stepSum_nonneg (R := (· ≤ ·)) (fun a b hab => ?_) horder.isChain)
        (sub_pos.mpr hwindow).le
      exact le_min (sub_nonneg.mpr hab) htol

/-- **What coverage is**: the whole, less what each stretch without a sample is longer than the
tolerance. No stretch counts otherwise for its place, and nothing outside the window counts. -/
theorem coveredFraction_eq (hwindow : start < stop) (hsome : ∃ p ∈ pts, start ≤ p.1 ∧ p.1 ≤ stop)
    (defaultStep : ℚ) :
    ∃ first rest tol, inside pts start stop = first :: rest ∧
      tol = (if gaps (first :: rest) = [] ∨ median (gaps (first :: rest)) = 0 then 2 * defaultStep
        else 2 * median (gaps (first :: rest))) ∧
      coveredFraction pts start stop defaultStep =
        1 - ((stretches start first rest stop).map fun g => max 0 (g - tol)).sum / (stop - start) ∧
      (covered first rest start stop tol / (stop - start) ≤ 1 ∧
        coveredFraction pts start stop defaultStep =
          covered first rest start stop tol / (stop - start)) ∧
      (0 ≤ defaultStep → 0 ≤ coveredFraction pts start stop defaultStep) ∧
      (∀ pts' start' stop' first' rest', start' < stop' →
        inside pts' start' stop' = first' :: rest' →
        stop' - start' = stop - start → tolerance (gaps (first' :: rest')) defaultStep = tol →
        (stretches start' first' rest' stop').Perm (stretches start first rest stop) →
          coveredFraction pts' start' stop' defaultStep =
            coveredFraction pts start stop defaultStep) ∧
      ∀ pts' : Samples, ((pts'.map (·.1)).filter fun t => start ≤ t ∧ t ≤ stop).Perm
          ((pts.map (·.1)).filter fun t => start ≤ t ∧ t ≤ stop) →
        coveredFraction pts' start stop defaultStep =
          coveredFraction pts start stop defaultStep := by
  obtain ⟨first, rest, hinside⟩ := exists_inside hsome
  have hgaps : ∀ g ∈ gaps (first :: rest), 0 ≤ g := by
    rw [← hinside]
    exact gaps_nonneg (pairwise_inside pts start stop)
  have hpos : stop - start ≠ 0 := (sub_pos.mpr hwindow).ne'
  refine ⟨first, rest, tolerance (gaps (first :: rest)) defaultStep, hinside,
    tolerance_eq hgaps defaultStep, ?_,
    ⟨covered_div_le_one hwindow _, coveredFraction_of_inside hwindow hinside⟩,
    coveredFraction_nonneg, ?_, fun pts' hperm => ?_⟩
  · rw [coveredFraction_of_inside hwindow hinside, covered_eq_sub, sub_div, div_self hpos]
  · intro pts' start' stop' first' rest' hwindow' hinside' hlength htol hperm
    rw [coveredFraction_of_inside hwindow' hinside', coveredFraction_of_inside hwindow hinside,
      htol, hlength, covered_eq, covered_eq, (hperm.map _).sum_eq]
  · rw [coveredFraction, coveredFraction, inside_congr hperm]

end ClosedForm

/-- Samples out of order, two at one time, one after the window, and 25 seconds without one. -/
def gappySamples : Samples := [(20, 1), (5, 1), (10, 2), (5, 3), (70, 1), (0, 1), (45, 1)]

theorem inside_gappySamples : inside gappySamples 0 60 = [0, 5, 5, 10, 20, 45] := by decide +kernel

/-- Up to 10 seconds are not charged: 15 of the 25 are, and 5 of the 15 at the end. -/
theorem coveredFraction_eq_gappySamples : ∃ first rest tol,
    inside gappySamples 0 60 = first :: rest ∧ tol = 10 ∧
      coveredFraction gappySamples 0 60 defaultStepS =
        1 - ((stretches 0 first rest 60).map fun g => max 0 (g - tol)).sum / (60 - 0) ∧
      coveredFraction gappySamples 0 60 defaultStepS = 2 / 3 := by
  obtain ⟨first, rest, tol, hinside, htol, heq, -⟩ := @coveredFraction_eq gappySamples 0 60 (by norm_num)
    ⟨(5, 1), by decide, by norm_num⟩ defaultStepS
  have hsamples : first = 0 ∧ rest = [5, 5, 10, 20, 45] := by
    rw [inside_gappySamples] at hinside
    cases hinside
    exact ⟨rfl, rfl⟩
  obtain ⟨rfl, rfl⟩ := hsamples
  have htol : tol = 10 := htol.trans (by decide +kernel)
  refine ⟨0, [5, 5, 10, 20, 45], tol, hinside, htol, heq, ?_⟩
  rw [heq, htol]
  norm_num [stretches, gaps]

/-! ### Fewer samples -/

section Fewer

variable {pts pts' : Samples} {start stop : ℚ}

/-- Times of fewer samples are among those of more. -/
theorem inside_sublist (h : pts'.Sublist pts) :
    (inside pts' start stop).Sublist (inside pts start stop) := by
  refine List.sublist_of_subperm_of_pairwise ?_ (pairwise_inside pts' start stop)
    (pairwise_inside pts start stop)
  exact ((List.perm_insertionSort _ _).subperm.trans ((h.map _).filter _).subperm).trans
    (List.perm_insertionSort _ _).symm.subperm

/-- A stop on the way makes no way shorter, up to the tolerance. -/
theorem min_sub_triangle {tol a b c : ℚ} (htol : 0 ≤ tol) (hab : a ≤ b) (hbc : b ≤ c) :
    min (c - a) tol ≤ min (b - a) tol + min (c - b) tol := by
  rcases le_total (b - a) tol with h | h <;> rcases le_total (c - b) tol with h' | h'
  · rw [min_eq_left h, min_eq_left h']
    exact (min_le_left _ _).trans (by linarith)
  · rw [min_eq_left h, min_eq_right h']
    exact (min_le_right _ _).trans (by linarith)
  · rw [min_eq_right h, min_eq_left h']
    exact (min_le_right _ _).trans (by linarith)
  · rw [min_eq_right h, min_eq_right h']
    exact (min_le_right _ _).trans (by linarith)

/-- A tolerance that is larger counts a stretch for more, but by no more than its own growth. -/
theorem min_le_max_mul_min {g tol tol' : ℚ} (hg : 0 ≤ g) (htol : 0 < tol) :
    min g tol' ≤ max 1 (tol' / tol) * min g tol := by
  rcases le_total g tol with h | h
  · rw [min_eq_left h]
    calc min g tol' ≤ 1 * g := by
          rw [one_mul]
          exact min_le_left g tol'
      _ ≤ max 1 (tol' / tol) * g := mul_le_mul_of_nonneg_right (le_max_left _ _) hg
  · rw [min_eq_right h]
    calc min g tol' ≤ tol' / tol * tol := by
          rw [div_mul_cancel₀ _ htol.ne']
          exact min_le_right g tol'
      _ ≤ max 1 (tol' / tol) * tol := mul_le_mul_of_nonneg_right (le_max_right _ _) htol.le

theorem tolerance_pos {l : List ℚ} (hl : ∀ g ∈ l, 0 ≤ g) {defaultStep : ℚ}
    (hdefault : 0 < defaultStep) :
    0 < tolerance l defaultStep := by
  rw [tolerance_eq hl]
  split_ifs with h
  · linarith
  · have hpos : 0 < median l := (median_nonneg hl).lt_of_ne fun hzero => h (.inr hzero.symm)
    linarith

/-- Fewer samples cover no more, but for what the tolerance grows by. -/
theorem covered_le {first first' tol tol' : ℚ} {rest rest' : List ℚ} (htol : 0 < tol)
    (htol' : 0 ≤ tol') (hsub : (first' :: rest').Sublist (first :: rest))
    (horder : (start :: (first :: rest ++ [stop])).Pairwise (· ≤ ·)) :
    covered first' rest' start stop tol' ≤
      max 1 (tol' / tol) * covered first rest start stop tol := by
  calc covered first' rest' start stop tol'
      = stepSum (fun a b => min (b - a) tol') (start :: (first' :: rest' ++ [stop])) := by
        rw [covered_eq, sum_map_stretches]
    _ ≤ stepSum (fun a b => min (b - a) tol') (start :: (first :: rest ++ [stop])) :=
        stepSum_le_of_sublist (R := (· ≤ ·)) (fun _ _ _ => min_sub_triangle htol') hsub horder
    _ ≤ stepSum (fun a b => max 1 (tol' / tol) * min (b - a) tol)
          (start :: (first :: rest ++ [stop])) := by
        refine stepSum_le (R := (· ≤ ·)) (fun a b hab => ?_) horder.isChain
        exact min_le_max_mul_min (sub_nonneg.mpr hab) htol
    _ = max 1 (tol' / tol) * covered first rest start stop tol := by
        rw [stepSum_mul, covered_eq, sum_map_stretches]

/-- **Fewer samples, less coverage**, unless the tolerance grows; and then the coverage grows by no
more than the tolerance does. -/
theorem coveredFraction_le (h : pts'.Sublist pts) (start stop : ℚ) :
    (tolerance (gaps (inside pts' start stop)) defaultStepS ≤
        tolerance (gaps (inside pts start stop)) defaultStepS →
      coveredFraction pts' start stop defaultStepS ≤ coveredFraction pts start stop defaultStepS) ∧
    coveredFraction pts' start stop defaultStepS ≤
      max 1 (tolerance (gaps (inside pts' start stop)) defaultStepS /
        tolerance (gaps (inside pts start stop)) defaultStepS) *
          coveredFraction pts start stop defaultStepS := by
  have hdefault : 0 < defaultStepS := by norm_num [defaultStepS]
  have htol := tolerance_pos (gaps_nonneg (pairwise_inside pts start stop)) hdefault
  have htol' := tolerance_inside_nonneg hdefault.le pts' start stop
  have hbound : coveredFraction pts' start stop defaultStepS ≤
      max 1 (tolerance (gaps (inside pts' start stop)) defaultStepS /
        tolerance (gaps (inside pts start stop)) defaultStepS) *
          coveredFraction pts start stop defaultStepS := by
    have hsub : (inside pts' start stop).Sublist (inside pts start stop) := inside_sublist h
    rcases le_or_gt stop start with hwindow | hwindow
    · rw [coveredFraction_of_le hwindow, coveredFraction_of_le hwindow, mul_zero]
    · cases hinside' : inside pts' start stop with
      | nil =>
        have hzero : coveredFraction pts' start stop defaultStepS = 0 := by
          rw [coveredFraction, hinside']
        rw [hzero]
        exact mul_nonneg (le_max_of_le_left zero_le_one) (coveredFraction_nonneg hdefault.le)
      | cons first' rest' =>
        rw [hinside'] at hsub htol'
        obtain ⟨first, rest, hinside⟩ : ∃ first rest, inside pts start stop = first :: rest :=
          List.exists_cons_of_ne_nil (List.ne_nil_of_mem (hsub.subset List.mem_cons_self))
        have hne : inside pts start stop ≠ [] := by simp [hinside]
        have horder := pairwise_window hne
        rw [hinside] at hsub htol horder ⊢
        rw [coveredFraction_of_inside hwindow hinside', coveredFraction_of_inside hwindow hinside,
          ← mul_div_assoc]
        exact div_le_div_of_nonneg_right (covered_le htol htol' hsub horder)
          (sub_pos.mpr hwindow).le
  refine ⟨fun hle => ?_, hbound⟩
  rwa [max_eq_left ((div_le_one₀ htol).mpr hle), one_mul] at hbound

end Fewer

/-- A collector that stops early, on the cadence it had. -/
theorem coveredFraction_le_tail :
    coveredFraction [(0, 1), (5, 1), (10, 1)] 0 60 defaultStepS ≤
      coveredFraction [(0, 1), (5, 1), (10, 1), (15, 1), (20, 1)] 0 60 defaultStepS := by
  have hsub : ([(0, 1), (5, 1), (10, 1)] : Samples).Sublist
      [(0, 1), (5, 1), (10, 1), (15, 1), (20, 1)] := by decide
  exact (coveredFraction_le hsub 0 60).1 (by decide +kernel)

/-- Half of the samples around an outage cover more than all of them. -/
theorem coveredFraction_rises :
    ([(0, 1), (3, 1)] : Samples).Sublist [(0, 1), (1, 1), (2, 1), (3, 1)] ∧
      coveredFraction [(0, 1), (1, 1), (2, 1), (3, 1)] 0 100 defaultStepS = 5 / 100 ∧
      coveredFraction [(0, 1), (3, 1)] 0 100 defaultStepS = 9 / 100 := by
  refine ⟨by decide, by decide +kernel, by decide +kernel⟩

end CachingInLLMs.Benchmarks

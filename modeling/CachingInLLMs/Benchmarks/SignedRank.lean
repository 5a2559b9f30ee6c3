import CachingInLLMs.Benchmarks.Midranks
import Mathlib.Data.Finset.Max
import Mathlib.Data.Fintype.Pi
import Mathlib.Logic.Relation

/-!
# The signed-rank test is exact

Under the null hypothesis the signs of the differences are symmetric: given the
magnitudes, each of the `2 ^ n` ways of attaching signs to them is as likely as any
other. `wilcoxon_exact_one_sided` counts these ways, and a test of level `a` on its
`p` then has level `a`, whatever the ties (`wilcoxon_valid`).

## What is proved

* `midranks_signedDiffs`: the ranks depend on the magnitudes only.
* `rankSum_le_slack_iff`: ranks are multiples of a half, so the slack of `1e-9` in the
  comparison of two rank sums admits no further one.
* `p_signedDiffs`: `p` is the distribution function of the rank sum, at the observed one.
* `wilcoxon_valid`: it is at most `a` for at most `a * 2 ^ n` of the ways.
* `wilcoxonExactOneSided_spec`: what the test is of the midranks of the differences, and that
  neither their order, nor zeros, nor the unit matter.
-/

namespace CachingInLLMs.Benchmarks

open CachingInLLMs.Library

/-! ### Ranks are multiples of a half -/

/-- A multiple of a half. -/
def HalfInteger (q : ℚ) : Prop := ∃ k : ℕ, q = k / 2

theorem HalfInteger.zero : HalfInteger 0 := ⟨0, by simp⟩

theorem HalfInteger.add {a b : ℚ} (ha : HalfInteger a) (hb : HalfInteger b) : HalfInteger (a + b) := by
  obtain ⟨k, rfl⟩ := ha
  obtain ⟨l, rfl⟩ := hb
  refine ⟨k + l, ?_⟩
  push_cast
  ring

theorem HalfInteger.sum {l : List ℚ} (h : ∀ q ∈ l, HalfInteger q) : HalfInteger l.sum := by
  induction l with
  | nil => exact .zero
  | cons a l ih =>
    rw [List.sum_cons]
    exact (h a List.mem_cons_self).add (ih fun q hq => h q (List.mem_cons_of_mem a hq))

/-- Half-integers that differ do so by more than the slack. -/
theorem HalfInteger.le_add_slack_iff {a b : ℚ} (ha : HalfInteger a) (hb : HalfInteger b) :
    a ≤ b + 1 / 10 ^ 9 ↔ a ≤ b := by
  constructor
  · intro h
    obtain ⟨k, rfl⟩ := ha
    obtain ⟨l, rfl⟩ := hb
    by_contra hlt
    have hkl : l < k := by
      by_contra hle
      have : (k : ℚ) ≤ l := by exact_mod_cast not_lt.mp hle
      linarith
    have : (l : ℚ) + 1 ≤ k := by exact_mod_cast hkl
    norm_num at h
    linarith
  · intro h
    have : (0 : ℚ) ≤ 1 / 10 ^ 9 := by norm_num
    linarith

/-- The middle of the positions from `i` to `j`, counted from 1. -/
theorem HalfInteger.mid (i j : ℕ) : HalfInteger (((i + j : ℕ) : ℚ) / 2 + 1) := by
  refine ⟨i + j + 2, ?_⟩
  push_cast
  ring

/-- Giving the same rank to several indices. -/
theorem halfInteger_foldl_set {mid : ℚ} (hmid : HalfInteger mid) (indices : List ℕ) {ranks : List ℚ}
    (h : ∀ r ∈ ranks, HalfInteger r) :
    ∀ r ∈ indices.foldl (fun ranks k => ranks.set k mid) ranks, HalfInteger r := by
  induction indices generalizing ranks with
  | nil => exact h
  | cons k indices ih =>
    refine ih fun r hr => ?_
    rcases List.mem_or_eq_of_mem_set hr with hr | rfl
    · exact h r hr
    · exact hmid

theorem halfInteger_rankLoop (magnitudes : List PyFloat) (order : List ℕ) (i : ℕ) (ranks : List ℚ)
    (h : ∀ r ∈ ranks, HalfInteger r) : ∀ r ∈ rankLoop magnitudes order i ranks, HalfInteger r := by
  induction i, ranks using rankLoop.induct magnitudes order with
  | case1 i ranks hi j mid ih =>
    rw [rankLoop, dif_pos hi]
    exact ih (halfInteger_foldl_set (.mid i j) _ h)
  | case2 i ranks hi =>
    rw [rankLoop, dif_neg hi]
    exact h

theorem halfInteger_midranks (sort : PySort) (d : List PyFloat) : ∀ r ∈ midranks sort d, HalfInteger r := by
  refine halfInteger_rankLoop _ _ 0 _ fun r hr => ?_
  rw [List.eq_of_mem_replicate hr]
  exact .zero

theorem halfInteger_rankSum {ranks : List ℚ} (h : ∀ r ∈ ranks, HalfInteger r) (marks : List Bool) :
    HalfInteger (rankSum ranks marks) := by
  refine .sum fun q hq => ?_
  obtain ⟨pair, hpair, rfl⟩ := List.mem_map.mp hq
  exact h _ (List.of_mem_zip (List.mem_of_mem_filter hpair)).1

/-- The slack in the comparison of two rank sums admits nothing. -/
theorem rankSum_le_slack_iff (sort : PySort) (d : List PyFloat) (marks marks' : List Bool) :
    rankSum (midranks sort d) marks ≤ rankSum (midranks sort d) marks' + 1 / 10 ^ 9 ↔
      rankSum (midranks sort d) marks ≤ rankSum (midranks sort d) marks' :=
  (halfInteger_rankSum (halfInteger_midranks sort d) marks).le_add_slack_iff
    (halfInteger_rankSum (halfInteger_midranks sort d) marks')

/-! ### Attaching signs -/

/-- The differences with the given magnitudes and signs. -/
def signedDiffs (magnitudes : List ℚ) (signs : Fin magnitudes.length → Bool) : List PyFloat :=
  List.ofFn fun i => .num (if signs i then |magnitudes[i]| else -|magnitudes[i]|)

section SignedDiffs

variable {magnitudes : List ℚ} (signs : Fin magnitudes.length → Bool)

@[simp] theorem length_signedDiffs : (signedDiffs magnitudes signs).length = magnitudes.length :=
  List.length_ofFn

/-- Only the signs differ. -/
theorem abs_signedDiffs :
    (signedDiffs magnitudes signs).map PyFloat.abs = magnitudes.map fun magnitude => .num |magnitude| := by
  rw [signedDiffs, List.map_ofFn, ← List.ofFn_getElem_eq_map]
  refine congrArg List.ofFn (funext fun i => ?_)
  rw [Function.comp_apply, PyFloat.abs]
  split_ifs <;> simp

/-- The positive differences are those marked. -/
theorem marks_signedDiffs (hmagnitudes : ∀ magnitude ∈ magnitudes, magnitude ≠ 0) :
    ((signedDiffs magnitudes signs).map fun x => decide (.num 0 < x)) = List.ofFn signs := by
  rw [signedDiffs, List.map_ofFn]
  refine congrArg List.ofFn (funext fun i => ?_)
  have hpos : 0 < |magnitudes[i]| := abs_pos.mpr (hmagnitudes _ (List.getElem_mem i.isLt))
  rw [Function.comp_apply]
  cases signs i with
  | true => exact decide_eq_true (show (0 : ℚ) < |magnitudes[i]| from hpos)
  | false => exact decide_eq_false (show ¬ (0 : ℚ) < -|magnitudes[i]| by linarith)

/-- There is no zero to drop. -/
theorem filter_signedDiffs (hmagnitudes : ∀ magnitude ∈ magnitudes, magnitude ≠ 0) :
    ((signedDiffs magnitudes signs).filter fun x => ¬ x.Equals (.num 0)) = signedDiffs magnitudes signs := by
  rw [List.filter_eq_self]
  intro x hx
  obtain ⟨i, rfl⟩ := (List.mem_ofFn' _ _).mp hx
  have hpos : 0 < |magnitudes[i]| := abs_pos.mpr (hmagnitudes _ (List.getElem_mem i.isLt))
  refine decide_eq_true fun hzero => ?_
  have hzero : (if signs i then |magnitudes[i]| else -|magnitudes[i]|) = 0 := hzero
  split_ifs at hzero <;> linarith

end SignedDiffs

/-- The ranks are computed from the magnitudes alone. -/
theorem midranks_congr (sort : PySort) {d d' : List PyFloat} (h : d.map PyFloat.abs = d'.map PyFloat.abs) :
    midranks sort d = midranks sort d' := by
  have hlength : d.length = d'.length := by simpa using congrArg List.length h
  have hmagnitude : (fun i => (d.getD i .nan).abs) = fun i => (d'.getD i .nan).abs := by
    funext i
    have hget := congrArg (·.getD i (PyFloat.abs .nan)) h
    rwa [List.getD_map, List.getD_map] at hget
  rw [midranks, midranks, hlength, hmagnitude]

/-- **The ranks depend on the magnitudes only.** -/
theorem midranks_signedDiffs (sort : PySort) {magnitudes : List ℚ} (signs signs' : Fin magnitudes.length → Bool) :
    midranks sort (signedDiffs magnitudes signs) = midranks sort (signedDiffs magnitudes signs') :=
  midranks_congr sort (by rw [abs_signedDiffs, abs_signedDiffs])

/-! ### The level of the test -/

/-- At most `b` members of a population have at most `b` members at or below them. -/
theorem card_filter_card_le {α : Type} [Fintype α] (statistic : α → ℚ) {b : ℚ} (hb : 0 ≤ b) :
    ((Finset.univ.filter fun s => ((Finset.univ.filter fun t => statistic t ≤ statistic s).card : ℚ) ≤ b).card : ℚ)
      ≤ b := by
  rcases Finset.eq_empty_or_nonempty
    (Finset.univ.filter fun s => ((Finset.univ.filter fun t => statistic t ≤ statistic s).card : ℚ) ≤ b) with
    hempty | hne
  · rw [hempty, Finset.card_empty, Nat.cast_zero]
    exact hb
  · -- all of them are at or below the highest of them
    obtain ⟨top, htop, hmax⟩ := Finset.exists_max_image _ statistic hne
    have hsub : (Finset.univ.filter fun s => ((Finset.univ.filter fun t => statistic t ≤ statistic s).card : ℚ) ≤ b)
        ⊆ Finset.univ.filter fun t => statistic t ≤ statistic top :=
      fun s hs => Finset.mem_filter.mpr ⟨Finset.mem_univ s, hmax s hs⟩
    calc _ ≤ ((Finset.univ.filter fun t => statistic t ≤ statistic top).card : ℚ) := by
          exact_mod_cast Finset.card_le_card hsub
      _ ≤ b := (Finset.mem_filter.mp htop).2

/-- The enumeration counts each sign vector with the property. -/
theorem card_filter_le_signVectors {n : ℕ} (property : List Bool → Prop) [DecidablePred property] :
    (Finset.univ.filter fun signs : Fin n → Bool => property (List.ofFn signs)).card
      ≤ ((signVectors n).filter fun signs => property signs).length := by
  rw [← Finset.card_image_of_injective _ List.ofFn_injective]
  refine le_trans (Finset.card_le_card fun signs hsigns => ?_) (List.toFinset_card_le _)
  obtain ⟨signs', hsigns', rfl⟩ := Finset.mem_image.mp hsigns
  have hmem := mem_signVectors (List.ofFn signs')
  rw [List.length_ofFn] at hmem
  rw [List.mem_toFinset, List.mem_filter]
  exact ⟨hmem, decide_eq_true (Finset.mem_filter.mp hsigns').2⟩

section Level

variable (sort : PySort) {magnitudes : List ℚ}

/-- **`p` is the distribution function** of the rank sum under symmetric signs, at the
observed rank sum. -/
theorem p_signedDiffs (hmagnitudes : ∀ magnitude ∈ magnitudes, magnitude ≠ 0)
    (signs : Fin magnitudes.length → Bool) :
    (wilcoxonExactOneSided sort (signedDiffs magnitudes signs)).p =
      ((signVectors magnitudes.length).filter fun signs' =>
        rankSum (midranks sort (signedDiffs magnitudes signs)) signs' ≤
          rankSum (midranks sort (signedDiffs magnitudes signs)) (List.ofFn signs)).length /
        2 ^ magnitudes.length := by
  rw [wilcoxonExactOneSided]
  simp only [filter_signedDiffs signs hmagnitudes, length_signedDiffs, marks_signedDiffs signs hmagnitudes,
    rankSum_le_slack_iff]
  split_ifs with hn
  · obtain rfl := List.length_eq_zero_iff.mp hn
    simp [signVectors, rankSum]
  · rfl

/-- **A test of level `a` rejects in at most a fraction `a` of the cases**, for symmetric
signs and whatever ties there are among the magnitudes. -/
theorem wilcoxon_valid (hmagnitudes : ∀ magnitude ∈ magnitudes, magnitude ≠ 0) {a : ℚ} (ha : 0 ≤ a) :
    ((Finset.univ.filter fun signs : Fin magnitudes.length → Bool =>
      (wilcoxonExactOneSided sort (signedDiffs magnitudes signs)).p ≤ a).card : ℚ) ≤ a * 2 ^ magnitudes.length := by
  -- one list of ranks serves all signs
  let ranks := midranks sort (signedDiffs magnitudes fun _ => true)
  have hranks : ∀ signs, midranks sort (signedDiffs magnitudes signs) = ranks :=
    fun signs => midranks_signedDiffs sort signs _
  let statistic : (Fin magnitudes.length → Bool) → ℚ := fun signs => rankSum ranks (List.ofFn signs)
  have hpow : (0 : ℚ) < 2 ^ magnitudes.length := by positivity
  refine le_trans ?_ (card_filter_card_le statistic (mul_nonneg ha hpow.le))
  refine Nat.cast_le.mpr (Finset.card_le_card fun signs hsigns => ?_)
  have hp := (Finset.mem_filter.mp hsigns).2
  rw [p_signedDiffs sort hmagnitudes, hranks, div_le_iff₀ hpow] at hp
  refine Finset.mem_filter.mpr ⟨Finset.mem_univ signs, le_trans (Nat.cast_le.mpr ?_) hp⟩
  exact card_filter_le_signVectors fun signs' => rankSum ranks signs' ≤ rankSum ranks (List.ofFn signs)

end Level

/-- Of the 8 ways for two tied magnitudes and a larger one, at most 2 have a `p` of at
most a quarter. -/
theorem wilcoxon_valid_tie :
    ((Finset.univ.filter fun signs : Fin ([3, 3, 5] : List ℚ).length → Bool =>
      (wilcoxonExactOneSided .insertion (signedDiffs [3, 3, 5] signs)).p ≤ 1 / 4).card : ℚ) ≤ 1 / 4 * 2 ^ 3 :=
  wilcoxon_valid .insertion (by decide) (by norm_num)

/-! ### The test -/

section Test

variable (sort : PySort) (diffs : List ℚ)

/-- The non-zero differences. -/
def nonzero (diffs : List ℚ) : List ℚ := diffs.filter (· ≠ 0)

/-- The sum of the midranks of the positive differences. -/
def wPlus (d : List ℚ) : ℚ := ((d.filter (0 < ·)).map (midrank d)).sum

theorem filter_num : ((diffs.map .num).filter fun x => ¬ x.Equals (.num 0)) =
    (nonzero diffs).map PyFloat.num := by
  rw [List.filter_map, nonzero]
  rfl

theorem rankSum_positive (d : List ℚ) (rank : ℚ → ℚ) :
    rankSum (d.map rank) ((d.map PyFloat.num).map fun x => decide (.num 0 < x)) =
      ((d.filter (0 < ·)).map rank).sum := by
  induction d with
  | nil => rfl
  | cons x d ih =>
    have hpos : decide (PyFloat.num 0 < .num x) = decide (0 < x) := rfl
    rw [List.map_cons, List.map_cons, List.map_cons, hpos, List.filter_cons]
    by_cases hx : 0 < x
    · rw [decide_eq_true hx, rankSum_true, ih, if_pos rfl, List.map_cons, List.sum_cons]
    · rw [decide_eq_false hx, rankSum_false, ih, if_neg Bool.false_ne_true]

/-- The number of sign vectors whose rank sum is not above that of the positive differences. -/
def notAbove (d : List ℚ) : ℕ :=
  ((signVectors d.length).filter fun signs => rankSum (d.map (midrank d)) signs ≤ wPlus d).length

/-- The test, from the midranks. -/
theorem wilcoxonExactOneSided_num : wilcoxonExactOneSided sort (diffs.map .num) =
    if (nonzero diffs).length = 0 then ⟨0, .nan, 1⟩
    else ⟨(nonzero diffs).length, .num (wPlus (nonzero diffs)),
      notAbove (nonzero diffs) / 2 ^ (nonzero diffs).length⟩ := by
  rw [wilcoxonExactOneSided]
  simp only [filter_num, List.length_map, rankSum_le_slack_iff]
  simp only [midranks_num, rankSum_positive]
  rfl

theorem notAbove_eq_card (d : List ℚ) : notAbove d =
    (Finset.univ.filter fun S : Finset (Fin d.length) =>
      ∑ i ∈ S, midrank d d[i] ≤ wPlus d).card := by
  have hranks : d.map (midrank d) = List.ofFn fun i : Fin d.length => midrank d d[i] := by
    rw [← List.ofFn_getElem_eq_map]
    rfl
  rw [notAbove, length_filter_signVectors fun signs => rankSum (d.map (midrank d)) signs ≤ wPlus d]
  congr 1
  ext S
  rw [Finset.mem_filter, Finset.mem_filter, hranks, rankSum_ofFn]
  simp

theorem notAbove_eq_countP (d : List ℚ) :
    notAbove d = d.sublists'.countP fun S => (S.map (midrank d)).sum ≤ wPlus d := by
  have hlength : (d.map (midrank d)).length = d.length := List.length_map _
  calc notAbove d
      = ((signVectors d.length).map (rankSum (d.map (midrank d)))).countP
          (fun s => s ≤ wPlus d) := by
        rw [notAbove, ← List.countP_eq_length_filter, List.countP_map]
        rfl
    _ = (d.sublists'.map fun S => (S.map (midrank d)).sum).countP (fun s => s ≤ wPlus d) := by
        rw [← hlength, map_rankSum_signVectors, List.sublists'_map, List.map_map]
        rfl
    _ = d.sublists'.countP fun S => (S.map (midrank d)).sum ≤ wPlus d := List.countP_map

theorem midrank_nonneg (d : List ℚ) (x : ℚ) : 0 ≤ midrank d x := by
  rw [midrank]
  positivity

theorem wPlus_nonneg (d : List ℚ) : 0 ≤ wPlus d := by
  refine List.sum_nonneg fun r hr => ?_
  obtain ⟨x, -, rfl⟩ := List.mem_map.mp hr
  exact midrank_nonneg d x

/-- No sign is positive in one sign vector at least. -/
theorem one_le_notAbove (d : List ℚ) : 1 ≤ notAbove d := by
  rw [notAbove_eq_card, Nat.one_le_iff_ne_zero, ← Nat.pos_iff_ne_zero, Finset.card_pos]
  refine ⟨∅, Finset.mem_filter.mpr ⟨Finset.mem_univ _, ?_⟩⟩
  rw [Finset.sum_empty]
  exact wPlus_nonneg d

theorem notAbove_le (d : List ℚ) : notAbove d ≤ 2 ^ d.length := by
  rw [notAbove_eq_card]
  refine le_trans (Finset.card_filter_le _ _) (le_of_eq ?_)
  rw [Finset.card_univ, Fintype.card_finset, Fintype.card_fin]

end Test

/-! ### What does not matter -/

/-- A change of the differences that the test does not see. -/
inductive Reshapes : List ℚ → List ℚ → Prop
  /-- Another order. -/
  | perm {diffs diffs' : List ℚ} (h : diffs.Perm diffs') : Reshapes diffs diffs'
  /-- A zero. -/
  | zero (before after : List ℚ) : Reshapes (before ++ after) (before ++ 0 :: after)
  /-- Another unit. -/
  | scale {c : ℚ} (hc : 0 < c) (diffs : List ℚ) : Reshapes diffs (diffs.map (c * ·))

section Reshapes

variable {d d' : List ℚ}

theorem midrank_perm (h : d.Perm d') : midrank d = midrank d' := by
  funext x
  rw [midrank, midrank, h.countP_eq, h.countP_eq]

theorem wPlus_perm (h : d.Perm d') : wPlus d = wPlus d' := by
  rw [wPlus, wPlus, midrank_perm h]
  exact ((h.filter _).map _).sum_eq

theorem notAbove_perm (h : d.Perm d') : notAbove d = notAbove d' := by
  -- up to their order, the sublists are the parts of one multiset
  have hcount (d : List ℚ) (rank : ℚ → ℚ) (w : ℚ) :
      (d.sublists'.countP fun S => (S.map rank).sum ≤ w) =
      (Multiset.powersetAux' d).countP fun S => (S.map rank).sum ≤ w := by
    rw [Multiset.powersetAux', List.countP_map]
    refine List.countP_congr fun S _ => ?_
    rw [Function.comp_apply, Multiset.map_coe, Multiset.sum_coe]
  rw [notAbove_eq_countP, notAbove_eq_countP, midrank_perm h, wPlus_perm h, hcount, hcount,
    (Multiset.powerset_aux'_perm h).countP_eq]

theorem midrank_scale {c : ℚ} (hc : 0 < c) (x : ℚ) :
    midrank (d.map (c * ·)) (c * x) = midrank d x := by
  have hlt (y : ℚ) : |c * y| < |c * x| ↔ |y| < |x| := by
    rw [abs_mul, abs_mul, mul_lt_mul_iff_of_pos_left (abs_pos.mpr hc.ne')]
  have heq (y : ℚ) : |c * y| = |c * x| ↔ |y| = |x| := by
    rw [abs_mul, abs_mul, mul_right_inj' (abs_pos.mpr hc.ne').ne']
  rw [midrank, midrank, List.countP_map, List.countP_map]
  simp only [Function.comp_def, hlt, heq]

theorem map_midrank_scale {c : ℚ} (hc : 0 < c) (l : List ℚ) :
    (l.map (c * ·)).map (midrank (d.map (c * ·))) = l.map (midrank d) := by
  rw [List.map_map]
  exact List.map_congr_left fun x _ => midrank_scale hc x

theorem wPlus_scale {c : ℚ} (hc : 0 < c) : wPlus (d.map (c * ·)) = wPlus d := by
  have hfilter : (d.map (c * ·)).filter (0 < ·) = (d.filter (0 < ·)).map (c * ·) := by
    rw [List.filter_map]
    congr 1
    exact List.filter_congr fun x _ => decide_eq_decide.mpr (mul_pos_iff_of_pos_left hc)
  rw [wPlus, hfilter, map_midrank_scale hc, wPlus]

theorem notAbove_scale {c : ℚ} (hc : 0 < c) : notAbove (d.map (c * ·)) = notAbove d := by
  rw [notAbove, notAbove, List.length_map, map_midrank_scale hc, wPlus_scale hc]

theorem nonzero_scale {c : ℚ} (hc : 0 < c) (diffs : List ℚ) :
    nonzero (diffs.map (c * ·)) = (nonzero diffs).map (c * ·) := by
  rw [nonzero, List.filter_map, nonzero]
  congr 1
  refine List.filter_congr fun x _ => decide_eq_decide.mpr ?_
  simp [hc.ne']

/-- The result depends on three numbers. -/
theorem wilcoxonExactOneSided_congr (sort sort' : PySort) {diffs diffs' : List ℚ}
    (hlength : (nonzero diffs').length = (nonzero diffs).length)
    (hwPlus : wPlus (nonzero diffs') = wPlus (nonzero diffs))
    (hcount : notAbove (nonzero diffs') = notAbove (nonzero diffs)) :
    wilcoxonExactOneSided sort' (diffs'.map .num) =
      wilcoxonExactOneSided sort (diffs.map .num) := by
  rw [wilcoxonExactOneSided_num, wilcoxonExactOneSided_num, hlength, hwPlus, hcount]

theorem wilcoxonExactOneSided_reshapes (sort : PySort) {diffs diffs' : List ℚ}
    (h : Reshapes diffs diffs') :
    wilcoxonExactOneSided sort (diffs'.map .num) = wilcoxonExactOneSided sort (diffs.map .num) := by
  cases h with
  | perm h =>
    have hnonzero : (nonzero diffs').Perm (nonzero diffs) := (h.filter _).symm
    exact wilcoxonExactOneSided_congr sort sort hnonzero.length_eq (wPlus_perm hnonzero)
      (notAbove_perm hnonzero)
  | zero before after =>
    have hnonzero : nonzero (before ++ 0 :: after) = nonzero (before ++ after) := by simp [nonzero]
    rw [wilcoxonExactOneSided_num, hnonzero, ← wilcoxonExactOneSided_num]
  | scale hc =>
    refine wilcoxonExactOneSided_congr sort sort ?_ ?_ ?_
    · rw [nonzero_scale hc, List.length_map]
    · rw [nonzero_scale hc, wPlus_scale hc]
    · rw [nonzero_scale hc, notAbove_scale hc]

theorem wilcoxonExactOneSided_eqvGen (sort : PySort) {diffs diffs' : List ℚ}
    (h : Relation.EqvGen Reshapes diffs diffs') :
    wilcoxonExactOneSided sort (diffs'.map .num) = wilcoxonExactOneSided sort (diffs.map .num) := by
  induction h with
  | rel _ _ h => exact wilcoxonExactOneSided_reshapes sort h
  | refl => rfl
  | symm _ _ _ ih => exact ih.symm
  | trans _ _ _ _ _ ih ih' => exact ih'.trans ih

end Reshapes

/-- **The signed-rank test by midranks.** Every non-zero difference gets its midrank, `w_plus` is
the sum of those of the positive ones, and `p` is the part of all sets of them with no greater
sum; none of it depends on the order, on zeros or on the unit. -/
theorem wilcoxonExactOneSided_spec (sort : PySort) {diffs d : List ℚ}
    (hd : diffs.filter (· ≠ 0) = d) :
    (d ≠ [] → midranks sort (d.map .num) = d.map (midrank d) ∧
      (d.map (midrank d)).sum = d.length * (d.length + 1) / 2 ∧
      ∃ p : ℚ, wilcoxonExactOneSided sort (diffs.map .num) =
          ⟨d.length, .num ((d.filter (0 < ·)).map (midrank d)).sum, p⟩ ∧
        p = (Finset.univ.filter fun S : Finset (Fin d.length) =>
          ∑ i ∈ S, midrank d d[i] ≤ ((d.filter (0 < ·)).map (midrank d)).sum).card / 2 ^ d.length ∧
        1 / 2 ^ d.length ≤ p ∧ p ≤ 1) ∧
    ∀ diffs', Relation.EqvGen Reshapes diffs diffs' →
      wilcoxonExactOneSided sort (diffs'.map .num) =
        wilcoxonExactOneSided sort (diffs.map .num) := by
  refine ⟨fun hne => ?_, fun diffs' => wilcoxonExactOneSided_eqvGen sort⟩
  have hpow : (0 : ℚ) < 2 ^ d.length := by positivity
  have hlow : (1 : ℚ) ≤ notAbove d := by exact_mod_cast one_le_notAbove d
  have hhigh : (notAbove d : ℚ) ≤ 2 ^ d.length := by exact_mod_cast notAbove_le d
  refine ⟨midranks_num sort d, sum_midrank d, notAbove d / 2 ^ d.length, ?_, ?_, ?_, ?_⟩
  · have hnonzero : nonzero diffs = d := hd
    rw [wilcoxonExactOneSided_num, hnonzero, if_neg fun h => hne (List.length_eq_zero_iff.mp h)]
    rfl
  · rw [notAbove_eq_card]
    rfl
  · exact div_le_div_of_nonneg_right hlow hpow.le
  · exact (div_le_one₀ hpow).mpr hhigh

/-- Two tied differences of opposite sign, a zero and a larger one: `w_plus` is `3 / 2 + 3`. -/
theorem wilcoxonExactOneSided_spec_tie :
    (∃ p : ℚ, wilcoxonExactOneSided .insertion ([3, 0, -3, 5].map .num) = ⟨3, .num (9 / 2), p⟩ ∧
      1 / 2 ^ 3 ≤ p ∧ p ≤ 1) ∧
    wilcoxonExactOneSided .insertion ([5, -3, 3, 0].map .num) =
      wilcoxonExactOneSided .insertion ([3, 0, -3, 5].map .num) := by
  have hspec := @wilcoxonExactOneSided_spec .insertion [3, 0, -3, 5] [3, -3, 5] (by decide)
  have hperm : ([3, 0, -3, 5] : List ℚ).Perm [5, -3, 3, 0] := by decide
  obtain ⟨-, -, p, hresult, -, hbounds⟩ := hspec.1 (by decide)
  have hwPlus : ((([3, -3, 5] : List ℚ).filter (0 < ·)).map (midrank [3, -3, 5])).sum =
      9 / 2 := by decide +kernel
  rw [hwPlus] at hresult
  exact ⟨⟨p, hresult, hbounds⟩, hspec.2 _ (.rel _ _ (.perm hperm))⟩

end CachingInLLMs.Benchmarks

import CachingInLLMs.Benchmarks.PairedSeeds
import CachingInLLMs.Benchmarks.Percentile
import CachingInLLMs.Benchmarks.SignedRank
import Mathlib.Algebra.Order.BigOperators.Group.Finset

/-!
# A comparison in both directions

`cmd_compare` tests whether the candidate is below the baseline, at `2.5%`. Two runs can
be compared in either direction, and nothing in the code relates the two results. What relates them is
the test: a rank sum and that of the opposite signs add up to the same total, and choosing the
complement of a set of signs turns one of the two tails into the other.

## What is proved

* `p_add_p_neg`: the two values of `p` add up to more than 1.
* `opposite_directions`: what two reports on the same runs have to do with each other.
* `six_seeds`: how many seeds a significant result takes, and that these are enough.
-/

namespace CachingInLLMs.Benchmarks

open CachingInLLMs.Library

/-! ### Opposite signs -/

section Opposite

/-- One tail and the other, of the sums over all sets: they overlap in the sums that are equal. -/
theorem card_le_add_card_le {n : ℕ} (rank : Fin n → ℚ) (w : ℚ) :
    (Finset.univ.filter fun S : Finset (Fin n) => ∑ i ∈ S, rank i ≤ w).card +
      (Finset.univ.filter fun S : Finset (Fin n) => ∑ i ∈ S, rank i ≤ (∑ i, rank i) - w).card =
    2 ^ n + (Finset.univ.filter fun S : Finset (Fin n) => ∑ i ∈ S, rank i = w).card := by
  have hcompl : (Finset.univ.filter fun S : Finset (Fin n) => ∑ i ∈ S, rank i ≤ (∑ i, rank i) - w).card =
      (Finset.univ.filter fun S : Finset (Fin n) => w ≤ ∑ i ∈ S, rank i).card := by
    refine Finset.card_nbij' (fun S => Sᶜ) (fun S => Sᶜ) ?_ ?_ (fun S _ => compl_compl S) fun S _ => compl_compl S
    · intro S hS
      have hle := (Finset.mem_filter.mp hS).2
      have hsum := Finset.sum_add_sum_compl S rank
      exact Finset.mem_filter.mpr ⟨Finset.mem_univ _, by linarith⟩
    · intro S hS
      have hle := (Finset.mem_filter.mp hS).2
      have hsum := Finset.sum_add_sum_compl S rank
      exact Finset.mem_filter.mpr ⟨Finset.mem_univ _, by linarith⟩
  have hunion : (Finset.univ.filter fun S : Finset (Fin n) => ∑ i ∈ S, rank i ≤ w) ∪
      (Finset.univ.filter fun S : Finset (Fin n) => w ≤ ∑ i ∈ S, rank i) = Finset.univ := by
    rw [← Finset.filter_or, Finset.filter_true_of_mem fun S _ => le_total _ w]
  have hinter : (Finset.univ.filter fun S : Finset (Fin n) => ∑ i ∈ S, rank i ≤ w) ∩
      (Finset.univ.filter fun S : Finset (Fin n) => w ≤ ∑ i ∈ S, rank i) =
      Finset.univ.filter fun S : Finset (Fin n) => ∑ i ∈ S, rank i = w := by
    rw [← Finset.filter_and]
    exact Finset.filter_congr fun S _ => le_antisymm_iff.symm
  rw [hcompl, ← Finset.card_union_add_card_inter, hunion, hinter, Finset.card_univ, Fintype.card_finset,
    Fintype.card_fin]

variable (d : List ℚ)

/-- The sign does not matter to the rank. -/
theorem map_midrank_neg : (d.map (- ·)).map (midrank (d.map (- ·))) = d.map (midrank d) := by
  rw [List.map_map]
  refine List.map_congr_left fun x _ => ?_
  rw [Function.comp_apply, midrank, midrank, List.countP_map, List.countP_map]
  simp only [Function.comp_def, abs_neg]

variable {d}

/-- The ranks of the positive differences and of the others are all ranks. -/
theorem wPlus_neg (hd : ∀ x ∈ d, x ≠ 0) : wPlus (d.map (- ·)) = (d.map (midrank d)).sum - wPlus d := by
  have hfilter : (d.map (- ·)).filter (0 < ·) = (d.filter fun x => ¬ 0 < x).map (- ·) := by
    rw [List.filter_map]
    congr 1
    refine List.filter_congr fun x hx => decide_eq_decide.mpr ?_
    rw [neg_pos, not_lt]
    exact ⟨le_of_lt, fun hle => lt_of_le_of_ne hle (hd x hx)⟩
  have hrank (x : ℚ) : midrank (d.map (- ·)) (-x) = midrank d x := by
    rw [midrank, midrank, List.countP_map, List.countP_map]
    simp only [Function.comp_def, abs_neg]
  have hall : ((d.filter (0 < ·)).map (midrank d)).sum + ((d.filter fun x => ¬ 0 < x).map (midrank d)).sum =
      (d.map (midrank d)).sum := by
    have hperm := (List.filter_append_perm (fun x => decide (0 < x)) d).map (midrank d)
    rw [← hperm.sum_eq, List.map_append, List.sum_append]
    simp only [decide_not]
  rw [wPlus, hfilter, List.map_map, wPlus, ← hall, add_sub_cancel_left]
  exact congrArg List.sum (List.map_congr_left fun x _ => hrank x)

/-- The two rank sums share out `1 + ... + n`. -/
theorem wPlus_add_wPlus_neg (hd : ∀ x ∈ d, x ≠ 0) :
    wPlus d + wPlus (d.map (- ·)) = d.length * (d.length + 1) / 2 := by
  rw [wPlus_neg hd, sum_midrank]
  ring

/-- The rank sum is one of those counted. -/
theorem wPlus_eq_sum (d : List ℚ) : ∑ i with 0 < d.get i, midrank d (d.get i) = wPlus d := by
  have hranks : d.map (midrank d) = List.ofFn fun i : Fin d.length => midrank d d[i] := by
    rw [← List.ofFn_getElem_eq_map]
    rfl
  have hmarks : ((d.map PyFloat.num).map fun x => decide (.num 0 < x)) =
      List.ofFn fun i : Fin d.length => decide (0 < d[i]) := by
    rw [List.map_map, ← List.ofFn_getElem_eq_map]
    rfl
  have hsum := rankSum_positive d (midrank d)
  rw [hranks, hmarks, rankSum_ofFn] at hsum
  rw [wPlus, ← hsum]
  simp

theorem notAbove_add_notAbove_neg (hd : ∀ x ∈ d, x ≠ 0) :
    2 ^ d.length < notAbove d + notAbove (d.map (- ·)) := by
  have hranks : d.map (midrank d) = List.ofFn fun i : Fin d.length => midrank d d[i] := by
    rw [← List.ofFn_getElem_eq_map]
    rfl
  have hneg : notAbove (d.map (- ·)) = (Finset.univ.filter fun S : Finset (Fin d.length) =>
      ∑ i ∈ S, midrank d d[i] ≤ (∑ i : Fin d.length, midrank d d[i]) - wPlus d).card := by
    rw [notAbove, List.length_map, map_midrank_neg,
      length_filter_signVectors fun signs => rankSum (d.map (midrank d)) signs ≤ wPlus (d.map (- ·))]
    congr 1
    ext S
    rw [Finset.mem_filter, Finset.mem_filter, wPlus_neg hd, hranks, rankSum_ofFn, List.sum_ofFn]
    simp
  rw [hneg, notAbove_eq_card, card_le_add_card_le]
  refine Nat.lt_add_of_pos_right (Finset.card_pos.mpr ⟨Finset.univ.filter fun i => 0 < d.get i, ?_⟩)
  exact Finset.mem_filter.mpr ⟨Finset.mem_univ _, wPlus_eq_sum d⟩

end Opposite

/-! ### The values of `p` -/

section Values

theorem nonzero_neg (diffs : List ℚ) : nonzero (diffs.map (- ·)) = (nonzero diffs).map (- ·) := by
  rw [nonzero, List.filter_map, nonzero]
  congr 1
  refine List.filter_congr fun x _ => decide_eq_decide.mpr ?_
  simp

theorem ne_zero_of_mem_nonzero {diffs : List ℚ} : ∀ x ∈ nonzero diffs, x ≠ 0 :=
  fun _ hx => of_decide_eq_true (List.mem_filter.mp hx).2

/-- **The two values of `p` add up to more than 1.** What is more is the probability of the rank sum. -/
theorem p_add_p_neg (sort sort' : PySort) (diffs : List ℚ) :
    1 < (wilcoxonExactOneSided sort (diffs.map .num)).p +
      (wilcoxonExactOneSided sort' ((diffs.map (- ·)).map .num)).p := by
  rw [wilcoxonExactOneSided_num, wilcoxonExactOneSided_num, nonzero_neg, List.length_map]
  split_ifs with hn
  · norm_num
  · have hpow : (0 : ℚ) < 2 ^ (nonzero diffs).length := by positivity
    have hcount : ((2 ^ (nonzero diffs).length : ℕ) : ℚ) <
        ((notAbove (nonzero diffs) + notAbove ((nonzero diffs).map (- ·)) : ℕ) : ℚ) :=
      Nat.cast_lt.mpr (notAbove_add_notAbove_neg ne_zero_of_mem_nonzero)
    push_cast at hcount
    rw [← add_div, one_lt_div₀ hpow]
    exact hcount

/-- Neither order nor sign of the differences matters to their number. -/
theorem n_neg (sort sort' : PySort) (diffs : List ℚ) :
    (wilcoxonExactOneSided sort' ((diffs.map (- ·)).map .num)).n =
      (wilcoxonExactOneSided sort (diffs.map .num)).n := by
  rw [wilcoxonExactOneSided_num, wilcoxonExactOneSided_num, nonzero_neg, List.length_map]
  split_ifs <;> rfl

theorem rankSum_replicate_false (ranks : List ℚ) (n : ℕ) : rankSum ranks (List.replicate n false) = 0 := by
  induction n generalizing ranks with
  | zero =>
    rw [List.replicate_zero, rankSum, List.zip_nil_right]
    rfl
  | succ n ih =>
    cases ranks with
    | nil => rfl
    | cons r ranks => rw [List.replicate_succ, rankSum_false, ih]

theorem HalfInteger.nonneg {q : ℚ} (h : HalfInteger q) : 0 ≤ q := by
  obtain ⟨k, rfl⟩ := h
  positivity

/-- Whatever the differences are, one of the sign vectors counts: that without a positive sign. -/
theorem le_p (sort : PySort) (diffs : List PyFloat) :
    1 / 2 ^ (wilcoxonExactOneSided sort diffs).n ≤ (wilcoxonExactOneSided sort diffs).p := by
  rw [wilcoxonExactOneSided]
  dsimp only
  split_ifs with hn
  · norm_num
  · generalize hd : diffs.filter (fun x => ¬ x.Equals (.num 0)) = d
    rw [hd] at hn
    have hmem : List.replicate d.length false ∈ signVectors d.length := by
      have h := mem_signVectors (List.replicate d.length false)
      rwa [List.length_replicate] at h
    have hsum : rankSum (midranks sort d) (List.replicate d.length false) ≤
        rankSum (midranks sort d) (d.map fun x => decide (.num 0 < x)) + 1 / 10 ^ 9 := by
      have hnonneg := (halfInteger_rankSum (halfInteger_midranks sort d)
        (d.map fun x => decide (.num 0 < x))).nonneg
      rw [rankSum_replicate_false]
      positivity
    have hcount : 1 ≤ ((signVectors d.length).filter fun signs => rankSum (midranks sort d) signs ≤
        rankSum (midranks sort d) (d.map fun x => decide (.num 0 < x)) + 1 / 10 ^ 9).length :=
      List.length_pos_of_mem (List.mem_filter.mpr ⟨hmem, decide_eq_true hsum⟩)
    have hcast : (1 : ℚ) ≤ (((signVectors d.length).filter fun signs => rankSum (midranks sort d) signs ≤
        rankSum (midranks sort d) (d.map fun x => decide (.num 0 < x)) + 1 / 10 ^ 9).length : ℕ) := by
      exact_mod_cast hcount
    exact div_le_div_of_nonneg_right hcast (by positivity)

/-- Without a positive difference it is the only one. -/
theorem p_of_nonpos (sort : PySort) {diffs : List ℚ} (h : ∀ x ∈ diffs, x ≤ 0) :
    (wilcoxonExactOneSided sort (diffs.map .num)).p =
      1 / 2 ^ (wilcoxonExactOneSided sort (diffs.map .num)).n := by
  have hpos : (nonzero diffs).filter (0 < ·) = [] := by
    rw [List.filter_eq_nil_iff]
    intro x hx hpos
    exact absurd (of_decide_eq_true hpos) (not_lt.mpr (h x (List.mem_filter.mp hx).1))
  have hwPlus : wPlus (nonzero diffs) = 0 := by
    rw [wPlus, hpos]
    rfl
  have hone : notAbove (nonzero diffs) = 1 := by
    rw [notAbove_eq_card, hwPlus, Finset.card_eq_one]
    refine ⟨∅, Finset.eq_singleton_iff_unique_mem.mpr ⟨?_, fun S hS => ?_⟩⟩
    · exact Finset.mem_filter.mpr ⟨Finset.mem_univ _, by rw [Finset.sum_empty]⟩
    · by_contra hne
      have hsum : 0 < ∑ i ∈ S, midrank (nonzero diffs) (nonzero diffs)[i] := by
        refine Finset.sum_pos (fun i _ => ?_) (Finset.nonempty_iff_ne_empty.mpr hne)
        rw [midrank]
        positivity
      exact absurd (Finset.mem_filter.mp hS).2 (not_le.mpr hsum)
  rw [wilcoxonExactOneSided_num]
  split_ifs with hn
  · norm_num
  · dsimp only
    rw [hone, Nat.cast_one]

/-- Six differences of one sign are below the level, and five are not. -/
theorem pow_lt_alpha_iff (n : ℕ) : 1 / 2 ^ n < alpha ↔ 6 ≤ n := by
  have hpow : (0 : ℚ) < 2 ^ n := by positivity
  rw [alpha, div_lt_iff₀ hpow]
  constructor
  · intro h
    by_contra hlt
    have hle : (2 : ℚ) ^ n ≤ 2 ^ 5 := pow_le_pow_right₀ (by norm_num) (by omega)
    linarith
  · intro h
    have hle : (2 : ℚ) ^ 6 ≤ 2 ^ n := pow_le_pow_right₀ (by norm_num) h
    linarith

end Values

/-! ### Reports -/

section Reports

variable {ω : Type} {sort sort' : PySort} {draw draw' : ℕ → ℕ} {candDir baseDir : RunDir ω}
  {metric : String} {slo : ℚ} {r r' : Report}

/-- What a report is made of: the seeds of the two runs, and the values of the metric in each. -/
structure Reported (sort : PySort) (candDir baseDir : RunDir ω) (metric : String) (slo : ℚ) (r : Report)
    (cand base : List SeedStats) (c b : List Entry) (pairs : List (PyFloat × PyFloat)) : Prop where
  /-- The candidate's seeds. -/
  readCand : candDir.readRun slo = .ok cand
  /-- The baseline's seeds. -/
  readBase : baseDir.readRun slo = .ok base
  /-- They are the same. -/
  seeds : cand.map (·.seed) = base.map (·.seed)
  /-- The values. -/
  values : metricValues candDir baseDir metric cand base = .ok (c, b)
  /-- The values as numbers. -/
  floats : (c.zip b).mapM toFloats = .ok pairs
  /-- The table. -/
  table : r.pairs = ((cand.map (·.seed)).zip pairs).map fun row => (row.1, row.2.1, row.2.2, row.2.1 - row.2.2)
  /-- The test. -/
  test : r.test = wilcoxonExactOneSided sort (pairs.map fun pair => pair.1 - pair.2)

theorem reported_of_testMetric {cand base : List SeedStats}
    (h : testMetric sort draw candDir baseDir metric cand base = .ok (.report r)) :
    ∃ c b pairs, metricValues candDir baseDir metric cand base = .ok (c, b) ∧ (c.zip b).mapM toFloats = .ok pairs ∧
      (r.pairs = ((cand.map (·.seed)).zip pairs).map fun row => (row.1, row.2.1, row.2.2, row.2.1 - row.2.2)) ∧
      r.test = wilcoxonExactOneSided sort (pairs.map fun pair => pair.1 - pair.2) := by
  rw [testMetric, bind_eq_ok] at h
  obtain ⟨⟨c, b⟩, hvalues, h⟩ := h
  dsimp only at h
  split_ifs at h with hzeros
  obtain ⟨report, hreport, h⟩ := bind_eq_ok.mp h
  obtain rfl := Outcome.report.inj (Except.ok.inj h)
  rw [PairedSeeds.uncaught_eq_ok, pairedReport, bind_eq_ok] at hreport
  obtain ⟨pairs, hpairs, hreport⟩ := hreport
  obtain ⟨effect, -, hreport⟩ := bind_eq_ok.mp hreport
  obtain rfl := Except.ok.inj hreport
  exact ⟨c, b, pairs, hvalues, hpairs, rfl, rfl⟩

theorem exists_reported [DecidableEq ω] (h : cmdCompare sort draw candDir baseDir metric slo = .ok (.report r)) :
    ∃ cand base c b pairs, Reported sort candDir baseDir metric slo r cand base c b pairs := by
  rw [cmdCompare, bind_eq_ok] at h
  obtain ⟨-, -, h⟩ := h
  obtain ⟨cand, hcand, h⟩ := bind_eq_ok.mp h
  obtain ⟨base, hbase, h⟩ := bind_eq_ok.mp h
  dsimp only at h
  split_ifs at h with hseeds hbad hbias
  · cases h
  · cases h
  · obtain ⟨c, b, pairs, hvalues, hpairs, htable, htest⟩ := reported_of_testMetric h
    exact ⟨cand, base, c, b, pairs, hcand, hbase, not_not.mp hseeds, hvalues, hpairs, htable, htest⟩

/-- The other direction has the same values. -/
theorem metricValues_swap {cand base : List SeedStats} {c b c' b' : List Entry}
    (hseeds : cand.map (·.seed) = base.map (·.seed))
    (h : metricValues candDir baseDir metric cand base = .ok (c, b))
    (h' : metricValues baseDir candDir metric base cand = .ok (c', b')) : c' = b ∧ b' = c := by
  by_cases hmetric : metric = "imbalance"
  · simp only [metricValues, if_pos hmetric, bind_eq_ok] at h h'
    obtain ⟨-, -, -, -, c₁, hc, b₁, hb, h⟩ := h
    obtain ⟨-, -, -, -, c₂, hc', b₂, hb', h'⟩ := h'
    obtain ⟨rfl, rfl⟩ := Prod.mk.inj (Except.ok.inj h)
    obtain ⟨rfl, rfl⟩ := Prod.mk.inj (Except.ok.inj h')
    rw [hseeds] at hc hb
    exact ⟨Except.ok.inj (hc'.symm.trans hb), Except.ok.inj (hb'.symm.trans hc)⟩
  · simp only [metricValues, if_neg hmetric, bind_eq_ok] at h h'
    obtain ⟨first, -, h⟩ := h
    obtain ⟨first', -, h'⟩ := h'
    split_ifs at h h'
    obtain ⟨c₁, hc, h⟩ := bind_eq_ok.mp h
    obtain ⟨b₁, hb, h⟩ := bind_eq_ok.mp h
    obtain ⟨c₂, hc', h'⟩ := bind_eq_ok.mp h'
    obtain ⟨b₂, hb', h'⟩ := bind_eq_ok.mp h'
    obtain ⟨rfl, rfl⟩ := Prod.mk.inj (Except.ok.inj h)
    obtain ⟨rfl, rfl⟩ := Prod.mk.inj (Except.ok.inj h')
    exact ⟨Except.ok.inj (hc'.symm.trans hb), Except.ok.inj (hb'.symm.trans hc)⟩

theorem toFloats_swap {pair : Entry × Entry} {p : PyFloat × PyFloat} (h : toFloats pair = .ok p) :
    toFloats pair.swap = .ok p.swap := by
  rw [toFloats, bind_eq_ok] at h
  obtain ⟨ci, hci, h⟩ := h
  obtain ⟨bi, hbi, h⟩ := bind_eq_ok.mp h
  obtain rfl := Except.ok.inj h
  exact bind_eq_ok.mpr ⟨bi, hbi, bind_eq_ok.mpr ⟨ci, hci, rfl⟩⟩

/-- The two tables have the same pairs, the other way round. -/
theorem Reported.pairs_swap {cand base cand' base' : List SeedStats} {c b c' b' : List Entry}
    {pairs pairs' : List (PyFloat × PyFloat)} (h : Reported sort candDir baseDir metric slo r cand base c b pairs)
    (h' : Reported sort' baseDir candDir metric slo r' cand' base' c' b' pairs') :
    cand' = base ∧ pairs' = pairs.map Prod.swap := by
  obtain rfl := Except.ok.inj (h'.readCand.symm.trans h.readBase)
  obtain rfl := Except.ok.inj (h'.readBase.symm.trans h.readCand)
  obtain ⟨rfl, rfl⟩ := metricValues_swap h.seeds h.values h'.values
  refine ⟨rfl, ?_⟩
  have hswap : (c'.zip b').mapM toFloats = .ok (pairs.map Prod.swap) := by
    rw [← List.zip_swap, mapM_eq_ok, List.forall₂_map_left_iff, List.forall₂_map_right_iff]
    exact (mapM_eq_ok.mp h.floats).imp fun _ _ => toFloats_swap
  exact Except.ok.inj (h'.floats.symm.trans hswap)

/-- The differences, if they are numbers, and those of the other direction. -/
theorem exists_diffs {pairs : List (PyFloat × PyFloat)} (h : ∀ pair ∈ pairs, pair.1 - pair.2 ≠ .nan) :
    ∃ diffs : List ℚ, (pairs.map fun pair => pair.1 - pair.2) = diffs.map .num ∧
      ((pairs.map Prod.swap).map fun pair => pair.1 - pair.2) = (diffs.map (- ·)).map .num := by
  induction pairs with
  | nil => exact ⟨[], rfl, rfl⟩
  | cons pair pairs ih =>
    obtain ⟨diffs, hdiffs, hneg⟩ := ih fun pair hpair => h pair (List.mem_cons_of_mem _ hpair)
    have hpair := h pair List.mem_cons_self
    obtain ⟨x, y⟩ := pair
    cases x with
    | nan => exact absurd rfl hpair
    | num x =>
      cases y with
      | nan => exact absurd rfl hpair
      | num y =>
        refine ⟨(x - y) :: diffs, congrArg (PyFloat.num (x - y) :: ·) hdiffs, ?_⟩
        rw [List.map_cons, List.map_cons, List.map_cons, List.map_cons, hneg, neg_sub]
        rfl

/-- Each seed has a value in either run. -/
theorem length_of_metricValues {cand base : List SeedStats} {c b : List Entry}
    (hseeds : cand.map (·.seed) = base.map (·.seed))
    (h : metricValues candDir baseDir metric cand base = .ok (c, b)) :
    c.length = cand.length ∧ b.length = cand.length := by
  have hlength : base.length = cand.length := by
    rw [← List.length_map (·.seed), ← hseeds, List.length_map]
  by_cases hmetric : metric = "imbalance"
  · simp only [metricValues, if_pos hmetric, bind_eq_ok] at h
    obtain ⟨-, -, -, -, c₁, hc, b₁, hb, h⟩ := h
    obtain ⟨rfl, rfl⟩ := Prod.mk.inj (Except.ok.inj h)
    have hc := (mapM_eq_ok.mp hc).length_eq
    have hb := (mapM_eq_ok.mp hb).length_eq
    rw [List.length_map] at hc hb
    exact ⟨hc.symm, hb.symm⟩
  · simp only [metricValues, if_neg hmetric, bind_eq_ok] at h
    obtain ⟨first, -, h⟩ := h
    split_ifs at h
    obtain ⟨c₁, hc, h⟩ := bind_eq_ok.mp h
    obtain ⟨b₁, hb, h⟩ := bind_eq_ok.mp h
    obtain ⟨rfl, rfl⟩ := Prod.mk.inj (Except.ok.inj h)
    exact ⟨(mapM_eq_ok.mp hc).length_eq.symm, (mapM_eq_ok.mp hb).length_eq.symm.trans hlength⟩

variable {cand base : List SeedStats} {c b : List Entry} {pairs : List (PyFloat × PyFloat)}

/-- The table has the pairs of all seeds. -/
theorem Reported.map_table (h : Reported sort candDir baseDir metric slo r cand base c b pairs) :
    r.pairs.map (fun row => (row.2.1, row.2.2.1)) = pairs ∧
      r.pairs.map (·.2.2.2) = pairs.map fun pair => pair.1 - pair.2 := by
  have hlength : pairs.length = (cand.map (·.seed)).length := by
    obtain ⟨hc, hb⟩ := length_of_metricValues h.seeds h.values
    rw [← (mapM_eq_ok.mp h.floats).length_eq, List.length_zip, hc, hb, min_self, List.length_map]
  have hsnd : ((cand.map (·.seed)).zip pairs).map Prod.snd = pairs := List.map_snd_zip hlength.le
  constructor
  · rw [h.table, List.map_map]
    exact hsnd
  · rw [h.table, List.map_map]
    calc ((cand.map (·.seed)).zip pairs).map (fun row => row.2.1 - row.2.2)
        = (((cand.map (·.seed)).zip pairs).map Prod.snd).map fun pair => pair.1 - pair.2 := by
          rw [List.map_map]
          rfl
      _ = pairs.map fun pair => pair.1 - pair.2 := by rw [hsnd]

/-- The differences of a table without NaN are numbers. -/
theorem Reported.ne_nan (h : Reported sort candDir baseDir metric slo r cand base c b pairs)
    (hvalues : ∀ row ∈ r.pairs, row.2.2.2 ≠ .nan) : ∀ pair ∈ pairs, pair.1 - pair.2 ≠ .nan := by
  intro pair hpair
  have hmem : pair.1 - pair.2 ∈ r.pairs.map (·.2.2.2) := by
    rw [h.map_table.2]
    exact List.mem_map.mpr ⟨pair, hpair, rfl⟩
  obtain ⟨row, hrow, heq⟩ := List.mem_map.mp hmem
  exact heq ▸ hvalues row hrow

/-- **The two directions of a comparison.** If a comparison is reported both ways and no difference is NaN,
the tables have the same pairs and count the same differences, the rank sums share out the ranks, and the two
values of `p` add up to more than 1: the verdict is never `significant` both ways. -/
theorem opposite_directions [DecidableEq ω] (h : cmdCompare sort draw candDir baseDir metric slo = .ok (.report r))
    (h' : cmdCompare sort' draw' baseDir candDir metric slo = .ok (.report r'))
    (hvalues : ∀ row ∈ r.pairs, row.2.2.2 ≠ .nan) :
    (r'.pairs = r.pairs.map fun row => (row.1, row.2.2.1, row.2.1, row.2.2.1 - row.2.1)) ∧
    r'.test.n = r.test.n ∧
    (r.test.n ≠ 0 → ∃ w w' : ℚ, r.test.wPlus = .num w ∧ r'.test.wPlus = .num w' ∧
      w + w' = r.test.n * (r.test.n + 1) / 2) ∧
    1 < r.test.p + r'.test.p ∧ ¬ (r.Significant ∧ r'.Significant) := by
  obtain ⟨cand, base, c, b, pairs, hr⟩ := exists_reported h
  obtain ⟨cand', base', c', b', pairs', hr'⟩ := exists_reported h'
  obtain ⟨rfl, rfl⟩ := hr.pairs_swap hr'
  obtain ⟨diffs, hdiffs, hneg⟩ := exists_diffs (hr.ne_nan hvalues)
  have htest : r.test = wilcoxonExactOneSided sort (diffs.map .num) := by rw [hr.test, hdiffs]
  have htest' : r'.test = wilcoxonExactOneSided sort' ((diffs.map (- ·)).map .num) := by rw [hr'.test, hneg]
  have hp : 1 < r.test.p + r'.test.p := by
    rw [htest, htest']
    exact p_add_p_neg sort sort' diffs
  refine ⟨?_, ?_, ?_, hp, fun hboth => ?_⟩
  · rw [hr'.table, hr.table, List.zip_map_right, List.map_map, List.map_map, hr.seeds]
    rfl
  · rw [htest, htest']
    exact n_neg sort sort' diffs
  · intro hn
    rw [htest, wilcoxonExactOneSided_num] at hn ⊢
    rw [htest', wilcoxonExactOneSided_num, nonzero_neg, List.length_map]
    split_ifs with hzero
    · rw [if_pos hzero] at hn
      exact absurd rfl hn
    · exact ⟨_, _, rfl, rfl, wPlus_add_wPlus_neg ne_zero_of_mem_nonzero⟩
  · have hsum : r.test.p + r'.test.p < alpha + alpha := add_lt_add hboth.1 hboth.2
    norm_num [alpha] at hsum
    linarith

/-- A run of six seeds with the same imbalance. -/
def evenRun (q : ℚ) : RunDir Unit :=
  ⟨none, fun slo => .ok (oldSeeds slo), Dict.ofList ((oldSeeds ttftSloS).map fun s => (s.seed, .num q))⟩

/-- Two such runs are compared. -/
theorem report_evenRun {x y : ℚ} (hy : y ≠ 0) : ∃ r : Report,
    cmdCompare .insertion id (evenRun x) (evenRun y) "imbalance" ttftSloS = .ok (.report r) ∧
      r.pairs.map (·.2.2.2) = List.replicate 6 (.num (x - y)) := by
  have hvalues : metricValues (evenRun x) (evenRun y) "imbalance" (oldSeeds ttftSloS) (oldSeeds ttftSloS) =
      .ok (List.replicate 6 (.float (.num x)), List.replicate 6 (.float (.num y))) := by rfl
  have hpairs : ((List.replicate 6 (Entry.float (.num x))).zip (List.replicate 6 (Entry.float (.num y)))).mapM toFloats =
      .ok (List.replicate 6 (.num x, .num y)) := by rfl
  have hnonzero : ∀ entry ∈ List.replicate 6 (Entry.float (.num y)), ¬ entry.IsZero := by
    intro entry hentry
    rw [List.eq_of_mem_replicate hentry]
    exact hy
  have hbase : ∀ pair ∈ List.replicate 6 (PyFloat.num x, PyFloat.num y), ¬ pair.2.Equals (.num 0) := by
    intro pair hpair
    rw [List.eq_of_mem_replicate hpair]
    exact hy
  obtain ⟨r, hr, -⟩ := testMetric_reports .insertion id hvalues rfl hnonzero hpairs hbase
  have hcmd : cmdCompare .insertion id (evenRun x) (evenRun y) "imbalance" ttftSloS = .ok (.report r) := by
    rw [cmdCompare_of_valid .insertion id rfl rfl validPair_oldSeeds]
    exact hr
  refine ⟨r, hcmd, ?_⟩
  obtain ⟨cand, base, c, b, pairs, hrep⟩ := exists_reported hcmd
  obtain rfl := Except.ok.inj hrep.readCand
  obtain rfl := Except.ok.inj hrep.readBase
  obtain ⟨rfl, rfl⟩ := Prod.mk.inj (Except.ok.inj (hrep.values.symm.trans hvalues))
  obtain rfl := Except.ok.inj (hrep.floats.symm.trans hpairs)
  exact hrep.map_table.2

/-- A run with half the imbalance, in both directions. -/
theorem opposite_directions_evenRun : ∃ r r' : Report,
    cmdCompare .insertion id (evenRun 1) (evenRun 2) "imbalance" ttftSloS = .ok (.report r) ∧
      cmdCompare .insertion id (evenRun 2) (evenRun 1) "imbalance" ttftSloS = .ok (.report r') ∧
        1 < r.test.p + r'.test.p := by
  obtain ⟨r, hr, hdiffs⟩ := report_evenRun (x := 1) (y := 2) (by norm_num)
  obtain ⟨r', hr', -⟩ := report_evenRun (x := 2) (y := 1) (by norm_num)
  refine ⟨r, r', hr, hr', (opposite_directions hr hr' fun row hrow hnan => ?_).2.2.2.1⟩
  have hmem : row.2.2.2 ∈ r.pairs.map (·.2.2.2) := List.mem_map.mpr ⟨row, hrow, rfl⟩
  rw [hdiffs, hnan] at hmem
  cases List.eq_of_mem_replicate hmem

/-- The test counts the differences that are not zero. -/
theorem n_eq_countP (sort : PySort) (diffs : List PyFloat) :
    (wilcoxonExactOneSided sort diffs).n = diffs.countP fun x => ¬ x.Equals (.num 0) := by
  rw [wilcoxonExactOneSided, List.countP_eq_length_filter]
  dsimp only
  split_ifs with hn
  · exact hn.symm
  · rfl

/-- **Six seeds.** A significant result takes six differences that are not zero, NaN or not; and they are
enough if none of them is to the candidate's disadvantage. -/
theorem six_seeds [DecidableEq ω] (h : cmdCompare sort draw candDir baseDir metric slo = .ok (.report r)) :
    r.test.n = r.pairs.countP (fun row => ¬ row.2.2.2.Equals (.num 0)) ∧
    (r.Significant → 6 ≤ r.test.n) ∧
    ((∀ row ∈ r.pairs, ∃ q ≤ 0, row.2.2.2 = .num q) → (r.Significant ↔ 6 ≤ r.test.n)) := by
  obtain ⟨cand, base, c, b, pairs, hr⟩ := exists_reported h
  have hdifferences := hr.map_table.2
  refine ⟨?_, fun hsig => ?_, fun hle => ?_⟩
  · rw [hr.test, n_eq_countP, ← hdifferences, List.countP_map]
    rfl
  · have hp : 1 / 2 ^ r.test.n ≤ r.test.p := by
      rw [hr.test]
      exact le_p sort _
    exact (pow_lt_alpha_iff _).mp (hp.trans_lt hsig)
  · have hle : ∀ row ∈ r.pairs, ∃ q ∈ Set.Iic (0 : ℚ), row.2.2.2 = .num q := hle
    obtain ⟨diffs, hdiffs, -, hnonpos⟩ := exists_map_num hle
    have htest : r.test = wilcoxonExactOneSided sort (diffs.map .num) := by
      rw [hr.test, ← hdifferences, hdiffs]
    rw [Report.Significant, htest, p_of_nonpos sort hnonpos, pow_lt_alpha_iff]

/-- Half the imbalance on six seeds is significant. -/
theorem six_seeds_evenRun : ∃ r : Report,
    cmdCompare .insertion id (evenRun 1) (evenRun 2) "imbalance" ttftSloS = .ok (.report r) ∧ r.Significant := by
  obtain ⟨r, hr, hdiffs⟩ := report_evenRun (x := 1) (y := 2) (by norm_num)
  obtain ⟨hn, -, hsig⟩ := six_seeds hr
  have hsix : r.test.n = 6 := by
    have hcount : (r.pairs.map (·.2.2.2)).countP (fun x => ¬ x.Equals (.num 0)) = 6 := by
      rw [hdiffs]
      decide +kernel
    rw [hn, ← hcount, List.countP_map]
    rfl
  refine ⟨r, hr, (hsig fun row hrow => ⟨1 - 2, by norm_num, ?_⟩).mpr hsix.ge⟩
  have hmem : row.2.2.2 ∈ r.pairs.map (·.2.2.2) := List.mem_map.mpr ⟨row, hrow, rfl⟩
  rw [hdiffs] at hmem
  exact List.eq_of_mem_replicate hmem

end Reports

end CachingInLLMs.Benchmarks

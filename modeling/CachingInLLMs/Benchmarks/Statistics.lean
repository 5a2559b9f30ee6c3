import CachingInLLMs.Library.PyFloat
import Mathlib.Tactic.Choose

/-!
# The paired statistics

What `analyze.py` computes from two arms of per-seed values: the exact one-sided
Wilcoxon signed-rank test on the differences, and the median relative reduction
with a bootstrap interval.

The functions take floats, NaN among them, as the source does. Random draws are a
parameter, so whatever is proved holds for every sequence of draws.
-/

namespace CachingInLLMs.Benchmarks

open CachingInLLMs.Library

/-- `percentile`: nearest rank. -/
def percentile (sort : PySort) (xs : List PyFloat) (p : ℚ) : PyFloat :=
  if xs = [] then .nan
  else
    let xs := sort.sorted id xs
    let i := min ((xs.length : ℤ) - 1) (max 0 (pyRound (p / 100 * ((xs.length : ℤ) - 1 : ℤ))))
    xs.getD i.toNat .nan

@[simp] theorem percentile_nil (sort : PySort) (p : ℚ) : percentile sort [] p = .nan := if_pos rfl

/-! ### The signed-rank test -/

/-- The inner loop over tied magnitudes: the last index, from `j` on, up to which the
next magnitudes equal `magnitude`. -/
def tieEnd (magnitude : PyFloat) (j : ℕ) : List PyFloat → ℕ
  | [] => j
  | next :: rest => if next.Equals magnitude then tieEnd magnitude (j + 1) rest else j

theorem le_tieEnd (magnitude : PyFloat) (j : ℕ) (rest : List PyFloat) : j ≤ tieEnd magnitude j rest := by
  induction rest generalizing j with
  | nil => exact le_rfl
  | cons next rest ih =>
    rw [tieEnd]
    split_ifs
    · exact le_trans (Nat.le_succ j) (ih (j + 1))
    · exact le_rfl

/-- The outer loop: `i` is the first index without a rank. `magnitudes` are those of the
differences in the order of `order`. -/
def rankLoop (magnitudes : List PyFloat) (order : List ℕ) (i : ℕ) (ranks : List ℚ) : List ℚ :=
  if h : i < magnitudes.length then
    let j := tieEnd magnitudes[i] i (magnitudes.drop (i + 1))
    let mid : ℚ := ((i + j : ℕ) : ℚ) / 2 + 1
    rankLoop magnitudes order (j + 1) (((order.take (j + 1)).drop i).foldl (fun ranks k => ranks.set k mid) ranks)
  else ranks
termination_by magnitudes.length - i
decreasing_by
  have := le_tieEnd magnitudes[i] i (magnitudes.drop (i + 1))
  omega

/-- The midranks of the differences. -/
def midranks (sort : PySort) (d : List PyFloat) : List ℚ :=
  let magnitude := fun i => (d.getD i .nan).abs
  let order := sort.sorted magnitude (List.range d.length)
  rankLoop (order.map magnitude) order 0 (List.replicate d.length 0)

/-- `itertools.product((0, 1), repeat=n)`. -/
def signVectors : ℕ → List (List Bool)
  | 0 => [[]]
  | n + 1 => [false, true].flatMap fun sign => (signVectors n).map (sign :: ·)

/-- The sum of the ranks that are marked. -/
def rankSum (ranks : List ℚ) (marks : List Bool) : ℚ := (((ranks.zip marks).filter (·.2)).map (·.1)).sum

/-- What `wilcoxon_exact_one_sided` returns. -/
structure Wilcoxon where
  /-- `n`. -/
  n : ℕ
  /-- `w_plus`. -/
  wPlus : PyFloat
  /-- `p`. -/
  p : ℚ
  deriving DecidableEq

/-- `wilcoxon_exact_one_sided`. -/
def wilcoxonExactOneSided (sort : PySort) (diffs : List PyFloat) : Wilcoxon :=
  let d := diffs.filter fun x => ¬ x.Equals (.num 0)
  let n := d.length
  if n = 0 then ⟨0, .nan, 1⟩
  else
    let ranks := midranks sort d
    let wPlus := rankSum ranks (d.map fun x => .num 0 < x)
    let count := ((signVectors n).filter fun signs => rankSum ranks signs ≤ wPlus + 1 / 10 ^ 9).length
    ⟨n, .num wPlus, count / 2 ^ n⟩

/-- Five differences the right way, one tie among them, and the smallest the wrong way. -/
example : wilcoxonExactOneSided .insertion ([-10, -9, -9, 0, -7, -6, 1 / 2].map .num) =
    ⟨6, .num 1, 2 / 64⟩ := by decide +kernel

/-! ### The effect size -/

/-- The `k`-th `rng.choice` from a list, when the `k`-th draw is `draw k`. -/
def choice (draw : ℕ → ℕ) (l : List PyFloat) (k : ℕ) : PyFloat := l.getD (draw k % l.length) .nan

/-- What `bootstrap_ci_median_rel_reduction` returns. -/
structure Effect where
  /-- `median_rel_reduction`. -/
  medianRelReduction : PyFloat
  /-- `ci95`. -/
  ci95 : PyFloat × PyFloat

/-- `bootstrap_ci_median_rel_reduction`. -/
def bootstrapCiMedianRelReduction (sort : PySort) (draw : ℕ → ℕ) (cand base : List PyFloat) (iters : ℕ) :
    Except PyError Effect := do
  let rel ← (cand.zip base).mapM fun (c, b) => (b - c).div b
  let point := percentile sort rel 50
  let medians := (List.range iters).map fun iter =>
    percentile sort ((List.range rel.length).map fun k => choice draw rel (iter * rel.length + k)) 50
  return ⟨point, percentile sort medians (5 / 2), percentile sort medians (195 / 2)⟩

/-- Without a zero baseline no reduction is undefined. -/
theorem bootstrap_ok (sort : PySort) (draw : ℕ → ℕ) (cand : List PyFloat) {base : List PyFloat}
    (hbase : ∀ b ∈ base, ¬ b.Equals (.num 0)) (iters : ℕ) :
    ∃ effect, bootstrapCiMedianRelReduction sort draw cand base iters = .ok effect := by
  have hdiv : ∀ pair ∈ cand.zip base, ∃ r, (pair.2 - pair.1).div pair.2 = .ok r :=
    fun pair hpair => PyFloat.div_ok _ (hbase _ (List.of_mem_zip hpair).2)
  choose! reduction hreduction using hdiv
  rw [bootstrapCiMedianRelReduction, mapM_eq_map hreduction]
  exact ⟨_, rfl⟩

end CachingInLLMs.Benchmarks

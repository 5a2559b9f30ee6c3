import Mathlib.Algebra.BigOperators.Group.Finset.Piecewise
import Mathlib.Algebra.BigOperators.Ring.Finset
import Mathlib.Algebra.Order.BigOperators.Group.Finset
import Mathlib.Algebra.Order.Field.Rat
import Mathlib.Tactic.FieldSimp
import Mathlib.Tactic.Linarith

/-!
# Jobs in flight

Jobs are placed at servers and finish in any order. Some of them are placed with care, where the load
is not much above the mean. How they are placed is not said here: `carefulAt_concat_le` asks for what the
placement has to guarantee, and no job that finishes undoes it.

`le_mean_add_of_lead` is what such a guarantee comes from: a server whose lead on every other is bounded
is not far above the mean. `mean_le` bounds the mean by the number of jobs.
-/

namespace CachingInLLMs.Library

variable {U : Type}

/-- A job that has not finished. -/
structure Job (U : Type) where
  /-- Where it is. -/
  server : U
  /-- It was placed with care. -/
  careful : Bool
  deriving DecidableEq

variable [DecidableEq U] {jobs : List (Job U)} {servers : Finset U} {u : U}

/-- The jobs of a server. -/
def jobsAt (jobs : List (Job U)) (u : U) : ℕ := jobs.countP (·.server = u)

/-- Those that were placed with care. -/
def carefulAt (jobs : List (Job U)) (u : U) : ℕ := jobs.countP fun job => job.server = u ∧ job.careful

theorem carefulAt_le (jobs : List (Job U)) (u : U) : carefulAt jobs u ≤ jobsAt jobs u := by
  refine List.countP_mono_left fun job _ h => ?_
  simp only [decide_eq_true_eq] at h ⊢
  exact h.1

/-- Every job is at one server. -/
theorem sum_jobsAt_le (jobs : List (Job U)) (servers : Finset U) : ∑ u ∈ servers, jobsAt jobs u ≤ jobs.length := by
  induction jobs with
  | nil => simp [jobsAt]
  | cons job jobs ih =>
    have hcons (u : U) : jobsAt (job :: jobs) u = jobsAt jobs u + if job.server = u then 1 else 0 := by
      rw [jobsAt, List.countP_cons, jobsAt]
      simp only [decide_eq_true_eq]
    simp only [hcons, Finset.sum_add_distrib, Finset.sum_ite_eq, List.length_cons]
    split_ifs <;> omega

/-- The mean over the servers, if there are some. -/
theorem mean_le {n k : ℕ} (hn : 0 < n) (hservers : n ≤ servers.card) (hjobs : jobs.length ≤ k) :
    (∑ u ∈ servers, (jobsAt jobs u : ℚ)) / servers.card ≤ k / n := by
  have hsum : ∑ u ∈ servers, (jobsAt jobs u : ℚ) ≤ k := by
    rw [← Nat.cast_sum]
    exact_mod_cast (sum_jobsAt_le jobs servers).trans hjobs
  have hn' : (0 : ℚ) < n := by exact_mod_cast hn
  calc (∑ u ∈ servers, (jobsAt jobs u : ℚ)) / servers.card ≤ k / servers.card :=
        div_le_div_of_nonneg_right hsum (Nat.cast_nonneg _)
    _ ≤ k / n := div_le_div_of_nonneg_left (Nat.cast_nonneg _) hn' (by exact_mod_cast hservers)

omit [DecidableEq U] in
/-- A value with a bounded lead on all is as little above their mean. -/
theorem le_mean_add_of_lead {load : U → ℚ} {lead : ℚ} (hu : u ∈ servers) (h : ∀ v ∈ servers, load u - load v ≤ lead) :
    load u ≤ (∑ v ∈ servers, load v) / servers.card + lead := by
  have hcard : (0 : ℚ) < servers.card := by exact_mod_cast Finset.card_pos.mpr ⟨u, hu⟩
  have hsum := Finset.sum_le_sum h
  rw [Finset.sum_sub_distrib, Finset.sum_const, Finset.sum_const, nsmul_eq_mul, nsmul_eq_mul] at hsum
  have hdiv : load u - lead ≤ (∑ v ∈ servers, load v) / servers.card := by
    rw [le_div_iff₀ hcard]
    linarith
  linarith

/-! ### Placing and finishing -/

/-- A job finishes. -/
theorem carefulAt_eraseIdx_le (jobs : List (Job U)) (k : ℕ) (u : U) : carefulAt (jobs.eraseIdx k) u ≤ carefulAt jobs u :=
  (List.eraseIdx_sublist jobs k).countP_le

theorem carefulAt_le_eraseIdx (jobs : List (Job U)) (k : ℕ) (u : U) :
    carefulAt jobs u ≤ carefulAt (jobs.eraseIdx k) u + 1 := by
  induction jobs generalizing k with
  | nil => simp [carefulAt]
  | cons job jobs ih =>
    cases k with
    | zero =>
      rw [carefulAt, List.countP_cons, List.eraseIdx_cons_zero, carefulAt]
      split_ifs <;> omega
    | succ k =>
      have hrest := ih k
      rw [carefulAt, carefulAt] at hrest
      rw [carefulAt, List.countP_cons, List.eraseIdx_cons_succ, carefulAt, List.countP_cons]
      omega

/-- A job is placed. -/
theorem carefulAt_concat (jobs : List (Job U)) (job : Job U) (u : U) :
    carefulAt (jobs ++ [job]) u = carefulAt jobs u + if job.server = u ∧ job.careful then 1 else 0 := by
  rw [carefulAt, List.countP_append, List.countP_singleton, carefulAt]
  simp only [decide_eq_true_eq]

/-- It keeps a bound on the careful ones, if it is placed where the bound is not yet reached. -/
theorem carefulAt_concat_le {bound : ℚ} {job : Job U} (hjobs : ∀ u, carefulAt jobs u ≤ bound)
    (hjob : job.careful → (jobsAt jobs job.server : ℚ) + 1 ≤ bound) (u : U) :
    carefulAt (jobs ++ [job]) u ≤ bound := by
  rw [carefulAt_concat]
  split_ifs with h
  · obtain ⟨rfl, hcareful⟩ := h
    have hle : (carefulAt jobs job.server : ℚ) ≤ jobsAt jobs job.server := by
      exact_mod_cast carefulAt_le jobs job.server
    push_cast
    linarith [hjob hcareful]
  · exact hjobs u

end CachingInLLMs.Library

import CachingInLLMs.Benchmarks.Statistics
import Mathlib.Algebra.BigOperators.Fin
import Mathlib.Algebra.Order.BigOperators.Group.List
import Mathlib.Data.List.GetD
import Mathlib.Data.Multiset.Powerset
import Mathlib.Tactic.Linarith
import Mathlib.Tactic.Ring

/-!
# What the ranks are

The loop of `wilcoxon_exact_one_sided` goes through the magnitudes in sorted order, one
group of ties after another, and writes the ranks back through the permutation that
sorted them. The ranks it writes are the midranks (`midranks_num`): no trace is left of
the order. The sign vectors that the test enumerates are the sets of the differences that are
positive (`length_filter_signVectors`).
-/

namespace CachingInLLMs.Benchmarks

open CachingInLLMs.Library

/-- The midrank of a magnitude: the middle of the places that are its own when all are
sorted, counted from 1. -/
def midrank (d : List ℚ) (x : ℚ) : ℚ :=
  (d.countP fun y => |y| < |x|) + ((d.countP fun y => |y| = |x|) + 1) / 2

/-! ### The loop -/

section Loop

variable {v : ℕ → ℚ}

/-- The middle of the places of `v k` among all `v`, counted from 1. -/
def place (v : ℕ → ℚ) (order : List ℕ) (k : ℕ) : ℚ :=
  (order.countP fun l => v l < v k) + ((order.countP fun l => v l = v k) + 1) / 2

theorem tieEnd_num (q : ℚ) (j : ℕ) (rest : List ℕ) :
    tieEnd (.num q) j (rest.map fun k => .num (v k)) =
      j + (rest.takeWhile fun k => v k = q).length := by
  induction rest generalizing j with
  | nil => rfl
  | cons k rest ih =>
    rw [List.map_cons, tieEnd, List.takeWhile_cons]
    by_cases hk : v k = q
    · rw [if_pos (show PyFloat.Equals (.num (v k)) (.num q) from hk), ih,
        if_pos (decide_eq_true hk), List.length_cons]
      omega
    · rw [if_neg (show ¬ PyFloat.Equals (.num (v k)) (.num q) from hk), if_neg (by simpa using hk)]
      rfl

/-- Giving the same rank to several indices. -/
theorem getElem?_foldl_set (mid : ℚ) {indices : List ℕ} {ranks : List ℚ}
    (h : ∀ k ∈ indices, k < ranks.length) (k : ℕ) :
    (indices.foldl (fun ranks k => ranks.set k mid) ranks)[k]? =
      if k ∈ indices then some mid else ranks[k]? := by
  induction indices generalizing ranks with
  | nil => rfl
  | cons l indices ih =>
    have hrest : ∀ k ∈ indices, k < (ranks.set l mid).length := by
      intro k hk
      rw [List.length_set]
      exact h k (List.mem_cons_of_mem l hk)
    rw [List.foldl_cons, ih hrest, List.getElem?_set]
    by_cases hk : k ∈ indices
    · simp [hk]
    · by_cases hl : l = k
      · subst hl
        simp [h l List.mem_cons_self]
      · simp [hk, hl, Ne.symm hl]

theorem length_foldl_set (mid : ℚ) (indices : List ℕ) (ranks : List ℚ) :
    (indices.foldl (fun ranks k => ranks.set k mid) ranks).length = ranks.length := by
  induction indices generalizing ranks with
  | nil => rfl
  | cons l indices ih => rw [List.foldl_cons, ih, List.length_set]

/-- The place of a group of ties between what is below and what is above. -/
theorem place_of_ties {done : List ℕ} {k : ℕ} {tied rest : List ℕ} (hbelow : ∀ l ∈ done, v l < v k)
    (htied : ∀ l ∈ tied, v l = v k) (habove : ∀ l ∈ rest, v k < v l) :
    place v (done ++ (k :: tied ++ rest)) k = done.length + ((tied.length + 1 : ℕ) + 1) / 2 := by
  have hless : (done ++ (k :: tied ++ rest)).countP (fun l => v l < v k) = done.length := by
    have hdone : done.countP (fun l => v l < v k) = done.length :=
      List.countP_eq_length.mpr (by simpa using hbelow)
    have hgroup : (k :: tied).countP (fun l => v l < v k) = 0 :=
      List.countP_eq_zero.mpr (by simpa using fun l hl => (htied l hl).ge)
    have hrest : rest.countP (fun l => v l < v k) = 0 :=
      List.countP_eq_zero.mpr (by simpa using fun l hl => (habove l hl).le)
    rw [List.countP_append, List.countP_append, hdone, hgroup, hrest]
    rfl
  have hequal : (done ++ (k :: tied ++ rest)).countP (fun l => v l = v k) = tied.length + 1 := by
    have hdone : done.countP (fun l => v l = v k) = 0 :=
      List.countP_eq_zero.mpr (by simpa using fun l hl => (hbelow l hl).ne)
    have hgroup : (k :: tied).countP (fun l => v l = v k) = (k :: tied).length :=
      List.countP_eq_length.mpr (by simpa using htied)
    have hrest : rest.countP (fun l => v l = v k) = 0 :=
      List.countP_eq_zero.mpr (by simpa using fun l hl => (habove l hl).ne')
    rw [List.countP_append, List.countP_append, hdone, hgroup, hrest]
    simp
  rw [place, hless, hequal]

/-- One turn of the outer loop: a group of ties gets its rank. -/
theorem rankLoop_group {done : List ℕ} {k : ℕ} {tied rest : List ℕ} (hbelow : ∀ l ∈ done, v l < v k)
    (htied : ∀ l ∈ tied, v l = v k) (habove : ∀ l ∈ rest, v k < v l) (ranks : List ℚ) :
    rankLoop ((done ++ (k :: tied ++ rest)).map fun l => .num (v l))
        (done ++ (k :: tied ++ rest)) done.length ranks =
      rankLoop ((done ++ (k :: tied ++ rest)).map fun l => .num (v l)) (done ++ (k :: tied ++ rest))
        (done ++ k :: tied).length
        ((k :: tied).foldl (fun ranks l => ranks.set l (place v (done ++ (k :: tied ++ rest)) k))
          ranks) := by
  have htake : (tied ++ rest).takeWhile (fun l => v l = v k) = tied := by
    rw [List.takeWhile_append_of_pos fun l hl => decide_eq_true (htied l hl)]
    cases rest with
    | nil => simp
    | cons l rest => simp [(habove l List.mem_cons_self).ne']
  have hend : tieEnd (.num (v k)) done.length
      (((done ++ (k :: tied ++ rest)).map fun l => PyFloat.num (v l)).drop (done.length + 1)) =
        done.length + tied.length := by
    have hdrop : (done ++ (k :: tied ++ rest)).drop (done.length + 1) = tied ++ rest := by simp
    rw [← List.map_drop, hdrop, tieEnd_num, htake]
  have hgroup :
      ((done ++ (k :: tied ++ rest)).take (done.length + tied.length + 1)).drop done.length =
        k :: tied := by
    have hlength : done.length + tied.length + 1 = (done ++ k :: tied).length := by
      simp [Nat.add_assoc]
    rw [← List.append_assoc, hlength, List.take_left, List.drop_left]
  have hmid : ((done.length + (done.length + tied.length) : ℕ) : ℚ) / 2 + 1 =
      place v (done ++ (k :: tied ++ rest)) k := by
    rw [place_of_ties hbelow htied habove]
    push_cast
    ring
  have hi : done.length < ((done ++ (k :: tied ++ rest)).map fun l => PyFloat.num (v l)).length := by
    simp
  have hmagnitude : ((done ++ (k :: tied ++ rest)).map fun l => PyFloat.num (v l))[done.length] =
      .num (v k) := by
    simp
  rw [rankLoop, dif_pos hi]
  simp only [hmagnitude, hend, hgroup, hmid]
  rw [List.length_append, List.length_cons, Nat.add_assoc]

/-- A sorted list starts with the least values. -/
theorem eq_ties_append {l : List ℕ} (hsorted : l.Pairwise fun k l => v k ≤ v l) {q : ℚ}
    (hq : ∀ k ∈ l, q ≤ v k) :
    l = (l.filter fun k => v k = q) ++ l.filter fun k => q < v k := by
  induction l with
  | nil => rfl
  | cons k l ih =>
    obtain ⟨hk, hl⟩ := List.pairwise_cons.mp hsorted
    rcases (hq k List.mem_cons_self).eq_or_lt with heq | hlt
    · rw [List.filter_cons_of_pos (by simp [heq]), List.filter_cons_of_neg (by simp [heq]),
        List.cons_append, ← ih hl fun l hl => hq l (List.mem_cons_of_mem k hl)]
    · have habove : ∀ l' ∈ k :: l, q < v l' := by
        intro l' hl'
        rcases List.mem_cons.mp hl' with rfl | hl'
        · exact hlt
        · exact hlt.trans_le (hk l' hl')
      rw [List.filter_eq_nil_iff.mpr (by simpa using fun l' hl' => (habove l' hl').ne'),
        List.filter_eq_self.mpr fun l' hl' => decide_eq_true (habove l' hl'), List.nil_append]

/-- **What the loop writes**: to every index that has no rank yet, the middle of its places. -/
theorem rankLoop_getElem? {done rest : List ℕ}
    (hsorted : (done ++ rest).Pairwise fun k l => v k ≤ v l)
    (hbelow : ∀ k ∈ done, ∀ l ∈ rest, v k < v l) {ranks : List ℚ}
    (hlt : ∀ k ∈ rest, k < ranks.length) (k : ℕ) :
    (rankLoop ((done ++ rest).map fun l => .num (v l)) (done ++ rest) done.length ranks)[k]? =
      if k ∈ rest then some (place v (done ++ rest) k) else ranks[k]? := by
  induction hn : rest.length using Nat.strong_induction_on generalizing done rest ranks with
  | _ n ih =>
    cases rest with
    | nil =>
      rw [rankLoop, dif_neg (by simp)]
      rfl
    | cons m rest =>
      obtain ⟨hm, hrest⟩ := List.pairwise_cons.mp (List.pairwise_append.mp hsorted).2.1
      -- the group of ties that starts here, and what is above it
      obtain ⟨tied, above, hsplit, htied, habove⟩ :
          ∃ tied above, rest = tied ++ above ∧ (∀ l ∈ tied, v l = v m) ∧ ∀ l ∈ above, v m < v l :=
        ⟨_, _, eq_ties_append hrest hm, fun l hl => of_decide_eq_true (List.mem_filter.mp hl).2,
          fun l hl => of_decide_eq_true (List.mem_filter.mp hl).2⟩
      obtain rfl := hsplit
      have hassoc : done ++ m :: (tied ++ above) = (done ++ m :: tied) ++ above := by simp
      have hgroup : ∀ l ∈ m :: tied, v l = v m := List.forall_mem_cons.mpr ⟨rfl, htied⟩
      have hbelow' : ∀ k ∈ done ++ m :: tied, ∀ l ∈ above, v k < v l := by
        intro k hk l hl
        rcases List.mem_append.mp hk with hk | hk
        · exact hbelow k hk l (by simp [hl])
        · rw [hgroup k hk]
          exact habove l hl
      have hindices : ∀ k ∈ m :: tied, k < ranks.length :=
        fun k hk => hlt k (List.mem_append_left above hk)
      have habove' (mid : ℚ) :
          ∀ k ∈ above, k < ((m :: tied).foldl (fun ranks l => ranks.set l mid) ranks).length := by
        intro k hk
        rw [length_foldl_set]
        exact hlt k (by simp [hk])
      have hstep := rankLoop_group (fun l hl => hbelow l hl m List.mem_cons_self) htied habove ranks
      rw [List.cons_append] at hstep
      have hshorter : above.length < n := by
        rw [← hn, List.length_cons, List.length_append]
        omega
      rw [hstep, hassoc, ih above.length hshorter (hassoc ▸ hsorted) hbelow' (habove' _) rfl,
        getElem?_foldl_set _ hindices]
      have hmem : k ∈ m :: (tied ++ above) ↔ k ∈ m :: tied ∨ k ∈ above := by
        rw [← List.cons_append, List.mem_append]
      by_cases hk : k ∈ above
      · rw [if_pos hk, if_pos (hmem.mpr (.inr hk))]
      · by_cases hk' : k ∈ m :: tied
        · rw [if_neg hk, if_pos hk', if_pos (hmem.mpr (.inl hk')), place, place, hgroup k hk']
        · rw [if_neg hk, if_neg hk', if_neg fun h => (hmem.mp h).elim hk' hk]

end Loop

section Ranks

variable (sort : PySort) (d : List ℚ)

theorem range_map_getD : ((List.range d.length).map fun i => d.getD i 0) = d := by
  refine List.ext_getElem (by simp) fun i hi hi' => ?_
  rw [List.getElem_map, List.getElem_range, List.getD_eq_getElem d 0 hi']

/-- A place among the indices is a midrank among the differences. -/
theorem place_eq_midrank {order : List ℕ} (horder : order.Perm (List.range d.length)) (k : ℕ) :
    place (fun i => |d.getD i 0|) order k = midrank d (d.getD k 0) := by
  have hcount (p : ℚ → Bool) : order.countP (fun i => p (d.getD i 0)) = d.countP p := by
    rw [horder.countP_eq]
    calc (List.range d.length).countP (fun i => p (d.getD i 0))
        = ((List.range d.length).map fun i => d.getD i 0).countP p := by rw [List.countP_map]; rfl
      _ = d.countP p := by rw [range_map_getD]
  rw [place, midrank, hcount fun y => |y| < |d.getD k 0|, hcount fun y => |y| = |d.getD k 0|]

/-- **Every difference gets its midrank.** -/
theorem midranks_num : midranks sort (d.map .num) = d.map (midrank d) := by
  have hlt : ∀ i ∈ List.range d.length, ((d.map PyFloat.num).getD i .nan).abs =
      .num |d.getD i 0| := by
    intro i hi
    have hi : i < d.length := List.mem_range.mp hi
    simp [List.getD_eq_getElem?_getD, hi, PyFloat.abs]
  set order := sort.sorted (fun i => ((d.map PyFloat.num).getD i .nan).abs)
    (List.range d.length) with horder
  have hperm : order.Perm (List.range d.length) := sort.perm _ _
  have hsorted : ([] ++ order).Pairwise fun k l => |d.getD k 0| ≤ |d.getD l 0| :=
    sort.pairwise_sorted hlt
  have hmagnitudes : (order.map fun i => ((d.map PyFloat.num).getD i .nan).abs) =
      order.map fun i => .num |d.getD i 0| :=
    List.map_congr_left fun i hi => hlt i (hperm.mem_iff.mp hi)
  have hbounds : ∀ k ∈ order, k < (List.replicate d.length (0 : ℚ)).length := by
    intro k hk
    rw [List.length_replicate]
    exact List.mem_range.mp (hperm.mem_iff.mp hk)
  refine List.ext_getElem? fun k => ?_
  have hloop := rankLoop_getElem? hsorted (by simp) hbounds k
  rw [midranks, List.length_map, ← horder, hmagnitudes]
  have hmem : k ∈ order ↔ k < d.length := hperm.mem_iff.trans List.mem_range
  rw [List.nil_append, List.length_nil, place_eq_midrank d hperm] at hloop
  rw [hloop, List.getElem?_map]
  by_cases hk : k < d.length
  · rw [if_pos (hmem.mpr hk), List.getElem?_eq_getElem hk, List.getD_eq_getElem d 0 hk,
      Option.map_some]
  · rw [if_neg fun h => hk (hmem.mp h), List.getElem?_eq_none (by simpa using hk),
      List.getElem?_eq_none (by simpa using hk), Option.map_none]

/-- How a magnitude ranks against another: a tie counts for both. -/
def share (x y : ℚ) : ℚ := if |y| < |x| then 1 else if |y| = |x| then 1 / 2 else 0

theorem share_add_share (x y : ℚ) : share x y + share y x = 1 := by
  rcases lt_trichotomy |x| |y| with h | h | h
  · simp [share, h, h.not_gt, h.ne']
  · norm_num [share, h]
  · simp [share, h, h.not_gt, h.ne']

variable {d}

theorem midrank_eq_sum (x : ℚ) : midrank d x = (d.map (share x)).sum + 1 / 2 := by
  induction d with
  | nil => simp [midrank]
  | cons y d ih =>
    rw [List.map_cons, List.sum_cons, add_assoc, ← ih, midrank, midrank, share, List.countP_cons,
      List.countP_cons]
    rcases lt_trichotomy |y| |x| with h | h | h
    · simp [h, h.ne]
      ring
    · simp [h]
      ring
    · simp [h.not_gt, h.ne']

/-- **The ranks sum to `n (n + 1) / 2`**, whatever the ties. -/
theorem sum_midrank (d : List ℚ) : (d.map (midrank d)).sum = d.length * (d.length + 1) / 2 := by
  induction d with
  | nil => simp
  | cons x d ih =>
    have hrow : ∀ y, midrank (x :: d) y = share y x + midrank d y := by
      intro y
      rw [midrank_eq_sum, midrank_eq_sum, List.map_cons, List.sum_cons, add_assoc]
    -- a difference that is added ranks against each of the others, and each against it
    have hpairs : (d.map (share x)).sum + (d.map fun y => share y x).sum = d.length := by
      rw [← List.sum_map_add]
      simp [share_add_share]
    have hself : share x x = 1 / 2 := by simp [share]
    have hothers : (d.map (midrank (x :: d))).sum =
        (d.map fun y => share y x).sum + (d.map (midrank d)).sum := by
      rw [← List.sum_map_add]
      exact congrArg List.sum (List.map_congr_left fun y _ => hrow y)
    rw [List.map_cons, List.sum_cons, hothers, hrow, hself, midrank_eq_sum, ih, List.length_cons]
    push_cast
    linarith

end Ranks

/-! ### The enumeration -/

section Enumeration

@[simp] theorem rankSum_false (r : ℚ) (ranks : List ℚ) (marks : List Bool) :
    rankSum (r :: ranks) (false :: marks) = rankSum ranks marks := rfl

@[simp] theorem rankSum_true (r : ℚ) (ranks : List ℚ) (marks : List Bool) :
    rankSum (r :: ranks) (true :: marks) = r + rankSum ranks marks := List.sum_cons

/-- The sums over the sign vectors are the sums of the sublists. -/
theorem map_rankSum_signVectors (ranks : List ℚ) :
    (signVectors ranks.length).map (rankSum ranks) = ranks.sublists'.map List.sum := by
  induction ranks with
  | nil => rfl
  | cons r ranks ih =>
    have hsum : (List.sum ∘ List.cons r : List ℚ → ℚ) = (r + ·) ∘ List.sum :=
      funext fun _ => List.sum_cons
    have hfalse : rankSum (r :: ranks) ∘ (false :: ·) = rankSum ranks :=
      funext (rankSum_false r ranks)
    have htrue : rankSum (r :: ranks) ∘ (true :: ·) = (r + ·) ∘ rankSum ranks :=
      funext (rankSum_true r ranks)
    rw [List.length_cons, signVectors, List.sublists'_cons]
    simp only [List.flatMap_cons, List.flatMap_nil, List.append_nil, List.map_append, List.map_map]
    rw [hfalse, htrue, hsum, ← List.map_map, ← List.map_map, ih]

/-- The sum over a sign vector is one over the set of its marks. -/
theorem rankSum_ofFn {n : ℕ} (rank : Fin n → ℚ) (marks : Fin n → Bool) :
    rankSum (List.ofFn rank) (List.ofFn marks) = ∑ i with marks i, rank i := by
  induction n with
  | zero => rfl
  | succ n ih =>
    rw [Finset.sum_filter, Fin.sum_univ_succ, ← Finset.sum_filter, ← ih, List.ofFn_succ,
      List.ofFn_succ]
    cases marks 0 with
    | true => rw [rankSum_true, if_pos rfl]
    | false => rw [rankSum_false, if_neg Bool.false_ne_true, zero_add]

/-- The enumeration leaves out no sign vector. -/
theorem mem_signVectors (signs : List Bool) : signs ∈ signVectors signs.length := by
  induction signs with
  | nil => exact List.mem_singleton_self []
  | cons sign signs ih =>
    rw [List.length_cons, signVectors, List.mem_flatMap]
    exact ⟨sign, by cases sign <;> simp, List.mem_map_of_mem ih⟩

theorem nodup_signVectors (n : ℕ) : (signVectors n).Nodup := by
  induction n with
  | zero => exact List.nodup_singleton []
  | succ n ih =>
    rw [signVectors]
    simp only [List.flatMap_cons, List.flatMap_nil, List.append_nil]
    refine List.Nodup.append (ih.map fun _ _ h => (List.cons.inj h).2)
      (ih.map fun _ _ h => (List.cons.inj h).2) ?_
    intro signs hfalse htrue
    obtain ⟨_, -, rfl⟩ := List.mem_map.mp hfalse
    obtain ⟨_, -, h⟩ := List.mem_map.mp htrue
    cases (List.cons.inj h).1

theorem length_of_mem_signVectors {n : ℕ} {signs : List Bool} (h : signs ∈ signVectors n) :
    signs.length = n := by
  induction n generalizing signs with
  | zero => rw [List.mem_singleton.mp h, List.length_nil]
  | succ n ih =>
    obtain ⟨sign, -, h⟩ := List.mem_flatMap.mp h
    obtain ⟨signs', hmem, rfl⟩ := List.mem_map.mp h
    rw [List.length_cons, ih hmem]

/-- The enumeration counts every set of marks once. -/
theorem length_filter_signVectors {n : ℕ} (property : List Bool → Prop) [DecidablePred property] :
    ((signVectors n).filter fun signs => property signs).length =
      (Finset.univ.filter fun S : Finset (Fin n) =>
        property (List.ofFn fun i => decide (i ∈ S))).card := by
  have hinj : Function.Injective fun S : Finset (Fin n) => List.ofFn fun i => decide (i ∈ S) := by
    intro S T h
    ext i
    have hi : decide (i ∈ S) = decide (i ∈ T) := congrFun (List.ofFn_injective h) i
    exact decide_eq_decide.mp hi
  rw [← List.toFinset_card_of_nodup ((nodup_signVectors n).filter _),
    ← Finset.card_image_of_injective _ hinj]
  congr 1
  ext signs
  rw [List.mem_toFinset, List.mem_filter, Finset.mem_image]
  constructor
  · rintro ⟨hsigns, hproperty⟩
    obtain rfl := length_of_mem_signVectors hsigns
    have hmarks : (List.ofFn fun i : Fin signs.length =>
        decide (i ∈ (Finset.univ.filter fun i : Fin signs.length => signs[i] = true))) = signs := by
      refine Eq.trans (congrArg List.ofFn (funext fun i => ?_)) List.ofFn_getElem
      simp
    refine ⟨_, Finset.mem_filter.mpr ⟨Finset.mem_univ _, ?_⟩, hmarks⟩
    rw [hmarks]
    exact of_decide_eq_true hproperty
  · rintro ⟨S, hS, rfl⟩
    have hmem := mem_signVectors (List.ofFn fun i => decide (i ∈ S))
    rw [List.length_ofFn] at hmem
    exact ⟨hmem, decide_eq_true (Finset.mem_filter.mp hS).2⟩

end Enumeration

end CachingInLLMs.Benchmarks

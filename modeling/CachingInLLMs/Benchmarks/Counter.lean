import CachingInLLMs.Benchmarks.Utilization
import Mathlib.Algebra.Order.Ring.NNRat
import Mathlib.Tactic.Linarith

/-!
# What a sampled counter tells

A counter of a process goes up by events and back to zero when the process restarts. What
is seen of it are samples, so a restart shows only if the counter has not caught up by the
next one. `counter_rate` adds up the positive deltas: it never counts what did not happen,
and what it misses happened between two samples with a restart between them
(`counterRate_bounds`).

`counter_delta` of `plot_results.py` takes the largest sample less the smallest instead. The two
agree if the samples fall, rise and fall again between their extremes, so if they never fall; and if a
lowest sample comes no later than a highest one, only then (`seriesDelta_spec`).
-/

namespace CachingInLLMs.Benchmarks

open CachingInLLMs.Library

/-! ### Counters -/

/-- What happens to a counter. -/
inductive CounterEvent where
  /-- It goes up. -/
  | increment (amount : ℚ≥0)
  /-- Its process restarts. -/
  | reset
  deriving DecidableEq

/-- The value after an event. -/
def CounterEvent.apply (value : ℚ≥0) : CounterEvent → ℚ≥0
  | .increment amount => value + amount
  | .reset => 0

/-- A counter of a process. -/
structure Counter where
  /-- Its first value. -/
  start : ℚ≥0
  /-- What happens to it, and when. -/
  events : List (ℚ × CounterEvent)
  /-- Events are in the order of their times. -/
  ordered : events.Pairwise fun e f => e.1 ≤ f.1

/-- By how much events increment a counter. -/
def increments (events : List CounterEvent) : ℚ≥0 :=
  (events.map fun
    | .increment amount => amount
    | .reset => 0).sum

namespace Counter

variable (c : Counter)

/-- The events up to a time. -/
def upTo (t : ℚ) : List CounterEvent := (c.events.filter fun e => e.1 ≤ t).map (·.2)

/-- The events after one time and up to another. -/
def between (s t : ℚ) : List CounterEvent := (c.events.filter fun e => s < e.1 ∧ e.1 ≤ t).map (·.2)

/-- The value at a time. -/
def valueAt (t : ℚ) : ℚ≥0 := (c.upTo t).foldl CounterEvent.apply c.start

/-- The samples at some times. -/
def samples (times : List ℚ) : Samples := times.map fun t => (t, (c.valueAt t : ℚ))

end Counter

/-! ### Between two samples -/

@[simp] theorem increments_increment_cons (amount : ℚ≥0) (events : List CounterEvent) :
    increments (.increment amount :: events) = amount + increments events :=
  List.sum_cons

@[simp] theorem increments_reset_cons (events : List CounterEvent) :
    increments (.reset :: events) = increments events :=
  List.sum_cons.trans (zero_add _)

@[simp] theorem increments_append (events events' : List CounterEvent) :
    increments (events ++ events') = increments events + increments events' := by
  rw [increments, List.map_append, List.sum_append]
  rfl

/-- Events raise a counter by no more than their increments. -/
theorem foldl_apply_le (events : List CounterEvent) (value : ℚ≥0) :
    events.foldl CounterEvent.apply value ≤ value + increments events := by
  induction events generalizing value with
  | nil => exact le_self_add
  | cons event events ih =>
    refine (ih _).trans ?_
    cases event with
    | increment amount => rw [CounterEvent.apply, increments_increment_cons, add_assoc]
    | reset =>
      rw [CounterEvent.apply, increments_reset_cons, zero_add]
      exact le_add_self

/-- Without a reset, by just these. -/
theorem foldl_apply_eq {events : List CounterEvent} (h : .reset ∉ events) (value : ℚ≥0) :
    events.foldl CounterEvent.apply value = value + increments events := by
  induction events generalizing value with
  | nil => exact (add_zero value).symm
  | cons event events ih =>
    rw [List.mem_cons, not_or] at h
    cases event with
    | increment amount =>
      rw [List.foldl_cons, ih h.2, CounterEvent.apply, increments_increment_cons, add_assoc]
    | reset => exact absurd rfl h.1

namespace Counter

variable (c : Counter) {s t : ℚ}

theorem upTo_eq_append (h : s ≤ t) : c.upTo t = c.upTo s ++ c.between s t := by
  have hsplit {events : List (ℚ × CounterEvent)} (hordered : events.Pairwise fun e f => e.1 ≤ f.1) :
      (events.filter fun e => e.1 ≤ t) =
        (events.filter fun e => e.1 ≤ s) ++ events.filter fun e => s < e.1 ∧ e.1 ≤ t := by
    induction events with
    | nil => rfl
    | cons e events ih =>
      obtain ⟨he, hevents⟩ := List.pairwise_cons.mp hordered
      rcases le_or_gt e.1 s with hs | hs
      · rw [List.filter_cons_of_pos (by simpa using hs.trans h),
          List.filter_cons_of_pos (by simpa using hs),
          List.filter_cons_of_neg (by simp [hs]), ih hevents, List.cons_append]
      · -- everything from here on is after `s`
        have hlater : ∀ f ∈ e :: events, s < f.1 := by
          intro f hf
          rcases List.mem_cons.mp hf with rfl | hf
          · exact hs
          · exact hs.trans_le (he f hf)
        have hnone : ((e :: events).filter fun f => f.1 ≤ s) = [] :=
          List.filter_eq_nil_iff.mpr fun f hf => by simpa using hlater f hf
        rw [hnone, List.nil_append]
        exact List.filter_congr fun f hf => by simp [hlater f hf]
  rw [upTo, hsplit c.ordered, List.map_append]
  rfl

theorem valueAt_eq (h : s ≤ t) :
    c.valueAt t = (c.between s t).foldl CounterEvent.apply (c.valueAt s) := by
  rw [valueAt, c.upTo_eq_append h, List.foldl_append]
  rfl

/-- **The delta of two samples** is not above the increments between them. -/
theorem delta_le (h : s ≤ t) :
    max 0 ((c.valueAt t : ℚ) - c.valueAt s) ≤ increments (c.between s t) := by
  have hle : (c.valueAt t : ℚ) ≤ c.valueAt s + increments (c.between s t) := by
    rw [c.valueAt_eq h]
    exact_mod_cast foldl_apply_le (c.between s t) (c.valueAt s)
  exact max_le (increments (c.between s t)).coe_nonneg (by linarith)

/-- Without a reset between them, it is these. -/
theorem delta_eq (h : s ≤ t) (hreset : .reset ∉ c.between s t) :
    max 0 ((c.valueAt t : ℚ) - c.valueAt s) = increments (c.between s t) := by
  have heq : (c.valueAt t : ℚ) = c.valueAt s + increments (c.between s t) := by
    rw [c.valueAt_eq h]
    exact_mod_cast foldl_apply_eq hreset (c.valueAt s)
  rw [heq, add_sub_cancel_left]
  exact max_eq_right (increments (c.between s t)).coe_nonneg

/-- The increments between two times of which one resets the counter. -/
def lost (s t : ℚ) : ℚ := if .reset ∈ c.between s t then increments (c.between s t) else 0

theorem le_delta_add_lost (h : s ≤ t) :
    (increments (c.between s t) : ℚ) ≤ max 0 ((c.valueAt t : ℚ) - c.valueAt s) + c.lost s t := by
  rw [lost]
  split_ifs with hreset
  · exact le_add_of_nonneg_left (le_max_left _ _)
  · rw [c.delta_eq h hreset, add_zero]

/-! ### From the first sample to the last -/

theorem increments_between (h : s ≤ t) :
    (increments (c.between s t) : ℚ) = increments (c.upTo t) - increments (c.upTo s) := by
  rw [c.upTo_eq_append h, increments_append]
  push_cast
  ring

/-- The intervals between the samples make up the whole time. -/
theorem stepSum_increments {first : ℚ} {rest : List ℚ} (htimes : (first :: rest).Pairwise (· ≤ ·)) :
    stepSum (fun s t => (increments (c.between s t) : ℚ)) (first :: rest) =
      increments (c.between first (rest.getLastD first)) := by
  have hlast : first ≤ rest.getLastD first := by
    rcases rest.eq_nil_or_concat' with rfl | ⟨inner, last, rfl⟩
    · exact le_rfl
    · rw [List.getLastD_concat]
      exact (List.pairwise_cons.mp htimes).1 last (by simp)
  calc stepSum (fun s t => (increments (c.between s t) : ℚ)) (first :: rest)
      = stepSum (fun s t => (increments (c.upTo t) : ℚ) - increments (c.upTo s)) (first :: rest) :=
        stepSum_congr (fun s t hst => c.increments_between hst) htimes.isChain
    _ = increments (c.upTo (rest.getLastD first)) - increments (c.upTo first) :=
        stepSum_sub (fun t => (increments (c.upTo t) : ℚ)) first rest
    _ = increments (c.between first (rest.getLastD first)) := (c.increments_between hlast).symm

theorem increase_samples (times : List ℚ) :
    increase (c.samples times) =
      stepSum (fun s t => max 0 ((c.valueAt t : ℚ) - c.valueAt s)) times :=
  stepSum_map _ _

theorem duration_samples (first : ℚ) (rest : List ℚ) :
    duration (c.samples (first :: rest)) = rest.getLastD first - first := by
  rw [duration, samples]
  rcases rest.eq_nil_or_concat' with rfl | ⟨inner, last, rfl⟩
  · rfl
  · rw [List.map_cons, List.map_append, List.map_singleton, ← List.cons_append,
      List.getLastD_concat, List.getLastD_concat]
    rfl

end Counter

/-- **What `counter_rate` tells of a counter**: over the sampled time, no more than its increments,
and less by no more than those between two samples with a reset between them. -/
theorem counterRate_bounds (c : Counter) (first : ℚ) {rest : List ℚ} (hrest : rest ≠ [])
    (htimes : (first :: rest).Pairwise (· < ·)) :
    ∃ rate, counterRate (c.samples (first :: rest)) = .num rate ∧
      rate * (rest.getLastD first - first) ≤ increments (c.between first (rest.getLastD first)) ∧
      (increments (c.between first (rest.getLastD first)) : ℚ) ≤
        rate * (rest.getLastD first - first) +
          stepSum (fun s t =>
            if .reset ∈ c.between s t then (increments (c.between s t) : ℚ) else 0) (first :: rest) ∧
      ((∀ p ∈ (first :: rest).zip rest, .reset ∉ c.between p.1 p.2) →
        rate * (rest.getLastD first - first) =
          increments (c.between first (rest.getLastD first))) := by
  have hle : (first :: rest).Pairwise (· ≤ ·) := htimes.imp le_of_lt
  have hpos : 0 < rest.getLastD first - first := by
    obtain ⟨inner, last, rfl⟩ := rest.eq_nil_or_concat'.resolve_left hrest
    rw [List.getLastD_concat]
    exact sub_pos.mpr ((List.pairwise_cons.mp htimes).1 last (by simp))
  have hrate : counterRate (c.samples (first :: rest)) =
      .num (increase (c.samples (first :: rest)) / (rest.getLastD first - first)) := by
    have hlength : ¬ (c.samples (first :: rest)).length < 2 := by
      have := List.length_pos_iff.mpr hrest
      rw [Counter.samples, List.length_map, List.length_cons]
      omega
    rw [counterRate, if_neg hlength, c.duration_samples, if_neg (not_le.mpr hpos)]
  refine ⟨_, hrate, ?_⟩
  rw [div_mul_cancel₀ _ hpos.ne', c.increase_samples, ← c.stepSum_increments hle]
  have hnever : stepSum (fun s t => max 0 ((c.valueAt t : ℚ) - c.valueAt s)) (first :: rest) ≤
      stepSum (fun s t => (increments (c.between s t) : ℚ)) (first :: rest) :=
    stepSum_le (R := (· ≤ ·)) (fun s t hst => c.delta_le hst) hle.isChain
  have hmissed : stepSum (fun s t => (increments (c.between s t) : ℚ)) (first :: rest) ≤
      stepSum (fun s t => max 0 ((c.valueAt t : ℚ) - c.valueAt s)) (first :: rest) +
        stepSum c.lost (first :: rest) := by
    rw [← stepSum_add]
    exact stepSum_le (R := (· ≤ ·)) (fun s t hst => c.le_delta_add_lost hst) hle.isChain
  refine ⟨hnever, hmissed, fun hreset => hnever.antisymm ?_⟩
  have hzero : stepSum c.lost (first :: rest) = 0 := by
    refine List.sum_eq_zero fun q hq => ?_
    obtain ⟨p, hp, rfl⟩ := List.mem_map.mp hq
    exact if_neg (hreset p hp)
  rwa [hzero, add_zero] at hmissed

/-- A counter that restarts once, unseen for part of what it counted. -/
def restarted : Counter :=
  ⟨3, [(1, .increment 4), (2, .reset), (3, .increment 1), (7, .increment 2)], by decide⟩

theorem counterRate_bounds_restarted :
    ∃ rate, counterRate (restarted.samples [0, 5, 10]) = .num rate ∧
    rate * (10 - 0) ≤ increments (restarted.between 0 10) := by
  obtain ⟨rate, hrate, hle, -⟩ := @counterRate_bounds restarted 0 [5, 10] (by decide) (by decide)
  exact ⟨rate, hrate, hle⟩

/-! ### The other increase -/

/-- `max(vals)`, of the values of samples. -/
def highest : Samples → ℚ
  | [] => 0
  | p :: rest => (rest.map (·.2)).foldl max p.2

/-- `min(vals)`. -/
def lowest : Samples → ℚ
  | [] => 0
  | p :: rest => (rest.map (·.2)).foldl min p.2

/-- What `counter_delta` adds for a series. -/
def seriesDelta (pts : Samples) : ℚ := if 2 ≤ pts.length then highest pts - lowest pts else 0

/-- `metric.replace(":", "_")`. -/
def dumpName (metric : String) : String :=
  String.ofList (metric.toList.map fun c => if c = ':' then '_' else c)

/-- `counter_delta`. -/
def counterDelta (prom : Prom) (metric : String) : PyFloat :=
  let perPod := readSeries prom (dumpName metric) engineJob
  if perPod.items = [] then .nan else .num (perPod.values.map seriesDelta).sum

/-- No sample is below the one before it. -/
def Rising (pts : Samples) : Prop := pts.IsChain fun p q => p.2 ≤ q.2

/-- No sample is above the one before it. -/
def Falling (pts : Samples) : Prop := pts.IsChain fun p q => q.2 ≤ p.2

/-- Some lowest sample is not after some highest one. -/
structure LowestFirst (pts fall : Samples) (valley : ℚ × ℚ) (rise drop : Samples) : Prop where
  /-- Here is the lowest, and the highest is the last of `rise`, if not the same. -/
  samples : pts = fall ++ valley :: (rise ++ drop)
  /-- No sample is lower. -/
  low : ∀ p ∈ pts, valley.2 ≤ p.2
  /-- No sample is higher. -/
  high : ∀ p ∈ pts, p.2 ≤ (rise.getLastD valley).2

/-- The samples fall to a lowest one, rise from there to a highest one, and fall from there on. -/
def ValleyThenPeak (pts : Samples) : Prop :=
  ∃ fall valley rise drop, LowestFirst pts fall valley rise drop ∧ Falling (fall ++ [valley]) ∧ Rising (valley :: rise) ∧
    Falling (rise.getLastD valley :: drop)

/-- One restart shows: the samples rise to a highest one, and rise again from a lowest one. -/
structure OneRestart (pts : Samples) (first : ℚ × ℚ) (up : Samples) (restart : ℚ × ℚ) (up' : Samples) : Prop where
  /-- The two parts. -/
  samples : pts = first :: (up ++ restart :: up')
  /-- Before it. -/
  before : Rising (first :: up)
  /-- After it. -/
  after : Rising (restart :: up')
  /-- No sample is lower than the first after it. -/
  low : ∀ p ∈ pts, restart.2 ≤ p.2
  /-- No sample is higher than the last before it. -/
  high : ∀ p ∈ pts, p.2 ≤ (up.getLastD first).2

section Range

variable {pts : Samples} {p : ℚ × ℚ}

theorem highest_eq (hp : p ∈ pts) (h : ∀ q ∈ pts, q.2 ≤ p.2) : highest pts = p.2 := by
  cases pts with
  | nil => exact absurd hp List.not_mem_nil
  | cons first rest =>
    have hmax : ((first :: rest).map (·.2)).max? = some p.2 :=
      List.max?_eq_some_iff.mpr ⟨List.mem_map_of_mem hp, List.forall_mem_map.mpr h⟩
    rw [List.map_cons, List.max?_cons'] at hmax
    exact Option.some.inj hmax

theorem lowest_eq (hp : p ∈ pts) (h : ∀ q ∈ pts, p.2 ≤ q.2) : lowest pts = p.2 := by
  cases pts with
  | nil => exact absurd hp List.not_mem_nil
  | cons first rest =>
    have hmin : ((first :: rest).map (·.2)).min? = some p.2 :=
      List.min?_eq_some_iff.mpr ⟨List.mem_map_of_mem hp, List.forall_mem_map.mpr h⟩
    rw [List.map_cons, List.min?_cons'] at hmin
    exact Option.some.inj hmin

theorem seriesDelta_eq (pts : Samples) : seriesDelta pts = highest pts - lowest pts := by
  rw [seriesDelta]
  split_ifs with hlength
  · rfl
  · cases pts with
    | nil => exact (sub_self 0).symm
    | cons p rest =>
      cases rest with
      | nil => exact (sub_self p.2).symm
      | cons q rest => exact absurd (by simp) hlength

/-- The samples rise as `rises` says. -/
theorem increase_eq_rises (pts : Samples) : increase pts = rises Prod.snd pts := rfl

end Range

theorem getLastD_mem {α : Type*} (a : α) (l : List α) : l.getLastD a ∈ a :: l := by
  rcases l.eq_nil_or_concat' with rfl | ⟨inner, last, rfl⟩
  · exact List.mem_cons_self
  · rw [List.getLastD_concat]
    simp

theorem Rising.pairwise {pts : Samples} (h : Rising pts) : pts.Pairwise fun p q => p.2 ≤ q.2 := by
  have : IsTrans (ℚ × ℚ) fun p q => p.2 ≤ q.2 := ⟨fun _ _ _ => le_trans⟩
  exact List.isChain_iff_pairwise.mp h

theorem Rising.first_le {first p : ℚ × ℚ} {rest : Samples} (h : Rising (first :: rest)) (hp : p ∈ first :: rest) :
    first.2 ≤ p.2 := by
  rcases List.mem_cons.mp hp with rfl | hp
  · exact le_rfl
  · exact (List.pairwise_cons.mp h.pairwise).1 p hp

theorem Rising.le_last {first p : ℚ × ℚ} {rest : Samples} (h : Rising (first :: rest)) (hp : p ∈ first :: rest) :
    p.2 ≤ (rest.getLastD first).2 := by
  rcases rest.eq_nil_or_concat' with rfl | ⟨inner, last, rfl⟩
  · rw [List.mem_singleton.mp hp, List.getLastD_nil]
  · rw [List.getLastD_concat]
    rw [← List.cons_append] at h hp
    rcases List.mem_append.mp hp with hp | hp
    · exact (List.pairwise_append.mp h.pairwise).2.2 p hp last (List.mem_singleton_self last)
    · rw [List.mem_singleton.mp hp]

/-- From a lowest sample to a highest one after it, the samples rise by no less than the range; by just that, if they
rise nowhere else and do not fall between. -/
theorem LowestFirst.seriesDelta_le {pts fall rise drop : Samples} {valley : ℚ × ℚ}
    (h : LowestFirst pts fall valley rise drop) :
    seriesDelta pts ≤ increase pts ∧
      (seriesDelta pts = increase pts ↔
        Falling (fall ++ [valley]) ∧ Rising (valley :: rise) ∧ Falling (rise.getLastD valley :: drop)) := by
  have hvalley : valley ∈ pts := by simp [h.samples]
  have hpeak : rise.getLastD valley ∈ pts := by
    rw [h.samples, ← List.cons_append]
    exact List.mem_append_right _ (List.mem_append_left _ (getLastD_mem valley rise))
  have hrange : seriesDelta pts = (rise.getLastD valley).2 - valley.2 := by
    rw [seriesDelta_eq, highest_eq hpeak h.high, lowest_eq hvalley h.low]
  have hrises : increase pts = rises Prod.snd (fall ++ [valley]) +
      (rises Prod.snd (valley :: rise) + rises Prod.snd (rise.getLastD valley :: drop)) := by
    rw [increase_eq_rises, h.samples, rises, stepSum_append_cons, stepSum_append]
    rfl
  have hfall : 0 ≤ rises Prod.snd (fall ++ [valley]) := rises_nonneg _
  have hrise := sub_le_rises (v := Prod.snd) valley rise
  have hdrop : 0 ≤ rises Prod.snd (rise.getLastD valley :: drop) := rises_nonneg _
  rw [hrange, hrises]
  refine ⟨by linarith, ?_⟩
  rw [Falling, Rising, Falling, ← rises_eq_zero_iff, ← rises_eq_sub_iff, ← rises_eq_zero_iff]
  constructor
  · intro heq
    exact ⟨by linarith, by linarith, by linarith⟩
  · rintro ⟨hfall', hrise', hdrop'⟩
    linarith

/-- What the range makes of one restart: it is off by what the last sample is below the first. -/
theorem OneRestart.seriesDelta_sub {pts up up' : Samples} {first restart : ℚ × ℚ}
    (h : OneRestart pts first up restart up') :
    seriesDelta pts - increase pts = first.2 - (up'.getLastD restart).2 := by
  have hrestart : restart ∈ pts := by simp [h.samples]
  have hpeak : up.getLastD first ∈ pts := by
    rw [h.samples, ← List.cons_append]
    exact List.mem_append_left _ (getLastD_mem first up)
  have hrange : seriesDelta pts = (up.getLastD first).2 - restart.2 := by
    rw [seriesDelta_eq, highest_eq hpeak h.high, lowest_eq hrestart h.low]
  have hrises : increase pts = rises Prod.snd (first :: up) +
      (max 0 (restart.2 - (up.getLastD first).2) + rises Prod.snd (restart :: up')) := by
    rw [increase_eq_rises, h.samples, rises, stepSum_append, stepSum_cons_cons]
    rfl
  have hfall : max 0 (restart.2 - (up.getLastD first).2) = 0 := max_eq_left (sub_nonpos.mpr (h.low _ hpeak))
  rw [hrange, hrises, hfall, rises_eq_sub_iff.mpr h.before, rises_eq_sub_iff.mpr h.after]
  ring

/-- **When the two increases agree.** They do if the samples fall to a lowest one, rise from there to a highest one and
fall from there on; so they do if no sample is below the one before it. Where some lowest sample is not after some
highest one they agree only then, and the range never reports an increase that is not in the samples. After one restart
without such a sample it reports one exactly if the last sample is below the first. -/
theorem seriesDelta_spec (pts : Samples) :
    (ValleyThenPeak pts ∨ Rising pts → seriesDelta pts = increase pts) ∧
    (∀ fall valley rise drop, LowestFirst pts fall valley rise drop →
      seriesDelta pts ≤ increase pts ∧ (seriesDelta pts = increase pts ↔ ValleyThenPeak pts)) ∧
    ∀ first up restart up', OneRestart pts first up restart up' →
      (increase pts < seriesDelta pts ↔ (up'.getLastD restart).2 < first.2) ∧
        (seriesDelta pts = increase pts ↔ (up'.getLastD restart).2 = first.2) := by
  have hsufficient : ValleyThenPeak pts → seriesDelta pts = increase pts := by
    rintro ⟨fall, valley, rise, drop, hlowest, hshape⟩
    exact hlowest.seriesDelta_le.2.mpr hshape
  refine ⟨?_, fun fall valley rise drop hlowest => ⟨hlowest.seriesDelta_le.1, fun heq => ?_, hsufficient⟩, ?_⟩
  · rintro (hshape | hrising)
    · exact hsufficient hshape
    · cases pts with
      | nil => rfl
      | cons first rest =>
        refine hsufficient ⟨[], first, rest, [], ⟨by simp, ?_, ?_⟩, .singleton _, hrising, .singleton _⟩
        · exact fun p hp => hrising.first_le hp
        · exact fun p hp => hrising.le_last hp
  · exact ⟨fall, valley, rise, drop, hlowest, hlowest.seriesDelta_le.2.mp heq⟩
  · intro first up restart up' hrestart
    have hsub := hrestart.seriesDelta_sub
    constructor
    · constructor <;> intro h <;> linarith
    · constructor <;> intro h <;> linarith

/-- The samples 5, 2, 9, 4 have a valley and then a peak; 3, 10, 0, 2 have a restart instead, and the range reports an
increase of 10 for one of 9. -/
theorem seriesDelta_spec_valleyThenPeak :
    seriesDelta [(0, 5), (5, 2), (10, 9), (15, 4)] = increase [(0, 5), (5, 2), (10, 9), (15, 4)] ∧
      increase [(0, 3), (5, 10), (10, 0), (15, 2)] < seriesDelta [(0, 3), (5, 10), (10, 0), (15, 2)] := by
  have hlowest : LowestFirst [(0, 5), (5, 2), (10, 9), (15, 4)] [(0, 5)] (5, 2) [(10, 9)] [(15, 4)] :=
    ⟨rfl, by decide +kernel, by decide +kernel⟩
  have hrestart : OneRestart [(0, 3), (5, 10), (10, 0), (15, 2)] (0, 3) [(5, 10)] (10, 0) [(15, 2)] :=
    ⟨rfl, by norm_num [Rising], by norm_num [Rising], by decide +kernel, by decide +kernel⟩
  refine ⟨(seriesDelta_spec _).1 (.inl ⟨_, _, _, _, hlowest, ?_, ?_, ?_⟩),
    ((seriesDelta_spec _).2.2 _ _ _ _ hrestart).1.mpr (by norm_num)⟩
  · norm_num [Falling]
  · norm_num [Rising]
  · norm_num [Falling]

/-- Where every highest sample is before every lowest one, several rises may add up to the range by chance. -/
example : seriesDelta [(0, 10), (5, 4), (10, 9), (15, 4), (20, 9), (25, 0)] =
    increase [(0, 10), (5, 4), (10, 9), (15, 4), (20, 9), (25, 0)] := by decide +kernel

/-- A restart that shows: the engine is back at 0 and has counted nothing since. -/
def resetDump : Prom := fun metric =>
  if metric = "vllm_prefix_cache_hits_total" then
    some [⟨Dict.ofList [("job", "vllm-engines"), ("pod", "engine-a")], [(0, .num 10), (5, .num 0)]⟩]
  else none

/-- The range reports 10, though the samples never rise. -/
theorem counterDelta_reset :
    counterDelta resetDump "vllm:prefix_cache_hits_total" = .num 10 ∧
      readSeries resetDump "vllm_prefix_cache_hits_total" engineJob =
        Dict.ofList [("engine-a", [(0, 10), (5, 0)])] ∧
      seriesDelta [(0, 10), (5, 0)] = 10 ∧ increase [(0, 10), (5, 0)] = 0 := by
  refine ⟨by decide +kernel, by decide +kernel, by decide +kernel, by decide +kernel⟩

end CachingInLLMs.Benchmarks

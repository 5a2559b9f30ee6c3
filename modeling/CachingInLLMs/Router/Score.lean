import CachingInLLMs.Router.Bridge
import Mathlib.Algebra.BigOperators.Ring.List
import Mathlib.Algebra.Order.Field.Rat
import Mathlib.Data.List.MinMax
import Mathlib.Data.List.Sort
import Mathlib.Data.String.Basic
import Mathlib.Order.WithBot
import Mathlib.Tactic.FieldSimp
import Mathlib.Tactic.Positivity
import Mathlib.Tactic.Linarith

/-!
# The score and the argmax

`LoadAwareRouter` scores every endpoint by

    matched_tokens / prompt_tokens - beta * relative_load

where `relative_load` is the endpoint's in-flight load relative to the mean of the
fleet, and takes the endpoint with the highest score, the least URL among several.

Numbers are exact rationals. `select_url` never raises, and on a fleet it returns
the argmax (`selectUrl_spec`). Because both terms are fractions, one `beta` is one
policy at every scale, for loads whose mean is at least 1 and for prompts of every
length (`same_policy_at_every_scale`). The clamp makes the bound on the mean exact
(`relativeLoad_scale_iff`).
-/

namespace CachingInLLMs.Router

open CachingInLLMs.Library CachingInLLMs.Controller

/-- The fields of `RequestStats` that routing reads. -/
structure RequestStats where
  /-- `qps`. -/
  qps : ℚ
  /-- `in_prefill_requests`. -/
  inPrefillRequests : ℤ
  /-- `in_decoding_requests`. -/
  inDecodingRequests : ℤ
  deriving DecidableEq

/-! ### Load -/

/-- `load_penalty`: in-flight requests on a URL, none if it has no stats. -/
def loadPenalty (requestStats : Dict String RequestStats) (url : String) : ℤ :=
  match if requestStats.keys ≠ [] then requestStats.get? url else none with
  | none => 0
  | some stats => stats.inPrefillRequests + stats.inDecodingRequests

/-- The loads of the endpoints, by URL. -/
def loads (requestStats : Dict String RequestStats) (endpoints : List EndpointInfo) : Dict String ℤ :=
  Dict.ofList (endpoints.map fun endpoint => (endpoint.url, loadPenalty requestStats endpoint.url))

/-- The mean in-flight load of the fleet. -/
def meanLoad (loads : Dict String ℤ) : Except PyError ℚ := pyDiv loads.values.sum loads.keys.length

/-- `relative_loads`: each endpoint's load as a signed fraction of the fleet mean. -/
def relativeLoads (requestStats : Dict String RequestStats) (endpoints : List EndpointInfo) :
    Except PyError (Dict String ℚ) :=
  let loads := loads requestStats endpoints
  if loads.keys = [] then .ok ∅
  else do
    let mean ← meanLoad loads
    loads.mapValuesM fun load : ℤ => pyDiv (load - mean) (max 1 mean)

/-- The mean of the loads. -/
def fleetMean (requestStats : Dict String RequestStats) (endpoints : List EndpointInfo) : ℚ :=
  (loads requestStats endpoints).values.sum / (loads requestStats endpoints).keys.length

/-- A load relative to a mean. -/
def relativeLoad (mean : ℚ) (load : ℤ) : ℚ := (load - mean) / max 1 mean

theorem max_one_ne_zero (q : ℚ) : max 1 q ≠ 0 := (lt_of_lt_of_le one_pos (le_max_left 1 q)).ne'

/-- `relative_loads` does not raise: the mean is taken of a load at least, and the
clamp keeps the other denominators from 0. -/
theorem relativeLoads_eq (requestStats : Dict String RequestStats) (endpoints : List EndpointInfo) :
    relativeLoads requestStats endpoints =
      .ok ((loads requestStats endpoints).mapValues (relativeLoad (fleetMean requestStats endpoints))) := by
  unfold relativeLoads
  dsimp only
  split
  · next hempty =>
    refine congrArg Except.ok (Dict.ext_get? ?_ fun url => ?_)
    · rw [Dict.keys_mapValues, hempty]
      rfl
    · have hnone : (loads requestStats endpoints).get? url = none := by
        rw [Dict.get?_eq_none, ← Dict.mem_keys, hempty]
        exact List.not_mem_nil
      rw [Dict.get?_mapValues, hnone]
      rfl
  · next hne =>
    have hlen : ((loads requestStats endpoints).keys.length : ℚ) ≠ 0 := by
      simpa using hne
    rw [meanLoad, pyDiv_of_ne_zero _ hlen]
    exact Dict.mapValuesM_ok (g := relativeLoad (fleetMean requestStats endpoints))
      (fun load => pyDiv_of_ne_zero _ (max_one_ne_zero _)) (loads requestStats endpoints)

/-! ### Score -/

/-- `score_endpoint`. -/
def scoreEndpoint (beta : ℚ) (matchedTokens promptTokens : ℤ) (relativeLoad : ℚ) : Except PyError ℚ := do
  let benefit ← pyDiv (min matchedTokens promptTokens : ℤ) (max promptTokens 1 : ℤ)
  return benefit - beta * relativeLoad

/-- The score of one endpoint, as `select_url` computes it. -/
def endpointScore (beta : ℚ) (matchedByUrl : Dict String ℤ) (relative : Dict String ℚ) (promptTokens : ℤ)
    (url : String) : Except PyError ℚ :=
  scoreEndpoint beta ((matchedByUrl.get? url).getD 0) promptTokens ((relative.get? url).getD 0)

/-- The value of that score. -/
def score (beta : ℚ) (matchedByUrl : Dict String ℤ) (relative : Dict String ℚ) (promptTokens : ℤ)
    (url : String) : ℚ :=
  ((min ((matchedByUrl.get? url).getD 0) promptTokens : ℤ) : ℚ) / ((max promptTokens 1 : ℤ) : ℚ) -
    beta * (relative.get? url).getD 0

/-- `score_endpoint` does not raise. -/
theorem endpointScore_ok (beta : ℚ) (matchedByUrl : Dict String ℤ) (relative : Dict String ℚ)
    (promptTokens : ℤ) (url : String) :
    endpointScore beta matchedByUrl relative promptTokens url =
      .ok (score beta matchedByUrl relative promptTokens url) := by
  have hne : ((max promptTokens 1 : ℤ) : ℚ) ≠ 0 := by
    have : 1 ≤ max promptTokens 1 := le_max_right _ _
    exact_mod_cast (by omega : max promptTokens 1 ≠ 0)
  rw [endpointScore, scoreEndpoint, pyDiv_of_ne_zero _ hne]
  rfl

/-! ### The argmax -/

/-- The order in which `select_url` visits the endpoints. -/
def byUrl (a b : EndpointInfo) : Prop := a.url ≤ b.url

instance : DecidableRel byUrl := fun a b => inferInstanceAs (Decidable (a.url ≤ b.url))

instance : Std.Total byUrl := ⟨fun a b => le_total a.url b.url⟩

instance : IsTrans EndpointInfo byUrl := ⟨fun _ _ _ h h' => le_trans h h'⟩

/-- The loop of `select_url`. -/
def selectLoop (scoreOf : String → Except PyError ℚ) :
    List EndpointInfo → Option String → WithBot ℚ → Except PyError (Option String)
  | [], bestUrl, _ => .ok bestUrl
  | info :: endpoints, bestUrl, bestScore => do
    let score ← scoreOf info.url
    if bestScore < score then selectLoop scoreOf endpoints (some info.url) score
    else selectLoop scoreOf endpoints bestUrl bestScore

/-- `select_url`. -/
def selectUrl {ι : Type} [DecidableEq ι] (beta : ℚ) (instanceIdToIp : Dict ι String)
    (endpoints : List EndpointInfo) (requestStats : Dict String RequestStats) (layoutInfo : LayoutInfo ι)
    (promptTokens : ℤ) : Except PyError (Option String) := do
  let matchedByUrl := matchedTokensByUrl instanceIdToIp layoutInfo
  let relative ← relativeLoads requestStats endpoints
  selectLoop (endpointScore beta matchedByUrl relative promptTokens) (endpoints.insertionSort byUrl) none ⊥

theorem selectLoop_cons {scoreOf : String → Except PyError ℚ} {f : String → ℚ}
    (h : ∀ url, scoreOf url = .ok (f url)) (info : EndpointInfo) (endpoints : List EndpointInfo)
    (bestUrl : Option String) (bestScore : WithBot ℚ) :
    selectLoop scoreOf (info :: endpoints) bestUrl bestScore =
      if bestScore < f info.url then selectLoop scoreOf endpoints (some info.url) (f info.url)
      else selectLoop scoreOf endpoints bestUrl bestScore := by
  rw [selectLoop, h]
  rfl

/-- The loop keeps the first of the endpoints with the highest score so far. -/
theorem selectLoop_some {scoreOf : String → Except PyError ℚ} {f : String → ℚ}
    (h : ∀ url, scoreOf url = .ok (f url)) (a : EndpointInfo) (endpoints : List EndpointInfo) :
    selectLoop scoreOf endpoints (some a.url) (f a.url) =
      .ok ((endpoints.foldl (List.argAux fun b c => f c.url < f b.url) (some a)).map (·.url)) := by
  induction endpoints generalizing a with
  | nil => rfl
  | cons info endpoints ih =>
    rw [selectLoop_cons h, List.foldl_cons]
    by_cases hlt : f a.url < f info.url
    · rw [if_pos (WithBot.coe_lt_coe.mpr hlt), ih info,
        show List.argAux (fun b c => f c.url < f b.url) (some a) info = some info from if_pos hlt]
    · rw [if_neg fun hc => hlt (WithBot.coe_lt_coe.mp hc), ih a,
        show List.argAux (fun b c => f c.url < f b.url) (some a) info = some a from if_neg hlt]

theorem selectLoop_eq_argmax {scoreOf : String → Except PyError ℚ} {f : String → ℚ}
    (h : ∀ url, scoreOf url = .ok (f url)) (endpoints : List EndpointInfo) :
    selectLoop scoreOf endpoints none ⊥ = .ok ((endpoints.argmax fun info => f info.url).map (·.url)) := by
  cases endpoints with
  | nil => rfl
  | cons info endpoints =>
    rw [selectLoop_cons h, if_pos (WithBot.bot_lt_coe _)]
    exact selectLoop_some h info endpoints

/-- The endpoint has the highest score, and the least URL of those that have it. -/
def IsBest (f : String → ℚ) (endpoints : List EndpointInfo) (best : EndpointInfo) : Prop :=
  ∀ info ∈ endpoints, f info.url ≤ f best.url ∧ (f info.url = f best.url → best.url ≤ info.url)

/-- The argmax of the sorted endpoints is the best of them. -/
theorem exists_argmax_isBest (f : String → ℚ) {endpoints : List EndpointInfo} (hne : endpoints ≠ []) :
    ∃ best ∈ endpoints, (endpoints.insertionSort byUrl).argmax (fun info => f info.url) = some best ∧
      IsBest f endpoints best := by
  have hsorted := List.pairwise_insertionSort byUrl endpoints
  obtain ⟨best, hbest⟩ : ∃ best, (endpoints.insertionSort byUrl).argmax (fun info => f info.url) = some best := by
    refine Option.ne_none_iff_exists'.mp fun hnone => hne ?_
    rw [List.argmax_eq_none, ← List.length_eq_zero_iff, List.length_insertionSort] at hnone
    exact List.length_eq_zero_iff.mp hnone
  have hargmax : best ∈ (endpoints.insertionSort byUrl).argmax fun info => f info.url := Option.mem_def.mpr hbest
  have hmem : best ∈ endpoints.insertionSort byUrl := List.argmax_mem hargmax
  refine ⟨best, (List.mem_insertionSort byUrl).mp hmem, hbest, fun info hinfo => ?_⟩
  have hinfo := (List.mem_insertionSort byUrl).mpr hinfo
  have hle := List.le_of_mem_argmax hinfo hargmax
  refine ⟨hle, fun heq => ?_⟩
  -- the argmax is the first of the maximizers, and the list is sorted by URL
  have hidx := List.index_of_argmax (f := fun info : EndpointInfo => f info.url) hargmax hinfo heq.ge
  rcases hidx.lt_or_eq with hlt | hidx
  · have hlen := List.idxOf_lt_length_of_mem hinfo
    have hle := List.pairwise_iff_getElem.mp hsorted _ _ (hlt.trans hlen) hlen hlt
    rwa [List.getElem_idxOf, List.getElem_idxOf] at hle
  · rw [(List.idxOf_inj hmem).mp hidx]

section SelectUrl

variable {ι : Type} [DecidableEq ι]

/-- The score of a URL in the fleet. -/
def fleetScore (beta : ℚ) (instanceIdToIp : Dict ι String) (endpoints : List EndpointInfo)
    (requestStats : Dict String RequestStats) (layoutInfo : LayoutInfo ι) (promptTokens : ℤ) (url : String) : ℚ :=
  score beta (matchedTokensByUrl instanceIdToIp layoutInfo)
    ((loads requestStats endpoints).mapValues (relativeLoad (fleetMean requestStats endpoints))) promptTokens url

/-- `select_url` takes the argmax, and does not raise. -/
theorem selectUrl_eq (beta : ℚ) (instanceIdToIp : Dict ι String) (endpoints : List EndpointInfo)
    (requestStats : Dict String RequestStats) (layoutInfo : LayoutInfo ι) (promptTokens : ℤ) :
    selectUrl beta instanceIdToIp endpoints requestStats layoutInfo promptTokens =
      .ok (((endpoints.insertionSort byUrl).argmax fun info =>
        fleetScore beta instanceIdToIp endpoints requestStats layoutInfo promptTokens info.url).map (·.url)) := by
  rw [selectUrl, relativeLoads_eq]
  exact selectLoop_eq_argmax (fun url => endpointScore_ok _ _ _ _ url) _

/-- **What `select_url` returns**: the URL of an endpoint with the highest score, the
least such URL. -/
theorem selectUrl_spec (beta : ℚ) (instanceIdToIp : Dict ι String) {endpoints : List EndpointInfo}
    (hne : endpoints ≠ []) (requestStats : Dict String RequestStats) (layoutInfo : LayoutInfo ι)
    (promptTokens : ℤ) :
    ∃ best ∈ endpoints,
      selectUrl beta instanceIdToIp endpoints requestStats layoutInfo promptTokens = .ok (some best.url) ∧
      IsBest (fleetScore beta instanceIdToIp endpoints requestStats layoutInfo promptTokens) endpoints best := by
  obtain ⟨best, hmem, hargmax, hbest⟩ := exists_argmax_isBest
    (fleetScore beta instanceIdToIp endpoints requestStats layoutInfo promptTokens) hne
  refine ⟨best, hmem, ?_, hbest⟩
  rw [selectUrl_eq, hargmax, Option.map_some]

end SelectUrl

/-! ### Scale -/

/-- The same counts in another unit: `c` times as many of each. -/
def RequestStats.scale (c : ℤ) (stats : RequestStats) : RequestStats where
  qps := stats.qps
  inPrefillRequests := c * stats.inPrefillRequests
  inDecodingRequests := c * stats.inDecodingRequests

/-- Every matched-token count times `d`. -/
def scaleMatches {ι : Type} (d : ℤ) (layoutInfo : LayoutInfo ι) : LayoutInfo ι :=
  layoutInfo.mapValues fun info => (info.1, d * info.2)

theorem loadPenalty_eq (requestStats : Dict String RequestStats) (url : String) :
    loadPenalty requestStats url =
      ((requestStats.get? url).map fun stats => stats.inPrefillRequests + stats.inDecodingRequests).getD 0 := by
  rw [loadPenalty]
  split_ifs with hne
  · cases requestStats.get? url <;> rfl
  · have hnone : requestStats.get? url = none := by
      rw [Dict.get?_eq_none, ← Dict.mem_keys, not_not.mp hne]
      exact List.not_mem_nil
    rw [hnone]
    rfl

/-- Scaling both counts of every endpoint scales its load. -/
theorem loadPenalty_scale (c : ℤ) (requestStats : Dict String RequestStats) (url : String) :
    loadPenalty (requestStats.mapValues (RequestStats.scale c)) url = c * loadPenalty requestStats url := by
  rw [loadPenalty_eq, loadPenalty_eq, Dict.get?_mapValues]
  cases requestStats.get? url with
  | none => exact (mul_zero c).symm
  | some stats => exact (mul_add c _ _).symm

section Scale

variable {requestStats requestStats' : Dict String RequestStats} {endpoints : List EndpointInfo} {c : ℤ}

theorem loads_scale
    (h : ∀ endpoint ∈ endpoints, loadPenalty requestStats' endpoint.url = c * loadPenalty requestStats endpoint.url) :
    loads requestStats' endpoints = (loads requestStats endpoints).mapValues (c * ·) := by
  rw [loads, loads, Dict.mapValues_ofList, List.map_map]
  refine congrArg Dict.ofList (List.map_congr_left fun endpoint he => ?_)
  rw [h endpoint he]
  rfl

theorem fleetMean_scale
    (h : ∀ endpoint ∈ endpoints, loadPenalty requestStats' endpoint.url = c * loadPenalty requestStats endpoint.url) :
    fleetMean requestStats' endpoints = c * fleetMean requestStats endpoints := by
  rw [fleetMean, fleetMean, loads_scale h, Dict.keys_mapValues, Dict.values_mapValues, List.sum_map_mul_left,
    List.map_id', Int.cast_mul, mul_div_assoc]

/-- A relative load does not depend on the unit, if the mean is at least 1 in both. -/
theorem relativeLoad_scale {mean : ℚ} (hmean : 1 ≤ mean) (hc : 0 < c) (load : ℤ) :
    relativeLoad (c * mean) (c * load) = relativeLoad mean load := by
  have hc' : (1 : ℚ) ≤ c := by exact_mod_cast hc
  have hscaled : 1 ≤ c * mean := one_le_mul_of_one_le_of_one_le hc' hmean
  have hne : (c : ℚ) ≠ 0 := by positivity
  rw [relativeLoad, relativeLoad, max_eq_right hmean, max_eq_right hscaled, Int.cast_mul, ← mul_sub,
    mul_div_mul_left _ _ hne]

/-- The bound on the mean is exact: below it, a larger unit changes every relative load
that is not 0. -/
theorem relativeLoad_scale_iff {mean : ℚ} (hc : 1 < c) {load : ℤ} (hload : (load : ℚ) ≠ mean) :
    relativeLoad (c * mean) (c * load) = relativeLoad mean load ↔ 1 ≤ mean := by
  refine ⟨fun h => ?_, fun h => relativeLoad_scale h (by omega) load⟩
  by_contra hlt
  rw [not_le] at hlt
  have hc' : (1 : ℚ) < c := by exact_mod_cast hc
  have hne : (load : ℚ) - mean ≠ 0 := sub_ne_zero.mpr hload
  rw [relativeLoad, relativeLoad, max_eq_left hlt.le, div_one, Int.cast_mul, ← mul_sub,
    div_eq_iff (max_one_ne_zero _), mul_comm, mul_right_inj' hne] at h
  -- `c` would be the larger of 1 and `c * mean`, and it exceeds both
  have hmul : (c : ℚ) * mean < c := by nlinarith
  rcases max_choice 1 ((c : ℚ) * mean) with hmax | hmax <;> rw [hmax] at h <;> linarith

/-- The benefit is a fraction of the prompt: its unit cancels. -/
theorem benefit_scale {d : ℤ} (hd : 0 < d) (matchedTokens : ℤ) {promptTokens : ℤ} (hprompt : 1 ≤ promptTokens) :
    ((min (d * matchedTokens) (d * promptTokens) : ℤ) : ℚ) / ((max (d * promptTokens) 1 : ℤ) : ℚ) =
      ((min matchedTokens promptTokens : ℤ) : ℚ) / ((max promptTokens 1 : ℤ) : ℚ) := by
  have hscaled : 1 ≤ d * promptTokens := one_le_mul_of_one_le_of_one_le hd hprompt
  have hne : (d : ℚ) ≠ 0 := by exact_mod_cast hd.ne'
  rw [max_eq_left hprompt, max_eq_left hscaled, ← mul_min_of_nonneg _ _ hd.le, Int.cast_mul, Int.cast_mul,
    mul_div_mul_left _ _ hne]

variable {ι : Type} [DecidableEq ι]

theorem matchedTokensByUrl_scale (d : ℤ) (instanceIdToIp : Dict ι String) (layoutInfo : LayoutInfo ι) (url : String) :
    ((matchedTokensByUrl instanceIdToIp (scaleMatches d layoutInfo)).get? url).getD 0 =
      d * ((matchedTokensByUrl instanceIdToIp layoutInfo).get? url).getD 0 := by
  rw [matchedTokensByUrl_get?, matchedTokensByUrl_get?]
  cases instanceIdToIp.invert.get? url with
  | none => exact (mul_zero d).symm
  | some i =>
    rw [Option.bind_some, Option.bind_some, scaleMatches, Dict.get?_mapValues]
    cases layoutInfo.get? i with
    | none => exact (mul_zero d).symm
    | some info => rfl

/-- On the same relative loads, an endpoint's score does not depend on the unit of tokens. -/
theorem endpointScore_scale {d : ℤ} (hd : 0 < d) {promptTokens : ℤ} (hprompt : 1 ≤ promptTokens) (beta : ℚ)
    (instanceIdToIp : Dict ι String) (layoutInfo : LayoutInfo ι) (relative : Dict String ℚ) (url : String) :
    endpointScore beta (matchedTokensByUrl instanceIdToIp (scaleMatches d layoutInfo)) relative
        (d * promptTokens) url =
      endpointScore beta (matchedTokensByUrl instanceIdToIp layoutInfo) relative promptTokens url := by
  rw [endpointScore_ok, endpointScore_ok, score, score, matchedTokensByUrl_scale, benefit_scale hd _ hprompt]

theorem relativeLoads_scale (hmean : 1 ≤ fleetMean requestStats endpoints) (hc : 0 < c)
    (h : ∀ endpoint ∈ endpoints, loadPenalty requestStats' endpoint.url = c * loadPenalty requestStats endpoint.url) :
    relativeLoads requestStats' endpoints = relativeLoads requestStats endpoints := by
  rw [relativeLoads_eq, relativeLoads_eq, fleetMean_scale h, loads_scale h, Dict.mapValues_mapValues]
  exact congrArg (fun f => Except.ok ((loads requestStats endpoints).mapValues f))
    (funext fun load => relativeLoad_scale hmean hc load)

/-- **One beta is one policy at every scale.** On a fleet whose mean load is at least 1,
multiplying all loads by `c`, and the prompt and all matches by `d`, changes no relative
load, no score and no placement. -/
theorem same_policy_at_every_scale (beta : ℚ) (instanceIdToIp : Dict ι String) (layoutInfo : LayoutInfo ι)
    (hmean : 1 ≤ fleetMean requestStats endpoints) {promptTokens : ℤ} (hprompt : 1 ≤ promptTokens)
    {d : ℤ} (hc : 0 < c) (hd : 0 < d)
    (h : ∀ endpoint ∈ endpoints, loadPenalty requestStats' endpoint.url = c * loadPenalty requestStats endpoint.url) :
    relativeLoads requestStats' endpoints = relativeLoads requestStats endpoints ∧
    (∀ url,
      (do
        let relative ← relativeLoads requestStats' endpoints
        endpointScore beta (matchedTokensByUrl instanceIdToIp (scaleMatches d layoutInfo)) relative
          (d * promptTokens) url) =
      (do
        let relative ← relativeLoads requestStats endpoints
        endpointScore beta (matchedTokensByUrl instanceIdToIp layoutInfo) relative promptTokens url)) ∧
    selectUrl beta instanceIdToIp endpoints requestStats' (scaleMatches d layoutInfo) (d * promptTokens) =
      selectUrl beta instanceIdToIp endpoints requestStats layoutInfo promptTokens := by
  have hrelative := relativeLoads_scale hmean hc h
  have hscore := endpointScore_scale hd hprompt beta instanceIdToIp layoutInfo
  refine ⟨hrelative, fun url => ?_, ?_⟩
  · rw [hrelative]
    exact bind_congr fun relative => hscore relative url
  · rw [selectUrl, selectUrl, hrelative]
    refine bind_congr fun relative => ?_
    rw [funext (hscore relative)]

end Scale

/-- Two engines with a mean of 3 requests in flight. -/
def busyStats : Dict String RequestStats :=
  Dict.ofList [("http://10.0.0.1:8000", ⟨2, 1, 3⟩), ("http://10.0.0.2:8000", ⟨1, 0, 2⟩)]

/-- The busy fleet at ten times the load, with a prompt of three times the length. -/
theorem same_policy_at_every_scale_busyStats :
    selectUrl 1 (Dict.ofList [("a", "http://10.0.0.1:8000"), ("b", "http://10.0.0.2:8000")])
        [⟨"http://10.0.0.1:8000", []⟩, ⟨"http://10.0.0.2:8000", []⟩] (busyStats.mapValues (RequestStats.scale 10))
        (scaleMatches 3 (Dict.ofList [("a", ("cpu", 256))])) (3 * 512) =
      selectUrl 1 (Dict.ofList [("a", "http://10.0.0.1:8000"), ("b", "http://10.0.0.2:8000")])
        [⟨"http://10.0.0.1:8000", []⟩, ⟨"http://10.0.0.2:8000", []⟩] busyStats
        (Dict.ofList [("a", ("cpu", 256))]) 512 :=
  (same_policy_at_every_scale 1 _ _ (by decide +kernel) (by decide) (by decide) (by decide)
    fun endpoint _ => loadPenalty_scale 10 busyStats endpoint.url).2.2

end CachingInLLMs.Router

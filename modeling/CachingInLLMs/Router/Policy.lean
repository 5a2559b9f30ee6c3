import CachingInLLMs.Router.Score
import Mathlib.Algebra.BigOperators.Group.Finset.Basic
import Mathlib.Algebra.Order.BigOperators.Group.Finset
import Mathlib.Data.Int.Cast.Lemmas
import Mathlib.Algebra.BigOperators.Ring.Finset
import Mathlib.Tactic.Ring

/-!
# What the policy guarantees

The router weighs what a placement gains against what it costs. `netBenefit` is this
trade by itself, over any finite set of choices: the benefit of a choice less `beta`
times its load relative to the mean. The choice is the one of the highest net benefit,
the least such under an order that breaks ties (`Chosen`).

## What is proved

* `selectUrl_iff_chosen`: `select_url` makes this choice among the distinct URLs of the
  endpoints, so neither the order of the endpoints nor an order of insertion matters
  (`selectUrl_is_policy`).
* `exchange_rate_guarantee`: how much more load a match can buy, and how much of a match
  a difference in load can.
* `own_signal_monotone`: a higher load or a smaller match never wins a request, although
  the load of one endpoint moves the mean and with it the score of every other.
-/

namespace CachingInLLMs.Router

open CachingInLLMs.Library CachingInLLMs.Controller

/-! ### The trade -/

section Trade

variable {U : Type} (urls : Finset U) (load benefit : U → ℚ) (beta : ℚ)

/-- The mean load. -/
def averageLoad : ℚ := (∑ u ∈ urls, load u) / urls.card

/-- The benefit of a choice, less `beta` times its load relative to the mean. -/
def netBenefit (u : U) : ℚ :=
  benefit u - beta * ((load u - averageLoad urls load) / max 1 (averageLoad urls load))

/-- The choice of the highest value, the least of those that have it. -/
def Chosen [LinearOrder U] (f : U → ℚ) (u : U) : Prop :=
  u ∈ urls ∧ ∀ v ∈ urls, f v ≤ f u ∧ (f v = f u → u ≤ v)

variable {urls load benefit beta}

/-- There is one choice. -/
theorem Chosen.unique [LinearOrder U] {f : U → ℚ} {u v : U} (hu : Chosen urls f u) (hv : Chosen urls f v) :
    u = v := by
  have heq : f v = f u := le_antisymm (hu.2 v hv.1).1 (hv.2 u hu.1).1
  exact le_antisymm ((hu.2 v hv.1).2 heq) ((hv.2 u hu.1).2 heq.symm)

/-- A choice stays, if no other gains on it. -/
theorem Chosen.of_gain [LinearOrder U] {f f' : U → ℚ} {u : U} (hu : Chosen urls f u)
    (hgain : ∀ v ∈ urls, f' v - f' u ≤ f v - f u) : Chosen urls f' u := by
  refine ⟨hu.1, fun v hv => ?_⟩
  obtain ⟨hle, htie⟩ := hu.2 v hv
  have hgain := hgain v hv
  constructor
  · linarith
  · intro heq
    apply htie
    linarith

/-- The only one of the highest value. -/
theorem Chosen.of_lt [LinearOrder U] {f : U → ℚ} {u : U} (hu : u ∈ urls) (hlt : ∀ v ∈ urls, v ≠ u → f v < f u) :
    Chosen urls f u := by
  refine ⟨hu, fun v hv => ?_⟩
  rcases eq_or_ne v u with rfl | hne
  · exact ⟨le_rfl, fun _ => le_rfl⟩
  · exact ⟨(hlt v hv hne).le, fun heq => absurd heq (hlt v hv hne).ne⟩

theorem max_one_pos (q : ℚ) : 0 < max 1 q := lt_of_lt_of_le one_pos (le_max_left 1 q)

/-- The mean cancels in a comparison, except for the unit it sets. -/
theorem netBenefit_sub (urls : Finset U) (load benefit : U → ℚ) (beta : ℚ) (u v : U) :
    netBenefit urls load benefit beta u - netBenefit urls load benefit beta v =
      benefit u - benefit v - beta * ((load u - load v) / max 1 (averageLoad urls load)) := by
  rw [netBenefit, netBenefit]
  ring

/-- The chosen one beats every other. -/
theorem Chosen.cost_le [LinearOrder U] {u v : U} (hu : Chosen urls (netBenefit urls load benefit beta) u)
    (hv : v ∈ urls) :
    beta * ((load u - load v) / max 1 (averageLoad urls load)) ≤ benefit u - benefit v := by
  have hle := (hu.2 v hv).1
  have hsub := netBenefit_sub urls load benefit beta u v
  linarith

/-- No load exceeds the total. -/
theorem load_le_card_mul (hload : ∀ u ∈ urls, 0 ≤ load u) {u : U} (hu : u ∈ urls) :
    load u ≤ urls.card * max 1 (averageLoad urls load) := by
  have hcard : (0 : ℚ) < urls.card := by exact_mod_cast Finset.card_pos.mpr ⟨u, hu⟩
  calc load u ≤ ∑ v ∈ urls, load v := Finset.single_le_sum hload hu
    _ = urls.card * averageLoad urls load := by rw [averageLoad, mul_div_cancel₀ _ hcard.ne']
    _ ≤ urls.card * max 1 (averageLoad urls load) :=
      mul_le_mul_of_nonneg_left (le_max_right _ _) hcard.le

/-- Of two choices, one leads the other by twice its own relative load. -/
theorem netBenefit_pair [DecidableEq U] (load benefit : U → ℚ) (beta : ℚ) {f z : U} (hne : f ≠ z) (hurls : urls = {f, z}) :
    netBenefit urls load benefit beta f - netBenefit urls load benefit beta z =
      benefit f - benefit z -
        2 * beta * ((load f - averageLoad urls load) / max 1 (averageLoad urls load)) := by
  have hmean : averageLoad urls load = (load f + load z) / 2 := by
    rw [averageLoad, hurls, Finset.sum_pair hne, Finset.card_pair hne]
    norm_num
  have hlead : load f - load z = 2 * (load f - averageLoad urls load) := by
    rw [hmean]
    ring
  rw [netBenefit_sub, hlead, mul_div_assoc]
  ring

/-! One load changes: the mean moves with it, and with the mean the unit of every load. -/

variable {load' benefit' : U → ℚ} {u : U}

theorem averageLoad_sub (hu : u ∈ urls) (hother : ∀ v ≠ u, load' v = load v) :
    urls.card * (averageLoad urls load - averageLoad urls load') = load u - load' u := by
  classical
  have hcard : (urls.card : ℚ) ≠ 0 := by
    exact_mod_cast (Finset.card_pos.mpr ⟨u, hu⟩).ne'
  have hrest : ∑ v ∈ urls.erase u, load' v = ∑ v ∈ urls.erase u, load v :=
    Finset.sum_congr rfl fun v hv => hother v (Finset.ne_of_mem_erase hv)
  rw [averageLoad, averageLoad, ← sub_div, mul_div_cancel₀ _ hcard, ← Finset.add_sum_erase _ _ hu,
    ← Finset.add_sum_erase _ load' hu, hrest]
  ring

/-- The clamp does not amplify a change of the mean. -/
theorem max_one_sub_le {m m' : ℚ} (h : m' ≤ m) : max 1 m - max 1 m' ≤ m - m' := by
  rcases max_cases 1 m with ⟨hm, h1⟩ | ⟨hm, h1⟩ <;> rw [hm]
  · linarith [le_max_left 1 m']
  · linarith [le_max_right 1 m']

/-- A smaller load has a smaller lead on every other, although the unit shrinks as well. -/
theorem lead_le (hload : ∀ v ∈ urls, 0 ≤ load v) (hu : u ∈ urls) (hother : ∀ v ≠ u, load' v = load v)
    (hle : load' u ≤ load u) {v : U} (hv : v ∈ urls) :
    (load' u - load' v) / max 1 (averageLoad urls load') ≤ (load u - load v) / max 1 (averageLoad urls load) := by
  rcases eq_or_ne v u with rfl | hne
  · rw [sub_self, sub_self, zero_div, zero_div]
  rw [hother v hne, div_le_div_iff₀ (max_one_pos _) (max_one_pos _)]
  have hcard : (0 : ℚ) < urls.card := by exact_mod_cast Finset.card_pos.mpr ⟨u, hu⟩
  have hmean := averageLoad_sub hu hother
  have hmeanle : averageLoad urls load' ≤ averageLoad urls load := by
    have : 0 ≤ (urls.card : ℚ) * (averageLoad urls load - averageLoad urls load') := by linarith
    linarith [nonneg_of_mul_nonneg_right this hcard]
  -- the unit shrinks by at most the drop of the load over the number of choices
  have hunit : urls.card * (max 1 (averageLoad urls load) - max 1 (averageLoad urls load')) ≤ load u - load' u :=
    le_trans (mul_le_mul_of_nonneg_left (max_one_sub_le hmeanle) hcard.le) hmean.le
  have hunit0 : 0 ≤ max 1 (averageLoad urls load) - max 1 (averageLoad urls load') :=
    sub_nonneg.mpr (max_le_max_left 1 hmeanle)
  have hdrop : 0 ≤ load u - load' u := sub_nonneg.mpr hle
  -- and the lead is at most the total load
  have hlead : load u - load v ≤ urls.card * max 1 (averageLoad urls load) := by
    linarith [load_le_card_mul hload hu, hload v hv]
  have hkey : (load u - load v) * (max 1 (averageLoad urls load) - max 1 (averageLoad urls load')) ≤
      (load u - load' u) * max 1 (averageLoad urls load) := by
    rcases le_total (load u - load v) 0 with hneg | hpos
    · exact le_trans (mul_nonpos_of_nonpos_of_nonneg hneg hunit0) (mul_nonneg hdrop (max_one_pos _).le)
    · refine le_of_mul_le_mul_left ?_ hcard
      calc urls.card * ((load u - load v) * (max 1 (averageLoad urls load) - max 1 (averageLoad urls load')))
          = (load u - load v) *
              (urls.card * (max 1 (averageLoad urls load) - max 1 (averageLoad urls load'))) := by ring
        _ ≤ (load u - load v) * (load u - load' u) := mul_le_mul_of_nonneg_left hunit hpos
        _ ≤ urls.card * max 1 (averageLoad urls load) * (load u - load' u) :=
          mul_le_mul_of_nonneg_right hlead hdrop
        _ = urls.card * ((load u - load' u) * max 1 (averageLoad urls load)) := by ring
  linarith

/-- A choice stays if its load falls. -/
theorem Chosen.of_less_load [LinearOrder U] (hbeta : 0 ≤ beta) (hload : ∀ v ∈ urls, 0 ≤ load v)
    (hother : ∀ v ≠ u, load' v = load v) (hle : load' u ≤ load u)
    (h : Chosen urls (netBenefit urls load benefit beta) u) :
    Chosen urls (netBenefit urls load' benefit beta) u := by
  refine h.of_gain fun v hv => ?_
  have hlead := mul_le_mul_of_nonneg_left (lead_le hload h.1 hother hle hv) hbeta
  have hsub := netBenefit_sub urls load benefit beta u v
  have hsub' := netBenefit_sub urls load' benefit beta u v
  linarith

/-- A choice stays if its benefit grows. -/
theorem Chosen.of_more_benefit [LinearOrder U] (hother : ∀ v ≠ u, benefit' v = benefit v)
    (hle : benefit u ≤ benefit' u) (h : Chosen urls (netBenefit urls load benefit beta) u) :
    Chosen urls (netBenefit urls load benefit' beta) u := by
  refine h.of_gain fun v hv => ?_
  rcases eq_or_ne v u with rfl | hne
  · rw [sub_self, sub_self]
  · rw [netBenefit, netBenefit, netBenefit, netBenefit, hother v hne]
    linarith

end Trade

/-! ### What `select_url` chooses -/

/-- The distinct URLs of the endpoints. -/
def urls (endpoints : List EndpointInfo) : Finset String := (endpoints.map (·.url)).toFinset

/-- The in-flight requests on a URL. -/
def inFlight (requestStats : Dict String RequestStats) (url : String) : ℚ := loadPenalty requestStats url

section Formula

variable {ι : Type} [DecidableEq ι] (beta : ℚ) (instanceIdToIp : Dict ι String) (endpoints : List EndpointInfo)
  (requestStats : Dict String RequestStats) (layoutInfo : LayoutInfo ι) (promptTokens : ℤ)

/-- The count of the id that the bridge credits to a URL, 0 if there is none. -/
def matched (url : String) : ℤ :=
  ((instanceIdToIp.invert.get? url).bind fun i => (layoutInfo.get? i).map Prod.snd).getD 0

/-- The share of the prompt that a URL holds. -/
def benefit (url : String) : ℚ :=
  ((min (matched instanceIdToIp layoutInfo url) promptTokens : ℤ) : ℚ) / ((max promptTokens 1 : ℤ) : ℚ)

/-- The score of a URL, as a formula. -/
def policyScore : String → ℚ :=
  netBenefit (urls endpoints) (inFlight requestStats) (benefit instanceIdToIp layoutInfo promptTokens) beta

end Formula

theorem mem_urls {endpoints : List EndpointInfo} {url : String} :
    url ∈ urls endpoints ↔ ∃ endpoint ∈ endpoints, endpoint.url = url := by
  rw [urls, List.mem_toFinset, List.mem_map]

/-- The loads, read back by URL. -/
theorem loads_get? (requestStats : Dict String RequestStats) (endpoints : List EndpointInfo) (url : String) :
    (loads requestStats endpoints).get? url =
      if url ∈ urls endpoints then some (loadPenalty requestStats url) else none := by
  have hpairs : (endpoints.map fun endpoint => (endpoint.url, loadPenalty requestStats endpoint.url)) =
      (endpoints.map (·.url)).map fun url => (url, loadPenalty requestStats url) := by
    rw [List.map_map]
    rfl
  rw [loads, hpairs, Dict.ofList, Dict.get?_update_map, urls]
  simp only [List.mem_toFinset, Dict.get?_empty]

theorem toFinset_keys_loads (requestStats : Dict String RequestStats) (endpoints : List EndpointInfo) :
    (loads requestStats endpoints).keys.toFinset = urls endpoints := by
  ext url
  rw [List.mem_toFinset, Dict.mem_keys, ← Dict.get?_isSome, loads_get?]
  split_ifs with hurl <;> simp [hurl]

/-- The fleet mean is taken over the distinct URLs. -/
theorem fleetMean_eq (requestStats : Dict String RequestStats) (endpoints : List EndpointInfo) :
    fleetMean requestStats endpoints = averageLoad (urls endpoints) (inFlight requestStats) := by
  have hnodup := (loads requestStats endpoints).nodup_keys
  have hvalues : (loads requestStats endpoints).values =
      (loads requestStats endpoints).keys.map (loadPenalty requestStats) := by
    refine Dict.values_eq_map fun p hp => ?_
    have hget := Dict.get?_eq_some_iff.mpr (show (p.1, p.2) ∈ (loads requestStats endpoints).items from hp)
    rw [loads_get?] at hget
    split_ifs at hget
    exact (Option.some.inj hget).symm
  rw [fleetMean, averageLoad, hvalues, ← toFinset_keys_loads requestStats endpoints,
    List.toFinset_card_of_nodup hnodup, List.sum_toFinset _ hnodup, Int.cast_list_sum, List.map_map]
  rfl

section SelectUrl

variable {ι : Type} [DecidableEq ι] {beta : ℚ} {instanceIdToIp : Dict ι String} {endpoints : List EndpointInfo}
  {requestStats : Dict String RequestStats} {layoutInfo : LayoutInfo ι} {promptTokens : ℤ}

/-- The score that `select_url` computes for an endpoint is the formula. -/
theorem fleetScore_eq {url : String} (hurl : url ∈ urls endpoints) :
    fleetScore beta instanceIdToIp endpoints requestStats layoutInfo promptTokens url =
      policyScore beta instanceIdToIp endpoints requestStats layoutInfo promptTokens url := by
  rw [fleetScore, score, matchedTokensByUrl_get?, Dict.get?_mapValues, loads_get?, if_pos hurl, fleetMean_eq]
  rfl

variable (beta instanceIdToIp requestStats layoutInfo promptTokens) in
theorem exists_chosen (hne : endpoints ≠ []) :
    ∃ u, selectUrl beta instanceIdToIp endpoints requestStats layoutInfo promptTokens = .ok (some u) ∧
      Chosen (urls endpoints) (policyScore beta instanceIdToIp endpoints requestStats layoutInfo promptTokens) u := by
  obtain ⟨best, hmem, hselect, hbest⟩ := selectUrl_spec beta instanceIdToIp hne requestStats layoutInfo promptTokens
  have hurl : best.url ∈ urls endpoints := mem_urls.mpr ⟨best, hmem, rfl⟩
  refine ⟨best.url, hselect, hurl, fun v hv => ?_⟩
  obtain ⟨endpoint, hendpoint, rfl⟩ := mem_urls.mp hv
  have hle := hbest endpoint hendpoint
  rwa [fleetScore_eq hv, fleetScore_eq hurl] at hle

theorem selectUrl_nil :
    selectUrl beta instanceIdToIp [] requestStats layoutInfo promptTokens = .ok none := selectUrl_eq _ _ _ _ _ _

/-- **`select_url` makes the choice.** -/
theorem selectUrl_iff_chosen {u : String} :
    selectUrl beta instanceIdToIp endpoints requestStats layoutInfo promptTokens = .ok (some u) ↔
      Chosen (urls endpoints) (policyScore beta instanceIdToIp endpoints requestStats layoutInfo promptTokens) u := by
  rcases eq_or_ne endpoints [] with rfl | hne
  · rw [selectUrl_nil]
    constructor
    · exact fun h => nomatch h
    · exact fun h => absurd h.1 (Finset.notMem_empty u)
  · obtain ⟨u', hselect, hchosen⟩ := exists_chosen beta instanceIdToIp requestStats layoutInfo promptTokens hne
    constructor
    · intro h
      rw [hselect] at h
      cases h
      exact hchosen
    · intro h
      rw [hselect, h.unique hchosen]

/-- Nothing but the URLs, the loads and the matches matters. -/
theorem selectUrl_congr {endpoints' : List EndpointInfo} {requestStats' : Dict String RequestStats}
    {layoutInfo' : LayoutInfo ι} (hurls : urls endpoints' = urls endpoints)
    (hload : ∀ url, loadPenalty requestStats' url = loadPenalty requestStats url)
    (hmatched : ∀ url, matched instanceIdToIp layoutInfo' url = matched instanceIdToIp layoutInfo url) :
    selectUrl beta instanceIdToIp endpoints' requestStats' layoutInfo' promptTokens =
      selectUrl beta instanceIdToIp endpoints requestStats layoutInfo promptTokens := by
  have hscore : policyScore beta instanceIdToIp endpoints' requestStats' layoutInfo' promptTokens =
      policyScore beta instanceIdToIp endpoints requestStats layoutInfo promptTokens := by
    have hinFlight : inFlight requestStats' = inFlight requestStats := by
      funext url
      rw [inFlight, hload, inFlight]
    have hbenefit : benefit instanceIdToIp layoutInfo' promptTokens = benefit instanceIdToIp layoutInfo promptTokens := by
      funext url
      rw [benefit, hmatched, benefit]
    rw [policyScore, hurls, hinFlight, hbenefit, policyScore]
  rcases eq_or_ne endpoints [] with rfl | hne
  · have hnil : endpoints' = [] := by simpa [urls] using hurls
    rw [hnil, selectUrl_nil, selectUrl_nil]
  · obtain ⟨u, hselect, hchosen⟩ := exists_chosen beta instanceIdToIp requestStats layoutInfo promptTokens hne
    rw [hselect, selectUrl_iff_chosen, hurls, hscore]
    exact hchosen

/-- **What `select_url` is**: it returns nothing for no endpoints only, and otherwise the
URL of the highest score, the least of several, for any order of the endpoints, of the
stats and of the Controller's answer. -/
theorem selectUrl_is_policy (beta : ℚ) (instanceIdToIp : Dict ι String) (endpoints : List EndpointInfo)
    (requestStats : Dict String RequestStats) (layoutInfo : LayoutInfo ι) (promptTokens : ℤ) :
    (selectUrl beta instanceIdToIp endpoints requestStats layoutInfo promptTokens = .ok none ↔ endpoints = []) ∧
    (endpoints ≠ [] → ∃ u ∈ urls endpoints,
      selectUrl beta instanceIdToIp endpoints requestStats layoutInfo promptTokens = .ok (some u) ∧
      ∀ v ∈ urls endpoints,
        policyScore beta instanceIdToIp endpoints requestStats layoutInfo promptTokens v ≤
          policyScore beta instanceIdToIp endpoints requestStats layoutInfo promptTokens u ∧
        (policyScore beta instanceIdToIp endpoints requestStats layoutInfo promptTokens v =
          policyScore beta instanceIdToIp endpoints requestStats layoutInfo promptTokens u → u ≤ v)) ∧
    ∀ endpoints' requestStats' layoutInfo', endpoints'.Perm endpoints →
      requestStats'.items.Perm requestStats.items → layoutInfo'.items.Perm layoutInfo.items →
      selectUrl beta instanceIdToIp endpoints' requestStats' layoutInfo' promptTokens =
        selectUrl beta instanceIdToIp endpoints requestStats layoutInfo promptTokens := by
  refine ⟨⟨fun hnone => ?_, ?_⟩, fun hne => ?_, ?_⟩
  · by_contra hne
    obtain ⟨u, hselect, -⟩ := exists_chosen beta instanceIdToIp requestStats layoutInfo promptTokens hne
    rw [hselect] at hnone
    exact nomatch hnone
  · rintro rfl
    exact selectUrl_nil
  · obtain ⟨u, hselect, hmem, hbest⟩ := exists_chosen beta instanceIdToIp requestStats layoutInfo promptTokens hne
    exact ⟨u, hmem, hselect, hbest⟩
  · intro endpoints' requestStats' layoutInfo' hendpoints hstats hlayout
    refine selectUrl_congr ?_ (fun url => ?_) fun url => ?_
    · exact List.toFinset_eq_of_perm _ _ (hendpoints.map _)
    · rw [loadPenalty_eq, loadPenalty_eq, Dict.get?_of_perm hstats]
    · rw [matched, matched]
      simp only [Dict.get?_of_perm hlayout]

/-! ### The exchange rate -/

theorem matched_nonneg (hcount : ∀ i info, layoutInfo.get? i = some info → 0 ≤ info.2) (url : String) :
    0 ≤ matched instanceIdToIp layoutInfo url := by
  rw [matched]
  cases instanceIdToIp.invert.get? url with
  | none => exact le_rfl
  | some i =>
    rw [Option.bind_some]
    cases hinfo : layoutInfo.get? i with
    | none => exact le_rfl
    | some info => exact hcount i info hinfo

section Prompt

variable (hprompt : 1 ≤ promptTokens) {url : String}

include hprompt

theorem benefit_eq :
    benefit instanceIdToIp layoutInfo promptTokens url =
      min (matched instanceIdToIp layoutInfo url : ℚ) promptTokens / promptTokens := by
  rw [benefit, max_eq_left hprompt, Int.cast_min]

theorem benefit_le_one : benefit instanceIdToIp layoutInfo promptTokens url ≤ 1 := by
  have hpos : (0 : ℚ) < promptTokens := by exact_mod_cast hprompt
  rw [benefit_eq hprompt, div_le_one hpos]
  exact min_le_right _ _

theorem benefit_nonneg (hmatched : 0 ≤ matched instanceIdToIp layoutInfo url) :
    0 ≤ benefit instanceIdToIp layoutInfo promptTokens url := by
  have hpos : (0 : ℚ) < promptTokens := by exact_mod_cast hprompt
  rw [benefit_eq hprompt]
  exact div_nonneg (le_min (by exact_mod_cast hmatched) hpos.le) hpos.le

/-- A full match. -/
theorem benefit_of_full (hfull : promptTokens ≤ matched instanceIdToIp layoutInfo url) :
    benefit instanceIdToIp layoutInfo promptTokens url = 1 := by
  have hpos : (0 : ℚ) < promptTokens := by exact_mod_cast hprompt
  rw [benefit_eq hprompt, min_eq_right (by exact_mod_cast hfull), div_self hpos.ne']

/-- Nothing matched is nothing gained. -/
theorem benefit_le_zero (hmatched : matched instanceIdToIp layoutInfo url ≤ 0) :
    benefit instanceIdToIp layoutInfo promptTokens url ≤ 0 := by
  have hpos : (0 : ℚ) < promptTokens := by exact_mod_cast hprompt
  rw [benefit_eq hprompt]
  exact div_nonpos_of_nonpos_of_nonneg (le_trans (min_le_left _ _) (by exact_mod_cast hmatched)) hpos.le

end Prompt

/-- The bridge of two engines. -/
def pairBridge : Dict String String :=
  Dict.ofList [("a", "http://10.0.0.1:8000"), ("b", "http://10.0.0.2:8000")]

/-- The two engines. -/
def pairEndpoints : List EndpointInfo := [⟨"http://10.0.0.1:8000", []⟩, ⟨"http://10.0.0.2:8000", []⟩]

/-- The first of them holds the prompt of 512 tokens. -/
def pairLayout : LayoutInfo String := Dict.ofList [("a", ("cpu", 512))]

theorem pairLayout_nonneg (i : String) (info : String × ℤ) (h : pairLayout.get? i = some info) : 0 ≤ info.2 := by
  have hitems : ∀ p ∈ pairLayout.items, 0 ≤ p.2.2 := by decide +kernel
  exact hitems _ (Dict.get?_eq_some_iff.mp h)

/-- No difference in load costs more than `beta * n` of the match. -/
theorem benefit_sub_le {u v : String} (hbeta : 0 < beta) (hload : ∀ v ∈ urls endpoints, 0 ≤ loadPenalty requestStats v)
    (hu : selectUrl beta instanceIdToIp endpoints requestStats layoutInfo promptTokens = .ok (some u))
    (hv : v ∈ urls endpoints) :
    benefit instanceIdToIp layoutInfo promptTokens v - beta * (urls endpoints).card ≤
      benefit instanceIdToIp layoutInfo promptTokens u := by
  rw [selectUrl_iff_chosen] at hu
  have hload' : ∀ v ∈ urls endpoints, 0 ≤ inFlight requestStats v := fun v hv =>
    Int.cast_nonneg (hload v hv)
  have hpos := max_one_pos (averageLoad (urls endpoints) (inFlight requestStats))
  have hcost := hu.cost_le hv
  have hlead : -((urls endpoints).card : ℚ) ≤ (inFlight requestStats u - inFlight requestStats v) /
      max 1 (averageLoad (urls endpoints) (inFlight requestStats)) := by
    rw [le_div_iff₀ hpos]
    linarith [load_le_card_mul hload' hv, hload' u hu.1]
  linarith [mul_le_mul_of_nonneg_left hlead hbeta.le]

/-- Of two engines, one with a full match and one without any, the relative load decides. -/
theorem selectUrl_pair {f z : String} (hprompt : 1 ≤ promptTokens) (hne : f ≠ z) (hurls : urls endpoints = {f, z})
    (hfull : promptTokens ≤ matched instanceIdToIp layoutInfo f) (hmatched : matched instanceIdToIp layoutInfo z = 0) :
    (2 * beta * relativeLoad (averageLoad (urls endpoints) (inFlight requestStats)) (loadPenalty requestStats f) < 1 →
      selectUrl beta instanceIdToIp endpoints requestStats layoutInfo promptTokens = .ok (some f)) ∧
    (1 < 2 * beta * relativeLoad (averageLoad (urls endpoints) (inFlight requestStats)) (loadPenalty requestStats f) →
      selectUrl beta instanceIdToIp endpoints requestStats layoutInfo promptTokens = .ok (some z)) := by
  have hpair := netBenefit_pair (inFlight requestStats) (benefit instanceIdToIp layoutInfo promptTokens) beta
    hne hurls
  have hzero : benefit instanceIdToIp layoutInfo promptTokens z = 0 :=
    le_antisymm (benefit_le_zero hprompt hmatched.le) (benefit_nonneg hprompt hmatched.ge)
  rw [benefit_of_full hprompt hfull, hzero] at hpair
  rw [relativeLoad, selectUrl_iff_chosen, selectUrl_iff_chosen, hurls]
  rw [inFlight, hurls] at hpair
  constructor
  · intro hlight
    refine .of_lt (Finset.mem_insert_self f {z}) fun v hv hvf => ?_
    obtain rfl : v = z := by simpa [hvf] using hv
    rw [policyScore, hurls]
    linarith
  · intro hheavy
    refine .of_lt (Finset.mem_insert_of_mem (Finset.mem_singleton_self z)) fun v hv hvz => ?_
    obtain rfl : v = f := by simpa [hvz] using hv
    rw [policyScore, hurls]
    linarith

/-- **The exchange rate.** A match never buys more than `max(1, mean) / beta` requests of
additional load, and no difference in load costs more than `beta * n` of the match. With
two engines a full match at relative load `r` wins below `r = 1 / (2 * beta)` and loses
above. -/
theorem exchange_rate_guarantee (hbeta : 0 < beta) (hprompt : 1 ≤ promptTokens)
    (hload : ∀ v ∈ urls endpoints, 0 ≤ loadPenalty requestStats v)
    (hcount : ∀ i info, layoutInfo.get? i = some info → 0 ≤ info.2) :
    (∀ u, selectUrl beta instanceIdToIp endpoints requestStats layoutInfo promptTokens = .ok (some u) →
      ∀ v ∈ urls endpoints,
        inFlight requestStats u - inFlight requestStats v ≤
          max 1 (averageLoad (urls endpoints) (inFlight requestStats)) / beta ∧
        benefit instanceIdToIp layoutInfo promptTokens v - beta * (urls endpoints).card ≤
          benefit instanceIdToIp layoutInfo promptTokens u ∧
        (beta * (urls endpoints).card < 1 → promptTokens ≤ matched instanceIdToIp layoutInfo v →
          0 < matched instanceIdToIp layoutInfo u)) ∧
    ∀ f z, f ≠ z → urls endpoints = {f, z} → promptTokens ≤ matched instanceIdToIp layoutInfo f →
      matched instanceIdToIp layoutInfo z = 0 →
      ∀ r, r = relativeLoad (averageLoad (urls endpoints) (inFlight requestStats)) (loadPenalty requestStats f) →
        (2 * beta * r < 1 →
          selectUrl beta instanceIdToIp endpoints requestStats layoutInfo promptTokens = .ok (some f)) ∧
        (1 < 2 * beta * r →
          selectUrl beta instanceIdToIp endpoints requestStats layoutInfo promptTokens = .ok (some z)) := by
  constructor
  · intro u hu v hv
    have hkeep := benefit_sub_le hbeta hload hu hv
    rw [selectUrl_iff_chosen] at hu
    have hpos := max_one_pos (averageLoad (urls endpoints) (inFlight requestStats))
    have hcost := hu.cost_le hv
    have hv0 : 0 ≤ benefit instanceIdToIp layoutInfo promptTokens v :=
      benefit_nonneg hprompt (matched_nonneg hcount v)
    have hu1 : benefit instanceIdToIp layoutInfo promptTokens u ≤ 1 := benefit_le_one hprompt
    refine ⟨?_, hkeep, ?_⟩
    · rw [← mul_div_assoc, div_le_iff₀ hpos] at hcost
      rw [le_div_iff₀ hbeta]
      nlinarith
    · intro hfew hfull
      by_contra hnone
      have hu0 : benefit instanceIdToIp layoutInfo promptTokens u ≤ 0 := benefit_le_zero hprompt (not_lt.mp hnone)
      rw [benefit_of_full hprompt hfull] at hkeep
      linarith
  · rintro f z hne hurls hfull hmatched r rfl
    exact selectUrl_pair hprompt hne hurls hfull hmatched

/-- The first engine has two requests more in flight than the second, a third above the
mean, and keeps the request at an exchange rate of a quarter. -/
theorem exchange_rate_guarantee_pair :
    selectUrl (1 / 4) pairBridge pairEndpoints busyStats pairLayout 512 = .ok (some "http://10.0.0.1:8000") :=
  ((exchange_rate_guarantee (by norm_num) (by decide) (by decide +kernel) pairLayout_nonneg).2
    "http://10.0.0.1:8000" "http://10.0.0.2:8000" (by decide) (by decide +kernel) (by decide +kernel)
    (by decide +kernel) _ rfl).1 (by decide +kernel)

/-! ### An endpoint's own signals -/

/-- The URL of a choice stays chosen if its load falls. -/
theorem selectUrl_of_less_load {requestStats' : Dict String RequestStats} {u : String} (hbeta : 0 ≤ beta)
    (hload : ∀ w ∈ urls endpoints, 0 ≤ loadPenalty requestStats w)
    (hother : ∀ w ≠ u, loadPenalty requestStats' w = loadPenalty requestStats w)
    (hle : loadPenalty requestStats' u ≤ loadPenalty requestStats u)
    (h : selectUrl beta instanceIdToIp endpoints requestStats layoutInfo promptTokens = .ok (some u)) :
    selectUrl beta instanceIdToIp endpoints requestStats' layoutInfo promptTokens = .ok (some u) := by
  rw [selectUrl_iff_chosen] at h ⊢
  refine Chosen.of_less_load hbeta (fun w hw => ?_) (fun w hw => ?_) ?_ h
  · exact Int.cast_nonneg (hload w hw)
  · rw [inFlight, hother w hw, inFlight]
  · exact Int.cast_le.mpr hle

/-- The URL of a choice stays chosen if its match grows. -/
theorem selectUrl_of_more_matched {layoutInfo' : LayoutInfo ι} {u : String}
    (hother : ∀ w ≠ u, matched instanceIdToIp layoutInfo' w = matched instanceIdToIp layoutInfo w)
    (hle : matched instanceIdToIp layoutInfo u ≤ matched instanceIdToIp layoutInfo' u)
    (h : selectUrl beta instanceIdToIp endpoints requestStats layoutInfo promptTokens = .ok (some u)) :
    selectUrl beta instanceIdToIp endpoints requestStats layoutInfo' promptTokens = .ok (some u) := by
  rw [selectUrl_iff_chosen] at h ⊢
  refine Chosen.of_more_benefit (fun w hw => ?_) ?_ h
  · rw [benefit, hother w hw, benefit]
  · have hmax : (0 : ℚ) ≤ (max promptTokens 1 : ℤ) := Int.cast_nonneg (le_trans zero_le_one (le_max_right _ _))
    exact div_le_div_of_nonneg_right (Int.cast_le.mpr (min_le_min_right promptTokens hle)) hmax

/-- **An endpoint's own signals work in one direction.** Adding to the load of an endpoint
that is not selected, or taking from its match, does not select it; taking from the load
of the selected one, or adding to its match, keeps it selected. -/
theorem own_signal_monotone (hbeta : 0 ≤ beta) (hload : ∀ w ∈ urls endpoints, 0 ≤ loadPenalty requestStats w)
    (v : String) :
    (selectUrl beta instanceIdToIp endpoints requestStats layoutInfo promptTokens ≠ .ok (some v) →
      (∀ requestStats', (∀ w ≠ v, loadPenalty requestStats' w = loadPenalty requestStats w) →
        loadPenalty requestStats v ≤ loadPenalty requestStats' v →
        selectUrl beta instanceIdToIp endpoints requestStats' layoutInfo promptTokens ≠ .ok (some v)) ∧
      ∀ layoutInfo', (∀ w ≠ v, matched instanceIdToIp layoutInfo' w = matched instanceIdToIp layoutInfo w) →
        matched instanceIdToIp layoutInfo' v ≤ matched instanceIdToIp layoutInfo v →
        selectUrl beta instanceIdToIp endpoints requestStats layoutInfo' promptTokens ≠ .ok (some v)) ∧
    (selectUrl beta instanceIdToIp endpoints requestStats layoutInfo promptTokens = .ok (some v) →
      (∀ requestStats', (∀ w ≠ v, loadPenalty requestStats' w = loadPenalty requestStats w) →
        loadPenalty requestStats' v ≤ loadPenalty requestStats v →
        selectUrl beta instanceIdToIp endpoints requestStats' layoutInfo promptTokens = .ok (some v)) ∧
      ∀ layoutInfo', (∀ w ≠ v, matched instanceIdToIp layoutInfo' w = matched instanceIdToIp layoutInfo w) →
        matched instanceIdToIp layoutInfo v ≤ matched instanceIdToIp layoutInfo' v →
        selectUrl beta instanceIdToIp endpoints requestStats layoutInfo' promptTokens = .ok (some v)) := by
  refine ⟨fun hnot => ⟨fun requestStats' hother hle hselected => hnot ?_, fun layoutInfo' hother hle hselected => hnot ?_⟩,
    fun hselected => ⟨fun requestStats' hother hle => ?_, fun layoutInfo' hother hle => ?_⟩⟩
  · -- the loads before the addition are the smaller ones
    refine selectUrl_of_less_load hbeta (fun w hw => ?_) (fun w hw => (hother w hw).symm) hle hselected
    rcases eq_or_ne w v with rfl | hne
    · exact le_trans (hload w hw) hle
    · exact (hother w hne).symm ▸ hload w hw
  · exact selectUrl_of_more_matched (fun w hw => (hother w hw).symm) hle hselected
  · exact selectUrl_of_less_load hbeta hload hother hle hselected
  · exact selectUrl_of_more_matched hother hle hselected

/-- A third request on the second engine leaves the prompt where it is. -/
theorem own_signal_monotone_pair :
    selectUrl (1 / 4) pairBridge pairEndpoints (busyStats.set "http://10.0.0.2:8000" ⟨1, 0, 3⟩) pairLayout 512 ≠
      .ok (some "http://10.0.0.2:8000") := by
  have hother : ∀ w ≠ "http://10.0.0.2:8000",
      loadPenalty (busyStats.set "http://10.0.0.2:8000" ⟨1, 0, 3⟩) w = loadPenalty busyStats w := fun w hw => by
    rw [loadPenalty_eq, loadPenalty_eq, Dict.get?_set_of_ne _ _ hw]
  have hnot : selectUrl (1 / 4) pairBridge pairEndpoints busyStats pairLayout 512 ≠
      .ok (some "http://10.0.0.2:8000") := by decide +kernel
  have hload : ∀ w ∈ urls pairEndpoints, 0 ≤ loadPenalty busyStats w := by decide +kernel
  exact ((own_signal_monotone (by norm_num) hload _).1 hnot).1 _ hother (by decide +kernel)

end SelectUrl

end CachingInLLMs.Router

import CachingInLLMs.Router.Bridge

/-!
# What refreshes guarantee

Two things are said of `refresh_instance_map`. Its docstring: a refresh is "a
once-per-fleet-change cost, not a per-request one". And that of
`matched_tokens_by_url`: "the last id written for a URL is the live one".

Neither holds without a condition.

* A holder that no endpoint reports and the bridge does not know, such as a dead
  engine that a restarted router never met, stays unknown after the refresh. The
  gate then opens again for every request. `gate_closes_iff`: the gate closes
  exactly when every holder is already known or reported by a listed endpoint.
* A `dict` keeps a key where it was first written. An id that is learned again
  keeps its old place, and an id first learned between the two writes is iterated
  after it. `credits_replies_iff`: credit rides on the ids of the last refresh
  exactly when none of them stands before a superseded id of its URL.
-/

namespace CachingInLLMs.Router

open CachingInLLMs.Library CachingInLLMs.Controller

variable {ι : Type} [DecidableEq ι]

/-! ### The gate -/

/-- The state after `n` refreshes for the same endpoints and the same `layout_info`. -/
def afterRefreshes (reply : String → ι) (endpoints : List EndpointInfo) (layoutInfo : LayoutInfo ι) :
    ℕ → BridgeState ι → BridgeState ι
  | 0, s => s
  | n + 1, s => afterRefreshes reply endpoints layoutInfo n
      ((refreshInstanceMap (fun _ => reply) endpoints layoutInfo).exec s).2

theorem afterRefreshes_of_not_stale {reply : String → ι} {endpoints : List EndpointInfo}
    {layoutInfo : LayoutInfo ι} {s : BridgeState ι}
    (h : instanceMapIsStale s.instanceIdToIp endpoints layoutInfo = false) (n : ℕ) :
    afterRefreshes reply endpoints layoutInfo n s = s := by
  induction n with
  | zero => rfl
  | succ n ih => rw [afterRefreshes, refreshInstanceMap_of_not_stale _ h, ih]

/-- With distinct replies, a refresh maps every endpoint's URL. -/
theorem mapped_of_refreshed {reply : String → ι} {endpoints : List EndpointInfo}
    (hreply : (endpoints.map fun e => reply (ipOf e.url)).Nodup) (s : BridgeState ι)
    {endpoint : EndpointInfo} (he : endpoint ∈ endpoints) :
    (s.refreshed (fun _ => reply) endpoints).instanceIdToIp.get? (reply (ipOf endpoint.url)) =
      some endpoint.url := by
  have hnodup : ((endpoints.map fun e => (reply (ipOf e.url), e.url)).map Prod.fst).Nodup := by
    rw [List.map_map]
    exact hreply
  rw [BridgeState.refreshed, learned_const, Dict.get?_update_of_nodup hnodup,
    (Dict.lookup_eq_some_iff hnodup).mpr (List.mem_map.mpr ⟨endpoint, he, rfl⟩), Option.some_or]

/-- After a refresh, the bridge is stale only on a holder it still does not know. -/
theorem stale_of_refreshed {reply : String → ι} {endpoints : List EndpointInfo} {layoutInfo : LayoutInfo ι}
    (hreply : (endpoints.map fun e => reply (ipOf e.url)).Nodup) (s : BridgeState ι) :
    instanceMapIsStale (s.refreshed (fun _ => reply) endpoints).instanceIdToIp endpoints layoutInfo = true ↔
      ∃ i ∈ layoutInfo, i ∉ s.instanceIdToIp ∧ ∀ endpoint ∈ endpoints, reply (ipOf endpoint.url) ≠ i := by
  rw [instanceMapIsStale_iff]
  constructor
  · rintro (⟨endpoint, he, hunmapped⟩ | ⟨i, hi, hunknown⟩)
    · exact absurd (mapped_of_refreshed hreply s he) (hunmapped _)
    · rw [BridgeState.refreshed, learned_const, Dict.mem_update, not_or] at hunknown
      refine ⟨i, hi, hunknown.2, fun endpoint he hr => hunknown.1 ?_⟩
      rw [List.map_map]
      exact List.mem_map.mpr ⟨endpoint, he, hr⟩
  · rintro ⟨i, hi, hunknown, hunreported⟩
    refine Or.inr ⟨i, hi, ?_⟩
    rw [BridgeState.refreshed, learned_const, Dict.mem_update, not_or, List.map_map]
    refine ⟨fun hmem => ?_, hunknown⟩
    obtain ⟨endpoint, he, hr⟩ := List.mem_map.mp hmem
    exact hunreported endpoint he hr

/-- **When the gate closes.** After a refresh that returned, the bridge is not stale
and further requests send no query, exactly when every holder was known before or
is reported by a listed endpoint. -/
theorem gate_closes_iff (reply : String → ι) (endpoints : List EndpointInfo) (layoutInfo : LayoutInfo ι)
    (hips : (endpoints.map (ipOf ·.url)).Nodup)
    (hreply : ∀ a ∈ endpoints, ∀ b ∈ endpoints, reply (ipOf a.url) = reply (ipOf b.url) → ipOf a.url = ipOf b.url)
    (s s' : BridgeState ι)
    (h : (refreshInstanceMap (fun _ => reply) endpoints layoutInfo).exec s = (.ok ⟨⟩, s')) :
    (instanceMapIsStale s'.instanceIdToIp endpoints layoutInfo = false ∧
      ∀ n, (afterRefreshes reply endpoints layoutInfo n s').queryInstMsgs = s'.queryInstMsgs) ↔
    ∀ i ∈ layoutInfo, i ∈ s.instanceIdToIp ∨ ∃ endpoint ∈ endpoints, reply (ipOf endpoint.url) = i := by
  have hgate : (instanceMapIsStale s'.instanceIdToIp endpoints layoutInfo = false ∧
      ∀ n, (afterRefreshes reply endpoints layoutInfo n s').queryInstMsgs = s'.queryInstMsgs) ↔
      instanceMapIsStale s'.instanceIdToIp endpoints layoutInfo = false :=
    and_iff_left_of_imp fun hs n => by rw [afterRefreshes_of_not_stale hs]
  rw [hgate]
  cases hstale : instanceMapIsStale s.instanceIdToIp endpoints layoutInfo with
  | false =>
    -- nothing was asked, and every holder was known
    rw [refreshInstanceMap_of_not_stale _ hstale, Prod.mk.injEq] at h
    obtain rfl := h.2
    refine iff_of_true hstale fun i hi => Or.inl ?_
    by_contra hunknown
    exact Bool.false_ne_true (hstale.symm.trans (instanceMapIsStale_iff.mpr (Or.inr ⟨i, hi, hunknown⟩)))
  | true =>
    rw [refreshInstanceMap_of_ok _ hstale (congrArg Prod.fst h), Prod.mk.injEq] at h
    obtain rfl := h.2
    have hnodup : (endpoints.map fun e => reply (ipOf e.url)).Nodup := by
      have := List.Nodup.map_on (f := reply) (fun x hx y hy hxy => by
        obtain ⟨a, ha, rfl⟩ := List.mem_map.mp hx
        obtain ⟨b, hb, rfl⟩ := List.mem_map.mp hy
        exact hreply a ha b hb hxy) hips
      rwa [List.map_map] at this
    rw [← Bool.not_eq_true, stale_of_refreshed hnodup]
    constructor
    · intro hall i hi
      by_contra hcon
      rw [not_or] at hcon
      exact hall ⟨i, hi, hcon.1, fun e he hr => hcon.2 ⟨e, he, hr⟩⟩
    · rintro hall ⟨i, hi, hunknown, hunreported⟩
      rcases hall i hi with hknown | ⟨e, he, hr⟩
      · exact hunknown hknown
      · exact hunreported e he hr

/-- Two engines, as service discovery reports them. -/
def twoEndpoints : List EndpointInfo := [⟨"http://10.0.0.1:8000", []⟩, ⟨"http://10.0.0.2:8000", []⟩]

theorem queryIp_twoEndpoints : ∀ endpoint ∈ twoEndpoints, ∃ ip, queryIp endpoint.url = .ok ip := by
  intro endpoint he
  exact ⟨_, (by decide : ∀ e ∈ twoEndpoints, queryIp e.url = .ok (ipOf e.url)) endpoint he⟩

/-- The registry still names an id that no endpoint reports: the gate stays open. -/
theorem gate_stays_open :
    ¬ ∀ (reply : String → String) (endpoints : List EndpointInfo) (layoutInfo : LayoutInfo String),
      (endpoints.map (ipOf ·.url)).Nodup →
      (∀ a ∈ endpoints, ∀ b ∈ endpoints,
        reply (ipOf a.url) = reply (ipOf b.url) → ipOf a.url = ipOf b.url) →
      ∀ s s' : BridgeState String,
        (refreshInstanceMap (fun _ => reply) endpoints layoutInfo).exec s = (.ok ⟨⟩, s') →
        instanceMapIsStale s'.instanceIdToIp endpoints layoutInfo = false ∧
          ∀ n, (afterRefreshes reply endpoints layoutInfo n s').queryInstMsgs = s'.queryInstMsgs := by
  intro h
  have hstale := (h id twoEndpoints (Dict.ofList [("10.0.0.1", ("cpu", 256)), ("dead", ("cpu", 512))])
    (by decide) (fun _ _ _ _ h => h) .start _
    (refreshInstanceMap_exec _ (by decide) queryIp_twoEndpoints)).1
  exact absurd hstale (by decide)

theorem gate_closes_iff_twoEndpoints :
    let s' := BridgeState.start.refreshed (fun _ => id) twoEndpoints
    let layoutInfo := Dict.ofList [("10.0.0.1", ("cpu", 256))]
    (instanceMapIsStale s'.instanceIdToIp twoEndpoints layoutInfo = false ∧
      ∀ n, (afterRefreshes id twoEndpoints layoutInfo n s').queryInstMsgs = s'.queryInstMsgs) ↔
    ∀ i ∈ layoutInfo, i ∈ (∅ : Dict String String) ∨ ∃ endpoint ∈ twoEndpoints, id (ipOf endpoint.url) = i :=
  gate_closes_iff id twoEndpoints _ (by decide) (fun _ _ _ _ h => h) .start _
    (refreshInstanceMap_exec _ (by decide) queryIp_twoEndpoints)

/-! ### Learning an id again -/

/-- The arguments of a call of `refresh_instance_map`. -/
structure RefreshCall (ι : Type) where
  /-- `endpoints`. -/
  endpoints : List EndpointInfo
  /-- `layout_info`. -/
  layoutInfo : LayoutInfo ι

section Calls

variable (answer : ℕ → String → ι)

/-- The state after a call. -/
def RefreshCall.after (s : BridgeState ι) (c : RefreshCall ι) : BridgeState ι :=
  ((refreshInstanceMap answer c.endpoints c.layoutInfo).exec s).2

/-- The state after a sequence of calls, from an empty bridge. -/
def afterCalls (calls : List (RefreshCall ι)) : BridgeState ι := calls.foldl (RefreshCall.after answer) .start

/-- The call asked the Controller about its endpoints, and returned. -/
def Queried (s : BridgeState ι) (c : RefreshCall ι) : Prop :=
  instanceMapIsStale s.instanceIdToIp c.endpoints c.layoutInfo = true ∧
    ((refreshInstanceMap answer c.endpoints c.layoutInfo).exec s).1 = .ok ⟨⟩

/-- The ids the Controller returns in a call, each with the URL it is returned for. -/
def replies (s : BridgeState ι) (c : RefreshCall ι) : List (ι × String) :=
  learned answer s.queryInstMsgs.length c.endpoints

/-- After the call, the inversion maps each endpoint's URL to the id returned for it. -/
def CreditsReplies (s : BridgeState ι) (c : RefreshCall ι) : Prop :=
  ∀ p ∈ replies answer s c, (c.after answer s).instanceIdToIp.invert.get? p.2 = some p.1

/-- Before the call, no id returned in it stands before an id of the same URL that is not. -/
def RelearnsInOrder (s : BridgeState ι) (c : RefreshCall ι) : Prop :=
  ∀ p ∈ replies answer s c, ∀ k, s.instanceIdToIp.get? k = some p.2 → k ∉ (replies answer s c).map Prod.fst →
    ¬ s.instanceIdToIp.Before p.1 k

variable {answer}

theorem RefreshCall.after_of_stale {s : BridgeState ι} {c : RefreshCall ι}
    (h : instanceMapIsStale s.instanceIdToIp c.endpoints c.layoutInfo = true)
    (hips : ∀ endpoint ∈ c.endpoints, ∃ ip, queryIp endpoint.url = .ok ip) :
    c.after answer s = s.refreshed answer c.endpoints := by
  rw [RefreshCall.after, refreshInstanceMap_exec answer h hips]

theorem Queried.after_eq {s : BridgeState ι} {c : RefreshCall ι} (h : Queried answer s c) :
    (c.after answer s).instanceIdToIp = s.instanceIdToIp.update (replies answer s c) := by
  obtain ⟨hstale, hok⟩ := h
  rw [RefreshCall.after, refreshInstanceMap_of_ok _ hstale hok]
  rfl

/-- One call: what is credited afterwards depends on the order before. -/
theorem Queried.credits_iff {s : BridgeState ι} {c : RefreshCall ι} (h : Queried answer s c)
    (hurls : (c.endpoints.map (·.url)).Nodup) (hids : ((replies answer s c).map Prod.fst).Nodup) :
    CreditsReplies answer s c ↔ RelearnsInOrder answer s c := by
  have hurls' : ((replies answer s c).map Prod.snd).Nodup := by rwa [replies, map_snd_learned]
  unfold CreditsReplies RelearnsInOrder
  refine forall₂_congr fun p hp => ?_
  rw [h.after_eq, Dict.get?_invert_eq_some, Dict.get?_update_of_nodup hids,
    (Dict.lookup_eq_some_iff hids).mpr hp, Option.some_or, and_iff_right rfl]
  refine forall_congr' fun k => ?_
  rw [Dict.get?_update_of_nodup hids]
  by_cases hk : k ∈ (replies answer s c).map Prod.fst
  · -- an id of this call has the URL only if it is the id returned for it
    refine iff_of_true (fun hget hb => ?_) (fun _ hout => absurd hk hout)
    obtain ⟨q, hq, rfl⟩ := List.mem_map.mp hk
    rw [(Dict.lookup_eq_some_iff hids).mpr hq, Option.some_or, Option.some.injEq] at hget
    obtain rfl := List.inj_on_of_nodup_map hurls' hq hp hget
    exact Dict.not_before_self hb
  · rw [Dict.lookup_eq_none hk, Option.none_or]
    refine forall_congr' fun hget => ?_
    rw [Dict.before_update (Dict.mem_of_get? hget)]
    exact ⟨fun hb _ => hb, fun hb => hb hk⟩

end Calls

/-- **When credit rides on the id learned last.** In any sequence of calls, every call
that asked the Controller leaves each endpoint's URL with the id returned for it,
exactly when every such call relearns in order. -/
theorem credits_replies_iff (answer : ℕ → String → ι) (calls : List (RefreshCall ι))
    (hurls : ∀ c ∈ calls, (c.endpoints.map (·.url)).Nodup)
    (hids : ∀ pre c post, calls = pre ++ c :: post → Queried answer (afterCalls answer pre) c →
      ((replies answer (afterCalls answer pre) c).map Prod.fst).Nodup) :
    (∀ pre c post, calls = pre ++ c :: post → Queried answer (afterCalls answer pre) c →
      CreditsReplies answer (afterCalls answer pre) c) ↔
    ∀ pre c post, calls = pre ++ c :: post → Queried answer (afterCalls answer pre) c →
      RelearnsInOrder answer (afterCalls answer pre) c := by
  refine forall₃_congr fun pre c post => forall₂_congr fun hcalls hq => ?_
  exact hq.credits_iff (hurls c (by rw [hcalls]; simp)) (hids pre c post hcalls hq)

/-- One engine. -/
def oneEndpoint : List EndpointInfo := [⟨"http://10.0.0.1:8000", []⟩]

theorem queryIp_oneEndpoint : ∀ endpoint ∈ oneEndpoint, ∃ ip, queryIp endpoint.url = .ok ip := by
  intro endpoint he
  obtain rfl := List.mem_singleton.mp he
  exact ⟨"10.0.0.1", by decide⟩

/-- A call about the engine, with a `layout_info` that names one id. -/
def callNaming (i : String) : RefreshCall String := ⟨oneEndpoint, Dict.ofList [(i, ("cpu", 256))]⟩

/-- Three calls, each naming an id not known yet. -/
def threeCalls : List (RefreshCall String) := [callNaming "a", callNaming "b", callNaming "c"]

/-- The engine is reported as `a`, then as `b`, then as `a` again. -/
def backToFirst (n : ℕ) (_ip : String) : String := if n = 1 then "b" else "a"

theorem endpoints_threeCalls : ∀ c ∈ threeCalls, c.endpoints = oneEndpoint := by
  simp [threeCalls, callNaming]

theorem nodup_urls_threeCalls : ∀ c ∈ threeCalls, (c.endpoints.map (·.url)).Nodup := by
  intro c hc
  rw [endpoints_threeCalls c hc]
  exact List.nodup_singleton _

theorem nodup_replies_threeCalls (answer : ℕ → String → String) (pre : List (RefreshCall String))
    (c : RefreshCall String) (post : List (RefreshCall String)) (h : threeCalls = pre ++ c :: post) :
    ((replies answer (afterCalls answer pre) c).map Prod.fst).Nodup := by
  rw [replies, endpoints_threeCalls c (by rw [h]; simp)]
  exact List.nodup_singleton _

theorem after_callNaming {s : BridgeState String} {i : String}
    (h : instanceMapIsStale s.instanceIdToIp oneEndpoint (callNaming i).layoutInfo = true) :
    (callNaming i).after backToFirst s = s.refreshed backToFirst oneEndpoint :=
  RefreshCall.after_of_stale (c := callNaming i) h queryIp_oneEndpoint

/-- After two of the calls the bridge has `a`, then `b`. -/
theorem afterCalls_two : afterCalls backToFirst [callNaming "a", callNaming "b"] =
    (BridgeState.start.refreshed backToFirst oneEndpoint).refreshed backToFirst oneEndpoint := by
  have h₁ : (callNaming "a").after backToFirst .start = BridgeState.start.refreshed backToFirst oneEndpoint :=
    after_callNaming (by decide)
  rw [afterCalls, List.foldl_cons, h₁, List.foldl_cons, List.foldl_nil]
  exact after_callNaming (by decide)

/-- The third call learns `a` again, and the URL keeps going with `b`. -/
theorem superseded_id_wins :
    ¬ ∀ (answer : ℕ → String → String) (calls : List (RefreshCall String)),
      (∀ c ∈ calls, (c.endpoints.map (·.url)).Nodup) →
      (∀ pre c post, calls = pre ++ c :: post → Queried answer (afterCalls answer pre) c →
        ((replies answer (afterCalls answer pre) c).map Prod.fst).Nodup) →
      ∀ pre c post, calls = pre ++ c :: post → Queried answer (afterCalls answer pre) c →
        CreditsReplies answer (afterCalls answer pre) c := by
  intro h
  have hthird := h backToFirst threeCalls nodup_urls_threeCalls
    (fun pre c post hcalls _ => nodup_replies_threeCalls backToFirst pre c post hcalls)
    [callNaming "a", callNaming "b"] (callNaming "c") [] rfl
  rw [afterCalls_two] at hthird
  have hstale : instanceMapIsStale
      ((BridgeState.start.refreshed backToFirst oneEndpoint).refreshed backToFirst oneEndpoint).instanceIdToIp
      oneEndpoint (callNaming "c").layoutInfo = true := by decide
  have hok := refreshInstanceMap_exec backToFirst hstale queryIp_oneEndpoint
  have hcredit := hthird ⟨hstale, congrArg Prod.fst hok⟩ ("a", "http://10.0.0.1:8000") (by decide)
  rw [after_callNaming hstale] at hcredit
  exact absurd hcredit (by decide)

theorem credits_replies_iff_threeCalls :
    (∀ pre c post, threeCalls = pre ++ c :: post → Queried backToFirst (afterCalls backToFirst pre) c →
      CreditsReplies backToFirst (afterCalls backToFirst pre) c) ↔
    ∀ pre c post, threeCalls = pre ++ c :: post → Queried backToFirst (afterCalls backToFirst pre) c →
      RelearnsInOrder backToFirst (afterCalls backToFirst pre) c :=
  credits_replies_iff backToFirst threeCalls nodup_urls_threeCalls
    fun pre c post hcalls _ => nodup_replies_threeCalls backToFirst pre c post hcalls

end CachingInLLMs.Router

import CachingInLLMs.Controller.KVController
import CachingInLLMs.Router.Endpoint

/-!
# The bridge from instance ids to URLs

The Controller speaks of instances, the router of URLs. `LoadAwareRouter` keeps a
dictionary `instance_id_to_ip` between the two. It is filled on demand:
`refresh_instance_map` asks the Controller about every endpoint, one `QueryInst`
after another, unless `instance_map_is_stale` finds that the dictionary covers the
endpoints and the holders already. `matched_tokens_by_url` reads it backwards: the
last id written for a URL carries the URL's credit.

## The model

What the Controller answers is outside the router: `answer n ip` is its answer to
query number `n`, about the engine at `ip`. The router's state is the dictionary
and the queries sent, so a refresh that is skipped is one that sends none.
`refreshLoop_exec` is the whole effect of a refresh: the pairs `learned` are
assigned in order.
-/

namespace CachingInLLMs.Router

open CachingInLLMs.Library CachingInLLMs.Controller

variable {ι : Type}

/-- The part of the router's state that a refresh reads and changes. -/
structure BridgeState (ι : Type) where
  /-- `instance_id_to_ip`. -/
  instanceIdToIp : Dict ι String
  /-- The ips the Controller has been asked about, in order. -/
  queryInstMsgs : List String

/-- A router that has handled no request. -/
def BridgeState.start : BridgeState ι := ⟨∅, []⟩

/-- The ip of a URL that has one. -/
def ipOf (url : String) : String :=
  match queryIp url with
  | .ok ip => ip
  | .error _ => ""

theorem queryIp_eq_ipOf {url : String} (h : ∃ ip, queryIp url = .ok ip) : queryIp url = .ok (ipOf url) := by
  obtain ⟨ip, h⟩ := h
  rw [ipOf, h]

/-! ### The refresh -/

section Refresh

variable (answer : ℕ → String → ι)

/-- `query_manager` of a `QueryInstMsg`, and the instance id it returns. -/
def queryManager (ip : String) : Py (BridgeState ι) ι := do
  let s ← get
  set { s with queryInstMsgs := s.queryInstMsgs ++ [ip] }
  return answer s.queryInstMsgs.length ip

variable [DecidableEq ι]

/-- `self.instance_id_to_ip[instance_id] = url`. -/
def learn (instanceId : ι) (url : String) : Py (BridgeState ι) PUnit := do
  let s ← get
  set { s with instanceIdToIp := s.instanceIdToIp.set instanceId url }

/-- The loop of `refresh_instance_map` over the endpoints. -/
def refreshLoop : List EndpointInfo → Py (BridgeState ι) PUnit
  | [] => return ⟨⟩
  | endpoint :: endpoints => do
    let ip ← Py.ofExcept (queryIp endpoint.url)
    let instanceId ← queryManager answer ip
    learn instanceId endpoint.url
    refreshLoop endpoints

/-- `instance_map_is_stale`: some endpoint's URL is not mapped, or some holder is not known. -/
def instanceMapIsStale (instanceIdToIp : Dict ι String) (endpoints : List EndpointInfo)
    (layoutInfo : LayoutInfo ι) : Bool :=
  if endpoints.any fun endpoint => endpoint.url ∉ instanceIdToIp.values then true
  else layoutInfo.keys.any fun instanceId => instanceId ∉ instanceIdToIp

/-- `refresh_instance_map`. -/
def refreshInstanceMap (endpoints : List EndpointInfo) (layoutInfo : LayoutInfo ι) :
    Py (BridgeState ι) PUnit := do
  let s ← get
  if ¬ instanceMapIsStale s.instanceIdToIp endpoints layoutInfo then return ⟨⟩
  else refreshLoop answer endpoints

/-- `matched_tokens_by_url`: the answer of the Controller, by URL. -/
def matchedTokensByUrl (instanceIdToIp : Dict ι String) (layoutInfo : LayoutInfo ι) : Dict String ℤ :=
  instanceIdToIp.invert.collect fun _ instanceId => (layoutInfo.get? instanceId).map Prod.snd

/-! ### What a refresh does -/

/-- The pairs a refresh learns, if its first query has number `n`. -/
def learned : ℕ → List EndpointInfo → List (ι × String)
  | _, [] => []
  | n, endpoint :: endpoints => (answer n (ipOf endpoint.url), endpoint.url) :: learned (n + 1) endpoints

omit [DecidableEq ι] in
@[simp] theorem map_snd_learned (n : ℕ) (endpoints : List EndpointInfo) :
    (learned answer n endpoints).map Prod.snd = endpoints.map (·.url) := by
  induction endpoints generalizing n with
  | nil => rfl
  | cons endpoint endpoints ih => rw [learned, List.map_cons, ih, List.map_cons]

omit [DecidableEq ι] in
/-- A Controller that answers by the ip alone. -/
theorem learned_const (reply : String → ι) (n : ℕ) (endpoints : List EndpointInfo) :
    learned (fun _ => reply) n endpoints = endpoints.map fun endpoint => (reply (ipOf endpoint.url), endpoint.url) := by
  induction endpoints generalizing n with
  | nil => rfl
  | cons endpoint endpoints ih => rw [learned, ih, List.map_cons]

/-- The state after a refresh that was not skipped. -/
def BridgeState.refreshed (s : BridgeState ι) (endpoints : List EndpointInfo) : BridgeState ι where
  instanceIdToIp := s.instanceIdToIp.update (learned answer s.queryInstMsgs.length endpoints)
  queryInstMsgs := s.queryInstMsgs ++ endpoints.map (ipOf ·.url)

/-- One endpoint: its query is sent, and what is answered is learned. -/
theorem refreshLoop_cons_exec (endpoint : EndpointInfo) (endpoints : List EndpointInfo) (s : BridgeState ι) :
    (refreshLoop answer (endpoint :: endpoints)).exec s =
      match queryIp endpoint.url with
      | .ok ip => (refreshLoop answer endpoints).exec
          ⟨s.instanceIdToIp.set (answer s.queryInstMsgs.length ip) endpoint.url, s.queryInstMsgs ++ [ip]⟩
      | .error e => (.error e, s) := by
  rw [refreshLoop]
  cases queryIp endpoint.url with
  | error e => exact Py.exec_bind_of_error (Py.exec_ofExcept _ _)
  | ok ip =>
    rw [Py.exec_bind_of_ok (Py.exec_ofExcept _ _), queryManager, bind_assoc, Py.exec_bind_of_ok (Py.exec_get s),
      bind_assoc, Py.exec_bind_of_ok (Py.exec_set _ _), pure_bind, learn, bind_assoc,
      Py.exec_bind_of_ok (Py.exec_get _), Py.exec_bind_of_ok (Py.exec_set _ _)]

/-- The loop assigns the learned pairs and sends one query for each endpoint. -/
theorem refreshLoop_exec {endpoints : List EndpointInfo}
    (h : ∀ endpoint ∈ endpoints, ∃ ip, queryIp endpoint.url = .ok ip) (s : BridgeState ι) :
    (refreshLoop answer endpoints).exec s = (.ok ⟨⟩, s.refreshed answer endpoints) := by
  induction endpoints generalizing s with
  | nil =>
    rw [refreshLoop, Py.exec_pure, BridgeState.refreshed, List.map_nil, List.append_nil]
    rfl
  | cons endpoint endpoints ih =>
    rw [refreshLoop_cons_exec, queryIp_eq_ipOf (h endpoint List.mem_cons_self)]
    dsimp only
    rw [ih fun e he => h e (List.mem_cons_of_mem _ he)]
    simp only [BridgeState.refreshed, learned, Dict.update_cons, List.length_append, List.length_singleton,
      List.map_cons, List.append_assoc, List.singleton_append]

/-- The loop returns only if every endpoint has an ip. -/
theorem queryIp_of_refreshLoop {endpoints : List EndpointInfo} {s : BridgeState ι}
    (h : ((refreshLoop answer endpoints).exec s).1 = .ok ⟨⟩) :
    ∀ endpoint ∈ endpoints, ∃ ip, queryIp endpoint.url = .ok ip := by
  induction endpoints generalizing s with
  | nil => exact fun _ he => absurd he List.not_mem_nil
  | cons endpoint endpoints ih =>
    rw [refreshLoop_cons_exec] at h
    cases hip : queryIp endpoint.url with
    | error e =>
      rw [hip] at h
      exact nomatch h
    | ok ip =>
      rw [hip] at h
      intro e he
      rcases List.mem_cons.mp he with rfl | he
      · exact ⟨ip, hip⟩
      · exact ih h e he

theorem refreshInstanceMap_of_not_stale {s : BridgeState ι} {endpoints : List EndpointInfo}
    {layoutInfo : LayoutInfo ι} (h : instanceMapIsStale s.instanceIdToIp endpoints layoutInfo = false) :
    (refreshInstanceMap answer endpoints layoutInfo).exec s = (.ok ⟨⟩, s) := by
  rw [refreshInstanceMap, Py.exec_bind_of_ok (Py.exec_get s), h, if_pos Bool.false_ne_true, Py.exec_pure]

theorem refreshInstanceMap_of_stale {s : BridgeState ι} {endpoints : List EndpointInfo}
    {layoutInfo : LayoutInfo ι} (h : instanceMapIsStale s.instanceIdToIp endpoints layoutInfo = true) :
    (refreshInstanceMap answer endpoints layoutInfo).exec s = (refreshLoop answer endpoints).exec s := by
  rw [refreshInstanceMap, Py.exec_bind_of_ok (Py.exec_get s), h, if_neg (not_not.mpr rfl)]

/-- A refresh of a stale bridge, when every endpoint has an ip. -/
theorem refreshInstanceMap_exec {s : BridgeState ι} {endpoints : List EndpointInfo} {layoutInfo : LayoutInfo ι}
    (h : instanceMapIsStale s.instanceIdToIp endpoints layoutInfo = true)
    (hips : ∀ endpoint ∈ endpoints, ∃ ip, queryIp endpoint.url = .ok ip) :
    (refreshInstanceMap answer endpoints layoutInfo).exec s = (.ok ⟨⟩, s.refreshed answer endpoints) := by
  rw [refreshInstanceMap_of_stale answer h, refreshLoop_exec answer hips]

/-- If every endpoint has an ip, a refresh does not raise. -/
theorem refreshInstanceMap_returns {endpoints : List EndpointInfo}
    (hips : ∀ endpoint ∈ endpoints, ∃ ip, queryIp endpoint.url = .ok ip) (layoutInfo : LayoutInfo ι)
    (s : BridgeState ι) : ∃ s', (refreshInstanceMap answer endpoints layoutInfo).exec s = (.ok ⟨⟩, s') := by
  cases hstale : instanceMapIsStale s.instanceIdToIp endpoints layoutInfo with
  | false => exact ⟨s, refreshInstanceMap_of_not_stale answer hstale⟩
  | true => exact ⟨_, refreshInstanceMap_exec answer hstale hips⟩

/-- A refresh of a stale bridge that returned. -/
theorem refreshInstanceMap_of_ok {s : BridgeState ι} {endpoints : List EndpointInfo} {layoutInfo : LayoutInfo ι}
    (h : instanceMapIsStale s.instanceIdToIp endpoints layoutInfo = true)
    (hok : ((refreshInstanceMap answer endpoints layoutInfo).exec s).1 = .ok ⟨⟩) :
    (refreshInstanceMap answer endpoints layoutInfo).exec s = (.ok ⟨⟩, s.refreshed answer endpoints) := by
  rw [refreshInstanceMap_of_stale answer h] at hok
  exact refreshInstanceMap_exec answer h (queryIp_of_refreshLoop answer hok)

end Refresh

/-! ### Reading the bridge -/

variable [DecidableEq ι]

/-- The two ways the bridge goes stale. -/
theorem instanceMapIsStale_iff {instanceIdToIp : Dict ι String} {endpoints : List EndpointInfo}
    {layoutInfo : LayoutInfo ι} :
    instanceMapIsStale instanceIdToIp endpoints layoutInfo = true ↔
      (∃ endpoint ∈ endpoints, ∀ i, instanceIdToIp.get? i ≠ some endpoint.url) ∨
        ∃ i ∈ layoutInfo, i ∉ instanceIdToIp := by
  simp only [instanceMapIsStale, Bool.if_true_left, Bool.or_eq_true, decide_eq_true_eq, List.any_eq_true,
    Dict.mem_values, not_exists, Dict.mem_keys]

/-- The credit of a URL is the match of the last id written for it. -/
@[simp] theorem matchedTokensByUrl_get? (instanceIdToIp : Dict ι String) (layoutInfo : LayoutInfo ι) (url : String) :
    (matchedTokensByUrl instanceIdToIp layoutInfo).get? url =
      (instanceIdToIp.invert.get? url).bind fun i => (layoutInfo.get? i).map Prod.snd :=
  Dict.get?_collect _ _ _

end CachingInLLMs.Router

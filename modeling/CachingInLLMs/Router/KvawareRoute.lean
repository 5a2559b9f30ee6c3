import CachingInLLMs.Controller.PeerLookup
import CachingInLLMs.Controller.Upstream
import CachingInLLMs.Router.Placement

/-!
# `kvaware`, routed

`KvawareRouter.route_request` sends a request to the first instance that `layout_info`
names, if that instance matches enough of the prompt. Like `LoadAwareRouter` it learns
which URL an id belongs to by asking about the endpoints, but it asks only when it does
not know the id it has selected, and it reads the map whatever the answers were.

## The model

`LoadAwareRouter` inherits the fields and the other methods, so a `LoadAwareRouter` is the
model of both; `beta` is not read here. `threshold` is `none` when the argument parser
passes none. On a reply of `None` the source reads `layout_info` of it before it checks
for `None`.

## What is proved

* `kvaware_outcome`: in any run, a request on the cache route goes to the URL at which the
  selected instance ran, if it is known or asking about the endpoints can find it; and
  otherwise it raises `KeyError`.
* `keyError_forever`: so once an instance that the router has not heard of is replaced, it
  answers no request about the prompts of which that instance is the first holder, until
  it is evicted, however many live engines hold them too.
-/

namespace CachingInLLMs.Router

open CachingInLLMs.Library CachingInLLMs.Controller

variable {ι κ ρ τ : Type} [DecidableEq ι]

namespace Kvaware

/-- Whether a request leaves the cache route. Without a holder there is nothing to compare;
`math.inf` is below nothing. -/
def leavesCacheRoute (threshold : Option ℤ) (layoutInfo : LayoutInfo ι) (promptTokens : ℕ) : Except PyError Bool :=
  if layoutInfo.keys = [] then .ok true
  else
    match threshold with
    | none => .error (.other "TypeError")
    | some threshold =>
      match (selectedInstance layoutInfo).bind layoutInfo.get? with
      | some info => .ok (decide (info.2 < max (promptTokens - threshold) 0))
      | none => .ok false

theorem leavesCacheRoute_iff {threshold : ℤ} {layoutInfo : LayoutInfo ι} {promptTokens : ℕ} :
    leavesCacheRoute (some threshold) layoutInfo promptTokens = .ok true ↔
      FallsBack layoutInfo promptTokens threshold := by
  rw [leavesCacheRoute, FallsBack, matchedTokens]
  by_cases hempty : layoutInfo.keys = []
  · simp [hempty]
  · rw [if_neg hempty]
    cases (selectedInstance layoutInfo).bind layoutInfo.get? with
    | none => simp [hempty]
    | some info =>
      rw [or_iff_right hempty, WithTop.coe_lt_coe]
      simp

/-- The queries of the cache route: all endpoints, if the selected instance is not known. -/
def queryUnknown (answer : ℕ → String → ι) (instanceId : ι) (endpoints : List EndpointInfo) :
    Py (BridgeState ι) PUnit := do
  let s ← get
  if instanceId ∉ s.instanceIdToIp then refreshLoop answer endpoints else return ⟨⟩

/-- The cache route of `route_request`. -/
def cacheRoute (router : LoadAwareRouter ι ρ τ) (endpoints : List EndpointInfo) (layoutInfo : LayoutInfo ι) :
    Py (RouterState ι ρ τ) (Option String) := do
  let instanceId ← Py.ofExcept (pyGet layoutInfo.keys 0)
  LoadAwareRouter.onBridge (queryUnknown router.answer instanceId endpoints)
  let s ← get
  match s.bridge.instanceIdToIp.get? instanceId with
  | some url => return some url
  | none => throw .keyError

/-- `route_request`. -/
def routeRequest (router : LoadAwareRouter ι ρ τ) (threshold : Option ℤ) (endpoints : List EndpointInfo)
    (requestStats : Dict String RequestStats) (request : Request) (requestJson : Dict String Json) :
    Py (RouterState ι ρ τ) (Option String) := do
  let tokenIds ← LoadAwareRouter.onTokenizer (router.tokenizePrompt endpoints requestJson)
  match router.lookup tokenIds with
  | none => throw (.other "AttributeError")
  | some layoutInfo =>
    let leaves ← Py.ofExcept (leavesCacheRoute threshold layoutInfo tokenIds.length)
    if leaves then LoadAwareRouter.onRing (router.fallbackUrl endpoints requestStats request requestJson)
    else cacheRoute router endpoints layoutInfo

/-! ### What a request does to the bridge -/

section Bridge

variable {answer : ℕ → String → ι} {instanceId : ι} {endpoints : List EndpointInfo}

/-- The bridge after the queries. -/
def queried (answer : ℕ → String → ι) (instanceId : ι) (endpoints : List EndpointInfo) (s : BridgeState ι) :
    BridgeState ι :=
  if instanceId ∉ s.instanceIdToIp then s.refreshed answer endpoints else s

theorem queryUnknown_exec (hips : ∀ endpoint ∈ endpoints, ∃ ip, queryIp endpoint.url = .ok ip)
    (s : BridgeState ι) :
    (queryUnknown answer instanceId endpoints).exec s = (.ok ⟨⟩, queried answer instanceId endpoints s) := by
  rw [queryUnknown, Py.exec_bind_of_ok (Py.exec_get s), queried]
  by_cases hknown : instanceId ∈ s.instanceIdToIp
  · rw [if_neg (not_not.mpr hknown), if_neg (not_not.mpr hknown)]
    rfl
  · rw [if_pos hknown, if_pos hknown]
    exact refreshLoop_exec answer hips s

variable {router : LoadAwareRouter ι ρ τ} {layoutInfo : LayoutInfo ι} {r : RouterState ι ρ τ}

/-- The cache route answers with what the map then has for the selected instance. -/
theorem cacheRoute_exec (hips : ∀ endpoint ∈ endpoints, ∃ ip, queryIp endpoint.url = .ok ip)
    (hselected : selectedInstance layoutInfo = some instanceId) :
    (cacheRoute router endpoints layoutInfo).exec r =
      (match (queried router.answer instanceId endpoints r.bridge).instanceIdToIp.get? instanceId with
        | some url => .ok (some url)
        | none => .error .keyError,
      { r with bridge := queried router.answer instanceId endpoints r.bridge }) := by
  have hfirst : pyGet layoutInfo.keys 0 = .ok instanceId := by
    rw [pyGet, ← List.head?_eq_getElem?, show layoutInfo.keys.head? = some instanceId from hselected]
  have honBridge : (LoadAwareRouter.onBridge (queryUnknown router.answer instanceId endpoints)).exec r =
      (.ok ⟨⟩, { r with bridge := queried router.answer instanceId endpoints r.bridge }) := by
    rw [LoadAwareRouter.onBridge, Py.exec_zoom, queryUnknown_exec hips]
  rw [cacheRoute, hfirst, Py.exec_bind_of_ok (Py.exec_ofExcept _ _), Py.exec_bind_of_ok honBridge,
    Py.exec_bind_of_ok (Py.exec_get _)]
  dsimp only
  split <;> rfl

end Bridge

end Kvaware

/-! ### In the cluster -/

variable [DecidableEq κ] {policy : LoadAwareRouter ι ρ τ} {threshold : Option ℤ} {unregistered : ι} {fleet : Fleet}
  {processTokens : List ℕ → List (Chunk κ)} {hashRing : ρ} {es : List (ClusterEvent ι κ)} {s s' : Cluster ι κ ρ τ}
  {call : RouteCall} {tokenIds : List ℕ} {j : ι}

/-- What `KvawareRouter` returns, before this Controller, and the router it leaves. -/
def Cluster.kvawareRoute (policy : LoadAwareRouter ι ρ τ) (threshold : Option ℤ) (unregistered : ι) :
    Cluster.Routes ι κ ρ τ := fun s call =>
  (Kvaware.routeRequest (s.served policy unregistered) threshold call.endpoints call.requestStats call.request
    call.requestJson).exec s.router

/-- The event leads from one state to the next, the router being `KvawareRouter`. -/
def Cluster.KvawareStep (policy : LoadAwareRouter ι ρ τ) (threshold : Option ℤ) (unregistered : ι) :
    Cluster ι κ ρ τ → ClusterEvent ι κ → Cluster ι κ ρ τ → Prop :=
  StepBy (kvawareRoute policy threshold unregistered) unregistered

variable (threshold unregistered) in
/-- Once the prompt is tokenized, the reply and the threshold decide between the two routes. -/
theorem kvawareRoute_exec (htokens : s.Tokenizes policy call tokenIds) :
    ∃ tokenizer, s.kvawareRoute policy threshold unregistered call =
      match Kvaware.leavesCacheRoute threshold (s.layoutInfo tokenIds) tokenIds.length with
      | .error e => (.error e, { s.router with tokenizer })
      | .ok true => (LoadAwareRouter.onRing ((s.served policy unregistered).fallbackUrl call.endpoints
          call.requestStats call.request call.requestJson)).exec { s.router with tokenizer }
      | .ok false => (Kvaware.cacheRoute (s.served policy unregistered) call.endpoints (s.layoutInfo tokenIds)).exec
          { s.router with tokenizer } := by
  obtain ⟨tokenizer, htokenizer⟩ : ∃ tokenizer, (LoadAwareRouter.onTokenizer
      ((s.served policy unregistered).tokenizePrompt call.endpoints call.requestJson)).exec s.router =
        (.ok tokenIds, { s.router with tokenizer }) :=
    ⟨_, by rw [LoadAwareRouter.onTokenizer, Py.exec_zoom]; exact congrArg (·, _) htokens⟩
  refine ⟨tokenizer, ?_⟩
  have hlookup : (s.served policy unregistered).lookup tokenIds = some (s.layoutInfo tokenIds) := rfl
  rw [Cluster.kvawareRoute, Kvaware.routeRequest, Py.exec_bind_of_ok htokenizer, hlookup]
  dsimp only
  cases hleaves : Kvaware.leavesCacheRoute threshold (s.layoutInfo tokenIds) tokenIds.length with
  | error e => rw [Py.exec_bind_of_error (Py.exec_ofExcept _ _)]
  | ok leaves =>
    rw [Py.exec_bind_of_ok (Py.exec_ofExcept _ _)]
    cases leaves <;> rfl

variable (policy threshold unregistered s) in
/-- A request asks about its endpoints, or leaves the bridge. -/
theorem kvawareRoute_bridge (hurls : ∀ endpoint ∈ call.endpoints, endpoint.url ∈ fleet.urls) :
    (s.kvawareRoute policy threshold unregistered call).2.bridge = s.router.bridge ∨
      (s.kvawareRoute policy threshold unregistered call).2.bridge =
        s.router.bridge.refreshed (fun _ => s.engines.answer unregistered) call.endpoints := by
  cases htokens : ((policy.tokenizePrompt call.endpoints call.requestJson).exec s.router.tokenizer).1 with
  | error err =>
    left
    have hraise : (LoadAwareRouter.onTokenizer ((s.served policy unregistered).tokenizePrompt call.endpoints
        call.requestJson)).exec s.router = (.error err,
          { s.router with tokenizer :=
            ((policy.tokenizePrompt call.endpoints call.requestJson).exec s.router.tokenizer).2 }) := by
      rw [LoadAwareRouter.onTokenizer, Py.exec_zoom]
      exact congrArg (·, _) htokens
    rw [Cluster.kvawareRoute, Kvaware.routeRequest, Py.exec_bind_of_error hraise]
  | ok tokenIds =>
    obtain ⟨tokenizer, hexec⟩ := kvawareRoute_exec threshold unregistered htokens
    rw [hexec]
    cases hleaves : Kvaware.leavesCacheRoute threshold (s.layoutInfo tokenIds) tokenIds.length with
    | error e => exact Or.inl rfl
    | ok leaves =>
      cases leaves with
      | true => exact Or.inl rfl
      | false =>
        dsimp only
        cases hselected : Kvaware.selectedInstance (s.layoutInfo tokenIds) with
        | none =>
          left
          have hfirst : pyGet (s.layoutInfo tokenIds).keys 0 = .error .indexError := by
            rw [pyGet, ← List.head?_eq_getElem?, show (s.layoutInfo tokenIds).keys.head? = none from hselected]
          rw [Kvaware.cacheRoute, hfirst, Py.exec_bind_of_error (Py.exec_ofExcept _ _)]
        | some j =>
          rw [Kvaware.cacheRoute_exec (fun e he => fleet.queryIp_ok _ (hurls e he)) hselected]
          dsimp only
          rw [Kvaware.queried]
          by_cases hknown : j ∈ s.router.bridge.instanceIdToIp
          · left
            rw [if_neg (not_not.mpr hknown)]
          · right
            rw [if_pos hknown]
            rfl

/-- The ids of the bridge, in every run. -/
theorem ownIds_of_kvaware_run (hfleet : ∀ e ∈ es, e.InFleet fleet)
    (hrun : Run (Cluster.KvawareStep policy threshold unregistered) s es s')
    (h : OwnIds unregistered fleet s.engines s.router.bridge.instanceIdToIp) :
    OwnIds unregistered fleet s'.engines s'.router.bridge.instanceIdToIp := by
  refine hrun.invariant_of (P := fun s => OwnIds unregistered fleet s.engines s.router.bridge.instanceIdToIp)
    (fun s e s' he h hstep => ?_) hfleet h
  obtain ⟨url, i, hfresh, rfl, -, rfl⟩ | ⟨m, rfl, -, rfl⟩ | ⟨call, rfl, rfl⟩ := Cluster.step_cases hstep
  · exact h.boot hfresh
  · exact h
  · show OwnIds unregistered fleet s.engines (s.kvawareRoute policy threshold unregistered call).2.bridge.instanceIdToIp
    rcases kvawareRoute_bridge policy threshold unregistered s he with hbridge | hbridge
    · rw [hbridge]
      exact h
    · rw [hbridge, BridgeState.refreshed, learned_const]
      exact h.update he

/-- The request is on the cache route, and the instance is the one selected. -/
structure OnCacheRoute (threshold : Option ℤ) (s : Cluster ι κ ρ τ) (tokenIds : List ℕ) (j : ι) : Prop where
  /-- The instance is named first. -/
  selected : Kvaware.selectedInstance (s.layoutInfo tokenIds) = some j
  /-- It matches enough. -/
  stays : Kvaware.leavesCacheRoute threshold (s.layoutInfo tokenIds) tokenIds.length = .ok false

/-- The router knows the instance, or can find it by asking about the endpoints. -/
def Findable (s : Cluster ι κ ρ τ) (endpoints : List EndpointInfo) (j : ι) : Prop :=
  j ∈ s.router.bridge.instanceIdToIp ∨ ∃ endpoint ∈ endpoints, s.engines.currentId endpoint.url = some j

omit [DecidableEq κ] in
/-- What the queries find. -/
theorem mem_queried_iff (hj : j ≠ unregistered) (endpoints : List EndpointInfo) :
    j ∈ (Kvaware.queried (fun _ => s.engines.answer unregistered) j endpoints s.router.bridge).instanceIdToIp ↔
      Findable s endpoints j := by
  rw [Kvaware.queried, Findable]
  by_cases hknown : j ∈ s.router.bridge.instanceIdToIp
  · simp [hknown]
  · rw [if_pos hknown, BridgeState.refreshed, learned_const, Dict.mem_update, List.map_map, List.mem_map]
    have hanswer (url : String) : s.engines.answer unregistered (ipOf url) = j ↔ s.engines.currentId url = some j := by
      rw [Engines.answer, Engines.currentId]
      cases s.engines.current (ipOf url) with
      | none => simpa using Ne.symm hj
      | some i => simp
    simp only [hknown, or_false, false_or, Function.comp_apply, hanswer]

/-- What a request on the cache route returns. -/
theorem kvawareRoute_of_cacheRoute (hurls : ∀ endpoint ∈ call.endpoints, endpoint.url ∈ fleet.urls)
    (htokens : s.Tokenizes policy call tokenIds) (hroute : OnCacheRoute threshold s tokenIds j) :
    (s.kvawareRoute policy threshold unregistered call).1 =
      match (Kvaware.queried (fun _ => s.engines.answer unregistered) j call.endpoints
        s.router.bridge).instanceIdToIp.get? j with
      | some url => .ok (some url)
      | none => .error .keyError := by
  obtain ⟨tokenizer, hexec⟩ := kvawareRoute_exec threshold unregistered htokens
  rw [hexec, hroute.stays]
  dsimp only
  rw [Kvaware.cacheRoute_exec (fun e he => fleet.queryIp_ok _ (hurls e he)) hroute.selected]
  rfl

/-- The selected instance has sent messages. -/
theorem ne_unregistered_of_selected
    (hrun : Run (Cluster.KvawareStep policy threshold unregistered) (.start processTokens hashRing) es s)
    (hroute : OnCacheRoute threshold s tokenIds j) : j ≠ unregistered := by
  rintro rfl
  have hmem : j ∈ s.layoutInfo tokenIds := List.mem_of_mem_head? (Option.mem_def.mpr hroute.selected)
  have hnone := liveTokens_eq_none (Cluster.instanceId_ne_of_run hrun) (processTokens tokenIds)
  rw [← layoutInfo_get? hrun, Option.map_eq_none_iff, Dict.get?_eq_none] at hnone
  exact hnone hmem

/-- A request for an instance that cannot be found. -/
theorem keyError_of_not_findable (hurls : ∀ endpoint ∈ call.endpoints, endpoint.url ∈ fleet.urls)
    (htokens : s.Tokenizes policy call tokenIds) (hroute : OnCacheRoute threshold s tokenIds j)
    (hj : j ≠ unregistered) (hlost : ¬ Findable s call.endpoints j) :
    (s.kvawareRoute policy threshold unregistered call).1 = .error .keyError := by
  rw [kvawareRoute_of_cacheRoute hurls htokens hroute]
  rw [← mem_queried_iff hj] at hlost
  rw [Dict.get?_eq_none.mpr hlost]

/-- A request for an instance that can be found goes to where it ran. -/
theorem kvawareRoute_of_findable (hfleet : ∀ e ∈ es ++ [.request call], e.InFleet fleet)
    (hrun : Run (Cluster.KvawareStep policy threshold unregistered) (.start processTokens hashRing) es s)
    (htokens : s.Tokenizes policy call tokenIds) (hroute : OnCacheRoute threshold s tokenIds j)
    (hfind : Findable s call.endpoints j) :
    ∃ u ∈ fleet.urls, s.engines.booted.get? j = some (ipOf u) ∧
      (s.kvawareRoute policy threshold unregistered call).1 = .ok (some u) := by
  have hurls : ∀ endpoint ∈ call.endpoints, endpoint.url ∈ fleet.urls := hfleet (.request call) (by simp)
  have hj := ne_unregistered_of_selected hrun hroute
  have hown : OwnIds unregistered fleet s.engines (Kvaware.queried (fun _ => s.engines.answer unregistered) j
      call.endpoints s.router.bridge).instanceIdToIp := by
    have h := ownIds_of_kvaware_run (fun e he => hfleet e (List.mem_append_left _ he)) hrun
      (fun _ _ hempty => by cases hempty)
    rw [Kvaware.queried]
    split_ifs
    · exact h
    · rw [BridgeState.refreshed, learned_const]
      exact h.update hurls
  rw [← mem_queried_iff hj] at hfind
  obtain ⟨u, hu⟩ := Dict.exists_get?_of_mem hfind
  obtain ⟨hurl, hused⟩ := hown j u hu
  refine ⟨u, hurl, hused.resolve_left hj, ?_⟩
  rw [kvawareRoute_of_cacheRoute hurls htokens hroute, hu]

/-- **Where `kvaware` sends a request.** In any run of boots, messages and requests, a
request on the cache route goes to the URL of the fleet at which the selected instance
ran, if the router knows the instance or one of the endpoints runs it; if neither, it
raises `KeyError`. -/
theorem kvaware_outcome (hfleet : ∀ e ∈ es ++ [.request call], e.InFleet fleet)
    (hrun : Run (Cluster.KvawareStep policy threshold unregistered) (.start processTokens hashRing) es s)
    (htokens : s.Tokenizes policy call tokenIds) (hroute : OnCacheRoute threshold s tokenIds j) :
    (Findable s call.endpoints j → ∃ u ∈ fleet.urls, s.engines.booted.get? j = some (ipOf u) ∧
      (s.kvawareRoute policy threshold unregistered call).1 = .ok (some u)) ∧
    (¬ Findable s call.endpoints j → (s.kvawareRoute policy threshold unregistered call).1 = .error .keyError) :=
  ⟨kvawareRoute_of_findable hfleet hrun htokens hroute,
    keyError_of_not_findable (hfleet (.request call) (by simp)) htokens hroute (ne_unregistered_of_selected hrun hroute)⟩

/-! ### An instance that was replaced before it was asked about -/

/-- The instance ran, it runs no more, and the router has not heard of it. -/
structure Lost (unregistered : ι) (s : Cluster ι κ ρ τ) (j : ι) : Prop where
  /-- It ran. -/
  booted : j ∈ s.engines.booted
  /-- It runs no more. -/
  replaced : ∀ ip, s.engines.current ip ≠ some j
  /-- The router has not heard of it. -/
  unknown : j ∉ s.router.bridge.instanceIdToIp
  /-- It is an instance. -/
  ne : j ≠ unregistered

omit [DecidableEq ι] [DecidableEq κ] in
theorem Lost.not_findable (h : Lost unregistered s j) (endpoints : List EndpointInfo) :
    ¬ Findable s endpoints j := by
  rintro (hknown | ⟨endpoint, -, hcurrent⟩)
  · exact h.unknown hknown
  · exact h.replaced _ hcurrent

/-- What is lost stays lost: no boot has its id again, and no query answers with it. -/
theorem Lost.step {e : ClusterEvent ι κ} (he : e.InFleet fleet) (h : Lost unregistered s j)
    (hstep : s.KvawareStep policy threshold unregistered e s') : Lost unregistered s' j := by
  obtain ⟨url, i, hfresh, rfl, -, rfl⟩ | ⟨m, rfl, -, rfl⟩ | ⟨call, rfl, rfl⟩ := Cluster.step_cases hstep
  · refine ⟨Dict.mem_set.mpr (Or.inr h.booted), fun ip hcurrent => ?_, h.unknown, h.ne⟩
    have hne : i ≠ j := fun hij => hfresh (hij ▸ h.booted)
    have hupdate : Function.update s.engines.current (ipOf url) (some i) ip = some j := hcurrent
    by_cases hip : ip = ipOf url
    · rw [hip, Function.update_self] at hupdate
      exact hne (Option.some.inj hupdate)
    · rw [Function.update_of_ne hip] at hupdate
      exact h.replaced ip hupdate
  · exact ⟨h.booted, h.replaced, h.unknown, h.ne⟩
  · refine ⟨h.booted, h.replaced, ?_, h.ne⟩
    show j ∉ (s.kvawareRoute policy threshold unregistered call).2.bridge.instanceIdToIp
    rcases kvawareRoute_bridge policy threshold unregistered s he with hbridge | hbridge
    · rw [hbridge]
      exact h.unknown
    · rw [hbridge, BridgeState.refreshed, learned_const, Dict.mem_update, List.map_map, List.mem_map]
      rintro (⟨endpoint, -, hanswer⟩ | hknown)
      · simp only [Function.comp_apply, Engines.answer] at hanswer
        cases hc : s.engines.current (ipOf endpoint.url) with
        | none =>
          rw [hc] at hanswer
          exact h.ne hanswer.symm
        | some i =>
          rw [hc] at hanswer
          exact h.replaced _ (hc.trans (congrArg some hanswer))
      · exact h.unknown hknown

/-- The instance selected after a run: the one whose admit of the first chunk is the first that survives. -/
theorem selectedInstance_of_run
    (hrun : Run (Cluster.KvawareStep policy threshold unregistered) (.start processTokens hashRing) es s)
    {chunk : Chunk κ} (hchunk : (processTokens tokenIds).head? = some chunk) :
    Kvaware.selectedInstance (s.layoutInfo tokenIds) =
      ((surviving (messages es)).find? (·.key = chunk.key)).map (·.instanceId) := by
  have hcontroller : s.controller = (KVController.start processTokens).handleAll (messages es) :=
    Cluster.run_controller hrun
  have hhead := KVController.selectedInstance_lookup (c := s.controller)
    (by rw [hcontroller]; exact KVController.noEmptyList_handleAll processTokens (messages es)) ⟨"Lookup", tokenIds⟩
  have hchunk' : (s.controller.processTokens tokenIds).head? = some chunk := by
    rw [hcontroller, KVController.handleAll_processTokens]
    exact hchunk
  have hmetas := getD_handleAll processTokens (messages es) chunk.key
  rw [← hcontroller] at hmetas
  rw [Cluster.layoutInfo, hhead, KVController.firstHolder, hchunk', Option.bind_some]
  have hfirst : (s.controller.kvPool.get? chunk.key).bind List.head? =
      ((surviving (messages es)).find? (·.key = chunk.key)).map KVMsg.metadata := by
    rw [← List.head?_filter, ← List.head?_map, ← hmetas]
    cases s.controller.kvPool.get? chunk.key <;> rfl
  rw [hfirst, Option.map_map]
  rfl

/-- **A prompt can be lost.** Suppose that, in some run, the first admit of a chunk that
survives is that of an instance which has been replaced before the router heard of it.
Then in every continuation in which that admit is not evicted, every request whose prompt
begins with the chunk and that stays on the cache route raises `KeyError`. -/
theorem keyError_forever {es' : List (ClusterEvent ι κ)} {t : KVMsg ι κ} {chunk : Chunk κ}
    (hfleet : ∀ e ∈ es ++ es' ++ [.request call], e.InFleet fleet)
    (hrun : Run (Cluster.KvawareStep policy threshold unregistered) (.start processTokens hashRing) es s)
    (hfirst : (surviving (messages es)).find? (·.key = chunk.key) = some t)
    (hbooted : t.instanceId ∈ s.engines.booted) (hreplaced : ∀ ip, s.engines.current ip ≠ some t.instanceId)
    (hunknown : t.instanceId ∉ s.router.bridge.instanceIdToIp)
    (hrun' : Run (Cluster.KvawareStep policy threshold unregistered) s es' s')
    (hkept : .kvEvict t ∉ messages es') (htokens : s'.Tokenizes policy call tokenIds)
    (hchunk : (processTokens tokenIds).head? = some chunk)
    (hstays : Kvaware.leavesCacheRoute threshold (s'.layoutInfo tokenIds) tokenIds.length = .ok false) :
    (s'.kvawareRoute policy threshold unregistered call).1 = .error .keyError := by
  have hsent : .kvAdmit t ∈ messages es := (mem_surviving.mp (List.mem_of_find?_eq_some hfirst)).mem_run
  have hlost : Lost unregistered s t.instanceId :=
    ⟨hbooted, hreplaced, hunknown, Cluster.instanceId_ne_of_run hrun _ hsent⟩
  have hlost' : Lost unregistered s' t.instanceId :=
    hrun'.invariant_of (P := fun s => Lost unregistered s t.instanceId) (fun _ _ _ he h hstep => h.step he hstep)
      (fun e he => hfleet e (by simp [he])) hlost
  have hmessages : messages (es ++ es') = messages es ++ messages es' := messages_append es es'
  have hselected := selectedInstance_of_run (hrun.append hrun') hchunk
  rw [hmessages, find?_surviving_append hfirst hkept] at hselected
  exact keyError_of_not_findable (hfleet (.request call) (by simp)) htokens ⟨hselected, hstays⟩ hlost'.ne
    (hlost'.not_findable _)

/-! ### A restart before the first request -/

/-- The first engine holds the chunk, boots again and holds it again, before anyone asks. -/
def unnoticedRestart : List (ClusterEvent ℕ ℕ) :=
  [.boot "http://10.0.0.1:8000" 1, .kv (.kvAdmit ⟨1, 0, 7, "cpu"⟩), .boot "http://10.0.0.1:8000" 3,
    .kv (.kvAdmit ⟨3, 0, 7, "cpu"⟩)]

theorem inFleet_unnoticedRestart :
    ∀ e ∈ unnoticedRestart ++ [.request callBoth] ++ [.request callBoth], e.InFleet twoEngines := by
  have hurl : ("http://10.0.0.1:8000" : String) ∈ twoEngines.urls := Or.inl rfl
  have hboth := inFleet_warmRestart (.request callBoth) (by simp)
  simp only [unnoticedRestart, List.cons_append, List.nil_append, List.forall_mem_cons]
  exact ⟨hurl, trivial, hurl, trivial, hboth, hboth, fun _ h => absurd h List.not_mem_nil⟩

theorem run_unnoticedRestart : ∃ s : Cluster ℕ ℕ (List String) Unit,
    Run (Cluster.KvawareStep numberedRouter (some 2000) 0) (.start oneChunk []) unnoticedRestart s ∧
      s.engines.booted = Dict.ofList [(1, ipOf "http://10.0.0.1:8000"), (3, ipOf "http://10.0.0.1:8000")] ∧
      (∀ ip, s.engines.current ip ≠ some 1) ∧ s.router.bridge.instanceIdToIp = ∅ := by
  have h₁ : 1 ∉ (∅ : Dict ℕ String) ∧ 1 ≠ 0 := ⟨Dict.not_mem_empty 1, Nat.one_ne_zero⟩
  have h₃ : 3 ∉ (∅ : Dict ℕ String).set 1 (ipOf "http://10.0.0.1:8000") ∧ 3 ≠ 0 := by simp
  refine ⟨_, Run.cons (Cluster.step_boot _ _ h₁) (Run.cons (Cluster.step_kv _ (by decide)) (Run.cons
    (Cluster.step_boot _ _ h₃) (Run.cons (Cluster.step_kv _ (by decide)) (Run.nil _)))), rfl, fun ip hcurrent => ?_, rfl⟩
  have hupdate : Function.update (Function.update (fun _ => none) (ipOf "http://10.0.0.1:8000") (some 1))
      (ipOf "http://10.0.0.1:8000") (some 3) ip = some 1 := hcurrent
  rw [Function.update_idem] at hupdate
  by_cases hip : ip = ipOf "http://10.0.0.1:8000"
  · rw [hip, Function.update_self] at hupdate
    cases hupdate
  · rw [Function.update_of_ne hip] at hupdate
    cases hupdate

/-- The reply after it. -/
theorem layoutInfo_unnoticedRestart {s : Cluster ℕ ℕ (List String) Unit} {es : List (ClusterEvent ℕ ℕ)}
    (hes : messages es = messages unnoticedRestart)
    (hrun : Run (Cluster.KvawareStep numberedRouter (some 2000) 0) (.start oneChunk []) es s) :
    s.layoutInfo [1, 2, 3] = Dict.ofList [(1, ("cpu", 3)), (3, ("cpu", 3))] := by
  rw [Cluster.layoutInfo, Cluster.run_controller hrun, hes]
  decide +kernel

theorem leaves_unnoticedRestart : Kvaware.leavesCacheRoute (some 2000)
    (Dict.ofList [(1, ("cpu", 3)), (3, ("cpu", 3))] : LayoutInfo ℕ) 3 = .ok false := by
  decide +kernel

/-- The first request raises, although the new engine holds the prompt. -/
theorem kvaware_outcome_unnoticedRestart : ∃ s : Cluster ℕ ℕ (List String) Unit,
    Run (Cluster.KvawareStep numberedRouter (some 2000) 0) (.start oneChunk []) unnoticedRestart s ∧
      (s.kvawareRoute numberedRouter (some 2000) 0 callBoth).1 = .error .keyError := by
  obtain ⟨s, hrun, -, hreplaced, hbridge⟩ := run_unnoticedRestart
  have hlayout := layoutInfo_unnoticedRestart rfl hrun
  have hroute : OnCacheRoute (some 2000) s [1, 2, 3] 1 := by
    constructor
    · rw [hlayout]
      rfl
    · rw [hlayout]
      exact leaves_unnoticedRestart
  refine ⟨s, hrun, (kvaware_outcome (fun e he => inFleet_unnoticedRestart e (List.mem_append_left _ he)) hrun
    (tokenizes_callBoth s) hroute).2 ?_⟩
  rintro (hknown | ⟨endpoint, -, hcurrent⟩)
  · rw [hbridge] at hknown
    exact Dict.not_mem_empty 1 hknown
  · exact hreplaced _ hcurrent

/-- And so does the next. -/
theorem keyError_forever_unnoticedRestart : ∃ s s' : Cluster ℕ ℕ (List String) Unit,
    Run (Cluster.KvawareStep numberedRouter (some 2000) 0) (.start oneChunk []) unnoticedRestart s ∧
      s.KvawareStep numberedRouter (some 2000) 0 (.request callBoth) s' ∧
      (s'.kvawareRoute numberedRouter (some 2000) 0 callBoth).1 = .error .keyError := by
  obtain ⟨s, hrun, hbooted, hreplaced, hbridge⟩ := run_unnoticedRestart
  have hrun' : Run (Cluster.KvawareStep numberedRouter (some 2000) 0) s [.request callBoth]
      { s with router := (s.kvawareRoute numberedRouter (some 2000) 0 callBoth).2 } :=
    Run.single (Cluster.step_request s callBoth)
  have hlayout := layoutInfo_unnoticedRestart
    (show messages (unnoticedRestart ++ [.request callBoth]) = messages unnoticedRestart from rfl) (hrun.append hrun')
  have hchunk : (oneChunk [1, 2, 3]).head? = some ⟨0, 3, 7⟩ := rfl
  have hfirst : (surviving (messages unnoticedRestart)).find? (·.key = (⟨0, 3, 7⟩ : Chunk ℕ).key) =
      some ⟨1, 0, 7, "cpu"⟩ := by decide +kernel
  refine ⟨s, _, hrun, Cluster.step_request s callBoth, keyError_forever inFleet_unnoticedRestart hrun hfirst
    (by rw [hbooted]; decide +kernel) hreplaced (by rw [hbridge]; exact Dict.not_mem_empty 1) hrun'
    List.not_mem_nil (tokenizes_callBoth _) hchunk ?_⟩
  rw [hlayout]
  exact leaves_unnoticedRestart

end CachingInLLMs.Router

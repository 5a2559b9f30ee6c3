import CachingInLLMs.Router.Restart
import CachingInLLMs.Router.Score
import Mathlib.Data.Finset.SDiff
import Mathlib.Data.Finset.Sort

/-!
# Routing a request

`LoadAwareRouter.route_request` from the prompt to the URL. It tokenizes the
prompt, asks the Controller who holds a prefix of it, refreshes the bridge and takes
the argmax of the score. When nobody holds anything it falls back as upstream does:
by the hash ring if the request has a session id, to the endpoint with the lowest
QPS if not.

## The model

`LoadAwareRouter` has the fixed fields of the router and what it calls: the
tokenizers, the Controller and the methods of `uhashring.HashRing`, whose hashing is
left open. `RouterState` is what a request can change.

## What is proved

* `routeRequest_returns_endpoint`: whatever the bridge, the ring and the Controller
  say, a request is routed to one of the endpoints it was given.
* `cacheRoute_isBest`: when there is something to weigh, to the best of them by the
  score, on the refreshed bridge.
* `bridgeAfter_eq_routeRequest`: `route_request` changes the bridge as the requests
  of `Restart` do.
-/

namespace CachingInLLMs.Router

open CachingInLLMs.Library CachingInLLMs.Controller

/-- A JSON value. -/
inductive Json where
  | null
  | bool (b : Bool)
  | number (q : ℚ)
  | string (s : String)
  | array (values : List Json)
  | object (fields : List (String × Json))

/-- The part of a request that routing reads. -/
structure Request where
  /-- `headers.get`. -/
  headers : String → Option String

/-- The methods of `uhashring.HashRing` that the routers call, on rings `ρ`. -/
structure HashRing (ρ : Type) where
  /-- `get_nodes`. -/
  getNodes : ρ → List String
  /-- `add_node`. -/
  addNode : String → ρ → Except PyError ρ
  /-- `remove_node`. -/
  removeNode : String → ρ → Except PyError ρ
  /-- `get_node`. -/
  getNode : Json → ρ → Option String

/-- What `uhashring` documents: a new node can be added and a current one removed, and a
key belongs to a current node if there is one. Removing any other node may raise. -/
structure HashRing.Lawful {ρ : Type} (ring : HashRing ρ) : Prop where
  /-- Adding a new node. -/
  addNode : ∀ r node, node ∉ ring.getNodes r →
    ∃ r', ring.addNode node r = .ok r' ∧ ∀ n, n ∈ ring.getNodes r' ↔ n = node ∨ n ∈ ring.getNodes r
  /-- Removing a current node. -/
  removeNode : ∀ r node, node ∈ ring.getNodes r →
    ∃ r', ring.removeNode node r = .ok r' ∧ ∀ n, n ∈ ring.getNodes r' ↔ n ≠ node ∧ n ∈ ring.getNodes r
  /-- The node of a key. -/
  getNode : ∀ r key, ring.getNodes r ≠ [] → ∃ node ∈ ring.getNodes r, ring.getNode key r = some node

/-- The order in which a set is iterated: any order, every element once. -/
structure SetOrder where
  /-- The elements of a set, in that order. -/
  iterate : Finset String → List String
  /-- No element comes twice. -/
  nodup : ∀ s, (iterate s).Nodup
  /-- Every element comes. -/
  mem_iterate : ∀ s x, x ∈ iterate s ↔ x ∈ s

/-- The router's fixed fields, and what it calls. -/
structure LoadAwareRouter (ι ρ τ : Type) where
  /-- `session_key`. -/
  sessionKey : Option String
  /-- `beta`. -/
  beta : ℚ
  /-- The methods of `hash_ring`. -/
  ring : HashRing ρ
  /-- The order in which `_update_hash_ring` iterates its sets. -/
  setOrder : SetOrder
  /-- `AutoTokenizer.from_pretrained`. -/
  fromPretrained : String → Except PyError τ
  /-- `encode` of a tokenizer. -/
  encode : τ → Json → Except PyError (List ℕ)
  /-- `requests.post(remote_url, json={model, prompt}).json()["tokens"]`. -/
  postTokenize : String → String → Json → Except PyError (List ℕ)
  /-- The `layout_info` of the Controller's reply to a `LookupMsg`; none if the reply is `None` or has none. -/
  lookup : List ℕ → Option (LayoutInfo ι)
  /-- The instance id in the Controller's reply to a `QueryInstMsg`. -/
  answer : ℕ → String → ι

/-- What a request can change. -/
structure RouterState (ι ρ τ : Type) where
  /-- `instance_id_to_ip`, and the queries sent. -/
  bridge : BridgeState ι
  /-- `hash_ring`. -/
  hashRing : ρ
  /-- `tokenizer`. -/
  tokenizer : Option τ

namespace LoadAwareRouter

variable {ι ρ τ : Type} (router : LoadAwareRouter ι ρ τ)

/-! ### Tokens -/

/-- `request_json.get("prompt", "")`. -/
def promptOf (requestJson : Dict String Json) : Json := (requestJson.get? "prompt").getD (.string "")

/-- `endpoints[0].model_names[0]`. -/
def firstModel (endpoints : List EndpointInfo) : Except PyError String := do
  let endpoint ← pyGet endpoints 0
  pyGet endpoint.modelNames 0

/-- `self.tokenizer`, loaded on first use. -/
def loadTokenizer (endpoints : List EndpointInfo) : Py (Option τ) τ := do
  match ← get with
  | some tokenizer => return tokenizer
  | none =>
    let model ← Py.ofExcept (firstModel endpoints)
    let tokenizer ← Py.ofExcept (router.fromPretrained model)
    set (some tokenizer)
    return tokenizer

/-- `tokenize_prompt`: the local tokenizer, the first endpoint's `/tokenize` if that raises. -/
def tokenizePrompt (endpoints : List EndpointInfo) (requestJson : Dict String Json) : Py (Option τ) (List ℕ) :=
  tryCatch
    (do
      let tokenizer ← router.loadTokenizer endpoints
      Py.ofExcept (router.encode tokenizer (promptOf requestJson)))
    fun _ => do
      let endpoint ← Py.ofExcept (pyGet endpoints 0)
      let model ← Py.ofExcept (firstModel endpoints)
      Py.ofExcept (router.postTokenize (endpoint.url ++ "/tokenize") model (promptOf requestJson))

/-! ### The fallback -/

/-- `extract_session_id`. A header is preferred to the body; `null` in the body is no id. -/
def extractSessionId (request : Request) (requestJson : Dict String Json) : Option Json :=
  match router.sessionKey with
  | none => none
  | some sessionKey =>
    match request.headers sessionKey with
    | some val => some (.string val)
    | none =>
      match requestJson.get? sessionKey with
      | some .null => none
      | other => other

/-- The loop of `_qps_routing`. -/
def qpsLoop (requestStats : Dict String RequestStats) :
    List EndpointInfo → Option String → WithTop ℚ → Option String
  | [], ret, _ => ret
  | info :: endpoints, ret, lowestQps =>
    match requestStats.get? info.url with
    | none => some info.url
    | some stats =>
      if (stats.qps : WithTop ℚ) < lowestQps then qpsLoop requestStats endpoints (some info.url) stats.qps
      else qpsLoop requestStats endpoints ret lowestQps

/-- `_qps_routing`: the first endpoint without stats, else one with the lowest QPS. -/
def qpsRouting (endpoints : List EndpointInfo) (requestStats : Dict String RequestStats) : Option String :=
  qpsLoop requestStats endpoints none ⊤

/-- Add or remove nodes one after another. -/
def forNodes (method : String → ρ → Except PyError ρ) : List String → Py ρ PUnit
  | [] => return ⟨⟩
  | node :: nodes => do
    let r ← get
    let r' ← Py.ofExcept (method node r)
    set r'
    forNodes method nodes

/-- `_update_hash_ring`. -/
def updateHashRing (endpoints : List EndpointInfo) : Py ρ PUnit := do
  let r ← get
  let currentNodes := (router.ring.getNodes r).toFinset
  let newNodes := (endpoints.map (·.url)).toFinset
  forNodes router.ring.removeNode (router.setOrder.iterate (currentNodes \ newNodes))
  forNodes router.ring.addNode (router.setOrder.iterate (newNodes \ currentNodes))

/-- `fallback_url`. -/
def fallbackUrl (endpoints : List EndpointInfo) (requestStats : Dict String RequestStats) (request : Request)
    (requestJson : Dict String Json) : Py ρ (Option String) := do
  router.updateHashRing endpoints
  match router.extractSessionId request requestJson with
  | none => return qpsRouting endpoints requestStats
  | some sessionId =>
    let r ← get
    return router.ring.getNode sessionId r

/-! ### The request -/

/-- Run a program on the bridge. -/
def onBridge {α : Type} (p : Py (BridgeState ι) α) : Py (RouterState ι ρ τ) α :=
  p.zoom RouterState.bridge fun bridge s => { s with bridge }

/-- Run a program on the hash ring. -/
def onRing {α : Type} (p : Py ρ α) : Py (RouterState ι ρ τ) α :=
  p.zoom RouterState.hashRing fun hashRing s => { s with hashRing }

/-- Run a program on the tokenizer. -/
def onTokenizer {α : Type} (p : Py (Option τ) α) : Py (RouterState ι ρ τ) α :=
  p.zoom RouterState.tokenizer fun tokenizer s => { s with tokenizer }

variable [DecidableEq ι]

/-- The cache route of `route_request`. -/
def cacheRoute (endpoints : List EndpointInfo) (requestStats : Dict String RequestStats) (request : Request)
    (requestJson : Dict String Json) (layoutInfo : LayoutInfo ι) (promptTokens : ℕ) :
    Py (RouterState ι ρ τ) (Option String) := do
  onBridge (refreshInstanceMap router.answer endpoints layoutInfo)
  let s ← get
  let url ← Py.ofExcept (selectUrl router.beta s.bridge.instanceIdToIp endpoints requestStats layoutInfo promptTokens)
  match url with
  | none => onRing (router.fallbackUrl endpoints requestStats request requestJson)
  | some url => return some url

/-- `route_request`. -/
def routeRequest (endpoints : List EndpointInfo) (requestStats : Dict String RequestStats) (request : Request)
    (requestJson : Dict String Json) : Py (RouterState ι ρ τ) (Option String) := do
  let tokenIds ← onTokenizer (router.tokenizePrompt endpoints requestJson)
  let layoutInfo := (router.lookup tokenIds).getD ∅
  if layoutInfo.keys = [] then onRing (router.fallbackUrl endpoints requestStats request requestJson)
  else router.cacheRoute endpoints requestStats request requestJson layoutInfo tokenIds.length

omit [DecidableEq ι]

/-! ### The ring follows the endpoints -/

section Ring

theorem forNodes_cons_exec (method : String → ρ → Except PyError ρ) {node : String} (nodes : List String) {r r' : ρ}
    (h : method node r = .ok r') : (forNodes method (node :: nodes)).exec r = (forNodes method nodes).exec r' := by
  rw [forNodes, Py.exec_bind_of_ok (Py.exec_get r), h, Py.exec_bind_of_ok (Py.exec_ofExcept _ _),
    Py.exec_bind_of_ok (Py.exec_set _ _)]

variable {ring : HashRing ρ}

/-- Removing current nodes, none twice. -/
theorem forNodes_removeNode (hring : ring.Lawful) {nodes : List String} (hnodup : nodes.Nodup) {r : ρ}
    (hcurrent : ∀ node ∈ nodes, node ∈ ring.getNodes r) :
    ∃ r', (forNodes ring.removeNode nodes).exec r = (.ok ⟨⟩, r') ∧
      ∀ n, n ∈ ring.getNodes r' ↔ n ∉ nodes ∧ n ∈ ring.getNodes r := by
  induction nodes generalizing r with
  | nil => exact ⟨r, rfl, fun n => (and_iff_right List.not_mem_nil).symm⟩
  | cons node nodes ih =>
    obtain ⟨hnode, hnodup⟩ := List.nodup_cons.mp hnodup
    obtain ⟨r₁, hremove, hnodes₁⟩ := hring.removeNode r node (hcurrent node List.mem_cons_self)
    obtain ⟨r', hexec, hnodes'⟩ := ih hnodup (r := r₁) fun n hn => (hnodes₁ n).mpr
      ⟨fun heq => hnode (heq ▸ hn), hcurrent n (List.mem_cons_of_mem _ hn)⟩
    refine ⟨r', (forNodes_cons_exec _ nodes hremove).trans hexec, fun n => ?_⟩
    rw [hnodes', hnodes₁, List.mem_cons, not_or]
    tauto

/-- Adding new nodes, none twice. -/
theorem forNodes_addNode (hring : ring.Lawful) {nodes : List String} (hnodup : nodes.Nodup) {r : ρ}
    (hnew : ∀ node ∈ nodes, node ∉ ring.getNodes r) :
    ∃ r', (forNodes ring.addNode nodes).exec r = (.ok ⟨⟩, r') ∧
      ∀ n, n ∈ ring.getNodes r' ↔ n ∈ nodes ∨ n ∈ ring.getNodes r := by
  induction nodes generalizing r with
  | nil => exact ⟨r, rfl, fun n => (or_iff_right List.not_mem_nil).symm⟩
  | cons node nodes ih =>
    obtain ⟨hnode, hnodup⟩ := List.nodup_cons.mp hnodup
    obtain ⟨r₁, hadd, hnodes₁⟩ := hring.addNode r node (hnew node List.mem_cons_self)
    obtain ⟨r', hexec, hnodes'⟩ := ih hnodup (r := r₁) fun n hn hmem => by
      rcases (hnodes₁ n).mp hmem with heq | hmem
      · exact hnode (heq ▸ hn)
      · exact hnew n (List.mem_cons_of_mem _ hn) hmem
    refine ⟨r', (forNodes_cons_exec _ nodes hadd).trans hexec, fun n => ?_⟩
    rw [hnodes', hnodes₁, List.mem_cons]
    tauto

end Ring

/-- `_update_hash_ring` does not raise, and its nodes are then the URLs of the endpoints. -/
theorem updateHashRing_exec (hring : router.ring.Lawful) (endpoints : List EndpointInfo) (r : ρ) :
    ∃ r', (router.updateHashRing endpoints).exec r = (.ok ⟨⟩, r') ∧
      ∀ n, n ∈ router.ring.getNodes r' ↔ n ∈ endpoints.map (·.url) := by
  have hmem := router.setOrder.mem_iterate
  obtain ⟨r₁, hremove, hnodes₁⟩ := forNodes_removeNode hring
    (router.setOrder.nodup ((router.ring.getNodes r).toFinset \ (endpoints.map (·.url)).toFinset)) (r := r)
    fun n hn => List.mem_toFinset.mp (Finset.mem_sdiff.mp ((hmem _ n).mp hn)).1
  obtain ⟨r', hadd, hnodes'⟩ := forNodes_addNode hring
    (router.setOrder.nodup ((endpoints.map (·.url)).toFinset \ (router.ring.getNodes r).toFinset)) (r := r₁)
    fun n hn hcurrent => (Finset.mem_sdiff.mp ((hmem _ n).mp hn)).2 (List.mem_toFinset.mpr ((hnodes₁ n).mp hcurrent).2)
  refine ⟨r', ?_, fun n => ?_⟩
  · rw [updateHashRing, Py.exec_bind_of_ok (Py.exec_get r)]
    exact (Py.exec_bind_of_ok hremove).trans hadd
  · rw [hnodes', hnodes₁, hmem, hmem, Finset.mem_sdiff, Finset.mem_sdiff, List.mem_toFinset, List.mem_toFinset]
    tauto

/-! ### The fallback stays among the endpoints -/

/-- Once the loop has a URL, it ends with that one or a later endpoint's. -/
theorem qpsLoop_some (requestStats : Dict String RequestStats) (endpoints : List EndpointInfo) (url : String)
    (lowestQps : WithTop ℚ) :
    ∃ url' ∈ url :: endpoints.map (·.url), qpsLoop requestStats endpoints (some url) lowestQps = some url' := by
  induction endpoints generalizing url lowestQps with
  | nil => exact ⟨url, List.mem_cons_self, rfl⟩
  | cons info endpoints ih =>
    rw [List.map_cons, qpsLoop]
    cases requestStats.get? info.url with
    | none => exact ⟨info.url, List.mem_cons_of_mem _ List.mem_cons_self, rfl⟩
    | some stats =>
      dsimp only
      split_ifs
      · obtain ⟨url', hmem, hret⟩ := ih info.url stats.qps
        exact ⟨url', List.mem_cons_of_mem _ hmem, hret⟩
      · obtain ⟨url', hmem, hret⟩ := ih url lowestQps
        refine ⟨url', ?_, hret⟩
        rw [List.mem_cons] at hmem ⊢
        exact hmem.imp_right fun h => List.mem_cons_of_mem _ h

/-- `_qps_routing` returns the URL of an endpoint if there is one: every QPS is below infinity. -/
theorem qpsRouting_mem (requestStats : Dict String RequestStats) {endpoints : List EndpointInfo}
    (hne : endpoints ≠ []) :
    ∃ url ∈ endpoints.map (·.url), qpsRouting endpoints requestStats = some url := by
  obtain ⟨info, rest, rfl⟩ := List.exists_cons_of_ne_nil hne
  rw [List.map_cons, qpsRouting, qpsLoop]
  cases requestStats.get? info.url with
  | none => exact ⟨info.url, List.mem_cons_self, rfl⟩
  | some stats =>
    dsimp only
    rw [if_pos (WithTop.coe_lt_top stats.qps)]
    exact qpsLoop_some requestStats rest info.url stats.qps

/-- `fallback_url` returns the URL of an endpoint if there is one, whatever nodes the
ring had. -/
theorem fallbackUrl_exec (hring : router.ring.Lawful) {endpoints : List EndpointInfo} (hne : endpoints ≠ [])
    (requestStats : Dict String RequestStats) (request : Request) (requestJson : Dict String Json) (r : ρ) :
    ∃ url ∈ endpoints.map (·.url), ∃ r',
      (router.fallbackUrl endpoints requestStats request requestJson).exec r = (.ok (some url), r') := by
  obtain ⟨r', hupdate, hnodes⟩ := router.updateHashRing_exec hring endpoints r
  rw [fallbackUrl, Py.exec_bind_of_ok hupdate]
  cases router.extractSessionId request requestJson with
  | none =>
    obtain ⟨url, hmem, hret⟩ := qpsRouting_mem requestStats hne
    exact ⟨url, hmem, r', by rw [hret]; rfl⟩
  | some sessionId =>
    obtain ⟨info, rest, rfl⟩ := List.exists_cons_of_ne_nil hne
    have hnonempty : router.ring.getNodes r' ≠ [] :=
      List.ne_nil_of_mem ((hnodes info.url).mpr (by rw [List.map_cons]; exact List.mem_cons_self))
    obtain ⟨node, hnode, hget⟩ := hring.getNode r' sessionId hnonempty
    refine ⟨node, (hnodes node).mp hnode, r', ?_⟩
    dsimp only
    rw [Py.exec_bind_of_ok (Py.exec_get r'), Py.exec_pure, hget]

/-! ### Where a request goes -/

section RouteRequest

variable {router} [DecidableEq ι] {endpoints : List EndpointInfo} {requestJson : Dict String Json}
  {s : RouterState ι ρ τ} {tokenIds : List ℕ}

/-- Once the prompt is tokenized, the reply decides between the two routes. -/
theorem routeRequest_exec (htokens : ((router.tokenizePrompt endpoints requestJson).exec s.tokenizer).1 = .ok tokenIds)
    (requestStats : Dict String RequestStats) (request : Request) :
    ∃ tokenizer, (router.routeRequest endpoints requestStats request requestJson).exec s =
      if ((router.lookup tokenIds).getD ∅).keys = [] then
        (onRing (router.fallbackUrl endpoints requestStats request requestJson)).exec { s with tokenizer }
      else
        (router.cacheRoute endpoints requestStats request requestJson ((router.lookup tokenIds).getD ∅)
          tokenIds.length).exec { s with tokenizer } := by
  obtain ⟨tokenizer, htokenizer⟩ : ∃ tokenizer, (onTokenizer (router.tokenizePrompt endpoints requestJson)).exec s =
      (.ok tokenIds, { s with tokenizer }) :=
    ⟨_, by rw [onTokenizer, Py.exec_zoom, htokens]⟩
  refine ⟨tokenizer, ?_⟩
  rw [routeRequest, Py.exec_bind_of_ok htokenizer]
  exact apply_ite (fun p : Py (RouterState ι ρ τ) (Option String) => p.exec { s with tokenizer }) _ _ _

/-- The cache route returns the best endpoint on the refreshed bridge. -/
theorem cacheRoute_isBest (hne : endpoints ≠ []) (hurls : ∀ endpoint ∈ endpoints, WellFormedUrl endpoint.url)
    (requestStats : Dict String RequestStats) (request : Request) (layoutInfo : LayoutInfo ι) (promptTokens : ℕ) :
    ∃ best ∈ endpoints, ∃ s',
      (router.cacheRoute endpoints requestStats request requestJson layoutInfo promptTokens).exec s =
        (.ok (some best.url), s') ∧
      IsBest (fleetScore router.beta s'.bridge.instanceIdToIp endpoints requestStats layoutInfo promptTokens)
        endpoints best := by
  obtain ⟨bridge, hrefresh⟩ := refreshInstanceMap_returns router.answer
    (fun endpoint he => (hurls endpoint he).queryIp_ok) layoutInfo s.bridge
  obtain ⟨best, hmem, hselect, hbest⟩ :=
    selectUrl_spec router.beta bridge.instanceIdToIp hne requestStats layoutInfo promptTokens
  have honBridge : (onBridge (refreshInstanceMap router.answer endpoints layoutInfo)).exec s =
      (.ok ⟨⟩, { s with bridge }) := by rw [onBridge, Py.exec_zoom, hrefresh]
  refine ⟨best, hmem, { s with bridge }, ?_, hbest⟩
  rw [cacheRoute, Py.exec_bind_of_ok honBridge, Py.exec_bind_of_ok (Py.exec_get _), hselect,
    Py.exec_bind_of_ok (Py.exec_ofExcept _ _)]
  rfl

/-- **A request goes to one of its endpoints.** Whatever the bridge, the ring and the
Controller's reply, `route_request` returns the URL of an endpoint of this call, if
there is one. -/
theorem routeRequest_returns_endpoint (hring : router.ring.Lawful) (hne : endpoints ≠ [])
    (hurls : ∀ endpoint ∈ endpoints, WellFormedUrl endpoint.url)
    (htokens : ∃ tokenIds, ((router.tokenizePrompt endpoints requestJson).exec s.tokenizer).1 = .ok tokenIds)
    (requestStats : Dict String RequestStats) (request : Request) :
    ∃ endpoint ∈ endpoints,
      ((router.routeRequest endpoints requestStats request requestJson).exec s).1 = .ok (some endpoint.url) := by
  obtain ⟨tokenIds, htokens⟩ := htokens
  obtain ⟨tokenizer, hexec⟩ := routeRequest_exec htokens requestStats request
  rw [hexec]
  split_ifs
  · obtain ⟨url, hmem, r', hfallback⟩ :=
      router.fallbackUrl_exec hring hne requestStats request requestJson s.hashRing
    obtain ⟨endpoint, he, rfl⟩ := List.mem_map.mp hmem
    refine ⟨endpoint, he, ?_⟩
    rw [onRing, Py.exec_zoom]
    exact congrArg Prod.fst hfallback
  · obtain ⟨best, hmem, s', hroute, -⟩ := cacheRoute_isBest hne hurls requestStats request
      ((router.lookup tokenIds).getD ∅) tokenIds.length
    exact ⟨best, hmem, congrArg Prod.fst hroute⟩

end RouteRequest

end LoadAwareRouter

/-! ### A request on a stale ring -/

/-- Rings without hashing: a list of nodes, and every key belongs to the first. -/
def listRing : HashRing (List String) where
  getNodes r := r
  addNode node r := .ok (r ++ [node])
  removeNode node r := if node ∈ r then .ok (r.filter (· ≠ node)) else .error .keyError
  getNode _ r := r.head?

theorem lawful_listRing : listRing.Lawful where
  addNode r node _ := ⟨r ++ [node], rfl, fun n => by simp [listRing, or_comm]⟩
  removeNode r node h := ⟨r.filter (· ≠ node), if_pos h, fun n => by simp [listRing, and_comm]⟩
  getNode r _ h := by
    obtain ⟨node, nodes, rfl⟩ := List.exists_cons_of_ne_nil h
    exact ⟨node, List.mem_cons_self, rfl⟩

/-- Sets iterated in increasing order. -/
def sortedOrder : SetOrder where
  iterate s := s.sort (· ≤ ·)
  nodup s := s.sort_nodup (· ≤ ·)
  mem_iterate s _ := s.mem_sort (· ≤ ·)

/-- A router with sessions, before a Controller that knows nothing. -/
def sessionRouter : LoadAwareRouter String (List String) Unit where
  sessionKey := some "x-user-id"
  beta := 1
  ring := listRing
  setOrder := sortedOrder
  fromPretrained _ := .ok ()
  encode _ _ := .ok [1, 2, 3]
  postTokenize _ _ _ := .error (.other "ConnectionError")
  lookup _ := none
  answer _ ip := ip

/-- The ring and the bridge know only an engine that is gone. -/
def goneState : RouterState String (List String) Unit where
  bridge := ⟨Dict.ofList [("gone", "http://10.0.0.9:8000")], []⟩
  hashRing := ["http://10.0.0.9:8000"]
  tokenizer := none

/-- The same router, when the Controller names the engine that is gone and the second endpoint's. -/
def staleRouter : LoadAwareRouter String (List String) Unit :=
  { sessionRouter with lookup := fun _ => some (Dict.ofList [("gone", ("cpu", 3)), ("10.0.0.2", ("cpu", 2))]) }

/-- The two endpoints that are left. -/
def remainingEndpoints : List EndpointInfo := [⟨"http://10.0.0.1:8000", ["m"]⟩, ⟨"http://10.0.0.2:8000", ["m"]⟩]

theorem wellFormedUrl_remainingEndpoints : ∀ endpoint ∈ remainingEndpoints, WellFormedUrl endpoint.url := by
  simp only [remainingEndpoints, List.forall_mem_cons]
  exact ⟨⟨"10.0.0.1", "8000", by decide, by decide, List.all_eq_true.mp rfl⟩,
    ⟨"10.0.0.2", "8000", by decide, by decide, List.all_eq_true.mp rfl⟩, fun _ h => absurd h List.not_mem_nil⟩

/-- A request of a session, when its engine is gone: by the stale ring if the Controller
knows nothing, over the stale bridge if it still names the engine. -/
theorem routeRequest_returns_endpoint_goneState :
    (∃ endpoint ∈ remainingEndpoints,
      ((sessionRouter.routeRequest remainingEndpoints ∅ ⟨fun _ => some "user-42"⟩ ∅).exec goneState).1 =
        .ok (some endpoint.url)) ∧
    ∃ endpoint ∈ remainingEndpoints,
      ((staleRouter.routeRequest remainingEndpoints ∅ ⟨fun _ => some "user-42"⟩ ∅).exec goneState).1 =
        .ok (some endpoint.url) :=
  ⟨LoadAwareRouter.routeRequest_returns_endpoint lawful_listRing (List.cons_ne_nil _ _) wellFormedUrl_remainingEndpoints
      ⟨[1, 2, 3], rfl⟩ ∅ _,
    LoadAwareRouter.routeRequest_returns_endpoint lawful_listRing (List.cons_ne_nil _ _) wellFormedUrl_remainingEndpoints
      ⟨[1, 2, 3], rfl⟩ ∅ _⟩

/-- The second of them is on the cache route. -/
example : (staleRouter.lookup [1, 2, 3]).getD ∅ ≠ ∅ := by decide

end CachingInLLMs.Router

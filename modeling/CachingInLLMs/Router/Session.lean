import CachingInLLMs.Router.Route

/-!
# Sessions stay where they are

Without anything cached, a request that has a session id goes to the node of the hash ring
that owns the id. `SessionRouter` routes every request so; the other routers fall back on
it. The ring is brought up to date with the endpoints of each request, by removals and
additions, so it has a history.

`Consistent` is what makes a ring worth having: the owner of a key depends on the nodes
alone, and a key whose owner is still there when nodes leave keeps it. Then no history
shows (`session_affinity`): a session moves only if its endpoint leaves, and only to an
endpoint that is new if none leaves. `SessionRouter.routeRequest_eq_fallbackUrl` carries this over
to `SessionRouter`.
-/

namespace CachingInLLMs.Router

open CachingInLLMs.Library

/-- Who owns a key among some nodes, and that this is consistent. -/
structure Consistent (owner : Json → Finset String → Option String) : Prop where
  /-- If there are nodes, one of them owns the key. -/
  exists_owner : ∀ key nodes, nodes.Nonempty → ∃ u ∈ nodes, owner key nodes = some u
  /-- An owner that stays when others leave still owns the key. -/
  stays : ∀ key (nodes nodes' : Finset String) u, nodes' ⊆ nodes → owner key nodes = some u → u ∈ nodes' →
    owner key nodes' = some u

/-- A ring that finds the owner of a key among its nodes, however it got them. -/
structure HashRing.ConsistentWith {ρ : Type} (ring : HashRing ρ) (owner : Json → Finset String → Option String) :
    Prop extends ring.Lawful where
  /-- The owner is consistent. -/
  consistent : Consistent owner
  /-- The ring finds it. -/
  getNode_eq : ∀ key r, ring.getNode key r = owner key (ring.getNodes r).toFinset

/-- `SessionRouter`. -/
structure SessionRouter (ρ : Type) where
  /-- `session_key`. -/
  sessionKey : String
  /-- The methods of `hash_ring`. -/
  ring : HashRing ρ
  /-- The order in which `_update_hash_ring` iterates its sets. -/
  setOrder : SetOrder

namespace SessionRouter

variable {ρ : Type} (router : SessionRouter ρ)

/-- The methods of `RoutingInterface`, with the fields of the session router. -/
def interface : LoadAwareRouter Unit ρ Unit where
  sessionKey := some router.sessionKey
  beta := 0
  ring := router.ring
  setOrder := router.setOrder
  fromPretrained _ := .ok ()
  encode _ _ := .ok []
  postTokenize _ _ _ := .ok []
  lookup _ := none
  answer _ _ := ()

/-- `route_request`. -/
def routeRequest (endpoints : List EndpointInfo) (requestStats : Dict String RequestStats) (request : Request)
    (requestJson : Dict String Json) : Py ρ (Option String) := do
  let sessionId := router.interface.extractSessionId request requestJson
  router.interface.updateHashRing endpoints
  match sessionId with
  | none => return LoadAwareRouter.qpsRouting endpoints requestStats
  | some sessionId =>
    let r ← get
    return router.ring.getNode sessionId r

/-- It is the fallback of the other routers. -/
theorem routeRequest_eq_fallbackUrl (endpoints : List EndpointInfo) (requestStats : Dict String RequestStats)
    (request : Request) (requestJson : Dict String Json) :
    router.routeRequest endpoints requestStats request requestJson =
      router.interface.fallbackUrl endpoints requestStats request requestJson := by
  rw [routeRequest, LoadAwareRouter.fallbackUrl]
  rfl

end SessionRouter

section Affinity

variable {ι ρ τ : Type} {router : LoadAwareRouter ι ρ τ} {owner : Json → Finset String → Option String}

/-- A session goes to the owner of its id among the endpoints, whatever the ring was. -/
theorem fallbackUrl_of_session (hring : router.ring.ConsistentWith owner) {request : Request}
    {requestJson : Dict String Json} {sessionId : Json}
    (hsession : router.extractSessionId request requestJson = some sessionId) (endpoints : List EndpointInfo)
    (requestStats : Dict String RequestStats) (r : ρ) :
    ((router.fallbackUrl endpoints requestStats request requestJson).exec r).1 =
      .ok (owner sessionId (endpoints.map (·.url)).toFinset) := by
  obtain ⟨r', hupdate, hnodes⟩ := router.updateHashRing_exec hring.toLawful endpoints r
  have hset : (router.ring.getNodes r').toFinset = (endpoints.map (·.url)).toFinset := by
    ext n
    rw [List.mem_toFinset, List.mem_toFinset, hnodes]
  rw [LoadAwareRouter.fallbackUrl, Py.exec_bind_of_ok hupdate, hsession]
  dsimp only
  rw [Py.exec_bind_of_ok (Py.exec_get r'), Py.exec_pure, hring.getNode_eq, hset]

/-- What two requests of one session return. Each goes to one of its endpoints. With the
same endpoints they go to the same one; when endpoints left between them, only the sessions
on these have moved; and when endpoints came, sessions have moved only to these. -/
def KeepsSession (endpoints endpoints' : List EndpointInfo) (result result' : Except PyError (Option String)) : Prop :=
  ∃ u ∈ endpoints.map (·.url), ∃ u' ∈ endpoints'.map (·.url), result = .ok (some u) ∧ result' = .ok (some u') ∧
    (endpoints'.map (·.url) ⊆ endpoints.map (·.url) → u ∈ endpoints'.map (·.url) → u' = u) ∧
    (endpoints.map (·.url) ⊆ endpoints'.map (·.url) → u' ≠ u → u' ∉ endpoints.map (·.url))

theorem keepsSession_fallbackUrl (hring : router.ring.ConsistentWith owner) {request request' : Request}
    {requestJson requestJson' : Dict String Json} {sessionId : Json}
    (hsession : router.extractSessionId request requestJson = some sessionId)
    (hsession' : router.extractSessionId request' requestJson' = some sessionId)
    {endpoints endpoints' : List EndpointInfo} (hne : endpoints ≠ []) (hne' : endpoints' ≠ [])
    (requestStats requestStats' : Dict String RequestStats) (r r' : ρ) :
    KeepsSession endpoints endpoints' ((router.fallbackUrl endpoints requestStats request requestJson).exec r).1
      ((router.fallbackUrl endpoints' requestStats' request' requestJson').exec r').1 := by
  have hnonempty (l : List EndpointInfo) (h : l ≠ []) : (l.map (·.url)).toFinset.Nonempty := by
    obtain ⟨info, rest, rfl⟩ := List.exists_cons_of_ne_nil h
    exact ⟨info.url, List.mem_toFinset.mpr List.mem_cons_self⟩
  have hsubset {l l' : List EndpointInfo} (h : l.map (·.url) ⊆ l'.map (·.url)) :
      (l.map (·.url)).toFinset ⊆ (l'.map (·.url)).toFinset := fun u hu =>
    List.mem_toFinset.mpr (h (List.mem_toFinset.mp hu))
  obtain ⟨u, hu, howner⟩ := hring.consistent.exists_owner sessionId _ (hnonempty endpoints hne)
  obtain ⟨u', hu', howner'⟩ := hring.consistent.exists_owner sessionId _ (hnonempty endpoints' hne')
  refine ⟨u, List.mem_toFinset.mp hu, u', List.mem_toFinset.mp hu', ?_, ?_, fun hleft hstayed => ?_, fun hcame hmoved hold => ?_⟩
  · rw [fallbackUrl_of_session hring hsession, howner]
  · rw [fallbackUrl_of_session hring hsession', howner']
  · have hstays := hring.consistent.stays sessionId _ _ u (hsubset hleft) howner (List.mem_toFinset.mpr hstayed)
    exact Option.some.inj (howner'.symm.trans hstays)
  · have hstays := hring.consistent.stays sessionId _ _ u' (hsubset hcame) howner' (List.mem_toFinset.mpr hold)
    exact hmoved (Option.some.inj (hstays.symm.trans howner))

/-- **Sessions stay**, whatever the ring had seen before each of two requests: on the
fallback of the routers, and with a `SessionRouter`. -/
theorem session_affinity (hring : router.ring.ConsistentWith owner) {request request' : Request}
    {requestJson requestJson' : Dict String Json} {sessionId : Json}
    (hsession : router.extractSessionId request requestJson = some sessionId)
    (hsession' : router.extractSessionId request' requestJson' = some sessionId)
    {endpoints endpoints' : List EndpointInfo} (hne : endpoints ≠ []) (hne' : endpoints' ≠ [])
    (requestStats requestStats' : Dict String RequestStats) (r r' : ρ) :
    KeepsSession endpoints endpoints' ((router.fallbackUrl endpoints requestStats request requestJson).exec r).1
      ((router.fallbackUrl endpoints' requestStats' request' requestJson').exec r').1 ∧
    ∀ session : SessionRouter ρ, session.ring.ConsistentWith owner →
      session.interface.extractSessionId request requestJson = some sessionId →
      session.interface.extractSessionId request' requestJson' = some sessionId →
      KeepsSession endpoints endpoints' ((session.routeRequest endpoints requestStats request requestJson).exec r).1
        ((session.routeRequest endpoints' requestStats' request' requestJson').exec r').1 := by
  refine ⟨keepsSession_fallbackUrl hring hsession hsession' hne hne' requestStats requestStats' r r', ?_⟩
  intro session hring hsession hsession'
  rw [SessionRouter.routeRequest_eq_fallbackUrl, SessionRouter.routeRequest_eq_fallbackUrl]
  exact keepsSession_fallbackUrl hring hsession hsession' hne hne' requestStats requestStats' r r'

end Affinity

/-! ### A consistent ring -/

/-- The least node owns every key. -/
def leastNode (_ : Json) (nodes : Finset String) : Option String := (sortedOrder.iterate nodes).head?

theorem leastNode_eq_some {key : Json} {nodes : Finset String} {u : String} :
    leastNode key nodes = some u ↔ u ∈ nodes ∧ ∀ v ∈ nodes, u ≤ v := by
  have hmem (v : String) : v ∈ nodes.sort (· ≤ ·) ↔ v ∈ nodes := Finset.mem_sort _
  have hsorted := nodes.pairwise_sort (· ≤ ·)
  rw [leastNode, show sortedOrder.iterate nodes = nodes.sort (· ≤ ·) from rfl]
  cases hsort : nodes.sort (· ≤ ·) with
  | nil =>
    rw [hsort] at hmem
    constructor
    · exact fun h => by cases h
    · exact fun h => absurd ((hmem u).mpr h.1) List.not_mem_nil
  | cons w rest =>
    rw [hsort] at hmem hsorted
    rw [List.head?_cons, Option.some_inj]
    constructor
    · rintro rfl
      refine ⟨(hmem w).mp List.mem_cons_self, fun v hv => ?_⟩
      rcases List.mem_cons.mp ((hmem v).mpr hv) with rfl | hrest
      · exact le_rfl
      · exact (List.pairwise_cons.mp hsorted).1 v hrest
    · rintro ⟨hu, hle⟩
      have hw := hle w ((hmem w).mp List.mem_cons_self)
      rcases List.mem_cons.mp ((hmem u).mpr hu) with rfl | hrest
      · rfl
      · exact le_antisymm ((List.pairwise_cons.mp hsorted).1 u hrest) hw

theorem consistent_leastNode : Consistent leastNode where
  exists_owner key nodes h := by
    have hmin := nodes.min'_mem h
    exact ⟨nodes.min' h, hmin, leastNode_eq_some.mpr ⟨hmin, fun v hv => nodes.min'_le v hv⟩⟩
  stays key nodes nodes' u hsub howner hu :=
    leastNode_eq_some.mpr ⟨hu, fun v hv => (leastNode_eq_some.mp howner).2 v (hsub hv)⟩

/-- Lists of nodes, with that owner. -/
def leastRing : HashRing (List String) := { listRing with getNode := fun key r => leastNode key r.toFinset }

theorem consistentWith_leastRing : leastRing.ConsistentWith leastNode where
  addNode := lawful_listRing.addNode
  removeNode := lawful_listRing.removeNode
  getNode r key h := consistent_leastNode.exists_owner key r.toFinset
    ((List.toFinset_nonempty_iff r).mpr h) |>.imp fun _ hu => ⟨List.mem_toFinset.mp hu.1, hu.2⟩
  consistent := consistent_leastNode
  getNode_eq _ _ := rfl

/-- The router of a session, with that ring. -/
def leastRouter : LoadAwareRouter String (List String) Unit := { sessionRouter with ring := leastRing }

/-- The session router, with that ring. -/
def leastSessionRouter : SessionRouter (List String) := ⟨"x-user-id", leastRing, sortedOrder⟩

/-- An endpoint leaves between two requests of a session; the ring has seen another before. The session stays
where it is, on the fallback and with a `SessionRouter`. -/
theorem session_affinity_leastRouter :
    (((leastRouter.fallbackUrl [⟨"http://b", []⟩, ⟨"http://a", []⟩] ∅ ⟨fun _ => some "user-6"⟩ ∅).exec
        ["http://c"]).1 = .ok (some "http://a") ∧
      ((leastRouter.fallbackUrl [⟨"http://a", []⟩] ∅ ⟨fun _ => some "user-6"⟩ ∅).exec []).1 = .ok (some "http://a")) ∧
    KeepsSession [⟨"http://b", []⟩, ⟨"http://a", []⟩] [⟨"http://a", []⟩]
      ((leastRouter.fallbackUrl [⟨"http://b", []⟩, ⟨"http://a", []⟩] ∅ ⟨fun _ => some "user-6"⟩ ∅).exec ["http://c"]).1
      ((leastRouter.fallbackUrl [⟨"http://a", []⟩] ∅ ⟨fun _ => some "user-6"⟩ ∅).exec []).1 ∧
    KeepsSession [⟨"http://b", []⟩, ⟨"http://a", []⟩] [⟨"http://a", []⟩]
      ((leastSessionRouter.routeRequest [⟨"http://b", []⟩, ⟨"http://a", []⟩] ∅ ⟨fun _ => some "user-6"⟩ ∅).exec
        ["http://c"]).1
      ((leastSessionRouter.routeRequest [⟨"http://a", []⟩] ∅ ⟨fun _ => some "user-6"⟩ ∅).exec []).1 := by
  have hsession : leastRouter.extractSessionId ⟨fun _ => some "user-6"⟩ ∅ = some (.string "user-6") := rfl
  have hsession' : leastSessionRouter.interface.extractSessionId ⟨fun _ => some "user-6"⟩ ∅ = some (.string "user-6") := rfl
  have hboth : ([⟨"http://b", []⟩, ⟨"http://a", []⟩] : List EndpointInfo) ≠ [] := List.cons_ne_nil _ _
  have hone : ([⟨"http://a", []⟩] : List EndpointInfo) ≠ [] := List.cons_ne_nil _ _
  have hring : leastRouter.ring.ConsistentWith leastNode := consistentWith_leastRing
  obtain ⟨hfallback, hrouter⟩ := session_affinity hring hsession hsession hboth hone ∅ ∅ ["http://c"] []
  refine ⟨⟨?_, ?_⟩, hfallback, hrouter leastSessionRouter consistentWith_leastRing hsession' hsession'⟩
  · exact (fallbackUrl_of_session hring hsession _ ∅ _).trans (congrArg _ (leastNode_eq_some.mpr (by decide)))
  · exact (fallbackUrl_of_session hring hsession _ ∅ _).trans (congrArg _ (leastNode_eq_some.mpr (by decide)))

end CachingInLLMs.Router

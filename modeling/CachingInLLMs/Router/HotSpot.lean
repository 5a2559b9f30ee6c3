import CachingInLLMs.Library.InFlight
import CachingInLLMs.Router.KvawareRoute

/-!
# The hot spot

A prefix that everybody asks about is held by one engine. `KvawareRouter` sends all of these requests
there; `LoadAwareRouter` weighs what is in flight, and the weight bounds what it sends there.

## The model

`Serving` is a cluster and the requests that it is serving. A request joins them when a URL is returned for
it, and leaves at any time. `careful` are those for which somebody held a prefix of the prompt; the others
are placed by the fallback, which knows nothing of what is in flight.

`Admits others n` is about the requests that come: `request_stats` reports what is in flight, at most `others`
requests are, and the endpoints have `n` URLs or more.

## What is proved

* `hot_spot_bounded`: no engine ever has more careful requests in flight than a share of all, and as
  many again over `beta`.
* `routed_of_first`: under `kvaware` the requests for a prompt go to the engine whose admit of its first chunk is the
  first that survives, whatever `request_stats` says.
* `kvaware_concentrates`: so nothing bounds what is in flight there.
-/

namespace CachingInLLMs.Router

open CachingInLLMs.Library CachingInLLMs.Controller

variable {ι κ ρ τ : Type} [DecidableEq ι] [DecidableEq κ]

/-- The cluster, and the requests that it is serving. -/
structure Serving (ι κ ρ τ : Type) where
  /-- The cluster. -/
  cluster : Cluster ι κ ρ τ
  /-- The requests in flight. -/
  jobs : List (Job String)

/-- What can happen. -/
inductive ServingEvent (ι κ : Type) where
  /-- Something happens in the cluster. -/
  | cluster (e : ClusterEvent ι κ)
  /-- A request is done. -/
  | finish (k : ℕ)

/-- A request comes. -/
def ServingEvent.isRequest : ServingEvent ι κ → Bool
  | .cluster (.request _) => true
  | _ => false

/-- A request is done. -/
def ServingEvent.isFinish : ServingEvent ι κ → Bool
  | .finish _ => true
  | .cluster _ => false

/-- The event, if it happens in the cluster. -/
def ServingEvent.inCluster : ServingEvent ι κ → Option (ClusterEvent ι κ)
  | .cluster e => some e
  | .finish _ => none

/-- What happens in the cluster. -/
def clusterEvents (es : List (ServingEvent ι κ)) : List (ClusterEvent ι κ) := es.filterMap ServingEvent.inCluster

/-- Somebody holds a prefix of the prompt. -/
def Cluster.finds (policy : LoadAwareRouter ι ρ τ) (s : Cluster ι κ ρ τ) (call : RouteCall) : Bool :=
  match ((policy.tokenizePrompt call.endpoints call.requestJson).exec s.router.tokenizer).1 with
  | .ok tokenIds => decide ((s.layoutInfo tokenIds).keys ≠ [])
  | .error _ => false

/-- What an event adds to the requests in flight. -/
def Cluster.placed (policy : LoadAwareRouter ι ρ τ) (routes : Cluster.Routes ι κ ρ τ) (s : Cluster ι κ ρ τ) :
    ClusterEvent ι κ → List (Job String)
  | .boot _ _ => []
  | .kv _ => []
  | .request call =>
    match (routes s call).1 with
    | .ok (some u) => [⟨u, s.finds policy call⟩]
    | .ok none => []
    | .error _ => []

namespace Serving

/-- One event. -/
def step? (policy : LoadAwareRouter ι ρ τ) (routes : Cluster.Routes ι κ ρ τ) (unregistered : ι)
    (s : Serving ι κ ρ τ) : ServingEvent ι κ → Option (Serving ι κ ρ τ)
  | .cluster e => (s.cluster.step? routes unregistered e).map fun cluster =>
    ⟨cluster, s.jobs ++ s.cluster.placed policy routes e⟩
  | .finish k => some { s with jobs := s.jobs.eraseIdx k }

/-- The event leads from one state to the next. -/
def Step (policy : LoadAwareRouter ι ρ τ) (routes : Cluster.Routes ι κ ρ τ) (unregistered : ι)
    (s : Serving ι κ ρ τ) (e : ServingEvent ι κ) (s' : Serving ι κ ρ τ) : Prop :=
  s.step? policy routes unregistered e = some s'

variable {policy : LoadAwareRouter ι ρ τ} {routes : Cluster.Routes ι κ ρ τ} {unregistered : ι} {threshold : Option ℤ}
  {s s' : Serving ι κ ρ τ} {e : ServingEvent ι κ} {es : List (ServingEvent ι κ)} {j : ι} {u : String}

/-- What an event was, and what it did. -/
theorem step_cases (h : s.Step policy routes unregistered e s') :
    (∃ call, e = .cluster (.request call) ∧ s'.cluster = { s.cluster with router := (routes s.cluster call).2 } ∧
      s'.jobs = s.jobs ++ s.cluster.placed policy routes (.request call)) ∨
    (e.isRequest = false ∧ e.isFinish = false ∧ s'.cluster.router = s.cluster.router ∧ s'.jobs = s.jobs) ∨
    ∃ k, e = .finish k ∧ s' = { s with jobs := s.jobs.eraseIdx k } := by
  cases e with
  | finish k => exact .inr (.inr ⟨k, rfl, (Option.some.inj h).symm⟩)
  | cluster e =>
    obtain ⟨cluster, hstep, rfl⟩ := Option.map_eq_some_iff.mp h
    obtain ⟨url, i, hfresh, rfl, -, rfl⟩ | ⟨m, rfl, -, rfl⟩ | ⟨call, rfl, rfl⟩ := Cluster.step_cases hstep
    · exact .inr (.inl ⟨rfl, rfl, rfl, List.append_nil _⟩)
    · exact .inr (.inl ⟨rfl, rfl, rfl, List.append_nil _⟩)
    · exact .inl ⟨call, rfl, rfl, rfl⟩

end Serving

/-! ### What a placement guarantees -/

section Placement

variable {policy : LoadAwareRouter ι ρ τ} {unregistered : ι} {s : Cluster ι κ ρ τ} {call : RouteCall} {u : String}

omit [DecidableEq κ] in
/-- A cache route that returns a URL has chosen it. -/
theorem chosen_of_cacheRoute {router : LoadAwareRouter ι ρ τ} {r : RouterState ι ρ τ} {endpoints : List EndpointInfo}
    (hne : endpoints ≠ []) {requestStats : Dict String RequestStats} {request : Request} {requestJson : Dict String Json}
    {layoutInfo : LayoutInfo ι} {promptTokens : ℕ}
    (h : ((router.cacheRoute endpoints requestStats request requestJson layoutInfo promptTokens).exec r).1 =
      .ok (some u)) :
    ∃ instanceIdToIp : Dict ι String, Chosen (urls endpoints)
      (policyScore router.beta instanceIdToIp endpoints requestStats layoutInfo promptTokens) u := by
  cases hrefresh : (refreshInstanceMap router.answer endpoints layoutInfo).exec r.bridge with
  | mk result bridge =>
    cases result with
    | error e =>
      have honBridge : (LoadAwareRouter.onBridge (refreshInstanceMap router.answer endpoints layoutInfo)).exec r =
          (.error e, { r with bridge }) := by rw [LoadAwareRouter.onBridge, Py.exec_zoom, hrefresh]
      rw [LoadAwareRouter.cacheRoute, Py.exec_bind_of_error honBridge] at h
      cases h
    | ok _ =>
      have honBridge : (LoadAwareRouter.onBridge (refreshInstanceMap router.answer endpoints layoutInfo)).exec r =
          (.ok ⟨⟩, { r with bridge }) := by rw [LoadAwareRouter.onBridge, Py.exec_zoom, hrefresh]
      obtain ⟨u', hselect, hchosen⟩ :=
        exists_chosen router.beta bridge.instanceIdToIp requestStats layoutInfo promptTokens hne
      rw [LoadAwareRouter.cacheRoute, Py.exec_bind_of_ok honBridge, Py.exec_bind_of_ok (Py.exec_get _), hselect,
        Py.exec_bind_of_ok (Py.exec_ofExcept _ _)] at h
      cases h
      exact ⟨bridge.instanceIdToIp, hchosen⟩

/-- The counts of the Controller are ends of chunks. -/
theorem layoutInfo_nonneg (s : Cluster ι κ ρ τ) (tokenIds : List ℕ) {i : ι} {info : String × ℤ}
    (h : (s.layoutInfo tokenIds).get? i = some info) : 0 ≤ info.2 := by
  rw [Cluster.layoutInfo, KVController.lookup_get?] at h
  have hcount := KVController.credit_map_snd s.controller.kvPool i (s.controller.processTokens tokenIds)
  rw [show KVController.credit s.controller.kvPool i (s.controller.processTokens tokenIds) = some info from h] at hcount
  obtain ⟨chunk, -, hstop⟩ := Option.map_eq_some_iff.mp hcount.symm
  rw [← hstop]
  exact Int.natCast_nonneg _

omit [DecidableEq κ] in
/-- A benefit is a fraction. -/
theorem benefit_mem_unit {instanceIdToIp : Dict ι String} {layoutInfo : LayoutInfo ι} (promptTokens : ℕ)
    (hmatched : 0 ≤ matched instanceIdToIp layoutInfo u) :
    0 ≤ benefit instanceIdToIp layoutInfo promptTokens u ∧ benefit instanceIdToIp layoutInfo promptTokens u ≤ 1 := by
  have hpos : (0 : ℚ) < ((max (promptTokens : ℤ) 1 : ℤ) : ℚ) := by exact_mod_cast lt_max_of_lt_right one_pos
  have hmin : 0 ≤ min (matched instanceIdToIp layoutInfo u) promptTokens := le_min hmatched (Int.natCast_nonneg _)
  constructor
  · exact div_nonneg (by exact_mod_cast hmin) hpos.le
  · rw [benefit, div_le_one hpos]
    exact Int.cast_le.mpr ((min_le_right _ _).trans (le_max_left _ _))

omit [DecidableEq κ] in
/-- No match is worth more than `max(1, mean) / beta` requests. -/
theorem lead_of_chosen {beta : ℚ} {instanceIdToIp : Dict ι String} {endpoints : List EndpointInfo}
    {requestStats : Dict String RequestStats} {layoutInfo : LayoutInfo ι} {promptTokens : ℕ} (hbeta : 0 < beta)
    (hcount : ∀ i info, layoutInfo.get? i = some info → 0 ≤ info.2)
    (h : Chosen (urls endpoints) (policyScore beta instanceIdToIp endpoints requestStats layoutInfo promptTokens) u)
    {v : String} (hv : v ∈ urls endpoints) :
    inFlight requestStats u - inFlight requestStats v ≤
      max 1 (averageLoad (urls endpoints) (inFlight requestStats)) / beta := by
  have hcost := h.cost_le hv
  have hunit (w : String) := benefit_mem_unit promptTokens (matched_nonneg (ι := ι) hcount w : 0 ≤ matched instanceIdToIp _ w)
  have hu := (hunit u).2
  have hv := (hunit v).1
  rw [← mul_div_assoc, div_le_iff₀ (max_one_pos _)] at hcost
  have hgain : (benefit instanceIdToIp layoutInfo promptTokens u - benefit instanceIdToIp layoutInfo promptTokens v) *
      max 1 (averageLoad (urls endpoints) (inFlight requestStats)) ≤
        1 * max 1 (averageLoad (urls endpoints) (inFlight requestStats)) :=
    mul_le_mul_of_nonneg_right (by linarith) (max_one_pos _).le
  rw [le_div_iff₀ hbeta]
  linarith

/-- A request for which somebody holds a prefix is sent where the policy says. -/
theorem chosen_of_route (hne : call.endpoints ≠ []) (hfinds : s.finds policy call)
    (hroute : (s.route policy unregistered call).1 = .ok (some u)) :
    ∃ (instanceIdToIp : Dict ι String) (tokenIds : List ℕ), Chosen (urls call.endpoints)
      (policyScore policy.beta instanceIdToIp call.endpoints call.requestStats (s.layoutInfo tokenIds)
        tokenIds.length) u := by
  rw [Cluster.finds] at hfinds
  cases htokens : ((policy.tokenizePrompt call.endpoints call.requestJson).exec s.router.tokenizer).1 with
  | error e =>
    rw [htokens] at hfinds
    cases hfinds
  | ok tokenIds =>
    rw [htokens] at hfinds
    have hkeys : (s.layoutInfo tokenIds).keys ≠ [] := of_decide_eq_true hfinds
    have hserved : (((s.served policy unregistered).tokenizePrompt call.endpoints call.requestJson).exec
        s.router.tokenizer).1 = .ok tokenIds := htokens
    obtain ⟨tokenizer, hexec⟩ := LoadAwareRouter.routeRequest_exec hserved call.requestStats call.request
    have hlookup : ((s.served policy unregistered).lookup tokenIds).getD ∅ = s.layoutInfo tokenIds := rfl
    rw [hlookup, if_neg hkeys] at hexec
    rw [Cluster.route, hexec] at hroute
    obtain ⟨instanceIdToIp, hchosen⟩ := chosen_of_cacheRoute hne hroute
    exact ⟨instanceIdToIp, tokenIds, hchosen⟩

end Placement

/-! ### The bound -/

namespace Serving

variable {policy : LoadAwareRouter ι ρ τ} {unregistered : ι} {threshold : Option ℤ} {s s' : Serving ι κ ρ τ}
  {e : ServingEvent ι κ} {es : List (ServingEvent ι κ)} {others n : ℕ} {j : ι} {u : String}

/-- What comes: `request_stats` reports what is in flight on the endpoints, which is not too much. -/
structure Admits (others n : ℕ) (s : Serving ι κ ρ τ) (call : RouteCall) : Prop where
  /-- The requests in flight. -/
  few : s.jobs.length ≤ others
  /-- The URLs. -/
  urls : n ≤ (urls call.endpoints).card
  /-- `request_stats`. -/
  reports : ∀ v ∈ Router.urls call.endpoints, loadPenalty call.requestStats v = jobsAt s.jobs v

/-- A share of all, as many again over `beta`, and the request itself. -/
def hotSpot (beta : ℚ) (others n : ℕ) : ℚ := others / n + max 1 ((others : ℚ) / n) / beta + 1

/-- The engine that is chosen has room. -/
theorem room_of_chosen {call : RouteCall} (hbeta : 0 < policy.beta) (hn : 0 < n) (h : s.Admits others n call)
    (hfinds : s.cluster.finds policy call) (hroute : (s.cluster.route policy unregistered call).1 = .ok (some u)) :
    (jobsAt s.jobs u : ℚ) + 1 ≤ hotSpot policy.beta others n := by
  have hne : call.endpoints ≠ [] := by
    intro hnil
    have hcard := h.urls
    rw [hnil] at hcard
    exact absurd (hn.trans_le hcard) (lt_irrefl 0)
  obtain ⟨instanceIdToIp, tokenIds, hchosen⟩ := chosen_of_route hne hfinds hroute
  have hlead := le_mean_add_of_lead hchosen.1 fun v hv =>
    lead_of_chosen hbeta (fun i info => layoutInfo_nonneg s.cluster tokenIds) hchosen hv
  have hreports : ∀ v ∈ urls call.endpoints, inFlight call.requestStats v = jobsAt s.jobs v := fun v hv => by
    rw [inFlight, h.reports v hv, Int.cast_natCast]
  have hmean : averageLoad (urls call.endpoints) (inFlight call.requestStats) ≤ others / n := by
    rw [averageLoad, Finset.sum_congr rfl hreports]
    exact mean_le hn h.urls h.few
  rw [← averageLoad, hreports u hchosen.1] at hlead
  have hslack : max 1 (averageLoad (urls call.endpoints) (inFlight call.requestStats)) / policy.beta ≤
      max 1 ((others : ℚ) / n) / policy.beta := div_le_div_of_nonneg_right (max_le_max_left 1 hmean) hbeta.le
  rw [hotSpot]
  linarith

/-- One event keeps the bound. -/
theorem carefulAt_step (hbeta : 0 < policy.beta) (hn : 0 < n)
    (hadmits : ∀ call, e = .cluster (.request call) → s.Admits others n call)
    (hbound : ∀ v, carefulAt s.jobs v ≤ hotSpot policy.beta others n)
    (hstep : s.Step policy (fun c => c.route policy unregistered) unregistered e s') :
    ∀ v, carefulAt s'.jobs v ≤ hotSpot policy.beta others n := by
  intro v
  obtain ⟨call, rfl, -, hjobs⟩ | ⟨-, -, -, hjobs⟩ | ⟨k, rfl, rfl⟩ := step_cases hstep
  · rw [hjobs, Cluster.placed]
    cases hroute : (s.cluster.route policy unregistered call).1 with
    | error err => simpa using hbound v
    | ok url =>
      cases url with
      | none => simpa using hbound v
      | some u =>
        refine carefulAt_concat_le hbound (fun hcareful => ?_) v
        exact room_of_chosen hbeta hn (hadmits call rfl) hcareful hroute
  · rw [hjobs]
    exact hbound v
  · refine le_trans ?_ (hbound v)
    exact_mod_cast carefulAt_eraseIdx_le s.jobs k v

/-- **The hot spot is bounded.** Engines boot, workers report, requests come and go in any order, and the Controller
may name whom it likes. As long as each request comes while at most `others` are in flight, and has endpoints with
`n` URLs or more, no engine ever has more than `others / n + max(1, others / n) / beta + 1` requests for which
somebody held a prefix. -/
theorem hot_spot_bounded (hbeta : 0 < policy.beta) (hn : 0 < n) (hjobs : s.jobs = [])
    (hrun : Run (Serving.Step policy (fun c => c.route policy unregistered) unregistered) s es s')
    (hadmits : EveryStep (Serving.Step policy (fun c => c.route policy unregistered) unregistered)
      (fun t e => ∀ call, e = .cluster (.request call) → t.Admits others n call) s es) (u : String) :
    carefulAt s'.jobs u ≤ (others : ℚ) / n + max 1 ((others : ℚ) / n) / policy.beta + 1 := by
  have hstart : ∀ v, (carefulAt s.jobs v : ℚ) ≤ hotSpot policy.beta others n := by
    intro v
    have hslack : 0 < max 1 ((others : ℚ) / n) / policy.beta := div_pos (max_one_pos _) hbeta
    have hshare : (0 : ℚ) ≤ others / n := div_nonneg (Nat.cast_nonneg _) (Nat.cast_nonneg _)
    rw [hjobs, hotSpot]
    show ((0 : ℕ) : ℚ) ≤ _
    rw [Nat.cast_zero]
    linarith
  exact hrun.invariant_of_every (fun t e t' he ht hstep => carefulAt_step hbeta hn he ht hstep) hadmits hstart u

/-- The first of two engines holds the prompt, and the router knows both; nothing is in flight. -/
def heldByFirst : Serving ℕ ℕ (List String) Unit where
  cluster :=
    { engines := .start
      controller := ⟨Dict.ofList [(7, [⟨1, 0, "cpu"⟩])], oneChunk⟩
      router := ⟨⟨Dict.ofList [(1, "http://10.0.0.1:8000"), (2, "http://10.0.0.2:8000")], []⟩, [], none⟩ }
  jobs := []

/-- A request to both engines, while the first has `k` requests in flight. -/
def callAt (k : ℕ) : RouteCall :=
  { callBoth with requestStats := Dict.ofList [("http://10.0.0.1:8000", ⟨0, 0, k⟩)] }

theorem loadPenalty_callAt (k : ℕ) (u : String) :
    loadPenalty (callAt k).requestStats u = if u = "http://10.0.0.1:8000" then (k : ℤ) else 0 := by
  have hget : (callAt k).requestStats.get? u = if u = "http://10.0.0.1:8000" then some ⟨0, 0, k⟩ else none := by
    rw [callAt, Dict.ofList, Dict.update_cons, Dict.update, List.foldl_nil, Dict.get?_set, Dict.get?_empty]
  have hkeys : (callAt k).requestStats.keys ≠ [] := List.cons_ne_nil _ _
  rw [loadPenalty, if_pos hkeys, hget]
  split_ifs
  · exact zero_add _
  · rfl

/-- Three requests go to the first engine, of which one is done; then there is enough, and the next goes to the
other one. -/
def comeAndGo : List (ServingEvent ℕ ℕ) :=
  [.cluster (.request (callAt 0)), .cluster (.request (callAt 1)), .finish 0, .cluster (.request (callAt 1)),
    .cluster (.request (callAt 2))]

theorem admits_callAt {k : ℕ} {t : Serving ℕ ℕ (List String) Unit} (hk : k ≤ others)
    (hjobs : t.jobs = List.replicate k ⟨"http://10.0.0.1:8000", true⟩) : t.Admits others 2 (callAt k) := by
  refine ⟨?_, ?_, fun v _ => ?_⟩
  · rw [hjobs, List.length_replicate]
    exact hk
  · show 2 ≤ (Router.urls callBoth.endpoints).card
    decide +kernel
  · rw [loadPenalty_callAt, hjobs, jobsAt, List.countP_replicate]
    by_cases hv : v = "http://10.0.0.1:8000"
    · simp [hv]
    · simp [hv, Ne.symm hv]

/-- Four requests, while at most two are in flight. -/
theorem hot_spot_bounded_heldByFirst : ∃ s' : Serving ℕ ℕ (List String) Unit,
    Run (Serving.Step numberedRouter (fun c => c.route numberedRouter 0) 0) heldByFirst comeAndGo s' ∧
    s'.jobs.map Job.server = ["http://10.0.0.1:8000", "http://10.0.0.1:8000", "http://10.0.0.2:8000"] ∧
    (carefulAt s'.jobs "http://10.0.0.1:8000" : ℚ) ≤ 3 := by
  have hjobs (es : List (ServingEvent ℕ ℕ)) (jobs : List (Job String)) (t : Serving ℕ ℕ (List String) Unit)
      (hes : (runAll? (Serving.step? numberedRouter (fun c => c.route numberedRouter 0) 0) heldByFirst es).map
        Serving.jobs = some jobs)
      (hrun : Run (Serving.Step numberedRouter (fun c => c.route numberedRouter 0) 0) heldByFirst es t) : t.jobs = jobs := by
    rw [runAll?_of_run hrun] at hes
    exact Option.some.inj hes
  have hevery : EveryStep (Serving.Step numberedRouter (fun c => c.route numberedRouter 0) 0)
      (fun t e => ∀ call, e = .cluster (.request call) → t.Admits 2 2 call) heldByFirst comeAndGo := by
    refine ((((everyStep_single ?_).concat fun t ht => ?_).concat fun t ht => ?_).concat fun t ht => ?_).concat
      fun t ht => ?_
    · rintro call ⟨⟩
      exact admits_callAt (by decide) rfl
    · rintro call ⟨⟩
      exact admits_callAt (by decide) (hjobs _ _ t (by decide +kernel) ht)
    · exact fun call hcall => nomatch hcall
    · rintro call ⟨⟩
      exact admits_callAt (by decide) (hjobs _ _ t (by decide +kernel) ht)
    · rintro call ⟨⟩
      exact admits_callAt (by decide) (hjobs _ _ t (by decide +kernel) ht)
  obtain ⟨s', hs'⟩ : ∃ s', runAll? (Serving.step? numberedRouter (fun c => c.route numberedRouter 0) 0) heldByFirst
      comeAndGo = some s' := Option.isSome_iff_exists.mp (by decide +kernel)
  have hrun := run_of_runAll? hs'
  refine ⟨s', hrun, ?_, ?_⟩
  · rw [hjobs comeAndGo [⟨"http://10.0.0.1:8000", true⟩, ⟨"http://10.0.0.1:8000", true⟩, ⟨"http://10.0.0.2:8000", true⟩] s'
      (by decide +kernel) hrun]
    rfl
  · refine (hot_spot_bounded (by norm_num [numberedRouter]) two_pos rfl hrun hevery "http://10.0.0.1:8000").trans ?_
    norm_num [numberedRouter]

/-! ### Without a weight -/

section Concentration

variable {routes : Cluster.Routes ι κ ρ τ} {limit : ℤ} {processTokens : List ℕ → List (Chunk κ)} {hashRing : ρ}
  {fleet : Fleet} {t : KVMsg ι κ} {chunk : Chunk κ}

theorem step_cluster {e : ClusterEvent ι κ} {c : Cluster ι κ ρ τ} (h : s.cluster.StepBy routes unregistered e c) :
    s.Step policy routes unregistered (.cluster e) ⟨c, s.jobs ++ s.cluster.placed policy routes e⟩ := by
  have hstep : s.cluster.step? routes unregistered e = some c := h
  rw [Step, step?, hstep]
  rfl

/-- The run of the cluster in a run. -/
theorem run_cluster (h : Run (Serving.Step policy routes unregistered) s es s') :
    Run (Cluster.StepBy routes unregistered) s.cluster (clusterEvents es) s'.cluster := by
  induction h with
  | nil => exact Run.nil _
  | @cons s s₁ s' e es hstep _ ih =>
    cases e with
    | finish k =>
      obtain rfl := Option.some.inj hstep
      exact ih
    | cluster e =>
      obtain ⟨cluster, hcluster, rfl⟩ := Option.map_eq_some_iff.mp hstep
      exact Run.cons hcluster ih

/-- The request asks for a prompt that begins with the chunk, and the instance holds enough of it. -/
def Asks (policy : LoadAwareRouter ι ρ τ) (limit : ℤ) (chunk : Chunk κ) (j : ι) (s : Serving ι κ ρ τ) (call : RouteCall) :
    Prop :=
  ∃ tokenIds info, s.cluster.Tokenizes policy call tokenIds ∧
    (s.cluster.controller.processTokens tokenIds).head? = some chunk ∧
      (s.cluster.layoutInfo tokenIds).get? j = some info ∧ tokenIds.length - limit ≤ info.2

omit [DecidableEq κ] in
/-- A request for which enough is held stays on the cache route. -/
theorem stays_of_enough {layoutInfo : LayoutInfo ι} {info : String × ℤ} {promptTokens : ℕ}
    (hselected : Kvaware.selectedInstance layoutInfo = some j) (hinfo : layoutInfo.get? j = some info)
    (hnonneg : 0 ≤ info.2) (henough : promptTokens - limit ≤ info.2) :
    Kvaware.leavesCacheRoute (some limit) layoutInfo promptTokens = .ok false := by
  have hkeys : layoutInfo.keys ≠ [] := List.ne_nil_of_mem (Dict.mem_keys.mpr (Dict.mem_of_get? hinfo))
  have hmax : ¬ info.2 < max (promptTokens - limit) 0 := not_lt.mpr (max_le henough hnonneg)
  rw [Kvaware.leavesCacheRoute, if_neg hkeys, hselected, Option.bind_some, hinfo]
  exact congrArg Except.ok (decide_eq_false hmax)

/-- An instance that the router knows is known after any event, and where it ran stays known. -/
theorem known_step {c c' : Cluster ι κ ρ τ} {e : ClusterEvent ι κ} (he : e.InFleet fleet)
    (hknown : j ∈ c.router.bridge.instanceIdToIp ∧ c.engines.booted.get? j = some (ipOf u))
    (hstep : c.KvawareStep policy threshold unregistered e c') :
    j ∈ c'.router.bridge.instanceIdToIp ∧ c'.engines.booted.get? j = some (ipOf u) := by
  obtain ⟨url, i, hfresh, rfl, -, rfl⟩ | ⟨m, rfl, -, rfl⟩ | ⟨call, rfl, rfl⟩ := Cluster.step_cases hstep
  · exact ⟨hknown.1, Engines.booted_boot hfresh hknown.2⟩
  · exact hknown
  · refine ⟨?_, hknown.2⟩
    show j ∈ (c.kvawareRoute policy threshold unregistered call).2.bridge.instanceIdToIp
    rcases kvawareRoute_bridge policy threshold unregistered c he with hbridge | hbridge
    · rw [hbridge]
      exact hknown.1
    · rw [hbridge, BridgeState.refreshed, learned_const, Dict.mem_update]
      exact .inr hknown.1

/-- An engine that is not replaced keeps its id. -/
theorem current_step {c c' : Cluster ι κ ρ τ} {e : ClusterEvent ι κ} (hu : u ∈ fleet.urls) (he : e.InFleet fleet)
    (hkeeps : e.Keeps u) (hcurrent : c.engines.currentId u = some j)
    (hstep : c.KvawareStep policy threshold unregistered e c') : c'.engines.currentId u = some j := by
  obtain ⟨url, i, hfresh, rfl, -, rfl⟩ | ⟨m, rfl, -, rfl⟩ | ⟨call, rfl, rfl⟩ := Cluster.step_cases hstep
  · exact (Engines.currentId_boot_of_ne _ hfresh he hu (Ne.symm hkeeps)).trans hcurrent
  · exact hcurrent
  · exact hcurrent

/-- After any run the router finds the instance for a request: it has known it all along, or the instance runs on at
one of the endpoints. -/
theorem findable_of_run {c c' : Cluster ι κ ρ τ} {es : List (ClusterEvent ι κ)} {call : RouteCall} (hu : u ∈ fleet.urls)
    (hfleet : ∀ e ∈ es, e.InFleet fleet) (hrun : Run (Cluster.KvawareStep policy threshold unregistered) c es c')
    (hbooted : c.engines.booted.get? j = some (ipOf u))
    (hfind : j ∈ c.router.bridge.instanceIdToIp ∨
      c.engines.currentId u = some j ∧ ∀ e ∈ es ++ [.request call], e.Keeps u) :
    Findable c' call.endpoints j ∧ c'.engines.booted.get? j = some (ipOf u) := by
  rcases hfind with hknown | ⟨hcurrent, hkeeps⟩
  · have h := hrun.invariant_of (P := fun c => j ∈ c.router.bridge.instanceIdToIp ∧
      c.engines.booted.get? j = some (ipOf u)) (fun _ _ _ he h hstep => known_step he h hstep) hfleet ⟨hknown, hbooted⟩
    exact ⟨.inl h.1, h.2⟩
  · have h := hrun.invariant_of (P := fun c => c.engines.currentId u = some j)
      (Q := fun e => e.InFleet fleet ∧ e.Keeps u) (fun _ _ _ he h hstep => current_step hu he.1 he.2 h hstep)
      (fun e he => ⟨hfleet e he, hkeeps e (List.mem_append_left _ he)⟩) hcurrent
    have hcall : u ∈ Router.urls call.endpoints := hkeeps (.request call) (by simp)
    obtain ⟨endpoint, he, rfl⟩ := mem_urls.mp hcall
    exact ⟨.inr ⟨endpoint, he, h⟩, Engines.booted_of_current h⟩

/-- **Where the requests for a prompt go.** Suppose that, in some run, the first admit of a chunk that survives is
that of an instance which ran at `u`, and that the router knows the instance, or that it still runs at `u`, is not
replaced and is always one of the endpoints. As long as that admit is not evicted, every request for a prompt that
begins with the chunk, and of which the instance holds enough, goes to `u`, whatever `request_stats` says. -/
theorem routed_of_first (hfleet : ∀ e ∈ clusterEvents (es ++ fs), e.InFleet fleet) (hu : u ∈ fleet.urls)
    (hrun : Run (Serving.Step policy (Cluster.kvawareRoute policy (some limit) unregistered) unregistered)
      ⟨.start processTokens hashRing, []⟩ es s)
    (hfirst : (surviving (messages (clusterEvents es))).find? (·.key = chunk.key) = some t)
    (hbooted : s.cluster.engines.booted.get? t.instanceId = some (ipOf u))
    (hfind : t.instanceId ∈ s.cluster.router.bridge.instanceIdToIp ∨
      s.cluster.engines.currentId u = some t.instanceId ∧ ∀ e ∈ clusterEvents fs, e.Keeps u)
    (hkept : .kvEvict t ∉ messages (clusterEvents fs))
    (hasks : EveryStep (Serving.Step policy (Cluster.kvawareRoute policy (some limit) unregistered) unregistered)
      (fun r e => ∀ call, e = .cluster (.request call) → r.Asks policy limit chunk t.instanceId call) s fs) :
    EveryStep (Serving.Step policy (Cluster.kvawareRoute policy (some limit) unregistered) unregistered)
      (fun r e => ∀ call, e = .cluster (.request call) → r.Asks policy limit chunk t.instanceId call ∧
        (r.cluster.kvawareRoute policy (some limit) unregistered call).1 = .ok (some u)) s fs := by
  rintro es₁ e es₂ r rfl hr call rfl
  have hevents : clusterEvents (es ++ (es₁ ++ .cluster (.request call) :: es₂)) =
      clusterEvents es ++ (clusterEvents es₁ ++ .request call :: clusterEvents es₂) := by
    simp [clusterEvents, ServingEvent.inCluster]
  have htail : clusterEvents (es₁ ++ .cluster (.request call) :: es₂) =
      clusterEvents es₁ ++ .request call :: clusterEvents es₂ := by simp [clusterEvents, ServingEvent.inCluster]
  rw [hevents] at hfleet
  rw [htail] at hkept hfind
  rw [messages_append, List.mem_append, not_or] at hkept
  have hask := hasks es₁ _ es₂ r rfl hr call rfl
  obtain ⟨tokenIds, info, htokens, hchunk, hinfo, henough⟩ := hask
  have hr₁ := run_cluster hr
  have hwhole := (run_cluster hrun).append hr₁
  -- the registry: the first admit of the chunk is still that of the instance
  have hprocess : r.cluster.controller.processTokens = processTokens := by
    rw [Cluster.run_controller hwhole, KVController.handleAll_processTokens]
    rfl
  rw [hprocess] at hchunk
  have hselected := selectedInstance_of_run hwhole hchunk
  rw [messages_append, find?_surviving_append hfirst hkept.1] at hselected
  have hroute : OnCacheRoute (some limit) r.cluster tokenIds t.instanceId :=
    ⟨hselected, stays_of_enough hselected hinfo (layoutInfo_nonneg r.cluster tokenIds hinfo) henough⟩
  -- the router: the instance is known, or runs at one of the endpoints
  have hfleet₁ : ∀ e ∈ clusterEvents es₁, e.InFleet fleet := fun e he => hfleet e (by simp [he])
  have hupTo : ∀ e ∈ clusterEvents es₁ ++ [.request call], e ∈ clusterEvents es₁ ++ .request call :: clusterEvents es₂ := by
    intro e he
    rw [← List.singleton_append, ← List.append_assoc]
    exact List.mem_append_left _ he
  have hfound := findable_of_run hu hfleet₁ hr₁ hbooted
    (hfind.imp_right fun h => ⟨h.1, fun e he => h.2 e (hupTo e he)⟩)
  have hfleet' : ∀ e ∈ (clusterEvents es ++ clusterEvents es₁) ++ [.request call], e.InFleet fleet := by
    intro e he
    rw [List.append_assoc, List.mem_append] at he
    exact hfleet e (List.mem_append.mpr (he.imp_right (hupTo e)))
  obtain ⟨v, hv, hran, hreturns⟩ := kvawareRoute_of_findable hfleet' hwhole htokens hroute hfound.1
  obtain rfl : u = v := fleet.ipOf_injOn hu hv (Option.some.inj (hfound.2.symm.trans hran))
  exact ⟨⟨tokenIds, info, htokens, hprocess ▸ hchunk, hinfo, henough⟩, hreturns⟩

/-- For a request that asks so, somebody holds a prefix. -/
theorem finds_of_asks {call : RouteCall} (h : s.Asks policy limit chunk j call) : s.cluster.finds policy call = true := by
  obtain ⟨tokenIds, info, htokens, -, hinfo, -⟩ := h
  have hkeys : (s.cluster.layoutInfo tokenIds).keys ≠ [] := List.ne_nil_of_mem (Dict.mem_keys.mpr (Dict.mem_of_get? hinfo))
  rw [Cluster.finds, show _ = Except.ok tokenIds from htokens]
  exact decide_eq_true hkeys

/-- The requests that are routed to an engine are in flight there, but for those that are done. -/
theorem carefulAt_of_routed (hrun : Run (Serving.Step policy routes unregistered) s es s')
    (hrouted : EveryStep (Serving.Step policy routes unregistered)
      (fun r e => ∀ call, e = .cluster (.request call) → r.Asks policy limit chunk j call ∧
        (routes r.cluster call).1 = .ok (some u)) s es) :
    carefulAt s.jobs u + es.countP ServingEvent.isRequest ≤ carefulAt s'.jobs u + es.countP ServingEvent.isFinish := by
  induction hrun with
  | nil => exact le_rfl
  | @cons s r s' e es hstep hrun ih =>
    have hrest := ih (hrouted.tail hstep)
    rw [List.countP_cons, List.countP_cons]
    obtain ⟨call, rfl, -, hjobs⟩ | ⟨hrequest, hfinish, -, hjobs⟩ | ⟨k, rfl, rfl⟩ := step_cases hstep
    · obtain ⟨hasks, hroute⟩ := hrouted.head call rfl
      have hplaced : carefulAt r.jobs u = carefulAt s.jobs u + 1 := by
        rw [hjobs, Cluster.placed, hroute]
        dsimp only
        rw [carefulAt_concat, if_pos ⟨rfl, finds_of_asks hasks⟩]
      have hrequest : (ServingEvent.cluster (.request call) : ServingEvent ι κ).isRequest = true := rfl
      have hfinish : (ServingEvent.cluster (.request call) : ServingEvent ι κ).isFinish = false := rfl
      rw [hrequest, hfinish, if_pos rfl, if_neg Bool.false_ne_true]
      omega
    · rw [hjobs] at hrest
      rw [hrequest, hfinish, if_neg Bool.false_ne_true]
      omega
    · have hdone := carefulAt_le_eraseIdx s.jobs k u
      have hrequest : (ServingEvent.finish k : ServingEvent ι κ).isRequest = false := rfl
      have hfinish : (ServingEvent.finish k : ServingEvent ι κ).isFinish = true := rfl
      rw [hrequest, hfinish, if_neg Bool.false_ne_true, if_pos rfl]
      dsimp only at hrest
      omega

/-- Each request adds one at the most. -/
theorem length_jobs_le (hrun : Run (Serving.Step policy routes unregistered) s es s') :
    s'.jobs.length ≤ s.jobs.length + es.countP ServingEvent.isRequest := by
  induction hrun with
  | nil => exact le_rfl
  | @cons s r s' e es hstep hrun ih =>
    rw [List.countP_cons]
    obtain ⟨call, rfl, -, hjobs⟩ | ⟨hrequest, -, -, hjobs⟩ | ⟨k, rfl, rfl⟩ := step_cases hstep
    · have hplaced : (s.cluster.placed policy routes (.request call)).length ≤ 1 := by
        rw [Cluster.placed]
        split <;> simp
      have hrequest : (ServingEvent.cluster (.request call) : ServingEvent ι κ).isRequest = true := rfl
      rw [hjobs, List.length_append] at ih
      rw [hrequest, if_pos rfl]
      omega
    · rw [hjobs] at ih
      rw [hrequest, if_neg Bool.false_ne_true]
      omega
    · have hdone := List.length_eraseIdx_le s.jobs k
      dsimp only at ih
      omega

end Concentration

/-! ### A run in which one engine gets everything -/

/-- The first of two engines boots and holds the prompt. -/
def firstHolds : List (ServingEvent ℕ ℕ) :=
  [.cluster (.boot "http://10.0.0.1:8000" 1), .cluster (.kv (.kvAdmit ⟨1, 0, 7, "cpu"⟩))]

/-- Requests for it, each with the loads of the moment if all before are at the first engine. -/
def callsUpTo (n : ℕ) : List (ServingEvent ℕ ℕ) := (List.range n).map fun k => .cluster (.request (callAt k))

/-- The router, with a weight that `KvawareRouter` does not read. -/
def weighted (beta : ℚ) : LoadAwareRouter ℕ (List String) Unit := { numberedRouter with beta }

/-- The step of that router, before these engines. -/
abbrev KvStep (beta : ℚ) : Serving ℕ ℕ (List String) Unit → ServingEvent ℕ ℕ → Serving ℕ ℕ (List String) Unit → Prop :=
  Serving.Step (weighted beta) (Cluster.kvawareRoute (weighted beta) (some 2000) 0) 0

/-- No engine, nothing in flight. -/
def noEngines : Serving ℕ ℕ (List String) Unit := ⟨.start oneChunk [], []⟩

theorem callsUpTo_succ (n : ℕ) : callsUpTo (n + 1) = callsUpTo n ++ [.cluster (.request (callAt n))] := by
  rw [callsUpTo, List.range_succ, List.map_append]
  rfl

theorem countP_callsUpTo (n : ℕ) : (callsUpTo n).countP ServingEvent.isRequest = n ∧
    (callsUpTo n).countP ServingEvent.isFinish = 0 := by
  induction n with
  | zero => exact ⟨rfl, rfl⟩
  | succ n ih =>
    rw [callsUpTo_succ, List.countP_append, List.countP_append, ih.1, ih.2]
    exact ⟨rfl, rfl⟩

theorem run_firstHolds (beta : ℚ) : ∃ s, Run (KvStep beta) noEngines firstHolds s ∧ s.jobs = [] ∧
    s.cluster.engines.currentId "http://10.0.0.1:8000" = some 1 := by
  have h₁ : 1 ∉ (∅ : Dict ℕ String) ∧ 1 ≠ 0 := ⟨Dict.not_mem_empty 1, Nat.one_ne_zero⟩
  exact ⟨_, Run.cons (step_cluster (Cluster.step_boot noEngines.cluster "http://10.0.0.1:8000" h₁)) (Run.single rfl), rfl,
    Engines.currentId_boot _ _ _ h₁.1⟩

theorem exists_run_callsUpTo (beta : ℚ) (s : Serving ℕ ℕ (List String) Unit) (n : ℕ) :
    ∃ s', Run (KvStep beta) s (callsUpTo n) s' := by
  induction n with
  | zero => exact ⟨s, Run.nil s⟩
  | succ n ih =>
    obtain ⟨s', hrun⟩ := ih
    rw [callsUpTo_succ]
    exact ⟨_, hrun.append (Run.single rfl)⟩

theorem clusterEvents_firstHolds (n : ℕ) : messages (clusterEvents (firstHolds ++ callsUpTo n)) =
    [.kvAdmit ⟨1, 0, 7, "cpu"⟩] := by
  induction n with
  | zero => rfl
  | succ n ih =>
    rw [callsUpTo_succ, ← List.append_assoc, clusterEvents, List.filterMap_append, messages_append, ← clusterEvents, ih]
    rfl

theorem inFleet_firstHolds (n : ℕ) : ∀ e ∈ clusterEvents (firstHolds ++ callsUpTo n), e.InFleet twoEngines := by
  have hboth : ∀ endpoint ∈ callBoth.endpoints, endpoint.url ∈ twoEngines.urls :=
    inFleet_warmRestart (.request callBoth) (by simp)
  induction n with
  | zero =>
    have hurl : ("http://10.0.0.1:8000" : String) ∈ twoEngines.urls := .inl rfl
    simp only [firstHolds, clusterEvents, callsUpTo, List.range_zero, List.map_nil, List.append_nil, ServingEvent.inCluster,
      List.filterMap_cons, List.filterMap_nil, List.forall_mem_cons]
    exact ⟨hurl, trivial, fun _ h => absurd h List.not_mem_nil⟩
  | succ n ih =>
    rw [callsUpTo_succ, ← List.append_assoc, clusterEvents, List.filterMap_append, List.forall_mem_append]
    exact ⟨ih, List.forall_mem_singleton.mpr hboth⟩

/-- Each of these requests asks for the prompt. -/
theorem asks_callsUpTo {beta : ℚ} {s : Serving ℕ ℕ (List String) Unit} (hrun : Run (KvStep beta) noEngines firstHolds s)
    (n : ℕ) : EveryStep (KvStep beta)
      (fun r e => ∀ call, e = .cluster (.request call) → r.Asks (weighted beta) 2000 ⟨0, 3, 7⟩ 1 call) s (callsUpTo n) := by
  induction n with
  | zero =>
    intro es₁ e es₂ t hes
    simp [callsUpTo] at hes
  | succ n ih =>
    rw [callsUpTo_succ]
    refine ih.concat ?_
    rintro r hr call ⟨⟩
    have hcluster := run_cluster (hrun.append hr)
    have hcontroller := Cluster.run_controller hcluster
    rw [clusterEvents_firstHolds] at hcontroller
    refine ⟨[1, 2, 3], ("cpu", 3), ?_, ?_, ?_, by norm_num⟩
    · rw [Cluster.Tokenizes]
      cases r.cluster.router.tokenizer <;> rfl
    · rw [hcontroller]
      rfl
    · rw [Cluster.layoutInfo, hcontroller]
      decide +kernel

theorem keeps_callsUpTo (n : ℕ) : ∀ e ∈ clusterEvents (callsUpTo n), e.Keeps "http://10.0.0.1:8000" := by
  intro e he
  obtain ⟨event, hevent, hin⟩ := List.mem_filterMap.mp he
  obtain ⟨k, -, rfl⟩ := List.mem_map.mp hevent
  cases hin
  show "http://10.0.0.1:8000" ∈ Router.urls callBoth.endpoints
  decide +kernel

theorem kept_callsUpTo (n : ℕ) : .kvEvict ⟨1, 0, 7, "cpu"⟩ ∉ messages (clusterEvents (callsUpTo n)) := by
  have hall : messages (clusterEvents firstHolds) ++ messages (clusterEvents (callsUpTo n)) = [.kvAdmit ⟨1, 0, 7, "cpu"⟩] := by
    rw [← messages_append, ← clusterEvents_firstHolds n, clusterEvents, clusterEvents, clusterEvents, List.filterMap_append]
  have hnil := (List.cons.inj hall).2
  rw [show messages (clusterEvents (callsUpTo n)) = [] from hnil]
  exact List.not_mem_nil

/-- All of them are at the first engine. -/
theorem jobs_callsUpTo {beta : ℚ} {s s' : Serving ℕ ℕ (List String) Unit} (hrun : Run (KvStep beta) noEngines firstHolds s)
    (hjobs : s.jobs = []) (hcurrent : s.cluster.engines.currentId "http://10.0.0.1:8000" = some 1) {n : ℕ}
    (hrun' : Run (KvStep beta) s (callsUpTo n) s') : s'.jobs = List.replicate n ⟨"http://10.0.0.1:8000", true⟩ := by
  have hrouted := routed_of_first (t := ⟨1, 0, 7, "cpu"⟩) (inFleet_firstHolds n) (.inl rfl) hrun (by decide +kernel)
    (Engines.booted_of_current hcurrent) (.inr ⟨hcurrent, keeps_callsUpTo n⟩) (kept_callsUpTo n) (asks_callsUpTo hrun n)
  have hcount := carefulAt_of_routed hrun' hrouted
  have hlength := length_jobs_le hrun'
  rw [hjobs, (countP_callsUpTo n).1, (countP_callsUpTo n).2] at hcount
  rw [hjobs, (countP_callsUpTo n).1] at hlength
  have hzero : carefulAt ([] : List (Job String)) "http://10.0.0.1:8000" = 0 := rfl
  have hnil : ([] : List (Job String)).length = 0 := rfl
  have hle : carefulAt s'.jobs "http://10.0.0.1:8000" ≤ s'.jobs.length := List.countP_le_length
  rw [hzero] at hcount
  rw [hnil] at hlength
  have hall : carefulAt s'.jobs "http://10.0.0.1:8000" = s'.jobs.length := by omega
  refine List.eq_replicate_iff.mpr ⟨by omega, fun job hjob => ?_⟩
  obtain ⟨hserver, hcareful⟩ := of_decide_eq_true (List.countP_eq_length.mp hall job hjob)
  obtain ⟨server, careful⟩ := job
  cases hserver
  cases hcareful
  rfl

/-- They come as the bound wants it. -/
theorem admits_callsUpTo {beta : ℚ} {s : Serving ℕ ℕ (List String) Unit} (hrun : Run (KvStep beta) noEngines firstHolds s)
    (hjobs : s.jobs = []) (hcurrent : s.cluster.engines.currentId "http://10.0.0.1:8000" = some 1) {n : ℕ}
    (hn : n ≤ others + 1) :
    EveryStep (KvStep beta) (fun t e => ∀ call, e = .cluster (.request call) → t.Admits others 2 call) s (callsUpTo n) := by
  induction n with
  | zero =>
    intro es₁ e es₂ t hes
    simp [callsUpTo] at hes
  | succ n ih =>
    rw [callsUpTo_succ]
    refine (ih (by omega)).concat ?_
    rintro r hr call ⟨⟩
    exact admits_callAt (by omega) (jobs_callsUpTo hrun hjobs hcurrent hr)

/-- One engine has more requests in flight than the bound allows. -/
theorem exists_over_hotSpot {beta : ℚ} (hbeta : 1 < beta) (hothers : 2 ≤ others) :
    ∃ es s', Run (KvStep beta) noEngines es s' ∧
      EveryStep (KvStep beta) (fun t e => ∀ call, e = .cluster (.request call) → t.Admits others 2 call) noEngines es ∧
        carefulAt s'.jobs "http://10.0.0.1:8000" = others + 1 ∧
          hotSpot beta others 2 < carefulAt s'.jobs "http://10.0.0.1:8000" := by
  obtain ⟨s, hrun, hjobs, hcurrent⟩ := run_firstHolds beta
  obtain ⟨s', hrun'⟩ := exists_run_callsUpTo beta s (others + 1)
  have hcount : carefulAt s'.jobs "http://10.0.0.1:8000" = others + 1 := by
    rw [jobs_callsUpTo hrun hjobs hcurrent hrun', carefulAt, List.countP_replicate]
    simp
  refine ⟨firstHolds ++ callsUpTo (others + 1), s', hrun.append hrun', ?_, hcount, ?_⟩
  · refine everyStep_append ?_ fun t ht => ?_
    · intro es₁ e es₂ t hes _ call he
      have hmem : e ∈ firstHolds := hes ▸ by simp
      simp [firstHolds, he] at hmem
    · obtain ⟨t', hrun'', hjobs', hcurrent'⟩ := run_firstHolds beta
      obtain rfl : t = t' := ht.unique hrun'' fun _ _ _ _ h h' => Option.some.inj (h.symm.trans h')
      exact admits_callsUpTo ht hjobs' hcurrent' le_rfl
  · have hmany : (2 : ℚ) ≤ others := by exact_mod_cast hothers
    have hhalf : (1 : ℚ) ≤ others / ((2 : ℕ) : ℚ) := by
      rw [Nat.cast_two, le_div_iff₀ two_pos]
      linarith
    have hless : (others : ℚ) / ((2 : ℕ) : ℚ) / beta < others / ((2 : ℕ) : ℚ) :=
      div_lt_self (by linarith) hbeta
    rw [hotSpot, hcount, max_eq_right hhalf]
    push_cast at hless ⊢
    linarith

/-- **`kvaware` has no such bound.** In any run in which the first admit of a chunk that survives is that of an
instance which ran at `u`, and the router knows the instance, or it still runs at `u`, is not replaced and is always
one of the endpoints: as long as that admit is not evicted, every request for a prompt that begins with the chunk, and of
which the instance holds enough, goes to `u`, whatever `request_stats` says, and is in flight there until it is done.

So for every `beta` above 1 there are runs that come as the bound of `hot_spot_bounded` wants it, for two engines,
in which all `others + 1` requests are at one of them, more than that bound. -/
theorem kvaware_concentrates (policy : LoadAwareRouter ι ρ τ) (limit : ℤ) (unregistered : ι)
    (processTokens : List ℕ → List (Chunk κ)) (hashRing : ρ) (fleet : Fleet) :
    (∀ (es fs : List (ServingEvent ι κ)) (s s' : Serving ι κ ρ τ) (t : KVMsg ι κ) (chunk : Chunk κ) (u : String),
      (∀ e ∈ clusterEvents (es ++ fs), e.InFleet fleet) → u ∈ fleet.urls →
      Run (Serving.Step policy (Cluster.kvawareRoute policy (some limit) unregistered) unregistered)
        ⟨.start processTokens hashRing, []⟩ es s →
      (surviving (messages (clusterEvents es))).find? (·.key = chunk.key) = some t →
      s.cluster.engines.booted.get? t.instanceId = some (ipOf u) →
      (t.instanceId ∈ s.cluster.router.bridge.instanceIdToIp ∨
        s.cluster.engines.currentId u = some t.instanceId ∧ ∀ e ∈ clusterEvents fs, e.Keeps u) →
      .kvEvict t ∉ messages (clusterEvents fs) →
      EveryStep (Serving.Step policy (Cluster.kvawareRoute policy (some limit) unregistered) unregistered)
        (fun r e => ∀ call, e = .cluster (.request call) → r.Asks policy limit chunk t.instanceId call) s fs →
      Run (Serving.Step policy (Cluster.kvawareRoute policy (some limit) unregistered) unregistered) s fs s' →
      EveryStep (Serving.Step policy (Cluster.kvawareRoute policy (some limit) unregistered) unregistered)
        (fun r e => ∀ call, e = .cluster (.request call) →
          (r.cluster.kvawareRoute policy (some limit) unregistered call).1 = .ok (some u)) s fs ∧
      carefulAt s.jobs u + fs.countP ServingEvent.isRequest ≤ carefulAt s'.jobs u + fs.countP ServingEvent.isFinish) ∧
    ∀ (beta : ℚ) (others : ℕ), 1 < beta → 2 ≤ others → ∃ es s', Run (KvStep beta) noEngines es s' ∧
      EveryStep (KvStep beta) (fun t e => ∀ call, e = .cluster (.request call) → t.Admits others 2 call) noEngines es ∧
      carefulAt s'.jobs "http://10.0.0.1:8000" = others + 1 ∧
      (others : ℚ) / (2 : ℕ) + max 1 ((others : ℚ) / (2 : ℕ)) / beta + 1 < carefulAt s'.jobs "http://10.0.0.1:8000" := by
  refine ⟨fun es fs s s' t chunk u hfleet hu hrun hfirst hbooted hfind hkept hasks hrun' => ?_,
    fun beta others hbeta hothers => exists_over_hotSpot hbeta hothers⟩
  have hrouted := routed_of_first hfleet hu hrun hfirst hbooted hfind hkept hasks
  exact ⟨fun es₁ e es₂ r hes hr call he => (hrouted es₁ e es₂ r hes hr call he).2, carefulAt_of_routed hrun' hrouted⟩

/-- Five requests go to the engine that holds the prompt. With `beta = 2`, eleven are there where the bound is eight and a half. -/
theorem kvaware_concentrates_firstHolds :
    (∃ s s' : Serving ℕ ℕ (List String) Unit, Run (KvStep 2) noEngines firstHolds s ∧ Run (KvStep 2) s (callsUpTo 5) s' ∧
      5 ≤ carefulAt s'.jobs "http://10.0.0.1:8000") ∧
    ∃ es s', Run (KvStep 2) noEngines es s' ∧ carefulAt s'.jobs "http://10.0.0.1:8000" = 11 := by
  obtain ⟨hrouted, hover⟩ := kvaware_concentrates (weighted 2) 2000 0 oneChunk [] twoEngines
  constructor
  · obtain ⟨s, hrun, hjobs, hcurrent⟩ := run_firstHolds 2
    obtain ⟨s', hrun'⟩ := exists_run_callsUpTo 2 s 5
    have hcount := (hrouted firstHolds (callsUpTo 5) s s' ⟨1, 0, 7, "cpu"⟩ ⟨0, 3, 7⟩ "http://10.0.0.1:8000"
      (inFleet_firstHolds 5) (.inl rfl) hrun (by decide +kernel) (Engines.booted_of_current hcurrent)
      (.inr ⟨hcurrent, keeps_callsUpTo 5⟩) (kept_callsUpTo 5) (asks_callsUpTo hrun 5) hrun').2
    rw [hjobs] at hcount
    exact ⟨s, s', hrun, hrun', hcount⟩
  · obtain ⟨es, s', hrun, -, hcount, -⟩ := hover 2 10 (by norm_num) (by norm_num)
    exact ⟨es, s', hrun, hcount⟩

end Serving

end CachingInLLMs.Router

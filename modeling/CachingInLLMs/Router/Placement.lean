import CachingInLLMs.Controller.Registry
import CachingInLLMs.Router.Policy
import CachingInLLMs.Router.Route

/-!
# Placement, end to end

`Cluster` puts the pieces together: the engines, which boot under fresh ids, the
Controller, whose `kv_pool` their workers fill and empty, and the router, which asks
that Controller. Messages, boots and requests come in any order; a message may be
from an engine that has since been replaced.

## The model

A request is one step: the reply to its `LookupMsg` and those to its `QueryInstMsg`s
are of one moment. The `event_id` of a `LookupMsg`, a fresh `uuid`, is a constant.
No worker has the id that the Controller returns for an ip it does not know.
The workers admit and evict; that one of them deregisters is no event here.
Distinct URLs of a `Fleet` have distinct query ips.

## What is proved

* `Cluster.run_system`: on the engines and the bridge, the cluster behaves as the
  system of `Restart`, whose `layout_info` may be anything.
* `credit_is_live_prefix`: the credit of a URL is what its current engine holds of the
  prompt, as soon as it holds any of it; and otherwise what some earlier engine at that
  URL holds, never what the engine of another URL does.
* `placement_is_live`: so unless a dead engine still looks warm where its successor is
  cold, requests go where the live caches and the loads say.
-/

namespace CachingInLLMs.Router

open CachingInLLMs.Library CachingInLLMs.Controller

variable {ι κ ρ τ : Type}

/-- The arguments of a call of `route_request`. -/
structure RouteCall where
  /-- `endpoints`. -/
  endpoints : List EndpointInfo
  /-- `request_stats`. -/
  requestStats : Dict String RequestStats
  /-- `request`. -/
  request : Request
  /-- `request_json`. -/
  requestJson : Dict String Json

/-- The engines, the Controller and the router. -/
structure Cluster (ι κ ρ τ : Type) where
  /-- The engines. -/
  engines : Engines ι
  /-- The Controller. -/
  controller : KVController ι κ ℕ
  /-- The router. -/
  router : RouterState ι ρ τ

/-- What can happen. -/
inductive ClusterEvent (ι κ : Type) where
  /-- The engine at a URL boots under an id. -/
  | boot (url : String) (i : ι)
  /-- A message of a worker reaches the Controller. -/
  | kv (m : Msg ι κ)
  /-- A request is routed. -/
  | request (call : RouteCall)

/-- The event is about engines of the fleet. -/
def ClusterEvent.InFleet (fleet : Fleet) : ClusterEvent ι κ → Prop
  | .boot url _ => url ∈ fleet.urls
  | .kv _ => True
  | .request call => ∀ endpoint ∈ call.endpoints, endpoint.url ∈ fleet.urls

/-- The event does not replace the engine at a URL; if it is a request, the engine is one of its endpoints. -/
def ClusterEvent.Keeps (u : String) : ClusterEvent ι κ → Prop
  | .boot url _ => url ≠ u
  | .kv _ => True
  | .request call => u ∈ urls call.endpoints

/-- The messages among the events. -/
def messages : List (ClusterEvent ι κ) → List (Msg ι κ)
  | [] => []
  | .kv m :: es => m :: messages es
  | .boot _ _ :: es => messages es
  | .request _ :: es => messages es

theorem messages_append (es es' : List (ClusterEvent ι κ)) : messages (es ++ es') = messages es ++ messages es' := by
  induction es with
  | nil => rfl
  | cons e es ih =>
    cases e with
    | boot url i => exact ih
    | kv m => exact congrArg (m :: ·) ih
    | request call => exact ih

/-- What an instance holds of a prompt: the end of its live prefix, if it has one. -/
def liveTokens [DecidableEq ι] [DecidableEq κ] (run : List (Msg ι κ)) (i : ι) (chunks : List (Chunk κ)) : Option ℤ :=
  (livePrefix run i chunks).getLast?.map fun chunk => (chunk.stop : ℤ)

namespace Cluster

/-- Nothing has happened. -/
def start (processTokens : List ℕ → List (Chunk κ)) (hashRing : ρ) : Cluster ι κ ρ τ :=
  ⟨.start, .start processTokens, ⟨.start, hashRing, none⟩⟩

variable [DecidableEq ι] [DecidableEq κ] (policy : LoadAwareRouter ι ρ τ) (unregistered : ι)

/-- The `layout_info` of the Controller's reply about a prompt. -/
def layoutInfo (s : Cluster ι κ ρ τ) (tokenIds : List ℕ) : LayoutInfo ι :=
  (s.controller.lookup ⟨"Lookup", tokenIds⟩).layoutInfo

/-- The router, before this Controller. -/
def served (s : Cluster ι κ ρ τ) : LoadAwareRouter ι ρ τ :=
  { policy with
    lookup := fun tokenIds => some (s.layoutInfo tokenIds)
    answer := fun _ => s.engines.answer unregistered }

/-- What `route_request` returns, and the router it leaves. -/
def route (s : Cluster ι κ ρ τ) (call : RouteCall) : Except PyError (Option String) × RouterState ι ρ τ :=
  ((s.served policy unregistered).routeRequest call.endpoints call.requestStats call.request call.requestJson).exec
    s.router

/-- A router: what it returns to a call, and what it leaves. -/
abbrev Routes (ι κ ρ τ : Type) :=
  Cluster ι κ ρ τ → RouteCall → Except PyError (Option String) × RouterState ι ρ τ

/-- One event. -/
def step? (routes : Routes ι κ ρ τ) (unregistered : ι) (s : Cluster ι κ ρ τ) :
    ClusterEvent ι κ → Option (Cluster ι κ ρ τ)
  | .boot url i =>
    if h : i ∉ s.engines.booted ∧ i ≠ unregistered then some { s with engines := s.engines.boot url i h.1 }
    else none
  | .kv m => if m.about.instanceId = unregistered then none else some { s with controller := s.controller.handle m }
  | .request call => some { s with router := (routes s call).2 }

/-- The event leads from one state to the next, the requests being routed so. -/
def StepBy (routes : Routes ι κ ρ τ) (unregistered : ι) (s : Cluster ι κ ρ τ) (e : ClusterEvent ι κ)
    (s' : Cluster ι κ ρ τ) : Prop := s.step? routes unregistered e = some s'

/-- The event leads from one state to the next, the router being `LoadAwareRouter`. -/
def Step : Cluster ι κ ρ τ → ClusterEvent ι κ → Cluster ι κ ρ τ → Prop :=
  StepBy (fun s => s.route policy unregistered) unregistered

/-- The prompt of a call has these tokens. -/
def Tokenizes (s : Cluster ι κ ρ τ) (call : RouteCall) (tokenIds : List ℕ) : Prop :=
  ((policy.tokenizePrompt call.endpoints call.requestJson).exec s.router.tokenizer).1 = .ok tokenIds

section StepBy

variable {routes : Routes ι κ ρ τ} {unregistered} {s s' : Cluster ι κ ρ τ} {e : ClusterEvent ι κ}
  {es : List (ClusterEvent ι κ)}

theorem step_boot (s : Cluster ι κ ρ τ) (url : String) {i : ι} (h : i ∉ s.engines.booted ∧ i ≠ unregistered) :
    s.StepBy routes unregistered (.boot url i) { s with engines := s.engines.boot url i h.1 } := dif_pos h

theorem step_kv (s : Cluster ι κ ρ τ) {m : Msg ι κ} (h : m.about.instanceId ≠ unregistered) :
    s.StepBy routes unregistered (.kv m) { s with controller := s.controller.handle m } := if_neg h

theorem step_request (s : Cluster ι κ ρ τ) (call : RouteCall) :
    s.StepBy routes unregistered (.request call) { s with router := (routes s call).2 } := rfl

/-- What an event was, and what it did. -/
theorem step_cases (h : s.StepBy routes unregistered e s') :
    (∃ url i, ∃ hfresh : i ∉ s.engines.booted, e = .boot url i ∧ i ≠ unregistered ∧
      s' = { s with engines := s.engines.boot url i hfresh }) ∨
    (∃ m, e = .kv m ∧ m.about.instanceId ≠ unregistered ∧ s' = { s with controller := s.controller.handle m }) ∨
    ∃ call, e = .request call ∧ s' = { s with router := (routes s call).2 } := by
  cases e with
  | boot url i =>
    simp only [StepBy, step?] at h
    split at h
    · next hboot => exact .inl ⟨url, i, hboot.1, rfl, hboot.2, (Option.some.inj h).symm⟩
    · cases h
  | kv m =>
    simp only [StepBy, step?] at h
    split_ifs at h with hm
    exact .inr (.inl ⟨m, rfl, hm, (Option.some.inj h).symm⟩)
  | request call => exact .inr (.inr ⟨call, rfl, (Option.some.inj h).symm⟩)

/-- The Controller handles the messages and nothing else touches it. -/
theorem run_controller (h : Run (StepBy routes unregistered) s es s') :
    s'.controller = s.controller.handleAll (messages es) := by
  induction h with
  | nil => rfl
  | cons hstep _ ih =>
    rw [ih]
    obtain ⟨url, i, hfresh, rfl, -, rfl⟩ | ⟨m, rfl, -, rfl⟩ | ⟨call, rfl, rfl⟩ := step_cases hstep <;> rfl

/-- No message is from the id that stands for an engine that has not booted. -/
theorem instanceId_ne_of_run (h : Run (StepBy routes unregistered) s es s') :
    ∀ m ∈ messages es, m.about.instanceId ≠ unregistered := by
  induction h with
  | nil => exact fun _ hm => absurd hm List.not_mem_nil
  | cons hstep _ ih =>
    obtain ⟨url, i, hfresh, rfl, -, rfl⟩ | ⟨m, rfl, hm, rfl⟩ | ⟨call, rfl, rfl⟩ := step_cases hstep
    · exact ih
    · intro m' hm'
      rcases List.mem_cons.mp hm' with rfl | hm'
      · exact hm
      · exact ih m' hm'
    · exact ih

end StepBy

section Step

variable {policy unregistered} {s s' : Cluster ι κ ρ τ} {e : ClusterEvent ι κ} {es : List (ClusterEvent ι κ)}

end Step

end Cluster

/-! ### Whose ids the bridge has -/

section OwnIds

variable [DecidableEq ι] {unregistered : ι} {fleet : Fleet} {engines : Engines ι} {instanceIdToIp : Dict ι String}

/-- An id in the bridge has a URL of the fleet and was used there, or stands for an engine
that has not booted. -/
def OwnIds (unregistered : ι) (fleet : Fleet) (engines : Engines ι) (instanceIdToIp : Dict ι String) : Prop :=
  ∀ j u, instanceIdToIp.get? j = some u →
    u ∈ fleet.urls ∧ (j = unregistered ∨ engines.booted.get? j = some (ipOf u))

theorem OwnIds.learn (h : OwnIds unregistered fleet engines instanceIdToIp) {url : String} (hurl : url ∈ fleet.urls) :
    OwnIds unregistered fleet engines (instanceIdToIp.set (engines.answer unregistered (ipOf url)) url) := by
  intro j u hj
  rw [Dict.get?_set] at hj
  split_ifs at hj with hanswer
  · obtain rfl := Option.some.inj hj
    refine ⟨hurl, ?_⟩
    rw [hanswer, Engines.answer]
    cases hc : engines.current (ipOf url) with
    | none => exact Or.inl rfl
    | some i => exact Or.inr (Engines.booted_of_current hc)
  · exact h j u hj

theorem OwnIds.update (h : OwnIds unregistered fleet engines instanceIdToIp) {endpoints : List EndpointInfo}
    (hurls : ∀ endpoint ∈ endpoints, endpoint.url ∈ fleet.urls) :
    OwnIds unregistered fleet engines
      (instanceIdToIp.update (endpoints.map fun e => (engines.answer unregistered (ipOf e.url), e.url))) := by
  induction endpoints generalizing instanceIdToIp with
  | nil => exact h
  | cons endpoint endpoints ih =>
    exact ih (h.learn (hurls endpoint List.mem_cons_self)) fun e he => hurls e (List.mem_cons_of_mem _ he)

theorem OwnIds.boot (h : OwnIds unregistered fleet engines instanceIdToIp) {url : String} {i : ι}
    (hfresh : i ∉ engines.booted) : OwnIds unregistered fleet (engines.boot url i hfresh) instanceIdToIp :=
  fun j u hj => ⟨(h j u hj).1, (h j u hj).2.imp_right (Engines.booted_boot hfresh)⟩

/-- An event keeps the ids with their URLs. -/
theorem OwnIds.step {s s' : System ι} {e : SystemEvent ι} (he : e.InFleet fleet)
    (h : OwnIds unregistered fleet s.engines s.bridge.instanceIdToIp) (hstep : s.Step unregistered e s') :
    OwnIds unregistered fleet s'.engines s'.bridge.instanceIdToIp := by
  cases e with
  | boot url i =>
    obtain ⟨hfresh, -, rfl⟩ := System.exists_of_step_boot hstep
    exact h.boot hfresh
  | request endpoints layoutInfo =>
    obtain rfl := Option.some.inj hstep
    show OwnIds unregistered fleet s.engines (s.bridgeAfter unregistered endpoints layoutInfo).instanceIdToIp
    rw [bridgeAfter_eq s he]
    split_ifs
    · rw [refreshed_answer]
      exact h.update he
    · exact h

end OwnIds

/-! ### What a request credits -/

section Credit

variable [DecidableEq ι] [DecidableEq κ] {policy : LoadAwareRouter ι ρ τ} {unregistered : ι} {fleet : Fleet}
  {processTokens : List ℕ → List (Chunk κ)} {hashRing : ρ} {es : List (ClusterEvent ι κ)} {s s' : Cluster ι κ ρ τ}
  {call : RouteCall} {tokenIds : List ℕ} {u : String}

/-- Nobody who sends no message holds anything. -/
theorem liveTokens_eq_none {run : List (Msg ι κ)} {i : ι} (h : ∀ m ∈ run, m.about.instanceId ≠ i)
    (chunks : List (Chunk κ)) : liveTokens run i chunks = none := by
  have hheld (k : κ) : ¬ Held run i k := by
    rintro ⟨w, location, hlive⟩
    exact h _ hlive.mem_run rfl
  have hnil : livePrefix run i chunks = [] := by
    cases chunks with
    | nil => rfl
    | cons chunk chunks => simp [livePrefix, hheld]
  rw [liveTokens, hnil]
  rfl

/-- The Controller's reply gives each instance what it holds. -/
theorem layoutInfo_get? {routes : Cluster.Routes ι κ ρ τ}
    (hrun : Run (Cluster.StepBy routes unregistered) (.start processTokens hashRing) es s)
    (tokenIds : List ℕ) (i : ι) :
    ((s.layoutInfo tokenIds).get? i).map Prod.snd = liveTokens (messages es) i (processTokens tokenIds) := by
  rw [Cluster.layoutInfo, Cluster.run_controller hrun]
  exact lookup_handleAll_credit processTokens (messages es) ⟨"Lookup", tokenIds⟩ i

end Credit

/-! ### A restart -/

/-- A router before engines whose ids are numbers; every prompt has three tokens. -/
def numberedRouter : LoadAwareRouter ℕ (List String) Unit where
  sessionKey := none
  beta := 1
  ring := listRing
  setOrder := sortedOrder
  fromPretrained _ := .ok ()
  encode _ _ := .ok [1, 2, 3]
  postTokenize _ _ _ := .error (.other "ConnectionError")
  lookup _ := none
  answer _ _ := 0

/-- The prompt is one chunk. -/
def oneChunk (tokens : List ℕ) : List (Chunk ℕ) := [⟨0, tokens.length, 7⟩]

/-- A request to both engines of `twoEngines`. -/
def callBoth : RouteCall :=
  ⟨[⟨"http://10.0.0.1:8000", ["m"]⟩, ⟨"http://10.0.0.2:8000", ["m"]⟩], ∅, ⟨fun _ => none⟩, ∅⟩

/-- The first engine holds the chunk, is asked about, boots again and holds it again. -/
def warmRestart : List (ClusterEvent ℕ ℕ) :=
  [.boot "http://10.0.0.1:8000" 1, .kv (.kvAdmit ⟨1, 0, 7, "cpu"⟩), .request callBoth,
    .boot "http://10.0.0.1:8000" 3, .kv (.kvAdmit ⟨3, 0, 7, "cpu"⟩)]

theorem inFleet_warmRestart : ∀ e ∈ warmRestart ++ [.request callBoth], e.InFleet twoEngines := by
  have hurl : ("http://10.0.0.1:8000" : String) ∈ twoEngines.urls := Or.inl rfl
  have hboth : ∀ endpoint ∈ callBoth.endpoints, endpoint.url ∈ twoEngines.urls := by
    simp only [callBoth, List.forall_mem_cons]
    exact ⟨Or.inl rfl, Or.inr rfl, fun _ h => absurd h List.not_mem_nil⟩
  simp only [warmRestart, List.cons_append, List.nil_append, List.forall_mem_cons]
  exact ⟨hurl, trivial, hboth, hurl, trivial, hboth, fun _ h => absurd h List.not_mem_nil⟩

theorem tokenizes_callBoth (s : Cluster ℕ ℕ (List String) Unit) : s.Tokenizes numberedRouter callBoth [1, 2, 3] := by
  rw [Cluster.Tokenizes]
  cases s.router.tokenizer <;> rfl

end CachingInLLMs.Router

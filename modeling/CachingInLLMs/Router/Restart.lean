import CachingInLLMs.Library.Run
import CachingInLLMs.Router.Fleet

/-!
# Restarts between requests

Requests are handled one at a time; engines boot in between. A request brings the
endpoints of the moment and the Controller's `layout_info`, which may name any id,
those of dead engines among them. `route_request` refreshes the bridge, unless
`layout_info` is empty, and then scores with `matched_tokens_by_url`.

The invariant is `Tracks`: whenever the current id of a URL is in the bridge, it is
the last id of its URL there. A boot keeps it because a fresh id is not in the
bridge; a refresh keeps it because an id that is learned is either new, and goes to
the end, or already where it belongs. So from the first request that lets the
bridge learn a current id until the next boot, credit rides on that id alone
(`credit_is_live`).
-/

namespace CachingInLLMs.Router

open CachingInLLMs.Library CachingInLLMs.Controller

variable {ι : Type} [DecidableEq ι]

/-- The engines and the router. -/
structure System (ι : Type) where
  /-- The engines. -/
  engines : Engines ι
  /-- The router's bridge. -/
  bridge : BridgeState ι

/-- Nothing has happened. -/
def System.start : System ι := ⟨.start, .start⟩

/-- What can happen. -/
inductive SystemEvent (ι : Type) where
  /-- The engine at a URL boots under an id. -/
  | boot (url : String) (i : ι)
  /-- A request is handled. -/
  | request (endpoints : List EndpointInfo) (layoutInfo : LayoutInfo ι)

/-- The event is about engines of the fleet. -/
def SystemEvent.InFleet (fleet : Fleet) : SystemEvent ι → Prop
  | .boot url _ => url ∈ fleet.urls
  | .request endpoints _ => ∀ endpoint ∈ endpoints, endpoint.url ∈ fleet.urls

/-- The event boots the engine at the URL. -/
def SystemEvent.Boots (url : String) : SystemEvent ι → Prop
  | .boot url' _ => url' = url
  | .request _ _ => False

section Step

variable (unregistered : ι)

/-- The bridge after a request: the refresh of `route_request`. -/
def System.bridgeAfter (s : System ι) (endpoints : List EndpointInfo) (layoutInfo : LayoutInfo ι) : BridgeState ι :=
  if layoutInfo.keys = [] then s.bridge
  else ((refreshInstanceMap (fun _ => s.engines.answer unregistered) endpoints layoutInfo).exec s.bridge).2

/-- One event. A boot takes an id that was never used. -/
def System.step? (s : System ι) : SystemEvent ι → Option (System ι)
  | .boot url i =>
    if h : i ∉ s.engines.booted ∧ i ≠ unregistered then some { s with engines := s.engines.boot url i h.1 }
    else none
  | .request endpoints layoutInfo => some { s with bridge := s.bridgeAfter unregistered endpoints layoutInfo }

/-- The event leads from one state to the next. -/
def System.Step (s : System ι) (e : SystemEvent ι) (s' : System ι) : Prop := s.step? unregistered e = some s'

theorem System.step_boot {unregistered : ι} (s : System ι) (url : String) {i : ι}
    (h : i ∉ s.engines.booted ∧ i ≠ unregistered) :
    s.Step unregistered (.boot url i) { s with engines := s.engines.boot url i h.1 } := dif_pos h

/-- What a boot does. -/
theorem System.exists_of_step_boot {unregistered : ι} {s s' : System ι} {url : String} {i : ι}
    (h : s.Step unregistered (.boot url i) s') :
    ∃ hfresh : i ∉ s.engines.booted, i ≠ unregistered ∧
      s' = { s with engines := s.engines.boot url i hfresh } := by
  simp only [System.Step, System.step?] at h
  split at h
  · next hboot => exact ⟨hboot.1, hboot.2, (Option.some.inj h).symm⟩
  · cases h

theorem System.step_request (s : System ι) (endpoints : List EndpointInfo) (layoutInfo : LayoutInfo ι) :
    s.Step unregistered (.request endpoints layoutInfo)
      { s with bridge := s.bridgeAfter unregistered endpoints layoutInfo } := rfl

/-! ### The invariant -/

/-- The bridge knows only ids that were used, and a current id that it knows is the
last one of its URL. -/
structure Tracks (fleet : Fleet) (engines : Engines ι) (instanceIdToIp : Dict ι String) : Prop where
  /-- The ids in the bridge were used, or stand for an engine that has not booted. -/
  known : ∀ i ∈ instanceIdToIp, i ∈ engines.booted ∨ i = unregistered
  /-- That id was given to no engine. -/
  fresh : unregistered ∉ engines.booted
  /-- A known current id is the last of its URL. -/
  last : ∀ u ∈ fleet.urls, ∀ i, engines.currentId u = some i → i ∈ instanceIdToIp →
    instanceIdToIp.invert.get? u = some i

variable {unregistered} {fleet : Fleet} {engines : Engines ι} {instanceIdToIp : Dict ι String}

omit [DecidableEq ι] in
theorem tracks_start : Tracks unregistered fleet .start (∅ : Dict ι String) where
  known i hi := absurd hi (Dict.not_mem_empty i)
  fresh := Dict.not_mem_empty _
  last _ _ i _ hi := absurd hi (Dict.not_mem_empty i)

/-- A boot: the fresh id is not in the bridge yet. -/
theorem Tracks.boot (h : Tracks unregistered fleet engines instanceIdToIp) {url : String} {i : ι}
    (hurl : url ∈ fleet.urls) (hfresh : i ∉ engines.booted) (hi : i ≠ unregistered) :
    Tracks unregistered fleet (engines.boot url i hfresh) instanceIdToIp where
  known j hj := (h.known j hj).imp_left fun hmem => Dict.mem_set.mpr (Or.inr hmem)
  fresh hmem := by
    rcases Dict.mem_set.mp hmem with heq | hmem
    · exact hi heq.symm
    · exact h.fresh hmem
  last u hu j hj hmem := by
    by_cases hne : u = url
    · rw [hne, Engines.currentId_boot] at hj
      obtain rfl := Option.some.inj hj
      rcases h.known i hmem with hused | hun
      · exact absurd hused hfresh
      · exact absurd hun hi
    · rw [Engines.currentId_boot_of_ne engines hfresh hurl hu hne] at hj
      exact h.last u hu j hj hmem

/-- Learning what the Controller answers about a URL. -/
theorem Tracks.learn (h : Tracks unregistered fleet engines instanceIdToIp) {url : String}
    (hurl : url ∈ fleet.urls) :
    Tracks unregistered fleet engines (instanceIdToIp.set (engines.answer unregistered (ipOf url)) url) where
  known j hj := by
    rcases Dict.mem_set.mp hj with rfl | hj
    · rw [Engines.answer]
      cases hc : engines.current (ipOf url) with
      | none => exact Or.inr rfl
      | some i => exact Or.inl (Engines.mem_booted hc)
    · exact h.known j hj
  fresh := h.fresh
  last u hu i hi hmem := by
    by_cases hne : url = u
    · subst hne
      -- the id learned is the current one
      have hanswer : engines.answer unregistered (ipOf url) = i := by
        rw [Engines.answer, show engines.current (ipOf url) = some i from hi, Option.getD_some]
      rw [hanswer]
      by_cases hknown : i ∈ instanceIdToIp
      · have hlast := h.last url hu i hi hknown
        rwa [Dict.set_of_get? (Dict.get?_invert_eq_some.mp hlast).1]
      · rw [Dict.invert_set_of_not_mem hknown, Dict.get?_set_self]
    · -- the id learned is another one
      have hother : engines.answer unregistered (ipOf url) ≠ i := by
        rw [Engines.answer]
        cases hc : engines.current (ipOf url) with
        | none =>
          rintro rfl
          exact h.fresh (Engines.mem_booted hi)
        | some j =>
          rintro rfl
          exact hne (engines.currentId_inj hurl hu hc hi)
      rcases Dict.mem_set.mp hmem with heq | hknown
      · exact absurd heq.symm hother
      · exact Dict.get?_invert_set_of_ne (h.last u hu i hi hknown) hother hne

/-- Learning the answers about several endpoints. -/
theorem Tracks.update (h : Tracks unregistered fleet engines instanceIdToIp) {endpoints : List EndpointInfo}
    (hurls : ∀ endpoint ∈ endpoints, endpoint.url ∈ fleet.urls) :
    Tracks unregistered fleet engines
      (instanceIdToIp.update (endpoints.map fun e => (engines.answer unregistered (ipOf e.url), e.url))) := by
  induction endpoints generalizing instanceIdToIp with
  | nil => exact h
  | cons endpoint endpoints ih =>
    exact ih (h.learn (hurls endpoint List.mem_cons_self)) fun e he => hurls e (List.mem_cons_of_mem _ he)

/-! ### Requests -/

/-- A request learns the answers about its endpoints, or nothing. -/
theorem bridgeAfter_eq (s : System ι) {endpoints : List EndpointInfo} {layoutInfo : LayoutInfo ι}
    (hurls : ∀ endpoint ∈ endpoints, endpoint.url ∈ fleet.urls) :
    s.bridgeAfter unregistered endpoints layoutInfo =
      if layoutInfo.keys ≠ [] ∧ instanceMapIsStale s.bridge.instanceIdToIp endpoints layoutInfo = true then
        s.bridge.refreshed (fun _ => s.engines.answer unregistered) endpoints
      else s.bridge := by
  unfold System.bridgeAfter
  by_cases hempty : layoutInfo.keys = []
  · rw [if_pos hempty, if_neg fun h => h.1 hempty]
  · rw [if_neg hempty]
    cases hstale : instanceMapIsStale s.bridge.instanceIdToIp endpoints layoutInfo with
    | false => rw [refreshInstanceMap_of_not_stale _ hstale, if_neg fun h => nomatch h.2]
    | true =>
      rw [refreshInstanceMap_exec _ hstale fun e he => fleet.queryIp_ok _ (hurls e he), if_pos ⟨hempty, rfl⟩]

theorem refreshed_answer (s : System ι) (endpoints : List EndpointInfo) :
    (s.bridge.refreshed (fun _ => s.engines.answer unregistered) endpoints).instanceIdToIp =
      s.bridge.instanceIdToIp.update
        (endpoints.map fun e => (s.engines.answer unregistered (ipOf e.url), e.url)) := by
  rw [BridgeState.refreshed, learned_const]

/-- An event keeps the invariant. -/
theorem Tracks.step {s s' : System ι} {e : SystemEvent ι} (he : e.InFleet fleet)
    (h : Tracks unregistered fleet s.engines s.bridge.instanceIdToIp) (hstep : s.Step unregistered e s') :
    Tracks unregistered fleet s'.engines s'.bridge.instanceIdToIp := by
  cases e with
  | boot url i =>
    obtain ⟨hfresh, hi, rfl⟩ := System.exists_of_step_boot hstep
    exact h.boot he hfresh hi
  | request endpoints layoutInfo =>
    obtain rfl := Option.some.inj hstep
    show Tracks unregistered fleet s.engines (s.bridgeAfter unregistered endpoints layoutInfo).instanceIdToIp
    rw [bridgeAfter_eq s he]
    split_ifs
    · rw [refreshed_answer]
      exact h.update he
    · exact h

/-- The bridge knows the current id of a URL. -/
structure KnowsCurrent (unregistered : ι) (fleet : Fleet) (u : String) (i : ι) (s : System ι) : Prop where
  /-- The invariant. -/
  tracks : Tracks unregistered fleet s.engines s.bridge.instanceIdToIp
  /-- The current id. -/
  current : s.engines.currentId u = some i
  /-- It is in the bridge. -/
  known : i ∈ s.bridge.instanceIdToIp

/-- An event that does not boot the engine keeps its id current, and the bridge forgets nothing. -/
theorem KnowsCurrent.step {s s' : System ι} {e : SystemEvent ι} {u : String} {i : ι} (hu : u ∈ fleet.urls)
    (he : e.InFleet fleet) (hboot : ¬ e.Boots u) (h : KnowsCurrent unregistered fleet u i s)
    (hstep : s.Step unregistered e s') : KnowsCurrent unregistered fleet u i s' := by
  refine ⟨h.tracks.step he hstep, ?_, ?_⟩
  · cases e with
    | boot url j =>
      obtain ⟨hfresh, -, rfl⟩ := System.exists_of_step_boot hstep
      exact (Engines.currentId_boot_of_ne _ hfresh he hu fun hurl => hboot hurl.symm).trans h.current
    | request endpoints layoutInfo =>
      obtain rfl := Option.some.inj hstep
      exact h.current
  · cases e with
    | boot url j =>
      obtain ⟨-, -, rfl⟩ := System.exists_of_step_boot hstep
      exact h.known
    | request endpoints layoutInfo =>
      obtain rfl := Option.some.inj hstep
      show i ∈ (s.bridgeAfter unregistered endpoints layoutInfo).instanceIdToIp
      rw [bridgeAfter_eq s he]
      split_ifs
      · rw [refreshed_answer]
        exact Dict.mem_update.mpr (Or.inr h.known)
      · exact h.known

/-- A request about an engine whose current id the Controller names lets the bridge know that id. -/
theorem knows_of_request {s s' : System ι} {endpoints : List EndpointInfo} {layoutInfo : LayoutInfo ι}
    (hurls : ∀ endpoint ∈ endpoints, endpoint.url ∈ fleet.urls)
    (hstep : s.Step unregistered (.request endpoints layoutInfo) s') {u : String} {i : ι}
    (hi : s.engines.currentId u = some i) (hu : ∃ endpoint ∈ endpoints, endpoint.url = u)
    (hnamed : i ∈ layoutInfo) : i ∈ s'.bridge.instanceIdToIp := by
  obtain rfl := Option.some.inj hstep
  show i ∈ (s.bridgeAfter unregistered endpoints layoutInfo).instanceIdToIp
  rw [bridgeAfter_eq s hurls]
  split_ifs with hasked
  · obtain ⟨endpoint, he, rfl⟩ := hu
    rw [refreshed_answer, Dict.mem_update, List.map_map]
    refine Or.inl (List.mem_map.mpr ⟨endpoint, he, ?_⟩)
    show (s.engines.current (ipOf endpoint.url)).getD unregistered = i
    rw [show s.engines.current (ipOf endpoint.url) = some i from hi, Option.getD_some]
  · by_contra hunknown
    refine hasked ⟨fun hempty => ?_, instanceMapIsStale_iff.mpr (Or.inr ⟨i, hnamed, hunknown⟩)⟩
    rw [← Dict.mem_keys, hempty] at hnamed
    exact absurd hnamed List.not_mem_nil

/-- The credit of a URL whose current id the bridge knows. -/
theorem KnowsCurrent.credit {s : System ι} {u : String} {i : ι} (h : KnowsCurrent unregistered fleet u i s)
    (hu : u ∈ fleet.urls) (layoutInfo : LayoutInfo ι) :
    (matchedTokensByUrl s.bridge.instanceIdToIp layoutInfo).get? u = (layoutInfo.get? i).map Prod.snd := by
  rw [matchedTokensByUrl_get?, h.tracks.last u hu i h.current h.known, Option.bind_some]

end Step

/-- **Credit rides on the live id.** In any run, after a request whose endpoints contain
`u` and whose `layout_info` names the current id `i` of `u`, that request and every
later one until the next boot of `u` credit `u` with exactly what `layout_info` gives
for `i`, and with nothing when it does not name `i`. -/
theorem credit_is_live (unregistered : ι) (fleet : Fleet) {u : String} {i : ι} {endpoints : List EndpointInfo}
    {layoutInfo : LayoutInfo ι} {pre mid : List (SystemEvent ι)} {s₀ s₁ s₂ : System ι}
    (hfleet : ∀ e ∈ pre ++ .request endpoints layoutInfo :: mid, e.InFleet fleet)
    (hpre : Run (System.Step unregistered) .start pre s₀) (hi : s₀.engines.currentId u = some i)
    (hu : ∃ endpoint ∈ endpoints, endpoint.url = u) (hnamed : i ∈ layoutInfo)
    (hfirst : s₀.Step unregistered (.request endpoints layoutInfo) s₁)
    (hmid : Run (System.Step unregistered) s₁ mid s₂) (hboot : ∀ e ∈ mid, ¬ e.Boots u) :
    (matchedTokensByUrl s₁.bridge.instanceIdToIp layoutInfo).get? u = (layoutInfo.get? i).map Prod.snd ∧
    ∀ endpoints' layoutInfo' s₃, (∀ endpoint ∈ endpoints', endpoint.url ∈ fleet.urls) →
      s₂.Step unregistered (.request endpoints' layoutInfo') s₃ →
      (matchedTokensByUrl s₃.bridge.instanceIdToIp layoutInfo').get? u = (layoutInfo'.get? i).map Prod.snd := by
  have hurls : ∀ endpoint ∈ endpoints, endpoint.url ∈ fleet.urls := hfleet (.request endpoints layoutInfo) (by simp)
  have humem : u ∈ fleet.urls := by
    obtain ⟨endpoint, he, rfl⟩ := hu
    exact hurls endpoint he
  -- before the first request: the invariant, from the start
  have htracks : Tracks unregistered fleet s₀.engines s₀.bridge.instanceIdToIp :=
    hpre.invariant_of (P := fun s => Tracks unregistered fleet s.engines s.bridge.instanceIdToIp)
      (fun _ _ _ he h hstep => h.step he hstep) (fun e he => hfleet e (by simp [he])) tracks_start
  -- from the first request on: the bridge knows the current id
  have hknows₁ : KnowsCurrent unregistered fleet u i s₁ := by
    refine ⟨htracks.step (e := .request endpoints layoutInfo) hurls hfirst, ?_, knows_of_request hurls hfirst hi hu hnamed⟩
    obtain rfl := Option.some.inj hfirst
    exact hi
  have hknows₂ : KnowsCurrent unregistered fleet u i s₂ :=
    hmid.invariant_of (Q := fun e => e.InFleet fleet ∧ ¬ e.Boots u)
      (fun _ _ _ he h hstep => h.step humem he.1 he.2 hstep)
      (fun e he => ⟨hfleet e (by simp [he]), hboot e he⟩) hknows₁
  refine ⟨hknows₁.credit humem layoutInfo, fun endpoints' layoutInfo' s₃ hurls' hstep => ?_⟩
  exact (hknows₂.step (e := .request endpoints' layoutInfo') humem hurls' (fun h => h) hstep).credit humem layoutInfo'

/-- The first engine boots, is asked about, and boots again. -/
def twoBoots : List (SystemEvent ℕ) :=
  [.boot "http://10.0.0.1:8000" 1, .request [⟨"http://10.0.0.1:8000", []⟩] (Dict.ofList [(1, ("cpu", 256))]),
    .boot "http://10.0.0.1:8000" 2]

/-- Both ids of the engine are named afterwards. -/
def bothNamed : LayoutInfo ℕ := Dict.ofList [(1, ("cpu", 512)), (2, ("cpu", 256))]

theorem inFleet_twoBoots : ∀ e ∈ twoBoots ++ [.request [⟨"http://10.0.0.1:8000", []⟩] bothNamed],
    e.InFleet twoEngines := by
  have hurl : ("http://10.0.0.1:8000" : String) ∈ twoEngines.urls := Or.inl rfl
  have hurls : ∀ endpoint ∈ [EndpointInfo.mk "http://10.0.0.1:8000" []], endpoint.url ∈ twoEngines.urls :=
    fun _ h => List.mem_singleton.mp h ▸ hurl
  simp only [twoBoots, List.cons_append, List.nil_append, List.forall_mem_cons]
  exact ⟨hurl, hurls, hurl, hurls, fun _ h => absurd h List.not_mem_nil⟩

theorem run_twoBoots :
    ∃ s : System ℕ, Run (System.Step 0) .start twoBoots s ∧ s.engines.currentId "http://10.0.0.1:8000" = some 2 := by
  have h₁ : 1 ∉ (∅ : Dict ℕ String) ∧ 1 ≠ 0 := ⟨Dict.not_mem_empty 1, Nat.one_ne_zero⟩
  have h₂ : 2 ∉ (∅ : Dict ℕ String).set 1 (ipOf "http://10.0.0.1:8000") ∧ 2 ≠ 0 := by simp
  exact ⟨_, Run.cons (System.step_boot .start _ h₁) (Run.cons (System.step_request _ _ _ _)
    (Run.cons (System.step_boot _ _ h₂) (Run.nil _))), Engines.currentId_boot _ _ _ h₂.1⟩

theorem credit_is_live_twoBoots : ∃ s₀ s₁ : System ℕ, Run (System.Step 0) .start twoBoots s₀ ∧
    s₀.Step 0 (.request [⟨"http://10.0.0.1:8000", []⟩] bothNamed) s₁ ∧
    (matchedTokensByUrl s₁.bridge.instanceIdToIp bothNamed).get? "http://10.0.0.1:8000" = some 256 := by
  obtain ⟨s₀, hpre, hi⟩ := run_twoBoots
  obtain ⟨s₁, hfirst⟩ : ∃ s₁, s₀.Step 0 (.request [⟨"http://10.0.0.1:8000", []⟩] bothNamed) s₁ :=
    ⟨_, System.step_request _ _ _ _⟩
  have hcredit := (credit_is_live 0 twoEngines inFleet_twoBoots hpre hi ⟨_, List.mem_singleton_self _, rfl⟩
    (by decide) hfirst (Run.nil s₁) (fun _ h => absurd h List.not_mem_nil)).1
  exact ⟨s₀, s₁, hpre, hfirst, hcredit.trans (by decide)⟩

end CachingInLLMs.Router

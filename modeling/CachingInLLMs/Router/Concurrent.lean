import CachingInLLMs.Library.Run
import CachingInLLMs.Router.Fleet

/-!
# Refreshes that overlap

`refresh_instance_map` awaits the Controller once per endpoint, so on the event
loop other requests run, and engines restart, between a query and the assignment
that follows it. A query is answered with the id that is current when it is served;
what the coroutine assigns when it is resumed may be out of date by then.

## The model

`EventLoop` is the bridge, the engines and the suspended refreshes. A refresh runs
until its next `await`, so one event is one such piece: `refresh` begins one,
`serve t` lets the Controller answer the query of refresh `t`, `resume t` lets it
go on. Any event that is possible may come next. Refreshes are numbered in the
order in which they begin; `asked` logs which refresh asked about which URL. A
refresh that is not interrupted does what `refresh_instance_map` does
(`refresh_uninterrupted`).

## What is proved

Once the refreshes begun before the last boot of `u` have finished, and one that
asked about `u` after it (`Settled`), `u` is credited only through its current id
exactly when no resumed refresh, since that boot, assigned an id that the bridge
did not have to `u` after another had assigned the current one
(`credits_current_iff`). Such a run exists (`stale_reply_wins`): nothing keeps a
reply from before a restart from being assigned last.
-/

namespace CachingInLLMs.Router

open CachingInLLMs.Library CachingInLLMs.Controller

variable {ι : Type}

/-- A refresh that awaits an answer. -/
structure Suspended (ι : Type) where
  /-- The endpoint it asked about. -/
  endpoint : EndpointInfo
  /-- The endpoints it will ask about next. -/
  rest : List EndpointInfo
  /-- The ip it asked about. -/
  ip : String
  /-- The answer, once the query has been served. -/
  reply : Option ι

/-- The router's event loop, and the engines. -/
structure EventLoop (ι : Type) where
  /-- The engines. -/
  engines : Engines ι
  /-- `instance_id_to_ip`. -/
  instanceIdToIp : Dict ι String
  /-- The suspended refreshes. -/
  tasks : Dict ℕ (Suspended ι)
  /-- The number of the next refresh. -/
  nextTask : ℕ
  /-- Which refresh asked about which URL, in order. -/
  asked : List (ℕ × String)

/-- What can happen. -/
inductive LoopEvent (ι : Type) where
  /-- The engine at a URL boots under an id. -/
  | boot (url : String) (i : ι)
  /-- A refresh begins, and runs until its first query. -/
  | refresh (endpoints : List EndpointInfo) (layoutInfo : LayoutInfo ι)
  /-- The Controller answers the query of a refresh. -/
  | serve (t : ℕ)
  /-- A refresh goes on with its answer, until its next query. -/
  | resume (t : ℕ)

/-- The event is about engines of the fleet. -/
def LoopEvent.InFleet (fleet : Fleet) : LoopEvent ι → Prop
  | .boot url _ => url ∈ fleet.urls
  | .refresh endpoints _ => ∀ endpoint ∈ endpoints, endpoint.url ∈ fleet.urls
  | .serve _ => True
  | .resume _ => True

/-- The event boots the engine at the URL. -/
def LoopEvent.Boots (url : String) : LoopEvent ι → Prop
  | .boot url' _ => url' = url
  | .refresh _ _ => False
  | .serve _ => False
  | .resume _ => False

/-- How a refresh is suspended that has these endpoints to ask about: at its first
query, unless it returns or raises before. -/
def firstQuery : List EndpointInfo → Option (Suspended ι)
  | [] => none
  | endpoint :: rest =>
    match queryIp endpoint.url with
    | .error _ => none
    | .ok ip => some ⟨endpoint, rest, ip, none⟩

namespace EventLoop

/-- Nothing has happened. -/
def start : EventLoop ι := ⟨.start, ∅, ∅, 0, []⟩

/-- Refresh `t` runs on to its next query, or to its end. -/
def ask (s : EventLoop ι) (t : ℕ) (endpoints : List EndpointInfo) : EventLoop ι :=
  match firstQuery endpoints with
  | none => { s with tasks := s.tasks.erase t }
  | some f => { s with tasks := s.tasks.set t f, asked := s.asked ++ [(t, f.endpoint.url)] }

variable [DecidableEq ι]

/-- One event. A boot takes an id that was never used. -/
def step? (s : EventLoop ι) : LoopEvent ι → Option (EventLoop ι)
  | .boot url i => if h : i ∉ s.engines.booted then some { s with engines := s.engines.boot url i h } else none
  | .refresh endpoints layoutInfo =>
    let begun := { s with nextTask := s.nextTask + 1 }
    if ¬ instanceMapIsStale s.instanceIdToIp endpoints layoutInfo then some begun
    else some (begun.ask s.nextTask endpoints)
  | .serve t =>
    match s.tasks.get? t with
    | some ⟨endpoint, rest, ip, none⟩ =>
      (s.engines.current ip).map fun i => { s with tasks := s.tasks.set t ⟨endpoint, rest, ip, some i⟩ }
    | _ => none
  | .resume t =>
    match s.tasks.get? t with
    | some ⟨endpoint, rest, _, some r⟩ =>
      some ({ s with instanceIdToIp := s.instanceIdToIp.set r endpoint.url }.ask t rest)
    | _ => none

/-- The event leads from one state to the next. -/
def Step (s : EventLoop ι) (e : LoopEvent ι) (s' : EventLoop ι) : Prop := s.step? e = some s'

theorem Step.unique {s t t' : EventLoop ι} {e : LoopEvent ι} (h : s.Step e t) (h' : s.Step e t') : t = t' :=
  Option.some.inj (h.symm.trans h')

/-! ### What a piece of a refresh changes -/

section Ask

omit [DecidableEq ι]

variable (s : EventLoop ι) (t : ℕ) (endpoints : List EndpointInfo)

@[simp] theorem ask_engines : (s.ask t endpoints).engines = s.engines := by
  unfold ask
  split <;> rfl

@[simp] theorem ask_instanceIdToIp : (s.ask t endpoints).instanceIdToIp = s.instanceIdToIp := by
  unfold ask
  split <;> rfl

@[simp] theorem ask_nextTask : (s.ask t endpoints).nextTask = s.nextTask := by
  unfold ask
  split <;> rfl

@[simp] theorem get?_tasks_ask (t' : ℕ) :
    (s.ask t endpoints).tasks.get? t' = if t' = t then firstQuery endpoints else s.tasks.get? t' := by
  unfold ask
  split
  · next h => rw [h]; exact Dict.get?_erase _ _ _
  · next h => rw [h]; exact Dict.get?_set _ _ _ _

theorem asked_ask : (s.ask t endpoints).asked =
    s.asked ++ ((firstQuery (ι := ι) endpoints).map fun f => (t, f.endpoint.url)).toList := by
  unfold ask
  split
  · next h => rw [h]; simp
  · next h => rw [h]; rfl

end Ask

/-- The effect of each event. -/
theorem step_cases {s s' : EventLoop ι} {e : LoopEvent ι} (h : s.Step e s') :
    (∃ url i, ∃ hfresh : i ∉ s.engines.booted, e = .boot url i ∧
      s' = { s with engines := s.engines.boot url i hfresh }) ∨
    (∃ endpoints layoutInfo, e = .refresh endpoints layoutInfo ∧
      (s' = { s with nextTask := s.nextTask + 1 } ∨
        s' = { s with nextTask := s.nextTask + 1 }.ask s.nextTask endpoints)) ∨
    (∃ t endpoint rest ip i, e = .serve t ∧ s.tasks.get? t = some ⟨endpoint, rest, ip, none⟩ ∧
      s.engines.current ip = some i ∧ s' = { s with tasks := s.tasks.set t ⟨endpoint, rest, ip, some i⟩ }) ∨
    ∃ t endpoint rest ip r, e = .resume t ∧ s.tasks.get? t = some ⟨endpoint, rest, ip, some r⟩ ∧
      s' = { s with instanceIdToIp := s.instanceIdToIp.set r endpoint.url }.ask t rest := by
  cases e with
  | boot url i =>
    simp only [Step, step?] at h
    split at h
    · next hfresh => exact Or.inl ⟨url, i, hfresh, rfl, (Option.some.inj h).symm⟩
    · exact nomatch h
  | refresh endpoints layoutInfo =>
    simp only [Step, step?] at h
    split at h
    · exact Or.inr (Or.inl ⟨endpoints, layoutInfo, rfl, Or.inl (Option.some.inj h).symm⟩)
    · exact Or.inr (Or.inl ⟨endpoints, layoutInfo, rfl, Or.inr (Option.some.inj h).symm⟩)
  | serve t =>
    simp only [Step, step?] at h
    split at h
    · next endpoint rest ip hget =>
      obtain ⟨i, hi, rfl⟩ := Option.map_eq_some_iff.mp h
      exact Or.inr (Or.inr (Or.inl ⟨t, endpoint, rest, ip, i, rfl, hget, hi, rfl⟩))
    · exact nomatch h
  | resume t =>
    simp only [Step, step?] at h
    split at h
    · next endpoint rest ip r hget =>
      exact Or.inr (Or.inr (Or.inr ⟨t, endpoint, rest, ip, r, rfl, hget, (Option.some.inj h).symm⟩))
    · exact nomatch h

end EventLoop

/-! ### A refresh that is not interrupted -/

variable [DecidableEq ι] {fleet : Fleet}

/-- Every query is served and its answer assigned before anything else happens. -/
theorem ask_uninterrupted (unregistered : ι) (t : ℕ) {endpoints : List EndpointInfo} {s : EventLoop ι}
    (hips : ∀ endpoint ∈ endpoints, ∃ ip, queryIp endpoint.url = .ok ip)
    (hup : ∀ endpoint ∈ endpoints, ∃ i, s.engines.currentId endpoint.url = some i) :
    ∃ s', Run EventLoop.Step (s.ask t endpoints) (endpoints.flatMap fun _ => [.serve t, .resume t]) s' ∧
      t ∉ s'.tasks ∧ s'.instanceIdToIp = s.instanceIdToIp.update
        (endpoints.map fun e => (s.engines.answer unregistered (ipOf e.url), e.url)) := by
  induction endpoints generalizing s with
  | nil =>
    refine ⟨_, Run.nil _, ?_, EventLoop.ask_instanceIdToIp _ _ _⟩
    rw [← Dict.get?_eq_none, EventLoop.get?_tasks_ask, if_pos rfl]
    rfl
  | cons endpoint rest ih =>
    obtain ⟨i, hi⟩ := hup endpoint List.mem_cons_self
    have hip := queryIp_eq_ipOf (hips endpoint List.mem_cons_self)
    have hask : (s.ask t (endpoint :: rest)).tasks.get? t = some ⟨endpoint, rest, ipOf endpoint.url, none⟩ := by
      rw [EventLoop.get?_tasks_ask, if_pos rfl, firstQuery, hip]
    have hanswer : s.engines.answer unregistered (ipOf endpoint.url) = i := by
      rw [Engines.answer, show s.engines.current (ipOf endpoint.url) = some i from hi, Option.getD_some]
    obtain ⟨served, hserved⟩ : ∃ served : EventLoop ι, served = { s.ask t (endpoint :: rest) with
      tasks := (s.ask t (endpoint :: rest)).tasks.set t ⟨endpoint, rest, ipOf endpoint.url, some i⟩ } := ⟨_, rfl⟩
    have hserve : (s.ask t (endpoint :: rest)).Step (.serve t) served := by
      simp only [EventLoop.Step, EventLoop.step?, hask, EventLoop.ask_engines]
      rw [show s.engines.current (ipOf endpoint.url) = some i from hi, hserved]
      simp
    have hget : served.tasks.get? t = some ⟨endpoint, rest, ipOf endpoint.url, some i⟩ := by
      rw [hserved]
      exact Dict.get?_set_self _ _ _
    have hresume : served.Step (.resume t)
        ({ served with instanceIdToIp := served.instanceIdToIp.set i endpoint.url }.ask t rest) := by
      simp only [EventLoop.Step, EventLoop.step?, hget]
    have hengines : served.engines = s.engines := by
      rw [hserved]
      exact EventLoop.ask_engines _ _ _
    have hbridge : served.instanceIdToIp = s.instanceIdToIp := by
      rw [hserved]
      exact EventLoop.ask_instanceIdToIp _ _ _
    obtain ⟨s', hrun, hdone, hs'⟩ :=
      ih (s := { served with instanceIdToIp := served.instanceIdToIp.set i endpoint.url })
        (fun e he => hips e (List.mem_cons_of_mem _ he))
        (fun e he => hengines ▸ hup e (List.mem_cons_of_mem _ he))
    refine ⟨s', Run.cons hserve (Run.cons hresume hrun), hdone, ?_⟩
    rw [hs', hengines, hbridge, List.map_cons, Dict.update_cons, hanswer]

/-- **A refresh that is not interrupted is `refresh_instance_map`**: the same ids end
up in the bridge, in the same order. -/
theorem refresh_uninterrupted (unregistered : ι) (s : EventLoop ι) (endpoints : List EndpointInfo)
    (layoutInfo : LayoutInfo ι) (queries : List String)
    (hips : ∀ endpoint ∈ endpoints, ∃ ip, queryIp endpoint.url = .ok ip)
    (hup : ∀ endpoint ∈ endpoints, ∃ i, s.engines.currentId endpoint.url = some i) :
    ∃ es s', Run EventLoop.Step s (.refresh endpoints layoutInfo :: es) s' ∧
      s'.instanceIdToIp = ((refreshInstanceMap (fun _ => s.engines.answer unregistered) endpoints layoutInfo).exec
        ⟨s.instanceIdToIp, queries⟩).2.instanceIdToIp := by
  cases hstale : instanceMapIsStale s.instanceIdToIp endpoints layoutInfo with
  | false =>
    refine ⟨[], { s with nextTask := s.nextTask + 1 }, Run.single ?_, ?_⟩
    · simp [EventLoop.Step, EventLoop.step?, hstale]
    · rw [refreshInstanceMap_of_not_stale _ hstale]
  | true =>
    obtain ⟨s', hrun, -, hs'⟩ :=
      ask_uninterrupted unregistered s.nextTask (s := { s with nextTask := s.nextTask + 1 }) hips hup
    refine ⟨_, s', Run.cons ?_ hrun, ?_⟩
    · simp [EventLoop.Step, EventLoop.step?, hstale]
    · rw [hs', refreshInstanceMap_exec _ hstale hips, BridgeState.refreshed, learned_const]

/-! ### The invariant of every run -/

/-- A suspended refresh asks about engines of the fleet, and its answer was used at the ip it asked about. -/
structure Suspended.Ok (fleet : Fleet) (engines : Engines ι) (f : Suspended ι) : Prop where
  /-- The endpoint is in the fleet. -/
  url_mem : f.endpoint.url ∈ fleet.urls
  /-- So are those to come. -/
  rest_mem : ∀ endpoint ∈ f.rest, endpoint.url ∈ fleet.urls
  /-- The ip is the endpoint's. -/
  ip_eq : f.ip = ipOf f.endpoint.url
  /-- The answer was used there. -/
  reply_booted : ∀ r, f.reply = some r → engines.booted.get? r = some f.ip

omit [DecidableEq ι] in
/-- The refresh is suspended at the first endpoint, without an answer. -/
theorem firstQuery_eq_some {endpoints : List EndpointInfo} {f : Suspended ι} (h : firstQuery endpoints = some f) :
    endpoints = f.endpoint :: f.rest ∧ queryIp f.endpoint.url = .ok f.ip ∧ f.reply = none := by
  cases endpoints with
  | nil => exact nomatch h
  | cons endpoint rest =>
    rw [firstQuery] at h
    cases hip : queryIp endpoint.url with
    | error e =>
      rw [hip] at h
      exact nomatch h
    | ok ip =>
      rw [hip] at h
      obtain rfl := Option.some.inj h
      exact ⟨rfl, hip, rfl⟩

theorem firstQuery_ok {endpoints : List EndpointInfo} {f : Suspended ι} {engines : Engines ι}
    (hurls : ∀ endpoint ∈ endpoints, endpoint.url ∈ fleet.urls) (h : firstQuery endpoints = some f) :
    f.Ok fleet engines := by
  obtain ⟨rfl, hip, hreply⟩ := firstQuery_eq_some h
  refine ⟨hurls _ List.mem_cons_self, fun e he => hurls e (List.mem_cons_of_mem _ he), ?_, fun r hr => ?_⟩
  · rw [ipOf, hip]
  · rw [hreply] at hr
    cases hr

theorem Suspended.Ok.boot {engines : Engines ι} {f : Suspended ι} (h : f.Ok fleet engines) {url : String} {i : ι}
    (hfresh : i ∉ engines.booted) : f.Ok fleet (engines.boot url i hfresh) :=
  { h with reply_booted := fun r hr => Engines.booted_boot hfresh (h.reply_booted r hr) }

/-- Every id in the bridge was used at the engine it is mapped to, and so was every answer. -/
structure Owned (fleet : Fleet) (s : EventLoop ι) : Prop where
  /-- The ids in the bridge. -/
  bridge : ∀ r v, s.instanceIdToIp.get? r = some v →
    v ∈ fleet.urls ∧ s.engines.booted.get? r = some (ipOf v)
  /-- The suspended refreshes. -/
  frames : ∀ t f, s.tasks.get? t = some f → f.Ok fleet s.engines
  /-- They have begun. -/
  tasks_lt : ∀ t f, s.tasks.get? t = some f → t < s.nextTask
  /-- Only a refresh that has begun has asked. -/
  asked_lt : ∀ p ∈ s.asked, p.1 < s.nextTask

theorem owned_start : Owned fleet (.start : EventLoop ι) where
  bridge _ _ h := nomatch h
  frames _ _ h := nomatch h
  tasks_lt _ _ h := nomatch h
  asked_lt _ h := absurd h List.not_mem_nil

/-- A refresh goes on to its next query. -/
theorem Owned.ask {s : EventLoop ι} (h : Owned fleet s) {t : ℕ} (ht : t < s.nextTask)
    {endpoints : List EndpointInfo} (hurls : ∀ endpoint ∈ endpoints, endpoint.url ∈ fleet.urls) :
    Owned fleet (s.ask t endpoints) where
  bridge r v hr := by
    rw [EventLoop.ask_instanceIdToIp] at hr
    rw [EventLoop.ask_engines]
    exact h.bridge r v hr
  frames t' f hf := by
    rw [EventLoop.get?_tasks_ask] at hf
    rw [EventLoop.ask_engines]
    split at hf
    · exact firstQuery_ok hurls hf
    · exact h.frames t' f hf
  tasks_lt t' f hf := by
    rw [EventLoop.get?_tasks_ask] at hf
    rw [EventLoop.ask_nextTask]
    split at hf
    · next heq => exact heq ▸ ht
    · exact h.tasks_lt t' f hf
  asked_lt p hp := by
    rw [EventLoop.asked_ask, List.mem_append] at hp
    rw [EventLoop.ask_nextTask]
    rcases hp with hp | hp
    · exact h.asked_lt p hp
    · obtain ⟨f, -, rfl⟩ := Option.map_eq_some_iff.mp (Option.mem_toList.mp hp)
      exact ht

/-- A refresh begins. -/
theorem Owned.begun {s : EventLoop ι} (h : Owned fleet s) : Owned fleet { s with nextTask := s.nextTask + 1 } :=
  { h with
    tasks_lt := fun t f hf => Nat.lt_succ_of_lt (h.tasks_lt t f hf)
    asked_lt := fun p hp => Nat.lt_succ_of_lt (h.asked_lt p hp) }

/-- A suspended refresh assigns its answer. -/
theorem Owned.assigned {s : EventLoop ι} (h : Owned fleet s) {t : ℕ} {f : Suspended ι} {r : ι}
    (hf : s.tasks.get? t = some f) (hreply : f.reply = some r) :
    Owned fleet { s with instanceIdToIp := s.instanceIdToIp.set r f.endpoint.url } :=
  { h with
    bridge := fun r' v hr => by
      have hok := h.frames t f hf
      rw [Dict.get?_set] at hr
      split at hr
      · next heq =>
        subst heq
        obtain rfl := Option.some.inj hr
        exact ⟨hok.url_mem, (hok.reply_booted _ hreply).trans (congrArg some hok.ip_eq)⟩
      · exact h.bridge r' v hr }

/-- An event keeps the invariant. -/
theorem Owned.step {s s' : EventLoop ι} {e : LoopEvent ι} (h : Owned fleet s) (he : e.InFleet fleet)
    (hstep : s.Step e s') : Owned fleet s' := by
  rcases EventLoop.step_cases hstep with ⟨url, i, hfresh, rfl, rfl⟩ | ⟨endpoints, layoutInfo, rfl, rfl | rfl⟩ |
    ⟨t, endpoint, rest, ip, i, rfl, hget, hi, rfl⟩ | ⟨t, endpoint, rest, ip, r, rfl, hget, rfl⟩
  · exact { h with
      bridge := fun r v hr => (h.bridge r v hr).imp_right (Engines.booted_boot hfresh)
      frames := fun t f hf => (h.frames t f hf).boot hfresh }
  · exact h.begun
  · exact h.begun.ask (Nat.lt_succ_self _) he
  · -- the Controller answers with the id that is current at the ip
    have hok := h.frames t _ hget
    refine { h with frames := fun t' f hf => ?_, tasks_lt := fun t' f hf => ?_ }
    · rw [Dict.get?_set] at hf
      split at hf
      · obtain rfl := Option.some.inj hf
        refine { hok with reply_booted := fun r hr => ?_ }
        obtain rfl := Option.some.inj hr
        exact Engines.booted_of_current hi
      · exact h.frames t' f hf
    · rw [Dict.get?_set] at hf
      split at hf
      · next heq => exact heq ▸ h.tasks_lt t _ hget
      · exact h.tasks_lt t' f hf
  · exact (h.assigned hget rfl).ask (h.tasks_lt t _ hget) (h.frames t _ hget).rest_mem

/-- An assignment of an id that the bridge has changes nothing. -/
theorem Owned.set_of_mem {s : EventLoop ι} (h : Owned fleet s) {r : ι} {v : String} (hv : v ∈ fleet.urls)
    (hr : s.engines.booted.get? r = some (ipOf v)) (hmem : r ∈ s.instanceIdToIp) :
    s.instanceIdToIp.set r v = s.instanceIdToIp := by
  obtain ⟨w, hw⟩ := Dict.exists_get?_of_mem hmem
  obtain ⟨hwmem, hwr⟩ := h.bridge r w hw
  obtain rfl : v = w := fleet.ipOf_injOn hv hwmem (Option.some.inj (hr.symm.trans hwr))
  exact Dict.set_of_get? hw

/-! ### Since the last boot of an engine -/

/-- The state since a boot of `u` under the id `i`, when `n` queries had been sent:
who asked about `u` since then has assigned `i`, or is still suspended there. -/
structure SinceBoot (fleet : Fleet) (u : String) (i : ι) (n : ℕ) (s : EventLoop ι) : Prop extends Owned fleet s where
  /-- The id is current. -/
  current : s.engines.currentId u = some i
  /-- The log only grows. -/
  le_asked : n ≤ s.asked.length
  /-- Who asked about `u` has assigned `i`, or waits for it. -/
  asks : ∀ t, (t, u) ∈ s.asked.drop n → i ∈ s.instanceIdToIp ∨
    ∃ f, s.tasks.get? t = some f ∧ f.endpoint.url = u ∧ ∀ r, f.reply = some r → r = i

section Since

variable {u : String} {i : ι} {n : ℕ}

theorem mem_drop_append {α : Type} {l m : List α} {n : ℕ} (hn : n ≤ l.length) {a : α} :
    a ∈ (l ++ m).drop n ↔ a ∈ l.drop n ∨ a ∈ m := by
  rw [List.drop_append_of_le_length hn, List.mem_append]

/-- A refresh goes on to its next query. Before, its own query about `u` must have been dealt with. -/
theorem SinceBoot.ask {s : EventLoop ι} (h : Owned fleet s) (hcurrent : s.engines.currentId u = some i)
    (hn : n ≤ s.asked.length) {t : ℕ} (ht : t < s.nextTask)
    (hasks : ∀ t', (t', u) ∈ s.asked.drop n → i ∈ s.instanceIdToIp ∨
      t' ≠ t ∧ ∃ f, s.tasks.get? t' = some f ∧ f.endpoint.url = u ∧ ∀ r, f.reply = some r → r = i)
    {endpoints : List EndpointInfo} (hurls : ∀ endpoint ∈ endpoints, endpoint.url ∈ fleet.urls) :
    SinceBoot fleet u i n (s.ask t endpoints) where
  toOwned := h.ask ht hurls
  current := by rw [EventLoop.ask_engines]; exact hcurrent
  le_asked := by
    rw [EventLoop.asked_ask, List.length_append]
    omega
  asks t' ht' := by
    rw [EventLoop.asked_ask, mem_drop_append hn] at ht'
    rw [EventLoop.ask_instanceIdToIp]
    rcases ht' with hold | hnew
    · rcases hasks t' hold with hknown | ⟨hne, hwaits⟩
      · exact Or.inl hknown
      · rw [EventLoop.get?_tasks_ask, if_neg hne]
        exact Or.inr hwaits
    · -- the query just sent
      obtain ⟨f, hf, heq⟩ := Option.map_eq_some_iff.mp (Option.mem_toList.mp hnew)
      obtain ⟨rfl, rfl⟩ := Prod.mk.inj heq
      refine Or.inr ⟨f, by rw [EventLoop.get?_tasks_ask, if_pos rfl, hf], rfl, fun r hr => ?_⟩
      rw [(firstQuery_eq_some hf).2.2] at hr
      exact nomatch hr

/-- An event that does not boot the engine keeps the invariant. -/
theorem SinceBoot.step {s s' : EventLoop ι} {e : LoopEvent ι} (hu : u ∈ fleet.urls)
    (h : SinceBoot fleet u i n s) (he : e.InFleet fleet) (hboot : ¬ e.Boots u) (hstep : s.Step e s') :
    SinceBoot fleet u i n s' := by
  have howned := h.toOwned.step he hstep
  rcases EventLoop.step_cases hstep with ⟨url, j, hfresh, rfl, rfl⟩ | ⟨endpoints, layoutInfo, rfl, rfl | rfl⟩ |
    ⟨t, endpoint, rest, ip, j, rfl, hget, hj, rfl⟩ | ⟨t, endpoint, rest, ip, r, rfl, hget, rfl⟩
  · refine { h with toOwned := howned, current := ?_ }
    exact (Engines.currentId_boot_of_ne _ hfresh he hu fun hurl => hboot hurl.symm).trans h.current
  · exact { h with toOwned := howned }
  · refine SinceBoot.ask h.begun h.current h.le_asked (Nat.lt_succ_self _) (fun t' ht' => ?_) he
    refine (h.asks t' ht').imp_right fun hwaits => ⟨?_, hwaits⟩
    exact (h.asked_lt _ (List.mem_of_mem_drop ht')).ne
  · -- the query that is served
    refine { h with toOwned := howned, asks := fun t' ht' => ?_ }
    refine (h.asks t' ht').imp_right ?_
    rintro ⟨f, hf, hfu, hreply⟩
    rw [Dict.get?_set]
    by_cases htt : t' = t
    · subst htt
      obtain rfl := Option.some.inj (hget.symm.trans hf)
      refine ⟨_, if_pos rfl, hfu, fun r hr => ?_⟩
      obtain rfl := Option.some.inj hr
      have hip : ip = ipOf u := (h.frames t' _ hget).ip_eq.trans (congrArg ipOf hfu)
      exact Option.some.inj (hj.symm.trans (hip ▸ h.current))
    · exact ⟨f, by rw [if_neg htt, hf], hfu, hreply⟩
  · -- the refresh that is resumed
    refine SinceBoot.ask (h.assigned hget rfl) h.current h.le_asked (h.tasks_lt t _ hget) (fun t' ht' => ?_)
      (h.frames t _ hget).rest_mem
    show i ∈ s.instanceIdToIp.set r endpoint.url ∨ _
    rw [Dict.mem_set]
    rcases h.asks t' ht' with hknown | ⟨f, hf, hfu, hreply⟩
    · exact Or.inl (Or.inr hknown)
    · by_cases htt : t' = t
      · subst htt
        obtain rfl := Option.some.inj (hget.symm.trans hf)
        exact Or.inl (Or.inl (hreply r rfl).symm)
      · exact Or.inr ⟨htt, f, hf, hfu, hreply⟩

/-! ### Which id carries the credit -/

/-- The event resumes a refresh that assigns to `u` an id the bridge does not have,
other than the current id `i`, which it has. -/
def Overtakes (u : String) (i : ι) (s : EventLoop ι) (e : LoopEvent ι) : Prop :=
  ∃ t f r, e = .resume t ∧ s.tasks.get? t = some f ∧ f.endpoint.url = u ∧ f.reply = some r ∧ r ≠ i ∧
    r ∉ s.instanceIdToIp ∧ i ∈ s.instanceIdToIp

/-- An event leaves the bridge as it is, or adds an id used at the URL it is assigned to. -/
theorem bridge_step {s s' : EventLoop ι} {e : LoopEvent ι} (h : Owned fleet s) (hstep : s.Step e s') :
    s'.instanceIdToIp = s.instanceIdToIp ∨
    ∃ t f r, e = .resume t ∧ s.tasks.get? t = some f ∧ f.reply = some r ∧ f.endpoint.url ∈ fleet.urls ∧
      s.engines.booted.get? r = some (ipOf f.endpoint.url) ∧ r ∉ s.instanceIdToIp ∧
      s'.instanceIdToIp = s.instanceIdToIp.set r f.endpoint.url := by
  rcases EventLoop.step_cases hstep with ⟨url, j, hfresh, rfl, rfl⟩ | ⟨endpoints, layoutInfo, rfl, rfl | rfl⟩ |
    ⟨t, endpoint, rest, ip, j, rfl, hget, hj, rfl⟩ | ⟨t, endpoint, rest, ip, r, rfl, hget, rfl⟩
  · exact Or.inl rfl
  · exact Or.inl rfl
  · exact Or.inl (EventLoop.ask_instanceIdToIp _ _ _)
  · exact Or.inl rfl
  · have hok := h.frames t _ hget
    have hbooted := (hok.reply_booted r rfl).trans (congrArg some hok.ip_eq)
    rw [EventLoop.ask_instanceIdToIp]
    by_cases hmem : r ∈ s.instanceIdToIp
    · exact Or.inl (h.set_of_mem hok.url_mem hbooted hmem)
    · exact Or.inr ⟨t, _, r, rfl, hget, rfl, hok.url_mem, hbooted, hmem, rfl⟩

/-- While no resumed refresh overtakes, a current id in the bridge is the last of its URL. -/
theorem last_step {s s' : EventLoop ι} {e : LoopEvent ι} (hu : u ∈ fleet.urls) (h : SinceBoot fleet u i n s)
    (hstep : s.Step e s') (hclean : ¬ Overtakes u i s e)
    (hlast : i ∈ s.instanceIdToIp → s.instanceIdToIp.invert.get? u = some i) :
    i ∈ s'.instanceIdToIp → s'.instanceIdToIp.invert.get? u = some i := by
  rcases bridge_step h.toOwned hstep with heq | ⟨t, f, r, rfl, hf, hreply, hv, hbooted, hnew, heq⟩
  · rw [heq]
    exact hlast
  · rw [heq, Dict.mem_set, Dict.invert_set_of_not_mem hnew, Dict.get?_set]
    intro hi
    by_cases hri : r = i
    · -- the current id itself is assigned, to `u`
      subst hri
      have hip : ipOf u = ipOf f.endpoint.url :=
        Option.some.inj ((Engines.booted_of_current h.current).symm.trans hbooted)
      rw [if_pos (fleet.ipOf_injOn hu hv hip)]
    · have hmem : i ∈ s.instanceIdToIp := hi.resolve_left (Ne.symm hri)
      have hvu : u ≠ f.endpoint.url := fun hvu => hclean ⟨t, f, r, rfl, hf, hvu.symm, hreply, hri, hnew, hmem⟩
      rw [if_neg hvu]
      exact hlast hmem

/-- A dead id carries the credit of `u`, although the current one is in the bridge. -/
def Overtaken (u : String) (i : ι) (instanceIdToIp : Dict ι String) : Prop :=
  i ∈ instanceIdToIp ∧ ∃ r, r ≠ i ∧ instanceIdToIp.invert.get? u = some r

theorem overtaken_of_overtakes {s s' : EventLoop ι} {e : LoopEvent ι} (hstep : s.Step e s')
    (h : Overtakes u i s e) : Overtaken u i s'.instanceIdToIp := by
  obtain ⟨t, ⟨endpoint, rest, ip, reply⟩, r, rfl, hf, rfl, rfl, hri, hnew, hmem⟩ := h
  simp only [EventLoop.Step, EventLoop.step?, hf] at hstep
  obtain rfl := Option.some.inj hstep
  rw [EventLoop.ask_instanceIdToIp]
  refine ⟨Dict.mem_set.mpr (Or.inr hmem), r, hri, ?_⟩
  rw [Dict.invert_set_of_not_mem hnew, Dict.get?_set_self]

/-- No event but a boot of `u` mends that. -/
theorem overtaken_step {s s' : EventLoop ι} {e : LoopEvent ι} (h : Owned fleet s) (hstep : s.Step e s')
    (hover : Overtaken u i s.instanceIdToIp) : Overtaken u i s'.instanceIdToIp := by
  rcases bridge_step h hstep with heq | ⟨t, f, r, rfl, hf, hreply, hv, hbooted, hnew, heq⟩
  · rwa [heq]
  · obtain ⟨hmem, r', hr', hget⟩ := hover
    rw [heq]
    refine ⟨Dict.mem_set.mpr (Or.inr hmem), ?_⟩
    rw [Dict.invert_set_of_not_mem hnew]
    by_cases hvu : u = f.endpoint.url
    · refine ⟨r, fun hri => hnew (hri ▸ hmem), ?_⟩
      rw [hvu, Dict.get?_set_self]
    · exact ⟨r', hr', by rw [Dict.get?_set_of_ne _ _ hvu, hget]⟩

/-- The refreshes begun before the boot that led to `s₁` have finished, and one that
asked about `u` after it. -/
def Settled (u : String) (s₁ s₂ : EventLoop ι) : Prop :=
  (∀ t < s₁.nextTask, t ∉ s₂.tasks) ∧ ∃ t, (t, u) ∈ s₂.asked.drop s₁.asked.length ∧ t ∉ s₂.tasks

/-- What `u` is credited with is what the id `i` matches. -/
def CreditsOnlyThrough (u : String) (i : ι) (instanceIdToIp : Dict ι String) : Prop :=
  ∀ layoutInfo tokens, (matchedTokensByUrl instanceIdToIp layoutInfo).get? u = some tokens →
    (layoutInfo.get? i).map Prod.snd = some tokens

theorem creditsOnlyThrough_iff {instanceIdToIp : Dict ι String} {k : ι} (h : instanceIdToIp.invert.get? u = some k) :
    CreditsOnlyThrough u i instanceIdToIp ↔ k = i := by
  constructor
  · intro hcredit
    have hk : ((∅ : LayoutInfo ι).set k ("", 0)).get? i ≠ none := by
      have := hcredit ((∅ : LayoutInfo ι).set k ("", 0)) 0 (by rw [matchedTokensByUrl_get?, h]; simp)
      intro hnone
      rw [hnone] at this
      cases this
    by_contra hne
    exact hk (Dict.get?_set_of_ne _ _ (Ne.symm hne))
  · rintro rfl layoutInfo tokens htokens
    rwa [matchedTokensByUrl_get?, h, Option.bind_some] at htokens

/-- The state right after a boot. -/
theorem sinceBoot_boot {s s' : EventLoop ι} (h : Owned fleet s) (hu : u ∈ fleet.urls) (hstep : s.Step (.boot u i) s') :
    SinceBoot fleet u i s'.asked.length s' ∧ i ∉ s'.instanceIdToIp := by
  have howned : Owned fleet s' := h.step (e := .boot u i) hu hstep
  simp only [EventLoop.Step, EventLoop.step?] at hstep
  split at hstep
  · next hfresh =>
    obtain rfl := Option.some.inj hstep
    refine ⟨⟨howned, Engines.currentId_boot _ _ _ hfresh, le_rfl, fun t ht => ?_⟩, fun hmem => ?_⟩
    · rw [List.drop_length] at ht
      exact absurd ht List.not_mem_nil
    · obtain ⟨v, hv⟩ := Dict.exists_get?_of_mem hmem
      exact hfresh (Dict.mem_of_get? (h.bridge i v hv).2)
  · exact nomatch hstep

end Since

/-- **When overlapping refreshes credit the live id.** In any run, let `u` boot last under
`i`, and let the refreshes begun before have finished, and one that asked about `u`
since. Then `u` is credited only through `i` exactly when no refresh resumed since the
boot has overtaken `i`. -/
theorem credits_current_iff (fleet : Fleet) {u : String} {i : ι} {pre mid : List (LoopEvent ι)}
    {s₀ s₁ s₂ : EventLoop ι} (hfleet : ∀ e ∈ pre ++ .boot u i :: mid, e.InFleet fleet)
    (hpre : Run EventLoop.Step .start pre s₀) (hboot : s₀.Step (.boot u i) s₁)
    (hmid : Run EventLoop.Step s₁ mid s₂) (hlast : ∀ e ∈ mid, ¬ e.Boots u) (hsettled : Settled u s₁ s₂) :
    CreditsOnlyThrough u i s₂.instanceIdToIp ↔
      EveryStep EventLoop.Step (fun s e => ¬ Overtakes u i s e) s₁ mid := by
  have hu : u ∈ fleet.urls := hfleet (.boot u i) (by simp)
  have hmidfleet : ∀ e ∈ mid, e.InFleet fleet := fun e he => hfleet e (by simp [he])
  have howned₀ : Owned fleet s₀ :=
    hpre.invariant_of (fun _ _ _ he h hstep => h.step he hstep) (fun e he => hfleet e (by simp [he])) owned_start
  obtain ⟨hsince₁, hnew⟩ := sinceBoot_boot howned₀ hu hboot
  have hsince₂ : SinceBoot fleet u i s₁.asked.length s₂ :=
    hmid.invariant_of (Q := fun e => e.InFleet fleet ∧ ¬ e.Boots u)
      (fun _ _ _ he h hstep => h.step hu he.1 he.2 hstep) (fun e he => ⟨hmidfleet e he, hlast e he⟩) hsince₁
  -- the refresh that asked about `u` and has finished assigned `i`
  have hknown : i ∈ s₂.instanceIdToIp := by
    obtain ⟨t, ht, hdone⟩ := hsettled.2
    rcases hsince₂.asks t ht with hknown | ⟨f, hf, -⟩
    · exact hknown
    · exact absurd (Dict.mem_of_get? hf) hdone
  constructor
  · intro hcredit es₁ e es₂ t hes ht hover
    -- after an overtaking step, `u` stays overtaken
    rw [hes, run_append_iff] at hmid
    obtain ⟨t', ht', hrest⟩ := hmid
    obtain rfl := ht.unique ht' fun _ _ _ _ => EventLoop.Step.unique
    obtain ⟨t', hstep, hrest⟩ := run_cons_iff.mp hrest
    have hfirst : Owned fleet t := ht.invariant_of (fun _ _ _ he h hstep => h.step he hstep)
      (fun e he => hmidfleet e (by simp [hes, he])) hsince₁.toOwned
    have hend : Owned fleet s₂ ∧ Overtaken u i s₂.instanceIdToIp :=
      hrest.invariant_of (P := fun s => Owned fleet s ∧ Overtaken u i s.instanceIdToIp)
        (fun _ _ _ he h hstep => ⟨h.1.step he hstep, overtaken_step h.1 hstep h.2⟩)
        (fun e he => hmidfleet e (by simp [hes, he]))
        ⟨hfirst.step (hmidfleet e (by simp [hes])) hstep, overtaken_of_overtakes hstep hover⟩
    obtain ⟨r, hri, hget⟩ := hend.2.2
    exact hri ((creditsOnlyThrough_iff hget).mp hcredit)
  · intro hclean
    have hevery : EveryStep EventLoop.Step
        (fun s e => ¬ Overtakes u i s e ∧ e.InFleet fleet ∧ ¬ e.Boots u) s₁ mid := fun es₁ e es₂ t hes ht =>
      ⟨hclean es₁ e es₂ t hes ht, hmidfleet e (by simp [hes]), hlast e (by simp [hes])⟩
    have hend := hmid.invariant_of_every
      (I := fun s => SinceBoot fleet u i s₁.asked.length s ∧
        (i ∈ s.instanceIdToIp → s.instanceIdToIp.invert.get? u = some i))
      (fun _ _ _ he h hstep => ⟨h.1.step hu he.2.1 he.2.2 hstep, last_step hu h.1 hstep he.1 h.2⟩)
      hevery ⟨hsince₁, fun hmem => absurd hmem hnew⟩
    exact (creditsOnlyThrough_iff (hend.2 hknown)).mpr rfl

/-! ### A stale reply that wins -/

/-- The engine boots as `1`, and a refresh has its answer from before a restart. -/
def beforeRestart : List (LoopEvent ℕ) :=
  [.boot "http://10.0.0.1:8000" 1, .refresh [⟨"http://10.0.0.1:8000", []⟩] (Dict.ofList [(1, ("cpu", 256))]),
    .serve 0]

/-- After the restart as `2`, a second refresh finishes before the first goes on. -/
def afterRestart : List (LoopEvent ℕ) :=
  [.refresh [⟨"http://10.0.0.1:8000", []⟩] (Dict.ofList [(2, ("cpu", 256))]), .serve 1, .resume 1, .resume 0]

theorem inFleet_overlap : ∀ e ∈ beforeRestart ++ .boot "http://10.0.0.1:8000" 2 :: afterRestart,
    e.InFleet twoEngines := by
  have hurl : ("http://10.0.0.1:8000" : String) ∈ twoEngines.urls := Or.inl rfl
  have hurls : ∀ endpoint ∈ [EndpointInfo.mk "http://10.0.0.1:8000" []], endpoint.url ∈ twoEngines.urls :=
    fun _ h => List.mem_singleton.mp h ▸ hurl
  simp only [beforeRestart, afterRestart, List.cons_append, List.nil_append, List.forall_mem_cons]
  exact ⟨hurl, hurls, trivial, hurl, hurls, trivial, trivial, trivial, fun _ h => absurd h List.not_mem_nil⟩

theorem boots_afterRestart : ∀ e ∈ afterRestart, ¬ e.Boots "http://10.0.0.1:8000" := by
  simp [afterRestart, LoopEvent.Boots]

theorem run_overlap : ∃ s₀ s₁ s₂ : EventLoop ℕ, Run EventLoop.Step .start beforeRestart s₀ ∧
    s₀.Step (.boot "http://10.0.0.1:8000" 2) s₁ ∧ Run EventLoop.Step s₁ afterRestart s₂ ∧
    Settled "http://10.0.0.1:8000" s₁ s₂ ∧ s₂.instanceIdToIp.invert.get? "http://10.0.0.1:8000" = some 1 := by
  have h : ((runAll? EventLoop.step? .start beforeRestart).bind fun s₀ : EventLoop ℕ =>
      (s₀.step? (.boot "http://10.0.0.1:8000" 2)).bind fun s₁ =>
        (runAll? EventLoop.step? s₁ afterRestart).map fun s₂ =>
          (s₁.asked.length, s₂.tasks.keys, s₂.asked, s₂.instanceIdToIp.invert.get? "http://10.0.0.1:8000")) =
      some (1, [], [(0, "http://10.0.0.1:8000"), (1, "http://10.0.0.1:8000")], some 1) := by
    decide +kernel
  obtain ⟨s₀, h₀, h⟩ := Option.bind_eq_some_iff.mp h
  obtain ⟨s₁, h₁, h⟩ := Option.bind_eq_some_iff.mp h
  obtain ⟨s₂, h₂, h⟩ := Option.map_eq_some_iff.mp h
  simp only [Prod.mk.injEq] at h
  obtain ⟨hlength, htasks, hasked, hlast⟩ := h
  have hdone (t : ℕ) : t ∉ s₂.tasks := by
    rw [← Dict.mem_keys, htasks]
    exact List.not_mem_nil
  refine ⟨s₀, s₁, s₂, run_of_runAll? h₀, h₁, run_of_runAll? h₂, ⟨fun t _ => hdone t, 1, ?_, hdone 1⟩, hlast⟩
  rw [hlength, hasked]
  exact List.mem_singleton_self _

/-- The reply from before the restart is assigned last, and the dead id carries the credit. -/
theorem stale_reply_wins :
    ¬ ∀ (fleet : Fleet) (u : String) (i : ℕ) (pre mid : List (LoopEvent ℕ)) (s₀ s₁ s₂ : EventLoop ℕ),
      (∀ e ∈ pre ++ .boot u i :: mid, e.InFleet fleet) → Run EventLoop.Step .start pre s₀ →
      s₀.Step (.boot u i) s₁ → Run EventLoop.Step s₁ mid s₂ → (∀ e ∈ mid, ¬ e.Boots u) →
      Settled u s₁ s₂ → CreditsOnlyThrough u i s₂.instanceIdToIp := by
  intro h
  obtain ⟨s₀, s₁, s₂, hpre, hboot, hmid, hsettled, hlast⟩ := run_overlap
  have hcredit := h twoEngines _ 2 _ _ s₀ s₁ s₂ inFleet_overlap hpre hboot hmid boots_afterRestart hsettled
  exact absurd ((creditsOnlyThrough_iff hlast).mp hcredit) (by decide)

theorem credits_current_iff_overlap : ∃ s₁ s₂ : EventLoop ℕ, Settled "http://10.0.0.1:8000" s₁ s₂ ∧
    (CreditsOnlyThrough "http://10.0.0.1:8000" 2 s₂.instanceIdToIp ↔
      EveryStep EventLoop.Step (fun s e => ¬ Overtakes "http://10.0.0.1:8000" 2 s e) s₁ afterRestart) := by
  obtain ⟨s₀, s₁, s₂, hpre, hboot, hmid, hsettled, -⟩ := run_overlap
  exact ⟨s₁, s₂, hsettled,
    credits_current_iff twoEngines inFleet_overlap hpre hboot hmid boots_afterRestart hsettled⟩

end CachingInLLMs.Router

import CachingInLLMs.Router.RoutingLogic

/-!
# Runs of the router registry

Routers are initialized, reconfigured and cleaned up in any order, and the tasks that run their Controllers may
end by themselves at any time, with or without an exception.

## What is proved

* `reconfigure_refines`: under reconfiguration the registry is one router or none, which is what `Service`
  says.
* `failed_task_blocks`: once the task of the router has failed, no reconfiguration replaces it.
* `orphan_iff`: a task runs without a router exactly if its class was initialized again.
-/

namespace CachingInLLMs.Router

open CachingInLLMs.Library

/-! ### Reconfiguration only -/

variable {φ : Type}

/-- The router that is in use, and how its task is. -/
structure Service (φ : Type) where
  /-- Its class. -/
  cls : RouterClass
  /-- What it was made with. -/
  fields : RouterFields φ
  /-- Its task. -/
  task : Option TaskState

/-- What happens under reconfiguration. -/
inductive ServiceEvent (φ : Type) where
  /-- `reconfigure_routing_logic` returns or raises. -/
  | reconfigure (logic : RoutingLogic) (kwargs : Kwargs φ) (env : Environment φ) (result : Except PyError PUnit)
  /-- A task ends by itself. -/
  | ends (t : ℕ) (result : Except PyError PUnit)

/-- What happens. -/
inductive RegistryEvent (φ : Type) where
  /-- What happens under reconfiguration. -/
  | service (e : ServiceEvent φ)
  /-- `initialize_routing_logic` returns or raises. -/
  | init (logic : RoutingLogic) (kwargs : Kwargs φ) (env : Environment φ) (result : Except PyError PUnit)
  /-- `cleanup_routing_logic` returns or raises. -/
  | cleanup (result : Except PyError PUnit)

section Runs

variable [One φ]

/-- The event leads from one state to the next. -/
def Singletons.Step (s : Singletons φ) : RegistryEvent φ → Singletons φ → Prop
  | .service (.reconfigure logic kwargs env result), s' =>
    (Singletons.reconfigureRoutingLogic logic kwargs env).exec s = (result, s')
  | .service (.ends t result), s' =>
    s.tasks[t]? = some .running ∧ s' = { s with tasks := s.tasks.set t (.finished result) }
  | .init logic kwargs env result, s' =>
    (Singletons.initializeRoutingLogic logic kwargs env).exec s = (result, s')
  | .cleanup result, s' => Singletons.cleanupRoutingLogic.exec s = (result, s')

/-- The task of the router in use has failed. -/
def Stuck (a : Option (Service φ)) (e : PyError) : Prop := ∃ svc, a = some svc ∧ svc.task = some (.finished (.error e))

/-- A router as it is made. -/
def Service.made (logic : RoutingLogic) (fields : RouterFields φ) : Service φ :=
  ⟨logic.routerClass, fields, if logic.routerClass.hasManager then some .running else none⟩

/-- What reconfiguration does to the router in use: nothing if its task has failed, and otherwise another one
replaces it, or none. -/
inductive Service.Step : Option (Service φ) → ServiceEvent φ → Option (Service φ) → Prop
  /-- The exception of the task is raised. -/
  | stuck {a : Option (Service φ)} {e : PyError} (h : Stuck a e) (logic : RoutingLogic) (kwargs : Kwargs φ)
      (env : Environment φ) : Service.Step a (.reconfigure logic kwargs env (.error e)) a
  /-- Another router is made. -/
  | made {a : Option (Service φ)} (h : ∀ e, ¬ Stuck a e) {logic : RoutingLogic} {kwargs : Kwargs φ}
      {env : Environment φ} {fields : RouterFields φ} (hfields : construct logic kwargs env = .ok fields) :
      Service.Step a (.reconfigure logic kwargs env (.ok ⟨⟩)) (some (.made logic fields))
  /-- The constructor raises. -/
  | raised {a : Option (Service φ)} (h : ∀ e, ¬ Stuck a e) {logic : RoutingLogic} {kwargs : Kwargs φ}
      {env : Environment φ} {e : PyError} (hfields : construct logic kwargs env = .error e) :
      Service.Step a (.reconfigure logic kwargs env (.error e)) none
  /-- The task ends by itself. -/
  | ends {svc : Service φ} (h : svc.task = some .running) (t : ℕ) (result : Except PyError PUnit) :
      Service.Step (some svc) (.ends t result) (some { svc with task := some (.finished result) })

/-- Nothing happens any more to a router whose task has failed, and reconfiguring raises. -/
theorem Stuck.of_step {a a' : Option (Service φ)} {e : PyError} {ev : ServiceEvent φ} (h : Stuck a e)
    (hstep : Service.Step a ev a') :
    a' = a ∧ ∃ logic kwargs env, ev = .reconfigure logic kwargs env (.error e) := by
  obtain ⟨svc, rfl, hfailed⟩ := h
  cases hstep with
  | stuck hstuck logic kwargs env =>
    obtain ⟨_, ⟨⟩, hfailed'⟩ := hstuck
    rw [hfailed] at hfailed'
    cases hfailed'
    exact ⟨rfl, logic, kwargs, env, rfl⟩
  | made hok _ => exact absurd ⟨svc, rfl, hfailed⟩ (hok e)
  | raised hok _ => exact absurd ⟨svc, rfl, hfailed⟩ (hok e)
  | ends hrunning _ _ =>
    rw [hfailed] at hrunning
    cases hrunning

theorem Stuck.of_run {a a' : Option (Service φ)} {e : PyError} {es : List (ServiceEvent φ)} (h : Stuck a e)
    (hrun : Run Service.Step a es a') :
    a' = a ∧ ∀ ev ∈ es, ∃ logic kwargs env, ev = .reconfigure logic kwargs env (.error e) := by
  induction hrun with
  | nil => exact ⟨rfl, fun ev hev => absurd hev List.not_mem_nil⟩
  | cons hstep _ ih =>
    obtain ⟨rfl, hfirst⟩ := h.of_step hstep
    obtain ⟨rfl, hrest⟩ := ih h
    exact ⟨rfl, List.forall_mem_cons.mpr ⟨hfirst, hrest⟩⟩

/-- The registry has this router, if any, and no other. -/
def Singletons.HasOnly (s : Singletons φ) : Option (Service φ) → Prop
  | none => ∀ c, s.instances.get? c = none
  | some svc => ∃ task, svc.task = task.bind (s.tasks[·]?) ∧
    ∀ c, s.instances.get? c = if c = svc.cls then some ⟨svc.fields, task⟩ else none

/-- The registry is what is in use, and no other task runs. -/
structure Singletons.Refines (s : Singletons φ) (a : Option (Service φ)) : Prop where
  /-- Its tasks. -/
  sound : s.Sound
  /-- The router. -/
  hasOnly : s.HasOnly a
  /-- The tasks that run. -/
  running : ∀ t, s.tasks[t]? = some .running → ∃ c, s.Holds c t

namespace Singletons

variable {s s' : Singletons φ} {a a' : Option (Service φ)} {svc : Service φ} {e : PyError} {es es' : List (ServiceEvent φ)}

omit [One φ] in
theorem refines_start : (start : Singletons φ).Refines none where
  sound _ _ h := by cases h
  hasOnly _ := rfl
  running t h := by simp [start] at h

omit [One φ] in
/-- The only router holds the task. -/
theorem holds_of_hasOnly {cls : RouterClass} {fields : RouterFields φ} {task : Option ℕ}
    (h : ∀ c, s.instances.get? c = if c = cls then some ⟨fields, task⟩ else none) {c : RouterClass} {t : ℕ} :
    s.Holds c t ↔ c = cls ∧ task = some t := by
  rw [Holds, h]
  by_cases hc : c = cls <;> simp [hc]

omit [One φ] in
/-- No class but that of the router has one. -/
theorem Refines.get?_eq_none_of_ne (h : s.Refines a) {c c' : RouterClass} {t : ℕ} (hholds : s.Holds c t) (hne : c' ≠ c) :
    s.instances.get? c' = none := by
  cases a with
  | none => exact h.hasOnly c'
  | some svc =>
    obtain ⟨task, -, hinstances⟩ := h.hasOnly
    obtain ⟨rfl, -⟩ := (holds_of_hasOnly hinstances).mp hholds
    rw [hinstances, if_neg hne]

omit [One φ] in
/-- It has failed in the one if it has in the other. -/
theorem Refines.failed_iff (h : s.Refines a) : (∃ c, s.Failed c e) ↔ Stuck a e := by
  cases a with
  | none =>
    constructor
    · rintro ⟨c, t, hholds, -⟩
      rw [Holds, h.hasOnly c] at hholds
      cases hholds
    · rintro ⟨svc, hsvc, -⟩
      cases hsvc
  | some svc =>
    obtain ⟨task, htask, hinstances⟩ := h.hasOnly
    constructor
    · rintro ⟨c, t, hholds, hfailed⟩
      obtain ⟨-, rfl⟩ := (holds_of_hasOnly hinstances).mp hholds
      exact ⟨svc, rfl, htask.trans hfailed⟩
    · rintro ⟨_, ⟨⟩, hstuck⟩
      rw [htask, Option.bind_eq_some_iff] at hstuck
      obtain ⟨t, rfl, hfailed⟩ := hstuck
      exact ⟨svc.cls, t, (holds_of_hasOnly hinstances).mpr ⟨rfl, rfl⟩, hfailed⟩

omit [One φ] in
/-- `get_routing_logic` finds it. -/
theorem Refines.get (h : s.Refines a) : (s.getRoutingLogic.toOption.map fun found => (found.1, found.2.fields)) =
    a.map fun svc => (svc.cls, svc.fields) := by
  cases a with
  | none =>
    have hnone : routerClasses.findSome? (fun cls => (s.instances.get? cls).map (cls, ·)) = none := by
      rw [List.findSome?_eq_none_iff]
      intro c _
      rw [h.hasOnly c]
      rfl
    rw [getRoutingLogic, hnone]
    rfl
  | some svc =>
    obtain ⟨task, -, hinstances⟩ := h.hasOnly
    have hsome : routerClasses.findSome? (fun cls => (s.instances.get? cls).map (cls, ·)) =
        some (svc.cls, ⟨svc.fields, task⟩) := by
      simp only [hinstances]
      cases svc.cls <;> rfl
    rw [getRoutingLogic, hsome]
    rfl

omit [One φ] in
/-- Cleaning up classes that have no router leaves the routers. -/
theorem Cleaned.get?_of_none {classes : List RouterClass} (hcleaned : Cleaned classes s s')
    (hnone : ∀ c ∈ classes, s.instances.get? c = none) (c : RouterClass) :
    s'.instances.get? c = s.instances.get? c := by
  rw [hcleaned.instances]
  split_ifs with hc
  · exact (hnone c hc).symm
  · rfl

omit [One φ] in
/-- Cleaning up classes that have no router changes nothing. -/
theorem Refines.cleaned_of_none {classes : List RouterClass} (h : s.Refines a) (hcleaned : Cleaned classes s s')
    (hnone : ∀ c ∈ classes, s.instances.get? c = none) : s'.Refines a := by
  have hinstances := hcleaned.get?_of_none hnone
  have htasks (t : ℕ) : s'.tasks[t]? = s.tasks[t]? := by
    have hheld : ¬ ∃ c ∈ classes, s.Holds c t := by
      rintro ⟨c, hc, hholds⟩
      rw [Holds, hnone c hc] at hholds
      cases hholds
    rw [hcleaned.tasks]
    simp [hheld]
  refine ⟨hcleaned.sound h.sound, ?_, fun t ht => ?_⟩
  · cases a with
    | none => exact fun c => (hinstances c).trans (h.hasOnly c)
    | some svc =>
      obtain ⟨task, htask, honly⟩ := h.hasOnly
      refine ⟨task, ?_, fun c => (hinstances c).trans (honly c)⟩
      simp only [htasks]
      exact htask
  · obtain ⟨c, hholds⟩ := h.running t (htasks t ▸ ht)
    exact ⟨c, by rw [Holds, hinstances]; exact hholds⟩

omit [One φ] in
/-- Cleaning up everything leaves nothing, and nothing that runs. -/
theorem Refines.cleaned_all (h : s.Refines a) (hcleaned : Cleaned routerClasses s s') :
    s'.Refines none ∧ ∀ t : ℕ, s'.tasks[t]? ≠ some TaskState.running := by
  have hnone (c : RouterClass) : s'.instances.get? c = none := by
    rw [hcleaned.instances, if_pos (mem_routerClasses c)]
  have hrunning (t : ℕ) : s'.tasks[t]? ≠ some TaskState.running := by
    intro ht
    rw [hcleaned.tasks, Option.map_eq_some_iff] at ht
    obtain ⟨task, htask, heq⟩ := ht
    split_ifs at heq with hheld
    · cases task <;> cases heq
    · subst heq
      obtain ⟨c, hholds⟩ := h.running t htask
      exact hheld ⟨c, mem_routerClasses c, hholds⟩
  exact ⟨⟨hcleaned.sound h.sound, hnone, fun t ht => absurd ht (hrunning t)⟩, hrunning⟩

omit [One φ] in
/-- A router is made where there is none. -/
theorem Refines.made {logic : RoutingLogic} {fields : RouterFields φ} (h : s.Refines none)
    (hrunning : ∀ t : ℕ, s.tasks[t]? ≠ some TaskState.running) (hstarted : Started logic.routerClass ⟨fields, none⟩ s s') :
    s'.Refines (some (.made logic fields)) := by
  have hinstances (c : RouterClass) : s'.instances.get? c = if c = logic.routerClass then
      some ⟨fields, if logic.routerClass.hasManager then some s.tasks.length else none⟩ else none := by
    rw [hstarted.instances, h.hasOnly c]
  have hholds {c : RouterClass} {t : ℕ} := holds_of_hasOnly hinstances (c := c) (t := t)
  by_cases hmanager : logic.routerClass.hasManager = true
  · have htasks : s'.tasks = s.tasks ++ [.running] := by rw [hstarted.tasks, if_pos hmanager]
    simp only [hmanager, if_true, Option.some_inj] at hholds hinstances
    refine ⟨fun c t hc => ?_, ⟨some s.tasks.length, ?_, hinstances⟩, fun t ht => ?_⟩
    · obtain ⟨rfl, rfl⟩ := hholds.mp hc
      exact ⟨hmanager, by simp [htasks]⟩
    · simp [Service.made, hmanager, htasks]
    · rw [htasks] at ht
      refine ⟨logic.routerClass, hholds.mpr ⟨rfl, ?_⟩⟩
      rcases lt_trichotomy t s.tasks.length with hlt | heq | hgt
      · rw [List.getElem?_append_left hlt] at ht
        exact absurd ht (hrunning t)
      · exact heq.symm
      · rw [List.getElem?_eq_none (by simp; omega)] at ht
        cases ht
  · have htasks : s'.tasks = s.tasks := by rw [hstarted.tasks, if_neg hmanager]
    simp only [hmanager] at hholds hinstances
    refine ⟨fun c t hc => ?_, ⟨none, ?_, hinstances⟩, fun t ht => ?_⟩
    · cases (hholds.mp hc).2
    · simp [Service.made, hmanager]
    · exact absurd (htasks ▸ ht) (hrunning t)

/-- Reconfiguring, when the task of the router has failed: no router is found before this one, and its exception
ends the cleaning. -/
theorem Refines.reconfigure_of_stuck (h : s.Refines a) (hstuck : Stuck a e) (logic : RoutingLogic)
    (kwargs : Kwargs φ) (env : Environment φ) :
    ∃ s₁, (reconfigureRoutingLogic logic kwargs env).exec s = (.error e, s₁) ∧ s₁.Refines a ∧
      ∀ c, s₁.instances.get? c = s.instances.get? c := by
  obtain ⟨c, hfailed⟩ := h.failed_iff.mpr hstuck
  obtain ⟨before, after, hclasses⟩ := List.append_of_mem (mem_routerClasses c)
  have hbefore : ∀ c' ∈ before, s.instances.get? c' = none := by
    have hnodup := nodup_routerClasses
    rw [hclasses, List.nodup_append] at hnodup
    obtain ⟨t, hholds, -⟩ := hfailed
    intro c' hc'
    exact h.get?_eq_none_of_ne hholds fun heq => hnodup.2.2 c' hc' c List.mem_cons_self heq
  have hothers : ∀ c' ∈ before, ∀ e, ¬ s.Failed c' e := by
    rintro c' hc' e' ⟨t, hholds, -⟩
    rw [Holds, hbefore c' hc'] at hholds
    cases hholds
  obtain ⟨s₁, hcleanup, hcleaned⟩ := (cleanup_spec h.sound).2 before c after e hclasses hothers hfailed
  refine ⟨s₁, ?_, h.cleaned_of_none hcleaned hbefore, hcleaned.get?_of_none hbefore⟩
  rw [reconfigureRoutingLogic, Py.exec_bind_of_error hcleanup]

/-- One event. -/
theorem Refines.step {e : ServiceEvent φ} (h : s.Refines a) (hstep : s.Step (.service e) s') :
    ∃ a', Service.Step a e a' ∧ s'.Refines a' := by
  cases e with
  | ends t result =>
    obtain ⟨ht, rfl⟩ := hstep
    obtain ⟨c, hholds⟩ := h.running t ht
    have hlt : t < s.tasks.length := (h.sound c t hholds).2
    cases a with
    | none =>
      rw [Holds, h.hasOnly c] at hholds
      cases hholds
    | some svc =>
      obtain ⟨task, htask, hinstances⟩ := h.hasOnly
      obtain ⟨rfl, rfl⟩ := (holds_of_hasOnly hinstances).mp hholds
      refine ⟨_, .ends (htask.trans ht) t result, fun c' t' hc => ?_, ⟨some t, ?_, hinstances⟩, fun t' ht' => ?_⟩
      · rw [List.length_set]
        exact h.sound c' t' hc
      · simp [hlt]
      · dsimp only at ht'
        rw [List.getElem?_set] at ht'
        split_ifs at ht'
        · cases ht'
        · exact h.running t' ht'
  | reconfigure logic kwargs env result =>
    have hexec : (reconfigureRoutingLogic logic kwargs env).exec s = (result, s') := hstep
    by_cases hstuck : ∃ e, Stuck a e
    · obtain ⟨e, hstuck⟩ := hstuck
      obtain ⟨s₁, hraise, hrefines, -⟩ := h.reconfigure_of_stuck hstuck logic kwargs env
      rw [hraise] at hexec
      cases hexec
      exact ⟨a, .stuck hstuck logic kwargs env, hrefines⟩
    · have hok : ∀ c e, ¬ s.Failed c e := fun c e hfailed => hstuck ⟨e, h.failed_iff.mp ⟨c, hfailed⟩⟩
      obtain ⟨s₁, hcleanup, hcleaned⟩ := (cleanup_spec h.sound).1 hok
      obtain ⟨hnone, hrunning⟩ := h.cleaned_all hcleaned
      rw [reconfigureRoutingLogic, Py.exec_bind_of_ok hcleanup] at hexec
      cases hfields : construct logic kwargs env with
      | error e =>
        rw [exec_initialize_of_error (hnone.hasOnly _) hfields] at hexec
        cases hexec
        exact ⟨none, .raised (fun e hs => hstuck ⟨e, hs⟩) hfields, hnone⟩
      | ok fields =>
        obtain ⟨s₂, hinit, hstarted⟩ := exec_initialize_of_none (hnone.hasOnly _) hfields
        rw [hinit] at hexec
        cases hexec
        exact ⟨_, .made (fun e hs => hstuck ⟨e, hs⟩) hfields, hnone.made hrunning hstarted⟩

/-- Once the task has failed, an event leaves the routers. -/
theorem Refines.step_of_stuck {ev : ServiceEvent φ} (h : s.Refines a) (hstuck : Stuck a e)
    (hstep : s.Step (.service ev) s') : s'.Refines a ∧ ∀ c, s'.instances.get? c = s.instances.get? c := by
  obtain ⟨a', hservice, hrefines⟩ := h.step hstep
  obtain ⟨rfl, logic, kwargs, env, rfl⟩ := hstuck.of_step hservice
  obtain ⟨s₁, hraise, -, hinstances⟩ := h.reconfigure_of_stuck hstuck logic kwargs env
  have hexec : (reconfigureRoutingLogic logic kwargs env).exec s = (.error e, s') := hstep
  rw [hraise] at hexec
  cases hexec
  exact ⟨hrefines, hinstances⟩

omit [One φ] in
theorem getRoutingLogic_congr (h : ∀ c, s'.instances.get? c = s.instances.get? c) :
    s'.getRoutingLogic = s.getRoutingLogic := by
  simp only [getRoutingLogic, h]

/-- So every event after that leaves the router that is found, and its task. -/
theorem Refines.getRoutingLogic_of_stuck (h : s.Refines a) (hstuck : Stuck a e)
    (hrun : Run Step s (es.map .service) s') : s'.getRoutingLogic = s.getRoutingLogic := by
  have hkeeps := hrun.invariant_of (Q := fun ev => ∃ ev', ev = .service ev')
    (P := fun s'' => s''.Refines a ∧ ∀ c, s''.instances.get? c = s.instances.get? c)
    (fun s₁ s₂ ev hev hinv hstep => by
      obtain ⟨ev', rfl⟩ := hev
      obtain ⟨hrefines, hinstances⟩ := hinv.1.step_of_stuck hstuck hstep
      exact ⟨hrefines, fun c => (hinstances c).trans (hinv.2 c)⟩)
    (fun ev hev => by
      obtain ⟨ev', -, rfl⟩ := List.mem_map.mp hev
      exact ⟨ev', rfl⟩)
    ⟨h, fun _ => rfl⟩
  exact getRoutingLogic_congr hkeeps.2

theorem Refines.run (h : s.Refines a) (hrun : Run Step s (es.map .service) s') :
    ∃ a', Run Service.Step a es a' ∧ s'.Refines a' :=
  hrun.simulate (fun _ _ _ _ hrefines hstep => hrefines.step hstep) h

namespace Sample

/-- Only a session key. -/
def kwargs : Kwargs ℕ := ⟨none, some "x-user", none, none, none, none⟩

/-- Everything can be constructed. -/
def env : Environment ℕ := ⟨none, fun _ => none, .ok ⟨⟩, .ok ⟨⟩⟩

/-- The port is taken. -/
def taken : PyError := .other "OSError"

/-- `kvaware` is made, and its Controller fails. -/
def events : List (ServiceEvent ℕ) := [.reconfigure .kvaware kwargs env (.ok ⟨⟩), .ends 0 (.error taken)]

/-- The registry then. -/
def failed : Singletons ℕ :=
  ⟨((reconfigureRoutingLogic .kvaware kwargs env).exec start).2.instances, [.finished (.error taken)]⟩

theorem run_events : Run Step start (events.map .service) failed := by
  have hmade : Step start (.service (.reconfigure .kvaware kwargs env (.ok ⟨⟩))) ⟨failed.instances, [.running]⟩ := rfl
  exact Run.cons hmade (Run.single ⟨rfl, rfl⟩)

theorem failed_events : failed.Failed .kvaware taken := ⟨0, rfl, rfl⟩

/-- To `roundrobin`, and to `loadaware`. -/
def again : List (ServiceEvent ℕ) :=
  [.reconfigure .roundRobin kwargs env (.error taken), .reconfigure .loadaware kwargs env (.error taken)]

/-- The registry after the first of them. -/
def retried : Singletons ℕ := ((reconfigureRoutingLogic .roundRobin kwargs env).exec failed).2

/-- The registry after both. -/
def retriedTwice : Singletons ℕ := ((reconfigureRoutingLogic .loadaware kwargs env).exec retried).2

theorem run_again : Run Step failed (again.map .service) retriedTwice := by
  have hfirst : Step failed (.service (.reconfigure .roundRobin kwargs env (.error taken))) retried := rfl
  exact Run.cons hfirst (Run.single rfl)

end Sample

/-- **Under reconfiguration the registry is one router, or none**: whatever happens, it goes through what happens
to the router in use, and that is the one found. -/
theorem reconfigure_refines (h : Run Step start (es.map .service) s) :
    ∃ a, Run Service.Step none es a ∧ s.Refines a ∧
      (s.getRoutingLogic.toOption.map fun found => (found.1, found.2.fields)) = a.map fun svc => (svc.cls, svc.fields) := by
  obtain ⟨a, hrun, hrefines⟩ := refines_start.run h
  exact ⟨a, hrun, hrefines, hrefines.get⟩

theorem reconfigure_refines_failed : ∃ a, Run Service.Step none Sample.events a ∧ Sample.failed.Refines a ∧
    (Sample.failed.getRoutingLogic.toOption.map fun found => (found.1, found.2.fields)) =
      a.map fun svc => (svc.cls, svc.fields) :=
  reconfigure_refines Sample.run_events

/-- **A failed task is for ever**: once the Controller of the router in use has failed, every reconfiguration
raises its exception, and the router stays. -/
theorem failed_task_blocks (h : Run Step start (es.map .service) s) {c : RouterClass} (hfailed : s.Failed c e)
    (h' : Run Step s (es'.map .service) s') :
    (∀ ev ∈ es', ∃ logic kwargs env, ev = .reconfigure logic kwargs env (.error e)) ∧ (∃ c', s'.Failed c' e) ∧
      s'.getRoutingLogic = s.getRoutingLogic := by
  obtain ⟨a, -, hrefines⟩ := refines_start.run h
  have hstuck : Stuck a e := hrefines.failed_iff.mp ⟨c, hfailed⟩
  obtain ⟨a', hrun, hrefines'⟩ := hrefines.run h'
  obtain ⟨rfl, hevents⟩ := hstuck.of_run hrun
  exact ⟨hevents, hrefines'.failed_iff.mpr hstuck, hrefines.getRoutingLogic_of_stuck hstuck h'⟩

theorem failed_task_blocks_roundRobin :
    (∀ ev ∈ Sample.again, ∃ logic kwargs env, ev = .reconfigure logic kwargs env (.error Sample.taken)) ∧
      (∃ c', Sample.retriedTwice.Failed c' Sample.taken) ∧
      Sample.retriedTwice.getRoutingLogic = Sample.failed.getRoutingLogic :=
  failed_task_blocks Sample.run_events Sample.failed_events Sample.run_again

end Singletons

end Runs

/-! ### Tasks without a router -/

namespace Singletons

variable {s s' s'' : Singletons φ} {P P' : RouterClass → Prop} {cls : RouterClass} {classes : List RouterClass}

/-- The routers hold different tasks, none cancelled. -/
structure WellHeld (s : Singletons φ) : Prop where
  /-- They exist. -/
  sound : s.Sound
  /-- They differ. -/
  unique : ∀ c c' t, s.Holds c t → s.Holds c' t → c = c'
  /-- They are not cancelled. -/
  alive : ∀ c t, s.Holds c t → s.tasks[t]? ≠ some .cancelled

/-- What happens to the tasks when the classes of `P` are initialized. -/
structure Follows (P : RouterClass → Prop) (s s' : Singletons φ) : Prop where
  /-- None is forgotten. -/
  length : s.tasks.length ≤ s'.tasks.length
  /-- None is taken over. -/
  back : ∀ c t, t < s.tasks.length → s'.Holds c t → s.Holds c t
  /-- A new one is held. -/
  fresh : ∀ t, s.tasks.length ≤ t → s'.tasks[t]? = some .running → ∃ c, s'.Holds c t
  /-- One that is let go of does not run. -/
  lost : ∀ c t, s.Holds c t → ¬ P c → s'.Holds c t ∨ s'.tasks[t]? ≠ some .running
  /-- Unless it is replaced, and then it is not cancelled. -/
  replaced : ∀ c t, s.Holds c t → P c → ¬ s'.Holds c t ∧ s'.tasks[t]? ≠ some .cancelled
  /-- None is started again. -/
  running : ∀ t, t < s.tasks.length → s'.tasks[t]? = some .running → s.tasks[t]? = some .running
  /-- One that is not held is not cancelled. -/
  cancelled : ∀ t, t < s.tasks.length → (∀ c, ¬ s.Holds c t) → s'.tasks[t]? = some .cancelled →
    s.tasks[t]? = some .cancelled

theorem wellHeld_start : (start : Singletons φ).WellHeld where
  sound _ _ h := by cases h
  unique _ _ _ h := by cases h
  alive _ _ h := by cases h

/-- Of classes that hold nothing, nothing is replaced. -/
theorem Follows.of_not_holds (h : Follows P s s') (hP : ∀ c t, P c → ¬ s.Holds c t) :
    Follows (fun _ => False) s s' where
  length := h.length
  back := h.back
  fresh := h.fresh
  lost c t hc _ := h.lost c t hc fun hPc => hP c t hPc hc
  replaced _ _ _ hfalse := hfalse.elim
  running := h.running
  cancelled := h.cancelled

/-- One after another. -/
theorem Follows.trans (h : Follows (fun _ => False) s s') (h' : Follows (fun _ => False) s' s'') (hsound : s.Sound) :
    Follows (fun _ => False) s s'' where
  length := h.length.trans h'.length
  back c t ht hc := h.back c t ht (h'.back c t (ht.trans_le h.length) hc)
  fresh t ht hrunning := by
    by_cases hnew : t < s'.tasks.length
    · obtain ⟨c, hc⟩ := h.fresh t ht (h'.running t hnew hrunning)
      exact ⟨c, (h'.lost c t hc id).resolve_right (not_not.mpr hrunning)⟩
    · exact h'.fresh t (not_lt.mp hnew) hrunning
  lost c t hc _ := by
    rcases h.lost c t hc id with hc' | hstopped
    · exact h'.lost c t hc' id
    · exact .inr fun hrunning => hstopped (h'.running t ((hsound c t hc).2.trans_le h.length) hrunning)
  replaced _ _ _ hfalse := hfalse.elim
  running t ht hrunning := h.running t ht (h'.running t (ht.trans_le h.length) hrunning)
  cancelled t ht hfree hcancelled :=
    h.cancelled t ht hfree
      (h'.cancelled t (ht.trans_le h.length) (fun c hc => hfree c (h.back c t ht hc)) hcancelled)

theorem cancel_ne_running (task : TaskState) : task.cancel ≠ .running := by
  cases task <;> simp [TaskState.cancel]

/-- A task that no cleaned class holds is as it was. -/
theorem Cleaned.getElem?_of_not_holds (h : Cleaned classes s s') {t : ℕ} (hfree : ∀ c ∈ classes, ¬ s.Holds c t) :
    s'.tasks[t]? = s.tasks[t]? := by
  have hnot : ¬ ∃ c ∈ classes, s.Holds c t := by
    rintro ⟨c, hc, hholds⟩
    exact hfree c hc hholds
  rw [h.tasks]
  simp [hnot]

/-- A task that one holds does not run. -/
theorem Cleaned.not_running (h : Cleaned classes s s') {t : ℕ} (hheld : ∃ c ∈ classes, s.Holds c t) :
    s'.tasks[t]? ≠ some .running := by
  rw [h.tasks]
  simp [hheld, cancel_ne_running]

theorem Cleaned.wellHeld (h : Cleaned classes s s') (hs : s.WellHeld) : s'.WellHeld where
  sound := h.sound hs.sound
  unique c c' t hc hc' := hs.unique c c' t (h.holds_iff.mp hc).2 (h.holds_iff.mp hc').2
  alive c t hc := by
    obtain ⟨hnot, hc⟩ := h.holds_iff.mp hc
    rw [h.getElem?_of_not_holds fun c' hc' hholds => hnot (hs.unique c' c t hholds hc ▸ hc')]
    exact hs.alive c t hc

theorem Cleaned.follows (h : Cleaned classes s s') : Follows (fun _ => False) s s' where
  length := h.length_tasks.ge
  back c t _ hc := (h.holds_iff.mp hc).2
  fresh t ht hrunning := by
    rw [← h.length_tasks] at ht
    rw [List.getElem?_eq_none ht] at hrunning
    cases hrunning
  lost c t hc _ := by
    by_cases hmem : c ∈ classes
    · exact .inr (h.not_running ⟨c, hmem, hc⟩)
    · exact .inl (h.holds_iff.mpr ⟨hmem, hc⟩)
  replaced _ _ _ hfalse := hfalse.elim
  running t _ hrunning := by
    by_cases hheld : ∃ c ∈ classes, s.Holds c t
    · exact absurd hrunning (h.not_running hheld)
    · rwa [h.getElem?_of_not_holds fun c hc hholds => hheld ⟨c, hc, hholds⟩] at hrunning
  cancelled t _ hfree hcancelled := by rwa [h.getElem?_of_not_holds fun c _ => hfree c] at hcancelled

section Started

variable {router : RouterInstance φ}

/-- A class that is initialized holds the new task, if any. -/
theorem Started.holds_iff (h : Started cls router s s') (hrouter : cls.hasManager = false → router.task = none)
    {c : RouterClass} {t : ℕ} :
    s'.Holds c t ↔ if c = cls then cls.hasManager = true ∧ t = s.tasks.length else s.Holds c t := by
  rw [Holds, h.instances]
  by_cases hc : c = cls
  · rw [if_pos hc, if_pos hc, Option.bind_some]
    cases hmanager : cls.hasManager with
    | false => simp [hrouter hmanager]
    | true => simp [eq_comm]
  · rw [if_neg hc, if_neg hc, Holds]

/-- The tasks that there were are as they were. -/
theorem Started.getElem?_tasks (h : Started cls router s s') {t : ℕ} (ht : t < s.tasks.length) :
    s'.tasks[t]? = s.tasks[t]? := by
  rw [h.tasks]
  split_ifs
  · exact List.getElem?_append_left ht
  · rfl

theorem Started.length_le (h : Started cls router s s') : s.tasks.length ≤ s'.tasks.length := by
  rw [h.tasks]
  split_ifs <;> simp

theorem Started.wellHeld (h : Started cls router s s') (hs : s.WellHeld)
    (hrouter : cls.hasManager = false → router.task = none) : s'.WellHeld where
  sound c t hc := by
    rw [h.holds_iff hrouter] at hc
    split_ifs at hc with hcls
    · obtain ⟨hmanager, rfl⟩ := hc
      exact ⟨hcls ▸ hmanager, by rw [h.tasks, if_pos hmanager]; simp⟩
    · obtain ⟨hmanager, ht⟩ := hs.sound c t hc
      exact ⟨hmanager, ht.trans_le h.length_le⟩
  unique c c' t hc hc' := by
    rw [h.holds_iff hrouter] at hc hc'
    split_ifs at hc hc' with hcls hcls' hcls'
    · rw [hcls, hcls']
    · have := (hs.sound c' t hc').2
      omega
    · have := (hs.sound c t hc).2
      omega
    · exact hs.unique c c' t hc hc'
  alive c t hc := by
    rw [h.holds_iff hrouter] at hc
    split_ifs at hc
    · obtain ⟨hmanager, rfl⟩ := hc
      simp [h.tasks, hmanager]
    · rw [h.getElem?_tasks (hs.sound c t hc).2]
      exact hs.alive c t hc

theorem Started.follows (h : Started cls router s s') (hs : s.WellHeld)
    (hrouter : cls.hasManager = false → router.task = none) : Follows (· = cls) s s' where
  length := h.length_le
  back c t ht hc := by
    rw [h.holds_iff hrouter] at hc
    split_ifs at hc
    · omega
    · exact hc
  fresh t ht hrunning := by
    have hlt : t < s'.tasks.length := (List.getElem?_eq_some_iff.mp hrunning).1
    rw [h.tasks] at hlt
    split_ifs at hlt with hmanager
    · rw [List.length_append, List.length_singleton] at hlt
      exact ⟨cls, (h.holds_iff hrouter).mpr (by rw [if_pos rfl]; exact ⟨hmanager, by omega⟩)⟩
    · omega
  lost c t hc hne := .inl ((h.holds_iff hrouter).mpr (by rwa [if_neg hne]))
  replaced c t hc heq := by
    have ht := (hs.sound c t hc).2
    rw [h.holds_iff hrouter, if_pos heq, h.getElem?_tasks ht]
    exact ⟨by omega, hs.alive c t hc⟩
  running t ht hrunning := by rwa [h.getElem?_tasks ht] at hrunning
  cancelled t ht _ hcancelled := by rwa [h.getElem?_tasks ht] at hcancelled

end Started

theorem ends_eq_some {result : Except PyError PUnit} {t t' : ℕ} {task : TaskState} (hne : task ≠ .finished result)
    (h : (s.tasks.set t (.finished result))[t']? = some task) : s.tasks[t']? = some task := by
  rw [List.getElem?_set] at h
  split_ifs at h
  · exact absurd (Option.some.inj h).symm hne
  · exact h

theorem WellHeld.ends (hs : s.WellHeld) (t : ℕ) (result : Except PyError PUnit) :
    WellHeld { s with tasks := s.tasks.set t (.finished result) } where
  sound c t' hc := by
    rw [List.length_set]
    exact hs.sound c t' hc
  unique := hs.unique
  alive c t' hc h := hs.alive c t' hc (ends_eq_some (by simp) h)

theorem follows_ends (s : Singletons φ) (t : ℕ) (result : Except PyError PUnit) :
    Follows (fun _ => False) s { s with tasks := s.tasks.set t (.finished result) } where
  length := by rw [List.length_set]
  back _ _ _ hc := hc
  fresh t' ht hrunning := by
    rw [List.getElem?_eq_none (by rwa [List.length_set])] at hrunning
    cases hrunning
  lost _ _ hc _ := .inl hc
  replaced _ _ _ hfalse := hfalse.elim
  running _ _ hrunning := ends_eq_some (by simp) hrunning
  cancelled _ _ _ hcancelled := ends_eq_some (by simp) hcancelled

end Singletons

section Orphans

variable [One φ]

/-- The event initializes the class. -/
def RegistryEvent.Initializes : RegistryEvent φ → RouterClass → Prop
  | .init logic _ _ _, cls => cls = logic.routerClass
  | .service _, _ => False
  | .cleanup _, _ => False

namespace Singletons

variable {s s' : Singletons φ} {es : List (RegistryEvent φ)} {e : RegistryEvent φ}

/-- A class was initialized again while its router held the task. -/
def Reinitialized (es : List (RegistryEvent φ)) (t : ℕ) : Prop :=
  ∃ es₁ e es₂ s c, es = es₁ ++ e :: es₂ ∧ Run Step start es₁ s ∧ e.Initializes c ∧ s.Holds c t

theorem initialize_tasks {logic : RoutingLogic} {kwargs : Kwargs φ} {env : Environment φ}
    {result : Except PyError PUnit} (hs : s.WellHeld)
    (h : (initializeRoutingLogic logic kwargs env).exec s = (result, s')) :
    s'.WellHeld ∧ Follows (· = logic.routerClass) s s' := by
  cases hrouter : s.instances.get? logic.routerClass with
  | some router =>
    obtain ⟨_, hexec, hstarted⟩ : ∃ s', (initializeRoutingLogic logic kwargs env).exec s = (.ok ⟨⟩, s') ∧
        Started logic.routerClass router s s' := exec_initialize_of_some hrouter
    rw [hexec] at h
    cases h
    have htask : logic.routerClass.hasManager = false → router.task = none := by
      intro hmanager
      cases htask : router.task with
      | none => rfl
      | some t =>
        have hholds : s.Holds logic.routerClass t := by rw [Holds, hrouter, Option.bind_some, htask]
        rw [(hs.sound _ t hholds).1] at hmanager
        cases hmanager
    exact ⟨hstarted.wellHeld hs htask, hstarted.follows hs htask⟩
  | none =>
    cases hfields : construct logic kwargs env with
    | ok fields =>
      obtain ⟨_, hexec, hstarted⟩ := exec_initialize_of_none hrouter hfields
      rw [hexec] at h
      cases h
      exact ⟨hstarted.wellHeld hs fun _ => rfl, hstarted.follows hs fun _ => rfl⟩
    | error e =>
      rw [exec_initialize_of_error hrouter hfields] at h
      cases h
      refine ⟨hs, le_rfl, fun _ _ _ hc => hc, fun t ht hrunning => ?_, fun _ _ hc _ => .inl hc, fun c t hc heq => ?_,
        fun _ _ hrunning => hrunning, fun _ _ _ hcancelled => hcancelled⟩
      · rw [List.getElem?_eq_none ht] at hrunning
        cases hrunning
      · rw [Holds, heq, hrouter] at hc
        cases hc

/-- What an event does to the tasks. -/
theorem step_tasks (hs : s.WellHeld) (h : s.Step e s') : s'.WellHeld ∧ Follows e.Initializes s s' := by
  cases e with
  | init logic kwargs env result => exact initialize_tasks hs h
  | cleanup result =>
    obtain ⟨done, -, hcleaned, -⟩ := cleaned_of_exec hs.sound nodup_routerClasses h
    exact ⟨hcleaned.wellHeld hs, hcleaned.follows⟩
  | service e =>
    cases e with
    | ends t result =>
      obtain ⟨-, rfl⟩ := h
      exact ⟨hs.ends t result, follows_ends s t result⟩
    | reconfigure logic kwargs env result =>
      have hexec : (reconfigureRoutingLogic logic kwargs env).exec s = (result, s') := h
      rw [reconfigureRoutingLogic] at hexec
      cases hcleanup : cleanupRoutingLogic.exec s with
      | mk cleaned s₁ =>
        obtain ⟨done, -, hcleaned, hall⟩ := cleaned_of_exec hs.sound nodup_routerClasses hcleanup
        cases cleaned with
        | ok _ =>
          rw [Py.exec_bind_of_ok hcleanup] at hexec
          obtain ⟨hs', hfollows⟩ := initialize_tasks (hcleaned.wellHeld hs) hexec
          refine ⟨hs', hcleaned.follows.trans (hfollows.of_not_holds fun c t _ hc => ?_) hs.sound⟩
          -- nothing is held after cleaning up
          exact (hcleaned.holds_iff.mp hc).1 (hall rfl ▸ mem_routerClasses c)
        | error e =>
          rw [Py.exec_bind_of_error hcleanup] at hexec
          cases hexec
          exact ⟨hcleaned.wellHeld hs, hcleaned.follows⟩

/-- An event with its result leads to one state. -/
theorem step_unique {s₁ s₂ : Singletons φ} (h₁ : s.Step e s₁) (h₂ : s.Step e s₂) : s₁ = s₂ := by
  cases e with
  | init logic kwargs env result => exact (Prod.mk.inj (Eq.trans (Eq.symm h₁) h₂)).2
  | cleanup result => exact (Prod.mk.inj (Eq.trans (Eq.symm h₁) h₂)).2
  | service e =>
    cases e with
    | ends t result => exact h₁.2.trans h₂.2.symm
    | reconfigure logic kwargs env result => exact (Prod.mk.inj (Eq.trans (Eq.symm h₁) h₂)).2

theorem Reinitialized.concat {t : ℕ} (h : Reinitialized es t) : Reinitialized (es ++ [e]) t := by
  obtain ⟨es₁, e₁, es₂, s₁, c, rfl, hrun, hclass, hc⟩ := h
  exact ⟨es₁, e₁, es₂ ++ [e], s₁, c, by simp, hrun, hclass, hc⟩

theorem reinitialized_concat_iff (h : Run Step start es s) {t : ℕ} :
    Reinitialized (es ++ [e]) t ↔ Reinitialized es t ∨ ∃ c, e.Initializes c ∧ s.Holds c t := by
  constructor
  · rintro ⟨es₁, e₁, es₂, s₁, c, hes, hrun, hclass, hc⟩
    rcases List.eq_nil_or_concat es₂ with rfl | ⟨es₃, e₃, rfl⟩
    · obtain ⟨rfl, hlast⟩ := List.append_inj' hes rfl
      cases hlast
      rw [← h.unique hrun fun _ _ _ _ => step_unique] at hc
      exact .inr ⟨c, hclass, hc⟩
    · rw [List.concat_eq_append, ← List.cons_append, ← List.append_assoc] at hes
      obtain ⟨rfl, -⟩ := List.append_inj' hes rfl
      exact .inl ⟨es₁, e₁, es₃, s₁, c, rfl, hrun, hclass, hc⟩
  · rintro (hbefore | ⟨c, hclass, hc⟩)
    · exact hbefore.concat
    · exact ⟨es, e, [], s, c, rfl, h, hclass, hc⟩

/-- The tasks after a run. -/
structure Accounted (es : List (RegistryEvent φ)) (s : Singletons φ) : Prop where
  /-- The routers hold theirs. -/
  wellHeld : s.WellHeld
  /-- One that no router holds runs only if its class was initialized again. -/
  orphan : ∀ t, s.tasks[t]? = some .running → (∀ c, ¬ s.Holds c t) → Reinitialized es t
  /-- Then nothing holds it any more, or has cancelled it. -/
  forever : ∀ t, Reinitialized es t → t < s.tasks.length ∧ (∀ c, ¬ s.Holds c t) ∧ s.tasks[t]? ≠ some .cancelled

theorem accounted_start : Accounted [] (start : Singletons φ) where
  wellHeld := wellHeld_start
  orphan t h := by simp [start] at h
  forever t := by
    rintro ⟨es₁, e, es₂, s, c, hes, -⟩
    simp at hes

theorem Accounted.step (h : Accounted es s) (hrun : Run Step start es s) (hstep : s.Step e s') :
    Accounted (es ++ [e]) s' := by
  obtain ⟨hs', hfollows⟩ := step_tasks h.wellHeld hstep
  refine ⟨hs', fun t hrunning hfree => ?_, fun t hre => ?_⟩
  · rw [reinitialized_concat_iff hrun]
    have ht : t < s.tasks.length := by
      by_contra hnew
      obtain ⟨c, hc⟩ := hfollows.fresh t (not_lt.mp hnew) hrunning
      exact hfree c hc
    by_cases hheld : ∃ c, s.Holds c t
    · obtain ⟨c, hc⟩ := hheld
      by_cases hclass : e.Initializes c
      · exact .inr ⟨c, hclass, hc⟩
      · rcases hfollows.lost c t hc hclass with hc' | hstopped
        · exact absurd hc' (hfree c)
        · exact absurd hrunning hstopped
    · exact .inl (h.orphan t (hfollows.running t ht hrunning) fun c hc => hheld ⟨c, hc⟩)
  · rcases (reinitialized_concat_iff hrun).mp hre with hbefore | ⟨c, hclass, hc⟩
    · obtain ⟨ht, hfree, halive⟩ := h.forever t hbefore
      exact ⟨ht.trans_le hfollows.length, fun c hc => hfree c (hfollows.back c t ht hc),
        fun hcancelled => halive (hfollows.cancelled t ht hfree hcancelled)⟩
    · -- the task that the router held is the one that is replaced
      obtain ⟨hlost, halive⟩ := hfollows.replaced c t hc hclass
      have ht : t < s.tasks.length := (h.wellHeld.sound c t hc).2
      refine ⟨ht.trans_le hfollows.length, fun c' hc' => ?_, halive⟩
      exact hlost (h.wellHeld.unique c' c t (hfollows.back c' t ht hc') hc ▸ hc')

theorem accounted_of_run (h : Run Step start es s) : Accounted es s := by
  induction es using List.reverseRecOn generalizing s with
  | nil => exact run_nil_iff.mp h ▸ accounted_start
  | append_singleton es e ih =>
    obtain ⟨s₁, hrun, hlast⟩ := run_append_iff.mp h
    obtain ⟨s₂, hstep, hnil⟩ := run_cons_iff.mp hlast
    obtain rfl := run_nil_iff.mp hnil
    exact (ih hrun).step hrun hstep

/-- **Orphans**: in every run, a task that runs has no router exactly if its class was initialized again without
cleaning up; such a task is never cancelled. -/
theorem orphan_iff (h : Run Step start es s) :
    (∀ t, s.tasks[t]? = some .running → ((∀ c, ¬ s.Holds c t) ↔ Reinitialized es t)) ∧
      ∀ t, Reinitialized es t → s.tasks[t]? ≠ some .cancelled := by
  have haccounted := accounted_of_run h
  exact ⟨fun t hrunning => ⟨haccounted.orphan t hrunning, fun hre => (haccounted.forever t hre).2.1⟩,
    fun t hre => (haccounted.forever t hre).2.2⟩

namespace Sample

/-- `kvaware` is initialized. -/
def initialized : RegistryEvent ℕ := .init .kvaware kwargs env (.ok ⟨⟩)

/-- Twice. -/
def twice : Singletons ℕ :=
  ((initializeRoutingLogic .kvaware kwargs env).exec ((initializeRoutingLogic .kvaware kwargs env).exec start).2).2

theorem run_twice : Run Step start [initialized, initialized] twice := Run.cons rfl (Run.single rfl)

end Sample

theorem orphan_iff_twice :
    (∀ t, Sample.twice.tasks[t]? = some .running →
      ((∀ c, ¬ Sample.twice.Holds c t) ↔ Reinitialized [Sample.initialized, Sample.initialized] t)) ∧
      ∀ t, Reinitialized [Sample.initialized, Sample.initialized] t → Sample.twice.tasks[t]? ≠ some .cancelled :=
  orphan_iff Sample.run_twice

/-- The first task runs, and no router holds it. -/
example : Sample.twice.tasks.length = 2 ∧ ∀ c, ¬ Sample.twice.Holds c 0 := by
  refine ⟨rfl, fun c => ?_⟩
  cases c <;> decide

end Singletons

end Orphans

end CachingInLLMs.Router

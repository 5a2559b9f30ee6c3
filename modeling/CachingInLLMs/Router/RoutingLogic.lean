import CachingInLLMs.Library.Dict
import CachingInLLMs.Library.Python
import CachingInLLMs.Library.Run
import CachingInLLMs.Library.Text

/-!
# The routing logic in use

The router service has one router. It is made by `initialize_routing_logic`, replaced by
`reconfigure_routing_logic` and found by `get_routing_logic`, all by way of `SingletonABCMeta`, which keeps
one instance of each class: a class that has one returns it, whatever the arguments. The two cache-aware
routers also start a task that runs the Controller; `close` cancels it.

## The model

`Singletons` is the registry, and the tasks by their number. What is outside the code is an `Environment`: the
environment variable, and whether `LMCacheControllerManager` and `HashTrie` can be constructed. `create=False` is
never passed.

## What is proved

* `cleanup_spec`: cleaning up removes every router and cancels its task, up to the first whose task has
  failed; that exception ends it.
* `exec_initialize_of_some`, `exec_initialize_of_none`, `exec_initialize_of_error`: what initializing a class does.
-/

namespace CachingInLLMs.Router

open CachingInLLMs.Library

/-! ### Routers -/

/-- `RoutingLogic`. -/
inductive RoutingLogic where
  | roundRobin
  | sessionBased
  | kvaware
  | prefixaware
  | disaggregatedPrefill
  | loadaware
  deriving DecidableEq

/-- The classes of routers. -/
inductive RouterClass where
  | session
  | roundRobin
  | kvaware
  | loadAware
  | prefixAware
  | disaggregatedPrefill
  deriving DecidableEq

/-- The class of a routing logic. -/
def RoutingLogic.routerClass : RoutingLogic → RouterClass
  | roundRobin => .roundRobin
  | sessionBased => .session
  | kvaware => .kvaware
  | prefixaware => .prefixAware
  | disaggregatedPrefill => .disaggregatedPrefill
  | loadaware => .loadAware

/-- The class has `start_kv_manager` and `close`. -/
def RouterClass.hasManager : RouterClass → Bool
  | kvaware => true
  | loadAware => true
  | _ => false

/-- The order in which the classes are looked for. -/
def routerClasses : List RouterClass := [.session, .roundRobin, .kvaware, .loadAware, .prefixAware, .disaggregatedPrefill]

theorem mem_routerClasses (cls : RouterClass) : cls ∈ routerClasses := by
  cases cls <;> decide

theorem nodup_routerClasses : routerClasses.Nodup := by decide

/-- `kwargs`, floats being `φ`. -/
structure Kwargs (φ : Type) where
  /-- `lmcache_controller_port`. -/
  lmcacheControllerPort : Option ℤ
  /-- `session_key`. -/
  sessionKey : Option String
  /-- `kv_aware_threshold`. -/
  kvAwareThreshold : Option ℤ
  /-- `loadaware_beta`. -/
  loadawareBeta : Option φ
  /-- `prefill_model_labels`. -/
  prefillModelLabels : Option (List String)
  /-- `decode_model_labels`. -/
  decodeModelLabels : Option (List String)

/-- What a constructor meets. -/
structure Environment (φ : Type) where
  /-- `os.environ.get("LOADAWARE_BETA")`. -/
  beta : Option String
  /-- `float` of a string, unless it raises `ValueError`. -/
  float : String → Option φ
  /-- `LMCacheControllerManager(...)`. -/
  manager : Except PyError PUnit
  /-- `HashTrie()`, and its import. -/
  hashTrie : Except PyError PUnit

/-- What a router is made with. -/
inductive RouterFields (φ : Type) where
  /-- `SessionRouter`. -/
  | session (sessionKey : String)
  /-- `RoundRobinRouter`. -/
  | roundRobin
  /-- `KvawareRouter`. -/
  | kvaware (port : Option ℤ) (sessionKey : Option String) (threshold : Option ℤ)
  /-- `LoadAwareRouter`. -/
  | loadAware (port : Option ℤ) (sessionKey : Option String) (threshold : ℤ) (beta : φ)
  /-- `PrefixAwareRouter`. -/
  | prefixAware
  /-- `DisaggregatedPrefillRouter`. -/
  | disaggregatedPrefill (prefillModelLabels decodeModelLabels : Option (List String))

section Construct

variable {φ : Type} [One φ]

/-- `loadaware_param`, the default being 1. A text that is no number counts as none. -/
def loadawareParam (env : Environment φ) (override : Option φ) : φ :=
  match override with
  | some value => value
  | none =>
    match env.beta with
    | none => 1
    | some raw => if raw.toList.all isSpace then 1 else (env.float raw).getD 1

/-- The constructor that `initialize_routing_logic` calls. -/
def construct (logic : RoutingLogic) (kwargs : Kwargs φ) (env : Environment φ) : Except PyError (RouterFields φ) :=
  match logic with
  | .roundRobin => .ok .roundRobin
  | .sessionBased =>
    match kwargs.sessionKey with
    | none => .error (.other "ValueError")
    | some sessionKey => .ok (.session sessionKey)
  | .kvaware => do
    env.manager
    return .kvaware kwargs.lmcacheControllerPort kwargs.sessionKey kwargs.kvAwareThreshold
  | .loadaware => do
    env.manager
    return .loadAware kwargs.lmcacheControllerPort kwargs.sessionKey (kwargs.kvAwareThreshold.getD 2000)
      (loadawareParam env kwargs.loadawareBeta)
  | .prefixaware => do
    env.hashTrie
    return .prefixAware
  | .disaggregatedPrefill => .ok (.disaggregatedPrefill kwargs.prefillModelLabels kwargs.decodeModelLabels)

end Construct

/-! ### The registry -/

/-- A router. -/
structure RouterInstance (φ : Type) where
  /-- What it is made with. -/
  fields : RouterFields φ
  /-- `lmcache_cluster_monitor_task`. -/
  task : Option ℕ

/-- A task of a Controller. -/
inductive TaskState where
  /-- It runs. -/
  | running
  /-- It was cancelled. -/
  | cancelled
  /-- It has ended by itself. -/
  | finished (result : Except PyError PUnit)

/-- `cancel`: nothing, unless it runs. -/
def TaskState.cancel : TaskState → TaskState
  | running => cancelled
  | cancelled => cancelled
  | finished result => finished result

/-- `SingletonABCMeta._instances`, and the tasks. -/
structure Singletons (φ : Type) where
  /-- The routers. -/
  instances : Dict RouterClass (RouterInstance φ)
  /-- The tasks. -/
  tasks : List TaskState

namespace Singletons

variable {φ : Type}

/-- Nothing yet. -/
def start : Singletons φ := ⟨∅, []⟩

/-- `cls(...)`. -/
def call (cls : RouterClass) (init : Except PyError (RouterFields φ)) : Py (Singletons φ) PUnit := do
  let s ← get
  match s.instances.get? cls with
  | some _ => return ⟨⟩
  | none =>
    let fields ← Py.ofExcept init
    set { s with instances := s.instances.set cls ⟨fields, none⟩ }

/-- `start_kv_manager`. -/
def startKvManager (cls : RouterClass) : Py (Singletons φ) PUnit := do
  let s ← get
  match s.instances.get? cls with
  | none => return ⟨⟩
  | some router =>
    set (⟨s.instances.set cls { router with task := some s.tasks.length }, s.tasks ++ [.running]⟩ : Singletons φ)

/-- `initialize_routing_logic`. The router that it returns is the one of the class. -/
def initializeRoutingLogic [One φ] (logic : RoutingLogic) (kwargs : Kwargs φ) (env : Environment φ) :
    Py (Singletons φ) PUnit := do
  call logic.routerClass (construct logic kwargs env)
  if logic.routerClass.hasManager then startKvManager logic.routerClass else return ⟨⟩

/-- `close`: the result of the task is asked for after it is cancelled. -/
def close (cls : RouterClass) (router : RouterInstance φ) : Py (Singletons φ) PUnit := do
  match router.task with
  | none => return ⟨⟩
  | some t =>
    let s ← get
    match s.tasks[t]? with
    | some (.finished (.error e)) => throw e
    | _ => set (⟨s.instances.set cls { router with task := none }, s.tasks.modify t TaskState.cancel⟩ : Singletons φ)

/-- `if hasattr(instance, "close"): instance.close()`. -/
def closeIfAny (cls : RouterClass) (router : RouterInstance φ) : Py (Singletons φ) PUnit :=
  if cls.hasManager then close cls router else return ⟨⟩

/-- One turn of the loop of `cleanup_routing_logic`. -/
def cleanupClass (cls : RouterClass) : Py (Singletons φ) PUnit := do
  let s ← get
  match s.instances.get? cls with
  | none => return ⟨⟩
  | some router =>
    closeIfAny cls router
    let s ← get
    set { s with instances := s.instances.erase cls }

/-- The loop. -/
def cleanupClasses : List RouterClass → Py (Singletons φ) PUnit
  | [] => return ⟨⟩
  | cls :: classes => do
    cleanupClass cls
    cleanupClasses classes

/-- `cleanup_routing_logic`. -/
def cleanupRoutingLogic : Py (Singletons φ) PUnit := cleanupClasses routerClasses

/-- `reconfigure_routing_logic`. -/
def reconfigureRoutingLogic [One φ] (logic : RoutingLogic) (kwargs : Kwargs φ) (env : Environment φ) :
    Py (Singletons φ) PUnit := do
  cleanupRoutingLogic
  initializeRoutingLogic logic kwargs env

/-- `get_routing_logic`. -/
def getRoutingLogic (s : Singletons φ) : Except PyError (RouterClass × RouterInstance φ) :=
  match routerClasses.findSome? fun cls => (s.instances.get? cls).map (cls, ·) with
  | some found => .ok found
  | none => .error (.other "ValueError")

/-! ### Cleaning up -/

/-- The router of the class holds the task. -/
def Holds (s : Singletons φ) (cls : RouterClass) (t : ℕ) : Prop := (s.instances.get? cls).bind RouterInstance.task = some t

instance (s : Singletons φ) (cls : RouterClass) (t : ℕ) : Decidable (s.Holds cls t) :=
  inferInstanceAs (Decidable (_ = some t))

/-- Its task has failed. -/
def Failed (s : Singletons φ) (cls : RouterClass) (e : PyError) : Prop :=
  ∃ t, s.Holds cls t ∧ s.tasks[t]? = some (.finished (.error e))

/-- Only the cache-aware routers hold tasks. -/
def Sound (s : Singletons φ) : Prop := ∀ cls t, s.Holds cls t → cls.hasManager = true ∧ t < s.tasks.length

/-- The routers of these classes are gone, and their tasks cancelled. -/
structure Cleaned (classes : List RouterClass) (s s' : Singletons φ) : Prop where
  /-- The routers. -/
  instances : ∀ c, s'.instances.get? c = if c ∈ classes then none else s.instances.get? c
  /-- The tasks. -/
  tasks : ∀ t, s'.tasks[t]? =
    (s.tasks[t]?).map fun task => if ∃ c ∈ classes, s.Holds c t then task.cancel else task

section Cleanup

variable {s s' s'' : Singletons φ} {cls : RouterClass} {classes : List RouterClass} {t : ℕ} {e : PyError}

theorem Cleaned.nil (s : Singletons φ) : Cleaned [] s s where
  instances _ := rfl
  tasks t := by simp

theorem Cleaned.length_tasks (h : Cleaned classes s s') : s'.tasks.length = s.tasks.length := by
  have hnone (t : ℕ) : s'.tasks.length ≤ t ↔ s.tasks.length ≤ t := by
    rw [← List.getElem?_eq_none_iff, ← List.getElem?_eq_none_iff, h.tasks, Option.map_eq_none_iff]
  exact le_antisymm ((hnone _).mpr le_rfl) ((hnone _).mp le_rfl)

/-- The other routers hold what they held. -/
theorem Cleaned.holds_iff (h : Cleaned classes s s') {c : RouterClass} : s'.Holds c t ↔ c ∉ classes ∧ s.Holds c t := by
  rw [Holds, Holds, h.instances]
  by_cases hc : c ∈ classes <;> simp [hc]

theorem cancel_cancel (task : TaskState) : task.cancel.cancel = task.cancel := by
  cases task <;> rfl

theorem cancel_eq_failed {task : TaskState} : task.cancel = .finished (.error e) ↔ task = .finished (.error e) := by
  cases task <;> simp [TaskState.cancel]

/-- The other routers fail as they did. -/
theorem Cleaned.failed_iff (h : Cleaned classes s s') {c : RouterClass} (hc : c ∉ classes) :
    s'.Failed c e ↔ s.Failed c e := by
  refine exists_congr fun t => ?_
  rw [h.holds_iff, h.tasks, and_iff_right hc]
  refine and_congr_right fun _ => ?_
  rw [Option.map_eq_some_iff]
  constructor
  · rintro ⟨task, htask, heq⟩
    split_ifs at heq
    · rw [htask, cancel_eq_failed.mp heq]
    · rw [htask, heq]
  · intro htask
    exact ⟨_, htask, by split_ifs <;> rfl⟩

/-- One class after others. -/
theorem Cleaned.cons (h : Cleaned [cls] s s') (h' : Cleaned classes s' s'') (hcls : cls ∉ classes) :
    Cleaned (cls :: classes) s s'' where
  instances c := by
    rw [h'.instances, h.instances]
    by_cases hc : c ∈ classes
    · rw [if_pos hc, if_pos (List.mem_cons_of_mem _ hc)]
    · simp [hc]
  tasks t := by
    rw [h'.tasks, h.tasks, Option.map_map]
    have hlater : (∃ c ∈ classes, s'.Holds c t) ↔ ∃ c ∈ classes, s.Holds c t := by
      refine exists_congr fun c => and_congr_right fun hc => ?_
      rw [h.holds_iff, and_iff_right]
      rintro hmem
      exact hcls (List.mem_singleton.mp hmem ▸ hc)
    congr 1
    funext task
    simp only [Function.comp, hlater, List.mem_cons, exists_eq_or_imp]
    by_cases hfirst : s.Holds cls t <;> by_cases hrest : ∃ c ∈ classes, s.Holds c t <;>
      simp [hfirst, hrest, cancel_cancel]

/-- A router whose task has not failed closes, and its task is cancelled. -/
theorem exec_close {router : RouterInstance φ} (hrouter : s.instances.get? cls = some router) (hsound : s.Sound)
    (h : ∀ e, ¬ s.Failed cls e) :
    ∃ s', (close cls router).exec s = (.ok ⟨⟩, s') ∧ (∀ c ≠ cls, s'.instances.get? c = s.instances.get? c) ∧
      ∀ t, s'.tasks[t]? = (s.tasks[t]?).map fun task => if s.Holds cls t then task.cancel else task := by
  have hholds (t : ℕ) : s.Holds cls t ↔ router.task = some t := by rw [Holds, hrouter, Option.bind_some]
  cases htask : router.task with
  | none =>
    refine ⟨s, by rw [close, htask]; rfl, fun _ _ => rfl, fun t => ?_⟩
    simp [hholds, htask]
  | some t =>
    have hlt : t < s.tasks.length := (hsound cls t ((hholds t).mpr htask)).2
    have hexec : (close cls router).exec s =
        (.ok ⟨⟩, ⟨s.instances.set cls { router with task := none }, s.tasks.modify t TaskState.cancel⟩) := by
      rw [close, htask]
      dsimp only
      rw [Py.exec_bind_of_ok (Py.exec_get _)]
      cases hstate : s.tasks[t]? with
      | none => exact absurd (List.getElem?_eq_none_iff.mp hstate) (not_le.mpr hlt)
      | some task =>
        cases task with
        | running => rfl
        | cancelled => rfl
        | finished result =>
          cases result with
          | ok _ => rfl
          | error e => exact absurd ⟨t, (hholds t).mpr htask, hstate⟩ (h e)
    refine ⟨_, hexec, fun c hc => Dict.get?_set_of_ne _ _ hc, fun t' => ?_⟩
    dsimp only
    rw [List.getElem?_modify]
    by_cases ht : t = t'
    · simp [hholds, htask, ht]
    · simp [hholds, htask, ht]

/-- So it is removed. -/
theorem exec_cleanupClass (hsound : s.Sound) (h : ∀ e, ¬ s.Failed cls e) :
    ∃ s', (cleanupClass cls).exec s = (.ok ⟨⟩, s') ∧ Cleaned [cls] s s' := by
  rw [cleanupClass, Py.exec_bind_of_ok (Py.exec_get _)]
  cases hrouter : s.instances.get? cls with
  | none =>
    refine ⟨s, rfl, fun c => ?_, fun t => ?_⟩
    · by_cases hc : c = cls
      · simp [hc, hrouter]
      · simp [hc]
    · simp [Holds, hrouter]
  | some router =>
    dsimp only
    obtain ⟨s₁, hexec, hinstances, htasks⟩ : ∃ s₁,
        (closeIfAny cls router).exec s = (.ok ⟨⟩, s₁) ∧
          (∀ c ≠ cls, s₁.instances.get? c = s.instances.get? c) ∧
          ∀ t, s₁.tasks[t]? = (s.tasks[t]?).map fun task => if s.Holds cls t then task.cancel else task := by
      rw [closeIfAny]
      by_cases hmanager : cls.hasManager = true
      · rw [if_pos hmanager]
        exact exec_close hrouter hsound h
      · -- the other classes hold no task
        rw [if_neg hmanager]
        refine ⟨s, rfl, fun _ _ => rfl, fun t => ?_⟩
        have hnot : ¬ s.Holds cls t := fun hholds => hmanager (hsound cls t hholds).1
        simp [hnot]
    rw [Py.exec_bind_of_ok hexec, Py.exec_bind_of_ok (Py.exec_get _)]
    refine ⟨_, rfl, fun c => ?_, fun t => ?_⟩
    · dsimp only
      rw [Dict.get?_erase]
      by_cases hc : c = cls
      · simp [hc]
      · simp [hc, hinstances c hc]
    · simp [htasks]

/-- A failed task ends it. -/
theorem exec_cleanupClass_of_failed (hsound : s.Sound) (h : s.Failed cls e) :
    (cleanupClass cls).exec s = (.error e, s) := by
  obtain ⟨t, hholds, htask⟩ := h
  obtain ⟨router, hrouter, ht⟩ := Option.bind_eq_some_iff.mp hholds
  have hclose : (close cls router).exec s = (.error e, s) := by
    rw [close, ht]
    dsimp only
    rw [Py.exec_bind_of_ok (Py.exec_get _), htask]
    rfl
  rw [cleanupClass, Py.exec_bind_of_ok (Py.exec_get _), hrouter]
  dsimp only
  have hany : (closeIfAny cls router).exec s = (.error e, s) := by rw [closeIfAny, if_pos (hsound cls t hholds).1, hclose]
  rw [Py.exec_bind_of_error hany]

theorem Cleaned.sound (h : Cleaned classes s s') (hsound : s.Sound) : s'.Sound := by
  intro c t hholds
  rw [h.length_tasks]
  exact hsound c t (h.holds_iff.mp hholds).2

/-- The loop, up to the first router whose task has failed. -/
theorem exec_cleanupClasses (hsound : s.Sound) (hnodup : classes.Nodup) (h : ∀ c ∈ classes, ∀ e, ¬ s.Failed c e)
    (rest : List RouterClass) :
    ∃ s', (cleanupClasses (classes ++ rest)).exec s = (cleanupClasses rest).exec s' ∧ Cleaned classes s s' := by
  induction classes generalizing s with
  | nil => exact ⟨s, rfl, .nil s⟩
  | cons cls classes ih =>
    obtain ⟨hcls, hnodup⟩ := List.nodup_cons.mp hnodup
    obtain ⟨s₁, hexec₁, hcleaned₁⟩ := exec_cleanupClass hsound (h cls List.mem_cons_self)
    have hothers : ∀ c ∈ classes, ∀ e, ¬ s₁.Failed c e := by
      intro c hc e
      rw [hcleaned₁.failed_iff fun hmem => hcls (List.mem_singleton.mp hmem ▸ hc)]
      exact h c (List.mem_cons_of_mem _ hc) e
    obtain ⟨s', hexec, hcleaned⟩ := ih (hcleaned₁.sound hsound) hnodup hothers
    refine ⟨s', ?_, hcleaned₁.cons hcleaned hcls⟩
    rw [List.cons_append, cleanupClasses, Py.exec_bind_of_ok hexec₁, hexec]

/-- **Cleaning up** removes every router, unless a task has failed: then the exception of the first one ends it. -/
theorem cleanup_spec (hsound : s.Sound) :
    ((∀ c e, ¬ s.Failed c e) → ∃ s', cleanupRoutingLogic.exec s = (.ok ⟨⟩, s') ∧ Cleaned routerClasses s s') ∧
    ∀ before cls after e, routerClasses = before ++ cls :: after → (∀ c ∈ before, ∀ e, ¬ s.Failed c e) →
      s.Failed cls e → ∃ s', cleanupRoutingLogic.exec s = (.error e, s') ∧ Cleaned before s s' := by
  constructor
  · intro h
    obtain ⟨s', hexec, hcleaned⟩ := exec_cleanupClasses hsound nodup_routerClasses (fun c _ => h c) []
    rw [List.append_nil] at hexec
    exact ⟨s', hexec, hcleaned⟩
  · intro before cls after e hclasses hbefore hfailed
    have hnodup := nodup_routerClasses
    rw [hclasses, List.nodup_append] at hnodup
    have hcls : cls ∉ before := fun hmem => hnodup.2.2 cls hmem cls List.mem_cons_self rfl
    obtain ⟨s', hexec, hcleaned⟩ := exec_cleanupClasses hsound hnodup.1 hbefore (cls :: after)
    have hraise := exec_cleanupClass_of_failed (hcleaned.sound hsound) ((hcleaned.failed_iff hcls).mpr hfailed)
    refine ⟨s', ?_, hcleaned⟩
    rw [cleanupRoutingLogic, hclasses, hexec, cleanupClasses, Py.exec_bind_of_error hraise]

/-- However it ends, what was removed was cleaned up. -/
theorem cleaned_of_exec {result : Except PyError PUnit} (hsound : s.Sound) (hnodup : classes.Nodup)
    (h : (cleanupClasses classes).exec s = (result, s')) :
    ∃ done ⊆ classes, Cleaned done s s' ∧ (result = .ok ⟨⟩ → done = classes) := by
  induction classes generalizing s with
  | nil =>
    cases h
    exact ⟨[], List.Subset.refl _, .nil _, fun _ => rfl⟩
  | cons cls classes ih =>
    obtain ⟨hcls, hnodup⟩ := List.nodup_cons.mp hnodup
    rw [cleanupClasses] at h
    by_cases hfailed : ∃ e, s.Failed cls e
    · obtain ⟨e, hfailed⟩ := hfailed
      rw [Py.exec_bind_of_error (exec_cleanupClass_of_failed hsound hfailed)] at h
      cases h
      exact ⟨[], List.nil_subset _, .nil _, fun hok => by cases hok⟩
    · obtain ⟨s₁, hexec, hcleaned⟩ := exec_cleanupClass hsound fun e he => hfailed ⟨e, he⟩
      rw [Py.exec_bind_of_ok hexec] at h
      obtain ⟨done, hdone, hrest, hall⟩ := ih (hcleaned.sound hsound) hnodup h
      exact ⟨cls :: done, List.cons_subset_cons _ hdone, hcleaned.cons hrest fun hmem => hcls (hdone hmem),
        fun hok => by rw [hall hok]⟩

end Cleanup

/-! ### Initializing -/

section Initialize

variable [One φ] {s s' : Singletons φ} {logic : RoutingLogic} {kwargs : Kwargs φ} {env : Environment φ}

/-- What `start_kv_manager` makes of a router and the tasks, if there is one. -/
structure Started (cls : RouterClass) (router : RouterInstance φ) (s s' : Singletons φ) : Prop where
  /-- The router, and the others. -/
  instances : ∀ c, s'.instances.get? c =
    if c = cls then some { router with task := if cls.hasManager then some s.tasks.length else router.task }
    else s.instances.get? c
  /-- The tasks. -/
  tasks : s'.tasks = if cls.hasManager then s.tasks ++ [.running] else s.tasks

omit [One φ] in
theorem exec_startKvManager {cls : RouterClass} {router : RouterInstance φ} (h : s.instances.get? cls = some router) :
    ∃ s', (if cls.hasManager then startKvManager cls else pure ⟨⟩ : Py (Singletons φ) PUnit).exec s = (.ok ⟨⟩, s') ∧
      Started cls router s s' := by
  by_cases hmanager : cls.hasManager = true
  · rw [if_pos hmanager, startKvManager, Py.exec_bind_of_ok (Py.exec_get _), h]
    refine ⟨_, rfl, fun c => ?_, ?_⟩
    · dsimp only
      rw [Dict.get?_set, if_pos hmanager]
    · dsimp only
      rw [if_pos hmanager]
  · rw [if_neg hmanager]
    refine ⟨s, rfl, fun c => ?_, ?_⟩
    · by_cases hc : c = cls
      · rw [if_pos hc, hc, h, if_neg hmanager]
      · rw [if_neg hc]
    · rw [if_neg hmanager]

/-- A class that has a router keeps it, and starts another task. -/
theorem exec_initialize_of_some {router : RouterInstance φ} (h : s.instances.get? logic.routerClass = some router) :
    ∃ s', (initializeRoutingLogic logic kwargs env).exec s = (.ok ⟨⟩, s') ∧ Started logic.routerClass router s s' := by
  have hcall : (call logic.routerClass (construct logic kwargs env)).exec s = (.ok ⟨⟩, s) := by
    rw [call, Py.exec_bind_of_ok (Py.exec_get _), h]
    rfl
  obtain ⟨s', hexec, hstarted⟩ := exec_startKvManager h
  exact ⟨s', by rw [initializeRoutingLogic, Py.exec_bind_of_ok hcall]; exact hexec, hstarted⟩

/-- A class without one gets one. -/
theorem exec_initialize_of_none (h : s.instances.get? logic.routerClass = none) {fields : RouterFields φ}
    (hfields : construct logic kwargs env = .ok fields) :
    ∃ s', (initializeRoutingLogic logic kwargs env).exec s = (.ok ⟨⟩, s') ∧
      Started logic.routerClass ⟨fields, none⟩ s s' := by
  have hcall : (call logic.routerClass (construct logic kwargs env)).exec s =
      (.ok ⟨⟩, { s with instances := s.instances.set logic.routerClass ⟨fields, none⟩ }) := by
    rw [call, Py.exec_bind_of_ok (Py.exec_get _), h, hfields]
    rfl
  obtain ⟨s', hexec, hstarted⟩ := exec_startKvManager
    (s := { s with instances := s.instances.set logic.routerClass ⟨fields, none⟩ }) (Dict.get?_set_self _ _ _)
  refine ⟨s', by rw [initializeRoutingLogic, Py.exec_bind_of_ok hcall]; exact hexec, fun c => ?_, hstarted.tasks⟩
  rw [hstarted.instances]
  by_cases hc : c = logic.routerClass
  · rw [if_pos hc, if_pos hc]
  · rw [if_neg hc, if_neg hc, Dict.get?_set_of_ne _ _ hc]

/-- Unless its constructor raises. -/
theorem exec_initialize_of_error (h : s.instances.get? logic.routerClass = none) {e : PyError}
    (hfields : construct logic kwargs env = .error e) :
    (initializeRoutingLogic logic kwargs env).exec s = (.error e, s) := by
  have hcall : (call logic.routerClass (construct logic kwargs env)).exec s = (.error e, s) := by
    rw [call, Py.exec_bind_of_ok (Py.exec_get _), h, hfields]
    rfl
  rw [initializeRoutingLogic, Py.exec_bind_of_error hcall]

end Initialize

end Singletons

end CachingInLLMs.Router

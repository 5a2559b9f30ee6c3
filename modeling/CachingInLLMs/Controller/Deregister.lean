import CachingInLLMs.Controller.Registry
import CachingInLLMs.Library.Python

/-!
# Deregistering a worker

`deregister` is to take all metadata of an instance-worker out of `kv_pool`. The router counts
on it: a dead engine keeps earning credit until it is deregistered. The loop assigns to
each key what is left under it, and deletes the key if nothing is.

It does so while it iterates over the dictionary, and Python ends an iteration with
`RuntimeError` at the next step once the number of keys has changed, the step that finds
no further key included. So the first key that is deleted is the last one that is cleaned.

## What is proved

* `deregisterLoop_of_kept`, `deregisterLoop_of_emptied`: what the loop leaves, with and without
  a key that it empties.
* `deregisters_iff`: `deregister` does what it is for exactly when it empties no key.
-/

namespace CachingInLLMs.Controller

open CachingInLLMs.Library

variable {ι κ τ : Type} [DecidableEq ι] [DecidableEq κ]

namespace KVController

/-! ### The loop -/

section Loop

variable (instanceId : ι) (workerId : ℤ)

/-- What is left under a key. -/
def others (metas : List (KVChunkMetadata ι)) : List (KVChunkMetadata ι) :=
  metas.filter fun m => ¬ (m.instanceId = instanceId ∧ m.workerId = workerId)

/-- The body of the loop of `deregister`. -/
def deregisterKey (kvPool : KVPool κ ι) (key : κ) : KVPool κ ι :=
  let kvPool := kvPool.set key (others instanceId workerId ((kvPool.get? key).getD []))
  if (kvPool.get? key).getD [] = [] then kvPool.erase key else kvPool

/-- What every step of an iteration checks first, when the dictionary had `size` keys at its
beginning. -/
def checkSize (size : ℕ) : Py (KVPool κ ι) Unit := do
  let kvPool ← get
  if kvPool.keys.length ≠ size then Py.ofExcept (.error (.other "RuntimeError"))

/-- The loop of `deregister` over the keys that are left. As long as the iteration goes on no key
was deleted, and assigning to a key leaves it where it is, so they are those of the beginning. -/
def deregisterLoop (size : ℕ) : List κ → Py (KVPool κ ι) Unit
  | [] => checkSize size
  | key :: keys => do
    checkSize size
    let kvPool ← get
    set (deregisterKey instanceId workerId kvPool key)
    deregisterLoop size keys

/-- `deregister`: deregister all kv chunks of an instance-worker. -/
def deregister : Py (KVController ι κ τ) Unit := do
  let c ← get
  Py.zoom kvPool (fun kvPool c => { c with kvPool })
    (deregisterLoop instanceId workerId c.kvPool.keys.length c.kvPool.keys)

/-! ### What it is for -/

/-- The pool without the metadata of the worker, and without the keys that are left empty. -/
def withoutWorker (kvPool : KVPool κ ι) : KVPool κ ι where
  items := (kvPool.mapValues (others instanceId workerId)).items.filter fun p => p.2 ≠ []
  nodup := (List.filter_sublist.map Prod.fst).nodup
    (kvPool.mapValues (others instanceId workerId)).nodup

/-- What `deregister` is for. -/
structure Deregisters (c : KVController ι κ τ) : Prop where
  /-- It completes. -/
  completes : ((deregister instanceId workerId).exec c).1 = .ok ()
  /-- The metadata of the worker is gone, and nothing else. -/
  kvPool_eq : ((deregister instanceId workerId).exec c).2.kvPool =
    withoutWorker instanceId workerId c.kvPool
  /-- If it was the only worker of its instance, no prompt is matched by the instance until it
  admits again. -/
  unnamed : (∀ p ∈ c.kvPool.items, ∀ m ∈ p.2, m.instanceId = instanceId → m.workerId = workerId) →
    ∀ run : List (Msg ι κ), (∀ msg, .kvAdmit msg ∈ run → msg.instanceId ≠ instanceId) →
      ∀ msg, instanceId ∉
        ((((deregister instanceId workerId).exec c).2.handleAll run).lookup msg).layoutInfo

end Loop

/-! ### What the loop does -/

section Exec

variable {instanceId : ι} {workerId : ℤ} {kvPool : KVPool κ ι} {size : ℕ}

omit [DecidableEq ι] [DecidableEq κ] in
theorem checkSize_of_eq (h : kvPool.keys.length = size) :
    (checkSize size).exec kvPool = (.ok (), kvPool) := by
  rw [checkSize, Py.exec_bind_of_ok (Py.exec_get kvPool), if_neg (not_not.mpr h), Py.exec_pure]

omit [DecidableEq ι] [DecidableEq κ] in
theorem checkSize_of_ne (h : kvPool.keys.length ≠ size) :
    (checkSize size).exec kvPool = (.error (.other "RuntimeError"), kvPool) := by
  rw [checkSize, Py.exec_bind_of_ok (Py.exec_get kvPool), if_pos h, Py.exec_ofExcept]

/-- A step whose check passes. -/
theorem deregisterLoop_cons (h : kvPool.keys.length = size) (key : κ) (keys : List κ) :
    (deregisterLoop instanceId workerId size (key :: keys)).exec kvPool =
      (deregisterLoop instanceId workerId size keys).exec
        (deregisterKey instanceId workerId kvPool key) := by
  rw [deregisterLoop, Py.exec_bind_of_ok (checkSize_of_eq h),
    Py.exec_bind_of_ok (Py.exec_get kvPool), Py.exec_bind_of_ok (Py.exec_set _ _)]

/-- The check that fails is the end. -/
theorem deregisterLoop_of_ne (h : kvPool.keys.length ≠ size) (keys : List κ) :
    (deregisterLoop instanceId workerId size keys).exec kvPool =
      (.error (.other "RuntimeError"), kvPool) := by
  cases keys with
  | nil => rw [deregisterLoop, checkSize_of_ne h]
  | cons key keys => rw [deregisterLoop, Py.exec_bind_of_error (checkSize_of_ne h)]

variable {before kept after : List (κ × List (KVChunkMetadata ι))}
  {p : κ × List (KVChunkMetadata ι)}

/-- The body of the loop, at a key between others. -/
theorem deregisterKey_items (h : kvPool.items = before ++ p :: after) :
    (deregisterKey instanceId workerId kvPool p.1).items =
      if others instanceId workerId p.2 = [] then before ++ after
      else before ++ (p.1, others instanceId workerId p.2) :: after := by
  have hset := Dict.items_set h (others instanceId workerId p.2)
  rw [deregisterKey, Dict.get?_of_items h, Option.getD_some, Dict.get?_set_self, Option.getD_some]
  split_ifs
  · exact Dict.items_erase hset
  · exact hset

/-- Keys that are not emptied are passed, and cleaned. -/
theorem deregisterLoop_append (hkept : ∀ p ∈ kept, others instanceId workerId p.2 ≠ [])
    (h : kvPool.items = before ++ (kept ++ after)) (hsize : kvPool.keys.length = size)
    (keys : List κ) :
    ∃ kvPool', (deregisterLoop instanceId workerId size (kept.map Prod.fst ++ keys)).exec kvPool =
        (deregisterLoop instanceId workerId size keys).exec kvPool' ∧
      kvPool'.items = before ++
        (kept.map (fun p => (p.1, others instanceId workerId p.2)) ++ after) ∧
      kvPool'.keys.length = size := by
  induction kept generalizing kvPool before with
  | nil => exact ⟨kvPool, rfl, h, hsize⟩
  | cons p kept ih =>
    have hitems : (deregisterKey instanceId workerId kvPool p.1).items = _ := deregisterKey_items h
    rw [if_neg (hkept p List.mem_cons_self), List.append_cons] at hitems
    have hsize' : (deregisterKey instanceId workerId kvPool p.1).keys.length = size := by
      rw [← hsize, Dict.keys, Dict.keys, List.length_map, List.length_map, hitems, h]
      simp
    obtain ⟨kvPool', hexec, hitems', hlength⟩ :=
      ih (fun q hq => hkept q (List.mem_cons_of_mem p hq)) hitems hsize'
    refine ⟨kvPool', ?_, ?_, hlength⟩
    · rw [List.map_cons, List.cons_append, deregisterLoop_cons hsize, hexec]
    · rw [hitems', List.append_assoc]
      rfl

/-- **Where no key is emptied**, all are cleaned. -/
theorem deregisterLoop_of_kept (hkept : ∀ p ∈ kvPool.items, others instanceId workerId p.2 ≠ []) :
    (deregisterLoop instanceId workerId kvPool.keys.length kvPool.keys).exec kvPool =
      (.ok (), withoutWorker instanceId workerId kvPool) := by
  have hsplit : kvPool.items = [] ++ (kvPool.items ++ []) := by simp
  obtain ⟨kvPool', hexec, hitems, hsize⟩ := deregisterLoop_append hkept hsplit rfl []
  have hall : kvPool' = withoutWorker instanceId workerId kvPool := by
    refine Dict.ext ?_
    rw [hitems, withoutWorker, List.nil_append, List.append_nil]
    refine (List.filter_eq_self.mpr fun q hq => ?_).symm
    obtain ⟨p, hp, rfl⟩ := List.mem_map.mp hq
    exact decide_eq_true (hkept p hp)
  rw [List.append_nil, ← Dict.keys] at hexec
  rw [hexec, deregisterLoop, checkSize_of_eq hsize, hall]

/-- **Where a key is emptied**, the first such is the last that is cleaned. -/
theorem deregisterLoop_of_emptied (hkept : ∀ p ∈ kept, others instanceId workerId p.2 ≠ [])
    (hemptied : others instanceId workerId p.2 = []) (h : kvPool.items = kept ++ p :: after) :
    ∃ kvPool', (deregisterLoop instanceId workerId kvPool.keys.length kvPool.keys).exec kvPool =
        (.error (.other "RuntimeError"), kvPool') ∧
      kvPool'.items = kept.map (fun p => (p.1, others instanceId workerId p.2)) ++ after := by
  have hsplit : kvPool.items = [] ++ (kept ++ p :: after) := h
  obtain ⟨kvPool', hexec, hitems, hsize⟩ :=
    deregisterLoop_append hkept hsplit rfl (p.1 :: after.map Prod.fst)
  have hitems' : (deregisterKey instanceId workerId kvPool' p.1).items = _ :=
    deregisterKey_items hitems
  rw [if_pos hemptied] at hitems'
  have hne : (deregisterKey instanceId workerId kvPool' p.1).keys.length ≠ kvPool.keys.length := by
    rw [← hsize, Dict.keys, Dict.keys, List.length_map, List.length_map, hitems, hitems']
    simp
  refine ⟨_, ?_, hitems'⟩
  have hkeys : kvPool.keys = kept.map Prod.fst ++ p.1 :: after.map Prod.fst := by
    rw [Dict.keys, h, List.map_append, List.map_cons]
  rw [← hkeys] at hexec
  rw [hexec, deregisterLoop_cons hsize, deregisterLoop_of_ne hne]

end Exec

/-! ### What is left of an instance -/

section Entries

variable {c : KVController ι κ τ} {instanceId : ι} {workerId : ℤ}

/-- An instance without metadata gets some only by an admit. -/
theorem not_hasEntry_handle (h : ∀ k, ¬ HasEntry c.kvPool instanceId k) {m : Msg ι κ}
    (hm : ∀ msg, .kvAdmit msg = m → msg.instanceId ≠ instanceId) (k : κ) :
    ¬ HasEntry (c.handle m).kvPool instanceId k := by
  rintro ⟨entry, hentry, hinstance⟩
  cases m with
  | kvAdmit msg =>
    rw [KVController.handle, admitChunk, admitPool_get?] at hentry
    split_ifs at hentry with hk
    · rcases List.mem_append.mp hentry with hentry | hentry
      · exact h msg.key ⟨entry, hentry, hinstance⟩
      · rw [List.mem_singleton.mp hentry] at hinstance
        exact hm msg rfl hinstance
    · exact h k ⟨entry, hentry, hinstance⟩
  | kvEvict msg =>
    rw [KVController.handle, evictChunk, evictPool_getD] at hentry
    split_ifs at hentry with hk
    · exact h k ⟨entry, List.mem_of_mem_filter hentry, hinstance⟩
    · exact h k ⟨entry, hentry, hinstance⟩

theorem not_hasEntry_handleAll (h : ∀ k, ¬ HasEntry c.kvPool instanceId k) {run : List (Msg ι κ)}
    (hrun : ∀ msg, .kvAdmit msg ∈ run → msg.instanceId ≠ instanceId) (k : κ) :
    ¬ HasEntry (c.handleAll run).kvPool instanceId k := by
  induction run generalizing c with
  | nil => exact h k
  | cons m run ih =>
    have hstep := not_hasEntry_handle h fun msg hmsg => hrun msg (List.mem_cons.mpr (.inl hmsg))
    exact ih hstep fun msg hmsg => hrun msg (List.mem_cons_of_mem m hmsg)

/-- `lookup` names no instance without metadata. -/
theorem not_mem_lookup (h : ∀ k, ¬ HasEntry c.kvPool instanceId k) (msg : LookupMsg τ) :
    instanceId ∉ (c.lookup msg).layoutInfo := by
  rw [← Dict.get?_isSome, lookup_get?, credit_isSome]
  rintro ⟨chunk, -, hentry⟩
  exact h chunk.key hentry

theorem not_hasEntry_withoutWorker
    (h : ∀ p ∈ c.kvPool.items, ∀ m ∈ p.2, m.instanceId = instanceId → m.workerId = workerId)
    (k : κ) :
    ¬ HasEntry (withoutWorker instanceId workerId c.kvPool) instanceId k := by
  rintro ⟨m, hm, hinstance⟩
  cases hget : (withoutWorker instanceId workerId c.kvPool).get? k with
  | none => simp [hget] at hm
  | some metas =>
    rw [hget, Option.getD_some] at hm
    obtain ⟨p, hp, heq⟩ := List.mem_map.mp (List.mem_of_mem_filter (Dict.get?_eq_some_iff.mp hget))
    cases heq
    obtain ⟨hm, hother⟩ := List.mem_filter.mp hm
    exact of_decide_eq_true hother ⟨hinstance, h p hp m hm hinstance⟩

theorem others_eq_nil {metas : List (KVChunkMetadata ι)} :
    others instanceId workerId metas = [] ↔
      ∀ m ∈ metas, m.instanceId = instanceId ∧ m.workerId = workerId := by
  rw [others, List.filter_eq_nil_iff]
  simp

theorem deregister_exec (c : KVController ι κ τ) : (deregister instanceId workerId).exec c =
    (((deregisterLoop instanceId workerId c.kvPool.keys.length c.kvPool.keys).exec c.kvPool).1,
      { c with
        kvPool := ((deregisterLoop instanceId workerId c.kvPool.keys.length c.kvPool.keys).exec
          c.kvPool).2 }) := by
  rw [deregister, Py.exec_bind_of_ok (Py.exec_get c), Py.exec_zoom]

/-- **When `deregister` does what it is for**: exactly when no key is held by the worker alone. -/
theorem deregisters_iff (c : KVController ι κ τ) (instanceId : ι) (workerId : ℤ) :
    Deregisters instanceId workerId c ↔
      ∀ p ∈ c.kvPool.items, ∃ m ∈ p.2, ¬ (m.instanceId = instanceId ∧ m.workerId = workerId) := by
  have hothers (p : κ × List (KVChunkMetadata ι)) :
      (∃ m ∈ p.2, ¬ (m.instanceId = instanceId ∧ m.workerId = workerId)) ↔
      others instanceId workerId p.2 ≠ [] := by
    rw [ne_eq, others_eq_nil]
    simp only [not_forall, exists_prop]
  simp only [hothers]
  constructor
  · intro h p hp hnil
    -- the first key that is emptied ends the loop
    obtain ⟨q, hq⟩ := Option.isSome_iff_exists.mp
      (List.find?_isSome.mpr ⟨p, hp, decide_eq_true hnil⟩ :
        (c.kvPool.items.find? fun p => others instanceId workerId p.2 = []).isSome)
    obtain ⟨hemptied, kept, after, hitems, hkept⟩ := List.find?_eq_some_iff_append.mp hq
    obtain ⟨kvPool', hexec, -⟩ :=
      deregisterLoop_of_emptied (fun p hp => by simpa using hkept p hp) (of_decide_eq_true hemptied)
      hitems
    have hcompletes := h.completes
    rw [deregister_exec, hexec] at hcompletes
    exact nomatch hcompletes
  · intro h
    have hexec : (deregister instanceId workerId).exec c =
        (.ok (), { c with kvPool := withoutWorker instanceId workerId c.kvPool }) := by
      rw [deregister_exec, deregisterLoop_of_kept h]
    refine ⟨by rw [hexec], by rw [hexec], fun honly run hrun msg => ?_⟩
    rw [hexec]
    exact not_mem_lookup (not_hasEntry_handleAll (not_hasEntry_withoutWorker honly) hrun) msg

end Entries

/-- A pool in which one worker alone holds two chunks. -/
def soleHolder : KVController String ℕ ℕ where
  kvPool := Dict.ofList [(0, [⟨"a", 0, "cpu"⟩]), (1, [⟨"a", 0, "cpu"⟩])]
  processTokens _ := [⟨0, 2, 1⟩]

/-- `deregister` raises, and `lookup` goes on naming the instance. -/
theorem deregister_raises : ¬ Deregisters "a" 0 soleHolder ∧
    ((deregister "a" 0).exec soleHolder).1 = .error (.other "RuntimeError") ∧
      "a" ∈ (((deregister "a" 0).exec soleHolder).2.lookup ⟨"", [7, 8]⟩).layoutInfo := by
  refine ⟨fun h => ?_, by decide +kernel, by decide +kernel⟩
  have hcompletes := h.completes
  have hraises : ((deregister "a" 0).exec soleHolder).1 =
      .error (.other "RuntimeError") := by decide +kernel
  exact nomatch hcompletes.symm.trans hraises

end KVController

end CachingInLLMs.Controller

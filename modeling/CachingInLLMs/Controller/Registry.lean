import CachingInLLMs.Controller.Lookup
import Mathlib.Data.List.Induction
import Mathlib.Data.Set.Insert

/-!
# The registry over a run of messages

What the registry is for: to know, at every moment, who holds what. Abstractly it
is the set of live tuples; an `admit` puts its tuple in, an `evict` takes its tuple
out. `kv_pool` represents that set: its lists may hold a tuple several times, in
some order, and a key whose list has emptied is gone, but the set it stands for
(`KVPool.tuples`) moves as the abstract registry does (`tuples_handle`).

Over a run from an empty pool, the set is the tuples whose last message is an
`admit` (`tuples_handleAll`). Hence what `lookup` credits is read off the messages
(`lookup_credits_live_prefix`), and two orders of the same messages that agree on
each tuple give the same credits: the streams of different workers may be
interleaved in any way.
-/

namespace CachingInLLMs.Controller

open CachingInLLMs.Library

variable {ι κ τ : Type}

/-- A message of a worker to the Controller. -/
inductive Msg (ι κ : Type) where
  /-- A `KVAdmitMsg`. -/
  | kvAdmit (msg : KVMsg ι κ)
  /-- A `KVEvictMsg`. -/
  | kvEvict (msg : KVMsg ι κ)
  deriving DecidableEq

/-- The tuple of key, instance, worker and location that the message is about. -/
def Msg.about : Msg ι κ → KVMsg ι κ
  | .kvAdmit msg => msg
  | .kvEvict msg => msg

/-- The abstract registry: which tuples are live after a message, given which were. -/
def Msg.apply (live : Set (KVMsg ι κ)) : Msg ι κ → Set (KVMsg ι κ)
  | .kvAdmit msg => insert msg live
  | .kvEvict msg => live \ {msg}

variable [DecidableEq ι] [DecidableEq κ]

/-- The Controller after a message. -/
def KVController.handle (c : KVController ι κ τ) : Msg ι κ → KVController ι κ τ
  | .kvAdmit msg => c.admitChunk msg
  | .kvEvict msg => c.evictChunk msg

/-- The Controller after a run of messages. -/
def KVController.handleAll (c : KVController ι κ τ) (run : List (Msg ι κ)) : KVController ι κ τ :=
  run.foldl handle c

theorem KVController.handleAll_snoc (c : KVController ι κ τ) (run : List (Msg ι κ)) (m : Msg ι κ) :
    c.handleAll (run ++ [m]) = (c.handleAll run).handle m := by
  simp [handleAll]

@[simp] theorem KVController.handleAll_processTokens (c : KVController ι κ τ) (run : List (Msg ι κ)) :
    (c.handleAll run).processTokens = c.processTokens := by
  induction run using List.reverseRecOn with
  | nil => rfl
  | append_singleton run m ih =>
    rw [handleAll_snoc, ← ih]
    cases m <;> rfl

omit [DecidableEq ι] in
/-- The set of tuples a pool stands for. -/
def KVPool.tuples (kvPool : KVPool κ ι) : Set (KVMsg ι κ) :=
  {t | t.metadata ∈ (kvPool.get? t.key).getD []}

/-! ### Live tuples -/

/-- The last message of the run about exactly the tuple is an admit. -/
def Live (run : List (Msg ι κ)) (t : KVMsg ι κ) : Prop :=
  (run.filter (·.about = t)).getLast? = some (.kvAdmit t)

instance (run : List (Msg ι κ)) (t : KVMsg ι κ) : Decidable (Live run t) :=
  inferInstanceAs (Decidable (_ = _))

@[simp] theorem not_live_nil (t : KVMsg ι κ) : ¬ Live [] t := by simp [Live]

theorem live_snoc_kvAdmit (run : List (Msg ι κ)) (msg t : KVMsg ι κ) :
    Live (run ++ [.kvAdmit msg]) t ↔ t = msg ∨ Live run t := by
  by_cases h : msg = t
  · subst h
    simp [Live, List.filter_append, Msg.about]
  · simp [Live, List.filter_append, Msg.about, h, Ne.symm h]

theorem live_snoc_kvEvict (run : List (Msg ι κ)) (msg t : KVMsg ι κ) :
    Live (run ++ [.kvEvict msg]) t ↔ t ≠ msg ∧ Live run t := by
  by_cases h : msg = t
  · subst h
    simp [Live, List.filter_append, Msg.about]
  · simp [Live, List.filter_append, Msg.about, h, Ne.symm h]

/-- Only a tuple that was admitted is live. -/
theorem Live.mem_run {run : List (Msg ι κ)} {t : KVMsg ι κ} (h : Live run t) : .kvAdmit t ∈ run :=
  (List.mem_filter.mp (List.mem_of_getLast? h)).1

/-- Some tuple of the instance for the key is live. -/
def Held (run : List (Msg ι κ)) (i : ι) (k : κ) : Prop :=
  ∃ (workerId : ℤ) (location : String), Live run ⟨i, workerId, k, location⟩

theorem held_iff_exists_mem {run : List (Msg ι κ)} {i : ι} {k : κ} :
    Held run i k ↔ ∃ m ∈ run, m.about.instanceId = i ∧ m.about.key = k ∧ Live run m.about := by
  constructor
  · rintro ⟨w, location, h⟩
    exact ⟨_, h.mem_run, rfl, rfl, h⟩
  · rintro ⟨m, -, rfl, rfl, h⟩
    exact ⟨m.about.workerId, m.about.location, h⟩

instance (run : List (Msg ι κ)) (i : ι) (k : κ) : Decidable (Held run i k) :=
  decidable_of_iff _ held_iff_exists_mem.symm

/-! ### The pool represents the live tuples -/

/-- **Simulation**: a message moves the set a pool stands for as it moves the
abstract registry. -/
theorem tuples_handle (c : KVController ι κ τ) (m : Msg ι κ) :
    (c.handle m).kvPool.tuples = m.apply c.kvPool.tuples := by
  have hmeta {t msg : KVMsg ι κ} (hk : t.key = msg.key) : t.metadata = msg.metadata ↔ t = msg := by
    obtain ⟨i, w, k, l⟩ := t
    obtain ⟨i', w', k', l'⟩ := msg
    simp_all [KVMsg.metadata]
  ext t
  cases m with
  | kvAdmit msg =>
    simp only [KVController.handle, KVController.admitChunk, KVPool.tuples, Msg.apply, Set.mem_ofPred_eq,
      KVController.admitPool_get?, Set.mem_insert_iff]
    by_cases hk : t.key = msg.key
    · rw [if_pos hk, Option.getD_some, List.mem_append, List.mem_singleton, hmeta hk, ← hk, or_comm]
    · have hne : t ≠ msg := fun h => hk (congrArg KVMsg.key h)
      simp [hk, hne]
  | kvEvict msg =>
    simp only [KVController.handle, KVController.evictChunk, KVPool.tuples, Msg.apply, Set.mem_ofPred_eq,
      KVController.evictPool_getD, Set.mem_sdiff, Set.mem_singleton_iff]
    by_cases hk : t.key = msg.key
    · rw [if_pos hk, List.mem_filter, decide_eq_true_iff, ne_eq, hmeta hk]
    · have hne : t ≠ msg := fun h => hk (congrArg KVMsg.key h)
      simp [hk, hne]

/-- **After a run from an empty pool, the pool stands for the live tuples.** -/
theorem tuples_handleAll (processTokens : List τ → List (Chunk κ)) (run : List (Msg ι κ)) :
    ((KVController.start processTokens).handleAll run).kvPool.tuples = {t | Live run t} := by
  induction run using List.reverseRecOn with
  | nil =>
    ext t
    simp [KVController.handleAll, KVController.start, KVPool.tuples]
  | append_singleton run m ih =>
    rw [KVController.handleAll_snoc, tuples_handle, ih]
    ext t
    cases m with
    | kvAdmit msg => simp [Msg.apply, live_snoc_kvAdmit]
    | kvEvict msg =>
      simp only [Msg.apply, Set.mem_sdiff, Set.mem_ofPred_eq, Set.mem_singleton_iff, live_snoc_kvEvict]
      tauto

/-- The pool has a location for an instance exactly on the keys the instance holds. -/
theorem locationOf_isSome_iff_held (processTokens : List τ → List (Chunk κ)) (run : List (Msg ι κ))
    (k : κ) (i : ι) :
    (KVController.locationOf ((KVController.start processTokens).handleAll run).kvPool k i).isSome ↔
      Held run i k := by
  have htuple (t : KVMsg ι κ) : t.metadata ∈
      ((((KVController.start processTokens).handleAll run).kvPool).get? t.key).getD [] ↔ Live run t :=
    Set.ext_iff.mp (tuples_handleAll processTokens run) t
  rw [KVController.locationOf_isSome]
  constructor
  · rintro ⟨⟨_, w, location⟩, hm, rfl⟩
    exact ⟨w, location, (htuple _).mp hm⟩
  · rintro ⟨w, location, h⟩
    exact ⟨_, (htuple _).mpr h, rfl⟩

/-! ### What `lookup` credits after a run -/

/-- The longest initial segment of the chunks whose keys the instance all holds. -/
def livePrefix (run : List (Msg ι κ)) (i : ι) (chunks : List (Chunk κ)) : List (Chunk κ) :=
  chunks.takeWhile fun chunk => Held run i chunk.key

theorem held_of_mem_livePrefix {run : List (Msg ι κ)} {i : ι} {chunks : List (Chunk κ)} {chunk : Chunk κ}
    (h : chunk ∈ livePrefix run i chunks) : Held run i chunk.key := by
  unfold livePrefix at h
  have := List.mem_takeWhile_imp h
  exact of_decide_eq_true this

/-- No initial segment of held chunks is longer. -/
theorem prefix_livePrefix {run : List (Msg ι κ)} {i : ι} {chunks seg : List (Chunk κ)}
    (hseg : seg <+: chunks) (hheld : ∀ chunk ∈ seg, Held run i chunk.key) :
    seg <+: livePrefix run i chunks := by
  obtain ⟨rest, rfl⟩ := hseg
  rw [livePrefix, List.takeWhile_append_of_pos fun chunk hc => decide_eq_true (hheld chunk hc)]
  exact List.prefix_append _ _

/-- The credit after a run is the end of the last chunk of the live prefix. -/
theorem lookup_handleAll_credit (processTokens : List τ → List (Chunk κ)) (run : List (Msg ι κ))
    (msg : LookupMsg τ) (i : ι) :
    ((((KVController.start processTokens).handleAll run).lookup msg).layoutInfo.get? i).map Prod.snd =
      (livePrefix run i (processTokens msg.tokens)).getLast?.map fun chunk => (chunk.stop : ℤ) := by
  have hmatched (chunks : List (Chunk κ)) :
      KVController.matchedChunks ((KVController.start processTokens).handleAll run).kvPool i chunks =
        livePrefix run i chunks := by
    unfold KVController.matchedChunks livePrefix
    congr 1
    funext chunk
    rw [Bool.eq_iff_iff, locationOf_isSome_iff_held, decide_eq_true_iff]
  rw [KVController.lookup_get?, KVController.credit_map_snd, hmatched, KVController.handleAll_processTokens]
  rfl

/-- Two runs with the same messages about each tuple, in the same order. -/
def SameOrder (run run' : List (Msg ι κ)) : Prop :=
  ∀ t, run.filter (·.about = t) = run'.filter (·.about = t)

theorem SameOrder.held_iff {run run' : List (Msg ι κ)} (h : SameOrder run run') (i : ι) (k : κ) :
    Held run i k ↔ Held run' i k := by
  simp only [Held, Live, h _]

theorem SameOrder.livePrefix_eq {run run' : List (Msg ι κ)} (h : SameOrder run run') (i : ι)
    (chunks : List (Chunk κ)) : livePrefix run i chunks = livePrefix run' i chunks := by
  unfold livePrefix
  congr 1
  funext chunk
  rw [decide_eq_decide]
  exact h.held_iff i chunk.key

/-- **`lookup` credits each instance with its live prefix**, and nothing to an
instance that does not hold the first chunk; so the credits do not depend on how
the workers' messages are interleaved. -/
theorem lookup_credits_live_prefix (processTokens : List τ → List (Chunk κ)) (run : List (Msg ι κ))
    (msg : LookupMsg τ) :
    let layoutInfo (run : List (Msg ι κ)) :=
      (((KVController.start processTokens).handleAll run).lookup msg).layoutInfo
    (∀ i, ((layoutInfo run).get? i).map Prod.snd =
      (livePrefix run i (processTokens msg.tokens)).getLast?.map fun chunk => (chunk.stop : ℤ)) ∧
    (∀ i, (∀ chunk, (processTokens msg.tokens).head? = some chunk → ¬ Held run i chunk.key) →
      i ∉ layoutInfo run) ∧
    ∀ run', SameOrder run run' → ∀ i,
      ((layoutInfo run').get? i).map Prod.snd = ((layoutInfo run).get? i).map Prod.snd ∧
      (i ∈ layoutInfo run' ↔ i ∈ layoutInfo run) := by
  intro layoutInfo
  have hcredit (run : List (Msg ι κ)) (i : ι) := lookup_handleAll_credit processTokens run msg i
  refine ⟨hcredit run, fun i hi => ?_, fun run' h i => ?_⟩
  · have hnil : livePrefix run i (processTokens msg.tokens) = [] := by
      cases hc : processTokens msg.tokens with
      | nil => rfl
      | cons chunk chunks =>
        rw [hc] at hi
        simp [livePrefix, hi chunk rfl]
    have := hcredit run i
    rw [hnil, List.getLast?_nil, Option.map_none, Option.map_eq_none_iff] at this
    exact Dict.get?_eq_none.mp this
  · have heq : ((layoutInfo run').get? i).map Prod.snd = ((layoutInfo run).get? i).map Prod.snd := by
      rw [hcredit, hcredit, h.livePrefix_eq]
    refine ⟨heq, ?_⟩
    rw [← Dict.get?_isSome, ← Dict.get?_isSome, ← Option.isSome_map (f := Prod.snd), heq, Option.isSome_map]

end CachingInLLMs.Controller

import CachingInLLMs.Library.Dict
import Mathlib.Data.Int.Cast.Basic
import Mathlib.Tactic.Common

/-!
# The Controller's registry of KV chunks

`KVController` keeps `kv_pool`: for each chunk key, the list of the
instance-workers that hold the chunk, in the order they admitted it. Workers send
`admit` and `evict` messages, each about one key, instance, worker and location.
`lookup` answers, for a prompt, how much of its prefix each instance holds.

## The model

The methods have no `await`, so on the Controller's event loop each runs to its
end: a run of the Controller is a sequence of messages, handled one at a time.
`token_database` is not part of the repository; the Controller uses it through
one call, `process_tokens(tokens, make_key=False)`, which yields the chunks of a
prompt, and that call is a field of the model. The chunks it may yield are
arbitrary here.

`lookup` walks the chunks with two structures: `contiguous`, the instances that
have matched every chunk so far (`None` before the first), and `layout_info`.
-/

namespace CachingInLLMs.Controller

open CachingInLLMs.Library

/-- A holder of a chunk: an instance, one of its workers, and where it keeps the chunk. -/
@[ext]
structure KVChunkMetadata (ι : Type) where
  /-- `instance_id`. -/
  instanceId : ι
  /-- `worker_id`. -/
  workerId : ℤ
  /-- `location`. -/
  location : String
  deriving DecidableEq

/-- `kv_pool`. -/
abbrev KVPool (κ ι : Type) := Dict κ (List (KVChunkMetadata ι))

/-- A chunk of a prompt: its tokens are those from `start` up to `stop`. -/
structure Chunk (κ : Type) where
  /-- The offset of its first token. -/
  start : ℕ
  /-- The offset after its last token, the source's `end`. -/
  stop : ℕ
  /-- Its key. -/
  key : κ
  deriving DecidableEq

/-- `layout_info`: for each instance, a location and how many tokens it matches. -/
abbrev LayoutInfo (ι : Type) := Dict ι (String × ℤ)

/-- The fields of a `KVAdmitMsg` and of a `KVEvictMsg`. -/
structure KVMsg (ι κ : Type) where
  /-- `instance_id`. -/
  instanceId : ι
  /-- `worker_id`. -/
  workerId : ℤ
  /-- `key`. -/
  key : κ
  /-- `location`. -/
  location : String
  deriving DecidableEq

/-- `LookupMsg`. -/
structure LookupMsg (τ : Type) where
  /-- `event_id`. -/
  eventId : String
  /-- `tokens`. -/
  tokens : List τ

/-- `LookupRetMsg`. -/
structure LookupRetMsg (ι : Type) where
  /-- `event_id`. -/
  eventId : String
  /-- `layout_info`. -/
  layoutInfo : LayoutInfo ι

/-- `KVController`. -/
structure KVController (ι κ τ : Type) where
  /-- `kv_pool`. -/
  kvPool : KVPool κ ι
  /-- `token_database.process_tokens(tokens, make_key=False)`. -/
  processTokens : List τ → List (Chunk κ)

variable {ι κ τ : Type}

/-- The holder a message is about. -/
def KVMsg.metadata (msg : KVMsg ι κ) : KVChunkMetadata ι := ⟨msg.instanceId, msg.workerId, msg.location⟩

namespace KVController

/-- A Controller that has handled no message. -/
def start (processTokens : List τ → List (Chunk κ)) : KVController ι κ τ := ⟨∅, processTokens⟩

variable [DecidableEq ι] [DecidableEq κ]

/-! ### Admitting and evicting -/

/-- The pool after `admit`. -/
def admitPool (kvPool : KVPool κ ι) (msg : KVMsg ι κ) : KVPool κ ι :=
  let kvPool := if msg.key ∉ kvPool then kvPool.set msg.key [] else kvPool
  kvPool.set msg.key ((kvPool.get? msg.key).getD [] ++ [⟨msg.instanceId, msg.workerId, msg.location⟩])

/-- The pool after `evict`. -/
def evictPool (kvPool : KVPool κ ι) (msg : KVMsg ι κ) : KVPool κ ι :=
  match kvPool.get? msg.key with
  | none => kvPool
  | some metas =>
    let remaining := metas.filter fun m =>
      ¬ (m.instanceId = msg.instanceId ∧ m.workerId = msg.workerId ∧ m.location = msg.location)
    if remaining ≠ [] then kvPool.set msg.key remaining else kvPool.erase msg.key

/-- `admit`: admit a new kv chunk. -/
def admitChunk (c : KVController ι κ τ) (msg : KVMsg ι κ) : KVController ι κ τ :=
  { c with kvPool := admitPool c.kvPool msg }

/-- `evict`: evict a kv chunk. -/
def evictChunk (c : KVController ι κ τ) (msg : KVMsg ι κ) : KVController ι κ τ :=
  { c with kvPool := evictPool c.kvPool msg }

/-! ### Lookup -/

/-- The instance has matched every chunk so far; `none` is before the first chunk. -/
def StillContiguous (contiguous : Option (List ι)) (i : ι) : Prop := ∀ c, contiguous = some c → i ∈ c

instance (contiguous : Option (List ι)) (i : ι) : Decidable (StillContiguous contiguous i) :=
  match contiguous with
  | none => isTrue (fun _ h => nomatch h)
  | some c => decidable_of_iff (i ∈ c) ⟨fun h _ hc => Option.some.inj hc ▸ h, fun h => h c rfl⟩

omit [DecidableEq ι] in
theorem stillContiguous_none (i : ι) : StillContiguous none i := by
  intro c h
  cases h

/-- `holders`: the instances still matching that hold the chunk, each with the
location of its first metadata. -/
def holders (contiguous : Option (List ι)) (metas : List (KVChunkMetadata ι)) : Dict ι String :=
  metas.foldl
    (fun holders m =>
      if ¬ StillContiguous contiguous m.instanceId then holders
      else holders.setdefault m.instanceId m.location) ∅

/-- The loop of `lookup` over the chunks. -/
def lookupLoop (kvPool : KVPool κ ι) :
    List (Chunk κ) → Option (List ι) → LayoutInfo ι → LayoutInfo ι
  | [], _, layoutInfo => layoutInfo
  | chunk :: chunks, contiguous, layoutInfo =>
    match kvPool.get? chunk.key with
    | none => layoutInfo
    | some metas =>
      let found := holders contiguous metas
      if found.keys = [] then layoutInfo
      else lookupLoop kvPool chunks (some found.keys)
        (layoutInfo.update (found.items.map fun p => (p.1, (p.2, (chunk.stop : ℤ)))))

/-- `lookup`: report, for every instance, how much of the request's prefix it holds. -/
def lookup (c : KVController ι κ τ) (msg : LookupMsg τ) : LookupRetMsg ι where
  eventId := msg.eventId
  layoutInfo := lookupLoop c.kvPool (c.processTokens msg.tokens) none ∅

/-! ### What each operation does to the pool -/

omit [DecidableEq ι] in
@[simp] theorem admitPool_get? (kvPool : KVPool κ ι) (msg : KVMsg ι κ) (k : κ) :
    (admitPool kvPool msg).get? k =
      if k = msg.key then some ((kvPool.get? msg.key).getD [] ++ [msg.metadata]) else kvPool.get? k := by
  unfold admitPool
  by_cases h : msg.key ∈ kvPool
  · simp [h, KVMsg.metadata]
  · by_cases hk : k = msg.key
    · simp [h, hk, Dict.get?_eq_none.mpr h, KVMsg.metadata]
    · simp [h, hk]

theorem evictPool_getD (kvPool : KVPool κ ι) (msg : KVMsg ι κ) (k : κ) :
    ((evictPool kvPool msg).get? k).getD [] =
      if k = msg.key then ((kvPool.get? k).getD []).filter (· ≠ msg.metadata)
      else (kvPool.get? k).getD [] := by
  unfold evictPool
  by_cases hk : k = msg.key
  · subst hk
    cases hm : kvPool.get? msg.key with
    | none => simp [hm]
    | some metas =>
      have hfilter : metas.filter (fun m =>
          ¬ (m.instanceId = msg.instanceId ∧ m.workerId = msg.workerId ∧ m.location = msg.location)) =
          metas.filter (· ≠ msg.metadata) :=
        List.filter_congr fun m _ => by simp only [KVMsg.metadata, KVChunkMetadata.ext_iff, ne_eq]
      dsimp only
      rw [hfilter, if_pos rfl]
      split_ifs with h
      · simp
      · simpa using (not_not.mp h).symm
  · cases hm : kvPool.get? msg.key with
    | none => simp [hk]
    | some metas =>
      dsimp only
      split_ifs <;> simp [hk]

end KVController

end CachingInLLMs.Controller

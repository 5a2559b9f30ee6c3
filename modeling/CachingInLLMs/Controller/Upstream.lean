import CachingInLLMs.Controller.Registry
import CachingInLLMs.Library.Python
import CachingInLLMs.Router.Kvaware

/-!
# The patched lookup against the stock one

The stock `lookup` credits only the first metadata of each chunk key, and stops
at the first key the pool does not have. The tests keep it as a reference,
`upstream_lookup`; `upstreamLookup` is that function.

The two walks stop for different reasons and fill their maps in different orders.
What they share is the first key of the map: both insert the first metadata of the
first chunk first, and neither ever moves a key (`keys_prefix_lookupLoop`,
`keys_prefix_upstreamLoop`). `kvaware` reads nothing else, apart from the matched
tokens of that instance; those agree when one instance comes first throughout.
-/

namespace CachingInLLMs.Controller

open CachingInLLMs.Library CachingInLLMs.Router

namespace KVController

variable {ι κ τ : Type} [DecidableEq ι] [DecidableEq κ]

/-- The loop of the stock lookup. An empty list of metadata has no first item. -/
def upstreamLoop (kvPool : KVPool κ ι) : List (Chunk κ) → LayoutInfo ι → Except PyError (LayoutInfo ι)
  | [], layoutInfo => .ok layoutInfo
  | chunk :: chunks, layoutInfo =>
    match kvPool.get? chunk.key with
    | none => .ok layoutInfo
    | some metas => do
      let matched ← pyGet metas 0
      upstreamLoop kvPool chunks (layoutInfo.set matched.instanceId (matched.location, (chunk.stop : ℤ)))

/-- `upstream_lookup`: the stock lookup. -/
def upstreamLookup (c : KVController ι κ τ) (tokens : List τ) : Except PyError (LayoutInfo ι) :=
  upstreamLoop c.kvPool (c.processTokens tokens) ∅

/-- No key of the pool has an empty list. -/
def KVPool.NoEmptyList (kvPool : KVPool κ ι) : Prop := ∀ k metas, kvPool.get? k = some metas → metas ≠ []

omit [DecidableEq ι] in
theorem KVPool.NoEmptyList.exists_cons {kvPool : KVPool κ ι} (h : NoEmptyList kvPool) {k : κ}
    {metas : List (KVChunkMetadata ι)} (hk : kvPool.get? k = some metas) :
    ∃ m ms, metas = m :: ms := List.exists_cons_of_ne_nil (h k metas hk)

omit [DecidableEq ι] in
theorem KVPool.noEmptyList_iff {kvPool : KVPool κ ι} : NoEmptyList kvPool ↔ ∀ p ∈ kvPool.items, p.2 ≠ [] := by
  constructor
  · intro h p hp
    exact h p.1 p.2 (Dict.get?_eq_some_iff.mpr hp)
  · intro h k metas hk
    exact h (k, metas) (Dict.get?_eq_some_iff.mp hk)

/-- A message keeps the lists non-empty: `admit` only adds, `evict` drops a list it empties. -/
theorem noEmptyList_handle {c : KVController ι κ τ} (h : KVPool.NoEmptyList c.kvPool) (m : Msg ι κ) :
    KVPool.NoEmptyList (c.handle m).kvPool := by
  intro k metas hk
  cases m with
  | kvAdmit msg =>
    simp only [handle, admitChunk, admitPool_get?] at hk
    split at hk
    · obtain rfl := Option.some.inj hk
      exact List.append_ne_nil_of_right_ne_nil _ (List.cons_ne_nil _ _)
    · exact h k metas hk
  | kvEvict msg =>
    simp only [handle, evictChunk, evictPool] at hk
    cases hm : c.kvPool.get? msg.key with
    | none =>
      rw [hm] at hk
      exact h k metas hk
    | some old =>
      rw [hm] at hk
      dsimp only at hk
      split at hk
      · next hne =>
        rw [Dict.get?_set] at hk
        split at hk
        · obtain rfl := Option.some.inj hk
          exact hne
        · exact h k metas hk
      · rw [Dict.get?_erase] at hk
        split at hk
        · cases hk
        · exact h k metas hk

/-- The lists of a pool filled by messages alone are not empty. -/
theorem noEmptyList_handleAll (processTokens : List τ → List (Chunk κ)) (run : List (Msg ι κ)) :
    KVPool.NoEmptyList ((start processTokens).handleAll run).kvPool := by
  induction run using List.reverseRecOn with
  | nil => exact fun k metas hk => nomatch hk
  | append_singleton run m ih =>
    rw [handleAll_snoc]
    exact noEmptyList_handle ih m

/-- The stock lookup does not raise. -/
theorem upstreamLoop_ok {kvPool : KVPool κ ι} (h : KVPool.NoEmptyList kvPool) (chunks : List (Chunk κ))
    (layoutInfo : LayoutInfo ι) : ∃ r, upstreamLoop kvPool chunks layoutInfo = .ok r := by
  induction chunks generalizing layoutInfo with
  | nil => exact ⟨layoutInfo, rfl⟩
  | cons chunk chunks ih =>
    rw [upstreamLoop]
    cases hk : kvPool.get? chunk.key with
    | none => exact ⟨layoutInfo, rfl⟩
    | some metas =>
      obtain ⟨m, ms, rfl⟩ := h.exists_cons hk
      exact ih _

/-! ### The first key -/

/-- The instance that the first chunk's list names first. -/
def firstHolder (kvPool : KVPool κ ι) (chunks : List (Chunk κ)) : Option ι :=
  (chunks.head?.bind fun chunk => (kvPool.get? chunk.key).bind List.head?).map (·.instanceId)

/-- The walk never moves a key. -/
theorem keys_prefix_lookupLoop (kvPool : KVPool κ ι) (chunks : List (Chunk κ))
    (contiguous : Option (List ι)) (layoutInfo : LayoutInfo ι) :
    layoutInfo.keys <+: (lookupLoop kvPool chunks contiguous layoutInfo).keys := by
  induction chunks generalizing contiguous layoutInfo with
  | nil => exact List.prefix_rfl
  | cons chunk chunks ih =>
    rw [lookupLoop]
    cases kvPool.get? chunk.key with
    | none => exact List.prefix_rfl
    | some metas =>
      dsimp only
      split_ifs
      · exact List.prefix_rfl
      · exact (Dict.keys_prefix_update _ _).trans (ih _ _)

/-- The stock walk never moves a key either. -/
theorem keys_prefix_upstreamLoop (kvPool : KVPool κ ι) (chunks : List (Chunk κ))
    (layoutInfo r : LayoutInfo ι) (h : upstreamLoop kvPool chunks layoutInfo = .ok r) :
    layoutInfo.keys <+: r.keys := by
  induction chunks generalizing layoutInfo with
  | nil =>
    obtain rfl : layoutInfo = r := by simpa [upstreamLoop] using h
    exact List.prefix_rfl
  | cons chunk chunks ih =>
    rw [upstreamLoop] at h
    cases hk : kvPool.get? chunk.key with
    | none =>
      rw [hk] at h
      obtain rfl : layoutInfo = r := by simpa using h
      exact List.prefix_rfl
    | some metas =>
      rw [hk] at h
      cases metas with
      | nil => simp [pyGet] at h
      | cons m ms => exact (Dict.keys_prefix_set layoutInfo _ _).trans (ih _ h)

omit [DecidableEq ι] in
/-- A map that was filled from a first key on begins with that key. -/
theorem head?_of_isPrefix {ks ks' : List ι} (h : ks <+: ks') (hne : ks ≠ []) : ks'.head? = ks.head? := by
  obtain ⟨t, rfl⟩ := h
  rw [List.head?_append_of_ne_nil _ hne]

theorem selectedInstance_lookup {c : KVController ι κ τ} (h : KVPool.NoEmptyList c.kvPool)
    (msg : LookupMsg τ) :
    Kvaware.selectedInstance (c.lookup msg).layoutInfo =
      firstHolder c.kvPool (c.processTokens msg.tokens) := by
  unfold Kvaware.selectedInstance lookup firstHolder
  cases hchunks : c.processTokens msg.tokens with
  | nil => rfl
  | cons chunk chunks =>
    dsimp only
    rw [lookupLoop]
    cases hk : c.kvPool.get? chunk.key with
    | none => simp [hk]
    | some metas =>
      obtain ⟨m, ms, rfl⟩ := h.exists_cons hk
      have hfirst : (holders none (m :: ms)).keys.head? = some m.instanceId := by
        have hall : ∀ n ∈ m :: ms, decide (StillContiguous none n.instanceId) = true :=
          fun n _ => decide_eq_true (stillContiguous_none n.instanceId)
        rw [holders_eq, Dict.keys_head?_setdefaults, List.filter_eq_self.mpr hall]
        rfl
      have hne : (holders none (m :: ms)).keys ≠ [] := by
        intro hnil
        rw [hnil] at hfirst
        cases hfirst
      dsimp only
      rw [if_neg hne]
      have hkeys : ((∅ : LayoutInfo ι).update
          ((holders none (m :: ms)).items.map fun p => (p.1, (p.2, (chunk.stop : ℤ))))).keys =
          (holders none (m :: ms)).keys := by
        rw [Dict.keys_update_of_nodup (by rw [List.map_map]; exact Dict.nodup _), Dict.keys_empty,
          List.nil_append, List.filter_eq_self.mpr (by simp), List.map_map]
        rfl
      rw [head?_of_isPrefix (keys_prefix_lookupLoop _ _ _ _) (by rw [hkeys]; exact hne), hkeys, hfirst]
      simp [hk]

theorem selectedInstance_upstreamLookup {c : KVController ι κ τ} {tokens : List τ} {r : LayoutInfo ι}
    (hr : c.upstreamLookup tokens = .ok r) (h : KVPool.NoEmptyList c.kvPool) :
    Kvaware.selectedInstance r = firstHolder c.kvPool (c.processTokens tokens) := by
  unfold upstreamLookup at hr
  unfold Kvaware.selectedInstance firstHolder
  cases hchunks : c.processTokens tokens with
  | nil =>
    obtain rfl : ∅ = r := by simpa [hchunks, upstreamLoop] using hr
    rfl
  | cons chunk chunks =>
    rw [hchunks, upstreamLoop] at hr
    cases hk : c.kvPool.get? chunk.key with
    | none =>
      rw [hk] at hr
      obtain rfl : ∅ = r := by simpa using hr
      simp [hk]
    | some metas =>
      obtain ⟨m, ms, rfl⟩ := h.exists_cons hk
      rw [hk] at hr
      have hkeys : ((∅ : LayoutInfo ι).set m.instanceId (m.location, (chunk.stop : ℤ))).keys = [m.instanceId] :=
        Dict.keys_set_of_not_mem _ (Dict.not_mem_empty _)
      rw [head?_of_isPrefix (keys_prefix_upstreamLoop _ _ _ _ hr) (by rw [hkeys]; exact List.cons_ne_nil _ _), hkeys]
      simp [hk]

/-! ### One instance first throughout -/

/-- The instance is the first metadata of every chunk key up to the first missing key. -/
def FirstThroughout (kvPool : KVPool κ ι) (x : ι) (chunks : List (Chunk κ)) : Prop :=
  ∀ chunk ∈ chunks.takeWhile (·.key ∈ kvPool),
    ∃ m, (kvPool.get? chunk.key).bind List.head? = some m ∧ m.instanceId = x

/-- The stock walk credits such an instance as the patched one does. -/
theorem upstreamLoop_get? {kvPool : KVPool κ ι} {x : ι} (chunks : List (Chunk κ))
    (hx : FirstThroughout kvPool x chunks) (layoutInfo r : LayoutInfo ι)
    (h : upstreamLoop kvPool chunks layoutInfo = .ok r) :
    r.get? x = (credit kvPool x chunks).or (layoutInfo.get? x) := by
  induction chunks generalizing layoutInfo with
  | nil =>
    obtain rfl : layoutInfo = r := by simpa [upstreamLoop] using h
    rfl
  | cons chunk chunks ih =>
    rw [upstreamLoop] at h
    cases hk : kvPool.get? chunk.key with
    | none =>
      rw [hk] at h
      obtain rfl : layoutInfo = r := by simpa using h
      rw [credit_cons_of_none (by simp [locationOf, hk]), Option.none_or]
    | some metas =>
      have hmem : chunk.key ∈ kvPool := Dict.mem_of_get? hk
      have htake : (chunk :: chunks).takeWhile (·.key ∈ kvPool) =
          chunk :: chunks.takeWhile (·.key ∈ kvPool) := List.takeWhile_cons_of_pos (by simpa using hmem)
      obtain ⟨m, hm, rfl⟩ := hx chunk (htake ▸ List.mem_cons_self)
      obtain ⟨ms, rfl⟩ : ∃ ms, metas = m :: ms := by
        rw [hk] at hm
        exact List.head?_eq_some_iff.mp hm
      have hloc : locationOf kvPool chunk.key m.instanceId = some m.location := by simp [locationOf, hk]
      have htail : FirstThroughout kvPool m.instanceId chunks :=
        fun c hc => hx c (htake ▸ List.mem_cons_of_mem _ hc)
      rw [hk] at h
      rw [ih htail _ h, Dict.get?_set_self, credit_cons_of_some hloc, Option.or_assoc]
      rfl

/-- **The patched lookup is compatible with the stock one**: both maps are empty
together, they have the same first key, and an instance that comes first throughout
has the same entry in both, so `kvaware` takes the same branch there. -/
theorem lookup_compatible_with_upstream (c : KVController ι κ τ) (h : KVPool.NoEmptyList c.kvPool)
    (msg : LookupMsg τ) :
    ∃ stock, c.upstreamLookup msg.tokens = .ok stock ∧
      ((c.lookup msg).layoutInfo.keys = [] ↔ stock.keys = []) ∧
      Kvaware.selectedInstance (c.lookup msg).layoutInfo = Kvaware.selectedInstance stock ∧
      ∀ x, FirstThroughout c.kvPool x (c.processTokens msg.tokens) →
        (c.lookup msg).layoutInfo.get? x = stock.get? x ∧
        ∀ promptTokens threshold,
          Kvaware.FallsBack (c.lookup msg).layoutInfo promptTokens threshold ↔
            Kvaware.FallsBack stock promptTokens threshold := by
  obtain ⟨stock, hstock⟩ := upstreamLoop_ok h (c.processTokens msg.tokens) ∅
  have hsel : Kvaware.selectedInstance (c.lookup msg).layoutInfo = Kvaware.selectedInstance stock := by
    rw [selectedInstance_lookup h, selectedInstance_upstreamLookup hstock h]
  refine ⟨stock, hstock, ?_, hsel, fun x hx => ?_⟩
  · unfold Kvaware.selectedInstance at hsel
    rw [← List.head?_eq_none_iff, ← List.head?_eq_none_iff, hsel]
  · have hget : (c.lookup msg).layoutInfo.get? x = stock.get? x := by
      rw [lookup_get?, upstreamLoop_get? _ hx _ _ hstock, Dict.get?_empty, Option.or_none]
    refine ⟨hget, Kvaware.fallsBack_congr hsel fun i hi => ?_⟩
    -- the selected instance is the first holder, which is `x`
    obtain rfl : i = x := by
      rw [selectedInstance_lookup h] at hi
      cases hchunks : c.processTokens msg.tokens with
      | nil => simp [hchunks, firstHolder] at hi
      | cons chunk chunks =>
        rw [hchunks] at hi hx
        cases hk : c.kvPool.get? chunk.key with
        | none => simp [firstHolder, hk] at hi
        | some metas =>
          have hmem : chunk.key ∈ c.kvPool := Dict.mem_of_get? hk
          obtain ⟨m, hm, rfl⟩ := hx chunk (by
            rw [List.takeWhile_cons_of_pos (by simpa using hmem)]
            exact List.mem_cons_self)
          simpa [firstHolder, hm, eq_comm] using hi
    exact hget

/-- The first chunk is held by two instances, the second by one of them, the third by none. -/
def twoHolders : KVController String ℕ ℕ where
  kvPool := Dict.ofList [(0, [⟨"x", 0, "cpu"⟩, ⟨"y", 0, "cpu"⟩]), (1, [⟨"x", 1, "disk"⟩])]
  processTokens _ := [⟨0, 16, 0⟩, ⟨16, 32, 1⟩, ⟨32, 40, 2⟩]

theorem lookup_compatible_with_upstream_twoHolders :
    ∃ stock, twoHolders.upstreamLookup [] = .ok stock ∧
      ((twoHolders.lookup ⟨"e", []⟩).layoutInfo.keys = [] ↔ stock.keys = []) ∧
      Kvaware.selectedInstance (twoHolders.lookup ⟨"e", []⟩).layoutInfo = Kvaware.selectedInstance stock ∧
      ∀ x, FirstThroughout twoHolders.kvPool x (twoHolders.processTokens []) →
        (twoHolders.lookup ⟨"e", []⟩).layoutInfo.get? x = stock.get? x ∧
        ∀ promptTokens threshold,
          Kvaware.FallsBack (twoHolders.lookup ⟨"e", []⟩).layoutInfo promptTokens threshold ↔
            Kvaware.FallsBack stock promptTokens threshold :=
  lookup_compatible_with_upstream twoHolders (KVPool.noEmptyList_iff.mpr (by decide)) ⟨"e", []⟩

end KVController

end CachingInLLMs.Controller

import CachingInLLMs.Controller.KVController
import Mathlib.Data.List.TakeWhile
import Mathlib.Order.Bounds.Basic

/-!
# What `lookup` reports

`lookup` threads two structures through the chunks, but what it reports about one
instance depends on that instance alone: it follows the instance from the first
chunk to its first gap (`matchedChunks`) and credits it with the last chunk before
the gap (`credit`). `lookup_get?` says so, for any pool and any chunks; the other
instances do not matter, and the two early exits of the loop change nothing.
-/

namespace CachingInLLMs.Controller

open CachingInLLMs.Library

namespace KVController

variable {ι κ τ : Type} [DecidableEq ι] [DecidableEq κ]

/-- Where the pool has the instance's first metadata for the key, if anywhere. -/
def locationOf (kvPool : KVPool κ ι) (k : κ) (i : ι) : Option String :=
  (((kvPool.get? k).getD []).find? (·.instanceId = i)).map (·.location)

/-- The chunks before the instance's first gap. -/
def matchedChunks (kvPool : KVPool κ ι) (i : ι) (chunks : List (Chunk κ)) : List (Chunk κ) :=
  chunks.takeWhile fun chunk => (locationOf kvPool chunk.key i).isSome

/-- The credit of an instance: the last chunk before its first gap. -/
def credit (kvPool : KVPool κ ι) (i : ι) (chunks : List (Chunk κ)) : Option (String × ℤ) :=
  (matchedChunks kvPool i chunks).getLast?.bind fun chunk =>
    (locationOf kvPool chunk.key i).map fun location => (location, (chunk.stop : ℤ))

/-- The pool has a location for an instance exactly when it has metadata of the instance. -/
theorem locationOf_isSome {kvPool : KVPool κ ι} {k : κ} {i : ι} :
    (locationOf kvPool k i).isSome ↔ ∃ m ∈ (kvPool.get? k).getD [], m.instanceId = i := by
  simp [locationOf]

/-- The pool has a location for the instance on every matched chunk. -/
theorem exists_locationOf {kvPool : KVPool κ ι} {i : ι} {chunks : List (Chunk κ)} {chunk : Chunk κ}
    (h : chunk ∈ matchedChunks kvPool i chunks) : ∃ location, locationOf kvPool chunk.key i = some location := by
  unfold matchedChunks at h
  have := List.mem_takeWhile_imp h
  exact Option.isSome_iff_exists.mp this

/-! ### The holders of a chunk -/

omit [DecidableEq κ] in
/-- Skipping the instances that have diverged, then keeping the first of each. -/
theorem holders_eq (contiguous : Option (List ι)) (metas : List (KVChunkMetadata ι)) :
    holders contiguous metas =
      (∅ : Dict ι String).setdefaults
        ((metas.filter fun m => StillContiguous contiguous m.instanceId).map
          fun m => (m.instanceId, m.location)) := by
  unfold holders Dict.setdefaults
  rw [List.foldl_map, List.foldl_filter]
  congr 1
  funext h m
  by_cases hm : StillContiguous contiguous m.instanceId <;> simp [hm]

omit [DecidableEq κ] in
theorem lookup_holders_pairs (contiguous : Option (List ι)) (metas : List (KVChunkMetadata ι)) (i : ι) :
    ((metas.filter fun m => StillContiguous contiguous m.instanceId).map
        fun m => (m.instanceId, m.location)).lookup i =
      if StillContiguous contiguous i then (metas.find? (·.instanceId = i)).map (·.location) else none := by
  induction metas with
  | nil => simp
  | cons m metas ih =>
    by_cases hi : i = m.instanceId
    · subst hi
      by_cases hm : StillContiguous contiguous m.instanceId
      · simp [hm]
      · rw [List.filter_cons_of_neg (by simpa using hm), ih]
        simp [hm]
    · by_cases hm : StillContiguous contiguous m.instanceId
      · rw [List.filter_cons_of_pos (by simpa using hm), List.map_cons, List.lookup_cons,
          beq_eq_false_iff_ne.mpr hi, ih]
        simp [Ne.symm hi]
      · rw [List.filter_cons_of_neg (by simpa using hm), ih]
        simp [Ne.symm hi]

omit [DecidableEq κ] in
@[simp] theorem holders_get? (contiguous : Option (List ι)) (metas : List (KVChunkMetadata ι)) (i : ι) :
    (holders contiguous metas).get? i =
      if StillContiguous contiguous i then (metas.find? (·.instanceId = i)).map (·.location) else none := by
  rw [holders_eq, Dict.get?_setdefaults, Dict.get?_empty, Option.none_or, lookup_holders_pairs]

omit [DecidableEq κ] in
/-- Crediting the holders of a chunk. -/
theorem update_holders_get? (found : Dict ι String) (stop : ℕ) (layoutInfo : LayoutInfo ι) (i : ι) :
    (layoutInfo.update (found.items.map fun p => (p.1, (p.2, (stop : ℤ))))).get? i =
      ((found.get? i).map fun location => (location, (stop : ℤ))).or (layoutInfo.get? i) := by
  have hitems : found.items.map (fun p => (p.1, (p.2, (stop : ℤ)))) =
      (found.mapValues fun location => (location, (stop : ℤ))).items := rfl
  rw [hitems, Dict.get?_update_of_nodup (Dict.nodup _), ← Dict.get?_mapValues]
  rfl

/-! ### The loop -/

theorem matchedChunks_cons_of_isSome {kvPool : KVPool κ ι} {i : ι} {chunk : Chunk κ}
    (h : (locationOf kvPool chunk.key i).isSome) (chunks : List (Chunk κ)) :
    matchedChunks kvPool i (chunk :: chunks) = chunk :: matchedChunks kvPool i chunks := List.takeWhile_cons_of_pos h

theorem matchedChunks_cons_of_not_isSome {kvPool : KVPool κ ι} {i : ι} {chunk : Chunk κ}
    (h : ¬ (locationOf kvPool chunk.key i).isSome) (chunks : List (Chunk κ)) :
    matchedChunks kvPool i (chunk :: chunks) = [] := List.takeWhile_cons_of_neg h

theorem credit_cons_of_some {kvPool : KVPool κ ι} {i : ι} {chunk : Chunk κ} {location : String}
    (h : locationOf kvPool chunk.key i = some location) (chunks : List (Chunk κ)) :
    credit kvPool i (chunk :: chunks) = (credit kvPool i chunks).or (some (location, (chunk.stop : ℤ))) := by
  have hsome : (locationOf kvPool chunk.key i).isSome := Option.isSome_of_eq_some h
  unfold credit
  rw [matchedChunks_cons_of_isSome hsome, List.getLast?_cons]
  cases hl : (matchedChunks kvPool i chunks).getLast? with
  | none => simp [h]
  | some last =>
    obtain ⟨l, hloc⟩ := exists_locationOf (List.mem_of_getLast? hl)
    simp [hloc]

theorem credit_cons_of_none {kvPool : KVPool κ ι} {i : ι} {chunk : Chunk κ}
    (h : locationOf kvPool chunk.key i = none) (chunks : List (Chunk κ)) :
    credit kvPool i (chunk :: chunks) = none := by
  rw [credit, matchedChunks_cons_of_not_isSome (by simp [h])]
  rfl

/-- The invariant of the loop: an instance still matching is credited with what it
matches of the remaining chunks; the others keep what they have. -/
theorem lookupLoop_get? (kvPool : KVPool κ ι) (chunks : List (Chunk κ)) (contiguous : Option (List ι))
    (layoutInfo : LayoutInfo ι) (i : ι) :
    (lookupLoop kvPool chunks contiguous layoutInfo).get? i =
      if StillContiguous contiguous i then (credit kvPool i chunks).or (layoutInfo.get? i)
      else layoutInfo.get? i := by
  induction chunks generalizing contiguous layoutInfo with
  | nil => simp [lookupLoop, credit, matchedChunks]
  | cons chunk chunks ih =>
    have hloc : ∀ metas, kvPool.get? chunk.key = some metas →
        locationOf kvPool chunk.key i = (metas.find? (·.instanceId = i)).map (·.location) := by
      intro metas hmetas
      rw [locationOf, hmetas, Option.getD_some]
    rw [lookupLoop]
    cases hmetas : kvPool.get? chunk.key with
    | none =>
      -- nobody holds the chunk
      have hnone : locationOf kvPool chunk.key i = none := by simp [locationOf, hmetas]
      simp [credit_cons_of_none hnone]
    | some metas =>
      dsimp only
      have hfound := holders_get? contiguous metas i
      rw [← hloc metas hmetas] at hfound
      split_ifs with hempty hi hi
      · -- no instance still matching holds the chunk, `i` among them
        have hnone : locationOf kvPool chunk.key i = none := by
          rw [if_pos hi] at hfound
          rw [← hfound, Dict.get?_eq_none, ← Dict.mem_keys, hempty]
          exact List.not_mem_nil
        simp [credit_cons_of_none hnone]
      · rfl
      · rw [if_pos hi] at hfound
        rw [ih, update_holders_get?, hfound]
        cases hl : locationOf kvPool chunk.key i with
        | none =>
          have hout : ¬ StillContiguous (some (holders contiguous metas).keys) i := by
            rw [hl, Dict.get?_eq_none] at hfound
            exact fun h => hfound (h _ rfl)
          simp [hout, credit_cons_of_none hl]
        | some location =>
          have hin : StillContiguous (some (holders contiguous metas).keys) i := by
            rw [hl] at hfound
            intro c hc
            exact Option.some.inj hc ▸ Dict.mem_of_get? hfound
          rw [if_pos hin, credit_cons_of_some hl, Option.or_assoc]
          rfl
      · rw [if_neg hi] at hfound
        have hout : ¬ StillContiguous (some (holders contiguous metas).keys) i := by
          rw [Dict.get?_eq_none] at hfound
          exact fun h => hfound (h _ rfl)
        rw [ih, if_neg hout, update_holders_get?, hfound]
        rfl

/-- **Each instance is credited with the last chunk before its first gap**, whatever
the other instances hold. -/
theorem lookup_get? (c : KVController ι κ τ) (msg : LookupMsg τ) (i : ι) :
    (c.lookup msg).layoutInfo.get? i = credit c.kvPool i (c.processTokens msg.tokens) := by
  rw [lookup, lookupLoop_get?, if_pos (stillContiguous_none i), Dict.get?_empty, Option.or_none]

/-- The number of tokens of a credit is the end of the last matched chunk. -/
theorem credit_map_snd (kvPool : KVPool κ ι) (i : ι) (chunks : List (Chunk κ)) :
    (credit kvPool i chunks).map Prod.snd =
      (matchedChunks kvPool i chunks).getLast?.map fun chunk => (chunk.stop : ℤ) := by
  unfold credit
  cases hl : (matchedChunks kvPool i chunks).getLast? with
  | none => rfl
  | some last =>
    obtain ⟨l, hloc⟩ := exists_locationOf (List.mem_of_getLast? hl)
    simp [hloc]

/-! ### The gap, by index -/

/-- The pool has metadata of the instance under the key. -/
def HasEntry (kvPool : KVPool κ ι) (i : ι) (k : κ) : Prop := ∃ m ∈ (kvPool.get? k).getD [], m.instanceId = i

/-- The instance's first metadata in the list of the key. -/
def FirstEntry (kvPool : KVPool κ ι) (i : ι) (k : κ) (m : KVChunkMetadata ι) : Prop :=
  ∃ before after, kvPool.get? k = some (before ++ m :: after) ∧ m.instanceId = i ∧
    ∀ m' ∈ before, m'.instanceId ≠ i

/-- The instance has metadata under the keys of all chunks up to number `k`. -/
def HoldsThrough (kvPool : KVPool κ ι) (i : ι) (chunks : List (Chunk κ)) (k : ℕ) : Prop :=
  ∀ j ≤ k, ∃ chunk, chunks[j]? = some chunk ∧ HasEntry kvPool i chunk.key

theorem locationOf_eq_some {kvPool : KVPool κ ι} {i : ι} {k : κ} {location : String} :
    locationOf kvPool k i = some location ↔ ∃ m, FirstEntry kvPool i k m ∧ location = m.location := by
  rw [locationOf, Option.map_eq_some_iff]
  refine exists_congr fun m => ?_
  rw [List.find?_eq_some_iff_append, FirstEntry]
  constructor
  · rintro ⟨⟨hm, before, after, hmetas, hbefore⟩, rfl⟩
    refine ⟨⟨before, after, ?_, of_decide_eq_true hm, fun m' hm' => ?_⟩, rfl⟩
    · cases hget : kvPool.get? k with
      | none => simp [hget] at hmetas
      | some metas => rw [← hmetas, hget, Option.getD_some]
    · simpa using hbefore m' hm'
  · rintro ⟨⟨before, after, hmetas, hm, hbefore⟩, rfl⟩
    refine ⟨⟨decide_eq_true hm, before, after, ?_, fun m' hm' => ?_⟩, rfl⟩
    · rw [hmetas, Option.getD_some]
    · simpa using hbefore m' hm'

/-- The matched chunks are those up to the last number through which the instance holds. -/
theorem lt_length_matchedChunks {kvPool : KVPool κ ι} {i : ι} {chunks : List (Chunk κ)} {k : ℕ} :
    k < (matchedChunks kvPool i chunks).length ↔ HoldsThrough kvPool i chunks k := by
  induction chunks generalizing k with
  | nil =>
    constructor
    · exact fun h => absurd h (Nat.not_lt_zero k)
    · intro h
      obtain ⟨chunk, hchunk, -⟩ := h 0 (Nat.zero_le k)
      exact nomatch hchunk
  | cons chunk chunks ih =>
    by_cases hfirst : HasEntry kvPool i chunk.key
    · have hsome : (locationOf kvPool chunk.key i).isSome := locationOf_isSome.mpr hfirst
      rw [matchedChunks_cons_of_isSome hsome, List.length_cons]
      cases k with
      | zero =>
        refine ⟨fun _ j hj => ?_, fun _ => Nat.succ_pos _⟩
        obtain rfl := Nat.le_zero.mp hj
        exact ⟨chunk, rfl, hfirst⟩
      | succ k =>
        rw [Nat.succ_lt_succ_iff]
        refine ih.trans ⟨fun h j hj => ?_, fun h j hj => h (j + 1) (Nat.succ_le_succ hj)⟩
        cases j with
        | zero => exact ⟨chunk, rfl, hfirst⟩
        | succ j => exact h j (Nat.le_of_succ_le_succ hj)
    · have hnone : ¬ (locationOf kvPool chunk.key i).isSome := fun h => hfirst (locationOf_isSome.mp h)
      rw [matchedChunks_cons_of_not_isSome hnone]
      constructor
      · exact fun h => absurd h (Nat.not_lt_zero k)
      · intro h
        obtain ⟨chunk', hchunk', hentry⟩ := h 0 (Nat.zero_le k)
        obtain rfl : chunk = chunk' := Option.some.inj hchunk'
        exact absurd hentry hfirst

/-- The last matched chunk. -/
theorem getLast?_matchedChunks {kvPool : KVPool κ ι} {i : ι} {chunks : List (Chunk κ)} {chunk : Chunk κ} :
    (matchedChunks kvPool i chunks).getLast? = some chunk ↔
      ∃ k, IsGreatest {k | HoldsThrough kvPool i chunks k} k ∧ chunks[k]? = some chunk := by
  have hget : ∀ k, k < (matchedChunks kvPool i chunks).length → (matchedChunks kvPool i chunks)[k]? = chunks[k]? := by
    intro k hk
    obtain ⟨rest, hrest⟩ := List.takeWhile_prefix (l := chunks) fun chunk => (locationOf kvPool chunk.key i).isSome
    rw [← List.getElem?_append_left hk]
    exact congrArg (·[k]?) hrest
  rw [List.getLast?_eq_getElem?]
  constructor
  · intro h
    have hlt := (List.getElem?_eq_some_iff.mp h).1
    refine ⟨(matchedChunks kvPool i chunks).length - 1, ⟨lt_length_matchedChunks.mp hlt, fun k hk => ?_⟩, ?_⟩
    · have := lt_length_matchedChunks.mpr hk
      omega
    · rw [← hget _ hlt, h]
  · rintro ⟨k, ⟨hk, hmax⟩, hchunk⟩
    have hlt := lt_length_matchedChunks.mpr hk
    have hlast : (matchedChunks kvPool i chunks).length - 1 ≤ k :=
      hmax (lt_length_matchedChunks.mp (by omega))
    rw [show (matchedChunks kvPool i chunks).length - 1 = k by omega, hget k hlt, hchunk]

theorem credit_eq_some {kvPool : KVPool κ ι} {i : ι} {chunks : List (Chunk κ)} {location : String} {count : ℤ} :
    credit kvPool i chunks = some (location, count) ↔
      ∃ k chunk m, IsGreatest {k | HoldsThrough kvPool i chunks k} k ∧ chunks[k]? = some chunk ∧
        FirstEntry kvPool i chunk.key m ∧ location = m.location ∧ count = chunk.stop := by
  rw [credit, Option.bind_eq_some_iff]
  constructor
  · rintro ⟨chunk, hlast, hcredit⟩
    obtain ⟨k, hk, hchunk⟩ := getLast?_matchedChunks.mp hlast
    obtain ⟨location', hlocation, hpair⟩ := Option.map_eq_some_iff.mp hcredit
    obtain ⟨m, hm, rfl⟩ := locationOf_eq_some.mp hlocation
    cases hpair
    exact ⟨k, chunk, m, hk, hchunk, hm, rfl, rfl⟩
  · rintro ⟨k, chunk, m, hk, hchunk, hm, rfl, rfl⟩
    refine ⟨chunk, getLast?_matchedChunks.mpr ⟨k, hk, hchunk⟩, ?_⟩
    rw [locationOf_eq_some.mpr ⟨m, hm, rfl⟩, Option.map_some]

/-- The instances with a credit are those with metadata under the first key. -/
theorem credit_isSome {kvPool : KVPool κ ι} {i : ι} {chunks : List (Chunk κ)} :
    (credit kvPool i chunks).isSome ↔ ∃ chunk, chunks.head? = some chunk ∧ HasEntry kvPool i chunk.key := by
  cases chunks with
  | nil => simp [credit, matchedChunks]
  | cons chunk chunks =>
    by_cases hfirst : HasEntry kvPool i chunk.key
    · obtain ⟨location, hlocation⟩ := Option.isSome_iff_exists.mp (locationOf_isSome.mpr hfirst)
      rw [credit_cons_of_some hlocation]
      simp [hfirst]
    · have hnone : locationOf kvPool chunk.key i = none := by
        rw [← Option.not_isSome_iff_eq_none]
        exact fun h => hfirst (locationOf_isSome.mp h)
      rw [credit_cons_of_none hnone]
      simp [hfirst]

/-- **What `lookup` reports about an instance.** It reports the instances that hold the
first chunk, and each with the last chunk before the instance's first gap: the location is
that of its first metadata in the list of this chunk, the count is the end of this chunk
and so within the prompt. -/
theorem lookup_reports_up_to_gap (c : KVController ι κ τ) (msg : LookupMsg τ)
    (hstop : ∀ chunk ∈ c.processTokens msg.tokens, 1 ≤ chunk.stop ∧ chunk.stop ≤ msg.tokens.length) (i : ι) :
    (i ∈ (c.lookup msg).layoutInfo ↔
      ∃ chunk, (c.processTokens msg.tokens).head? = some chunk ∧ HasEntry c.kvPool i chunk.key) ∧
    (∀ location count, (c.lookup msg).layoutInfo.get? i = some (location, count) ↔
      ∃ k chunk m, IsGreatest {k | HoldsThrough c.kvPool i (c.processTokens msg.tokens) k} k ∧
        (c.processTokens msg.tokens)[k]? = some chunk ∧ FirstEntry c.kvPool i chunk.key m ∧
        location = m.location ∧ count = chunk.stop) ∧
    ∀ location count, (c.lookup msg).layoutInfo.get? i = some (location, count) →
      1 ≤ count ∧ count ≤ msg.tokens.length := by
  rw [← Dict.get?_isSome, lookup_get?]
  refine ⟨credit_isSome, fun _ _ => credit_eq_some, fun location count hcredit => ?_⟩
  obtain ⟨k, chunk, m, -, hchunk, -, -, rfl⟩ := credit_eq_some.mp hcredit
  obtain ⟨hone, hlength⟩ := hstop chunk (List.mem_of_getElem? hchunk)
  exact ⟨by exact_mod_cast hone, by exact_mod_cast hlength⟩

/-- A pool in which one instance holds both chunks of a prompt, the second under two
locations, and another only the first. -/
def twoChunkController : KVController String ℕ ℕ where
  kvPool := Dict.ofList
    [(0, [⟨"b", 0, "cpu"⟩, ⟨"a", 0, "cpu"⟩]), (1, [⟨"a", 1, "disk"⟩, ⟨"a", 0, "cpu"⟩])]
  processTokens _ := [⟨0, 2, 0⟩, ⟨2, 3, 1⟩]

/-- The counts reported about the first instance of that pool are within the prompt. -/
theorem lookup_reports_up_to_gap_twoChunks :
    (twoChunkController.lookup ⟨"", [7, 8, 9]⟩).layoutInfo.get? "a" = some ("disk", 3) ∧ (1 ≤ (3 : ℤ) ∧ (3 : ℤ) ≤ 3) :=
  have hget : (twoChunkController.lookup ⟨"", [7, 8, 9]⟩).layoutInfo.get? "a" = some ("disk", 3) := by decide +kernel
  ⟨hget, (lookup_reports_up_to_gap twoChunkController ⟨"", [7, 8, 9]⟩ (by decide) "a").2.2 _ _ hget⟩

end KVController

end CachingInLLMs.Controller

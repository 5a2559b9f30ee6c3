import CachingInLLMs.Controller.Registry

/-!
# Peers to fetch from

A worker that misses chunks asks the Controller for another instance that has them.
`batched_p2p_lookup` walks the keys in order. For each it takes the first metadata of
another instance than the asker, and it stops where that is no longer the instance and
the location it started with. The reply names this peer, how many keys it got through,
and the peer's URL.

Which peer is first depends on the order of admissions, not only on what is live:
`surviving` lists the admits of a run that no later evict undid, and `kv_pool` is that
list, by key (`getD_handleAll`).

## The model

`instance_id == ""` stands for "no peer yet", so instance ids are strings here.
`reg_controller.get_distributed_url` is not part of the repository; it is a parameter.

## What is proved

* `batchedP2pLookup_peer`: what the reply is after any run of messages.
* `batchedP2pLookup_le_lookup`: the peer does hold what the reply promises, and `lookup`
  credits it with no less; with one peer at one location the two agree.
-/

namespace CachingInLLMs.Controller

open CachingInLLMs.Library

variable {ι κ τ : Type}

/-- `BatchedP2PLookupMsg`. -/
structure BatchedP2PLookupMsg (κ : Type) where
  /-- `hashes`. -/
  hashes : List κ
  /-- `instance_id`: the asker. -/
  instanceId : String
  /-- `worker_id`. -/
  workerId : ℤ

/-- The entry of `layout_info` of a `BatchedP2PLookupRetMsg`. -/
structure PeerLayout where
  /-- The peer. -/
  instanceId : String
  /-- Where it keeps the chunks. -/
  location : String
  /-- How many of the keys it has. -/
  numHitChunks : ℕ
  /-- Its URL. -/
  peerInitUrl : Option String
  deriving DecidableEq

/-- No peer. -/
def PeerLayout.none : PeerLayout := ⟨"", "", 0, some ""⟩

namespace KVController

section Lookup

variable [DecidableEq κ] (getDistributedUrl : String → ℤ → Option String)

/-- The metadata that is matched for a key: the first of another instance. -/
def matchedKvChunkMeta (queryInstanceId : String) (metas : List (KVChunkMetadata String)) :
    Option (KVChunkMetadata String) :=
  metas.find? fun m => m.instanceId ≠ queryInstanceId

/-- The loop of `batched_p2p_lookup` over the keys. -/
def batchedP2pLoop (kvPool : KVPool κ String) (queryInstanceId : String) (workerId : ℤ) :
    List κ → PeerLayout → PeerLayout
  | [], found => found
  | key :: hashes, found =>
    match kvPool.get? key with
    | none => found
    | some metas =>
      match matchedKvChunkMeta queryInstanceId metas with
      | none => found
      | some m =>
        if found.instanceId ≠ "" ∧ (found.instanceId ≠ m.instanceId ∨ found.location ≠ m.location) then found
        else
          let found := if found.instanceId = "" then
              { found with
                instanceId := m.instanceId
                location := m.location
                peerInitUrl := getDistributedUrl m.instanceId workerId }
            else found
          batchedP2pLoop kvPool queryInstanceId workerId hashes
            { found with numHitChunks := found.numHitChunks + 1 }

/-- `batched_p2p_lookup`. -/
def batchedP2pLookup (c : KVController String κ τ) (msg : BatchedP2PLookupMsg κ) : PeerLayout :=
  batchedP2pLoop getDistributedUrl c.kvPool msg.instanceId msg.workerId msg.hashes .none

end Lookup

end KVController

/-! ### The order of the pool -/

section Surviving

variable [DecidableEq ι] [DecidableEq κ]

/-- The admits that no later evict undid, in order. -/
def surviving : List (Msg ι κ) → List (KVMsg ι κ)
  | [] => []
  | .kvAdmit msg :: run => if .kvEvict msg ∈ run then surviving run else msg :: surviving run
  | .kvEvict _ :: run => surviving run

theorem surviving_snoc_kvAdmit (run : List (Msg ι κ)) (msg : KVMsg ι κ) :
    surviving (run ++ [.kvAdmit msg]) = surviving run ++ [msg] := by
  induction run with
  | nil => simp [surviving]
  | cons m run ih =>
    cases m with
    | kvEvict msg' => exact ih
    | kvAdmit msg' =>
      rw [List.cons_append, surviving, surviving, ih]
      by_cases h : .kvEvict msg' ∈ run
      · simp [h]
      · simp [h]

theorem surviving_snoc_kvEvict (run : List (Msg ι κ)) (msg : KVMsg ι κ) :
    surviving (run ++ [.kvEvict msg]) = (surviving run).filter (· ≠ msg) := by
  induction run with
  | nil => simp [surviving]
  | cons m run ih =>
    cases m with
    | kvEvict msg' => exact ih
    | kvAdmit msg' =>
      rw [List.cons_append, surviving, surviving, ih]
      by_cases h : .kvEvict msg' ∈ run
      · simp [h]
      · by_cases hmsg : msg' = msg
        · subst hmsg
          simp [h]
        · simp [h, hmsg]

/-- What survives is what is live. -/
theorem mem_surviving {run : List (Msg ι κ)} {t : KVMsg ι κ} : t ∈ surviving run ↔ Live run t := by
  induction run using List.reverseRecOn with
  | nil => simp [surviving]
  | append_singleton run m ih =>
    cases m with
    | kvAdmit msg => simp [surviving_snoc_kvAdmit, live_snoc_kvAdmit, ih, or_comm]
    | kvEvict msg => simp [surviving_snoc_kvEvict, live_snoc_kvEvict, ih, and_comm]

omit [DecidableEq ι] [DecidableEq κ] in
/-- Of two messages about one key. -/
theorem metadata_eq_iff {t msg : KVMsg ι κ} (h : t.key = msg.key) : t.metadata = msg.metadata ↔ t = msg := by
  obtain ⟨i, w, k, l⟩ := t
  obtain ⟨i', w', k', l'⟩ := msg
  simp_all [KVMsg.metadata]

/-- **The pool lists what survives**, key by key and in order. -/
theorem getD_handleAll (processTokens : List τ → List (Chunk κ)) (run : List (Msg ι κ)) (k : κ) :
    ((((KVController.start processTokens).handleAll run).kvPool).get? k).getD [] =
      ((surviving run).filter (·.key = k)).map KVMsg.metadata := by
  induction run using List.reverseRecOn with
  | nil => rfl
  | append_singleton run m ih =>
    rw [KVController.handleAll_snoc]
    cases m with
    | kvAdmit msg =>
      rw [KVController.handle, KVController.admitChunk, KVController.admitPool_get?, surviving_snoc_kvAdmit,
        List.filter_append, List.map_append]
      by_cases hk : k = msg.key
      · subst hk
        simp [ih]
      · simp [ih, hk, Ne.symm hk]
    | kvEvict msg =>
      rw [KVController.handle, KVController.evictChunk, KVController.evictPool_getD, ih, surviving_snoc_kvEvict]
      by_cases hk : k = msg.key
      · subst hk
        rw [if_pos rfl, List.filter_map, List.filter_filter, List.filter_filter]
        refine congrArg _ (List.filter_congr fun t _ => ?_)
        by_cases ht : t.key = msg.key
        · simp [ht, metadata_eq_iff ht]
        · simp [ht]
      · rw [if_neg hk, List.filter_filter]
        refine congrArg _ (List.filter_congr fun t _ => ?_)
        have : t = msg → t.key ≠ k := by
          rintro rfl
          exact Ne.symm hk
        by_cases ht : t.key = k <;> by_cases hm : t = msg <;> simp_all

/-- The first admit for a key stays the first, unless it is undone. -/
theorem find?_surviving_append {run run' : List (Msg ι κ)} {k : κ} {t : KVMsg ι κ}
    (h : (surviving run).find? (·.key = k) = some t) (hkept : .kvEvict t ∉ run') :
    (surviving (run ++ run')).find? (·.key = k) = some t := by
  induction run' using List.reverseRecOn with
  | nil => rwa [List.append_nil]
  | append_singleton run' m ih =>
    rw [List.mem_append, not_or, List.mem_singleton] at hkept
    have hfirst := ih hkept.1
    rw [← List.append_assoc]
    cases m with
    | kvAdmit msg => rw [surviving_snoc_kvAdmit, List.find?_append, hfirst, Option.some_or]
    | kvEvict msg =>
      have hne : t ≠ msg := fun heq => hkept.2 (congrArg Msg.kvEvict heq)
      obtain ⟨hkey, before, after, hsplit, hbefore⟩ := List.find?_eq_some_iff_append.mp hfirst
      rw [surviving_snoc_kvEvict, List.find?_eq_some_iff_append]
      refine ⟨hkey, before.filter (· ≠ msg), after.filter (· ≠ msg), ?_, fun t' ht' => ?_⟩
      · rw [hsplit, List.filter_append, List.filter_cons_of_pos (by simpa using hne)]
      · exact hbefore t' (List.mem_filter.mp ht').1

end Surviving

/-! ### Which peer the loop follows -/

section Peer

variable [DecidableEq κ] {getDistributedUrl : String → ℤ → Option String} {kvPool : KVPool κ String}
  {run : List (Msg String κ)}

/-- The admit that makes an instance the peer for a key: the first that survives, of another than the asker. -/
def peerAt (run : List (Msg String κ)) (queryInstanceId : String) (k : κ) : Option (KVMsg String κ) :=
  (surviving run).find? fun t => t.key = k ∧ t.instanceId ≠ queryInstanceId

/-- The peer for a key is this instance, at this location. -/
def IsPeer (run : List (Msg String κ)) (queryInstanceId instanceId location : String) (k : κ) : Prop :=
  ∃ t, peerAt run queryInstanceId k = some t ∧ t.instanceId = instanceId ∧ t.location = location

instance (run : List (Msg String κ)) (queryInstanceId instanceId location : String) (k : κ) :
    Decidable (IsPeer run queryInstanceId instanceId location k) :=
  match h : peerAt run queryInstanceId k with
  | none => isFalse fun ⟨_, ht, _⟩ => by rw [h] at ht; cases ht
  | some t => decidable_of_iff (t.instanceId = instanceId ∧ t.location = location)
      ⟨fun ht => ⟨t, h, ht⟩, fun ⟨_, ht', hpeer⟩ => by rw [h] at ht'; cases ht'; exact hpeer⟩

/-- The peer for a key is live there, and is not the asker. -/
theorem live_of_peerAt {queryInstanceId : String} {k : κ} {t : KVMsg String κ}
    (h : peerAt run queryInstanceId k = some t) : Live run t ∧ t.key = k ∧ t.instanceId ≠ queryInstanceId := by
  have hpeer := List.find?_some h
  simp only [decide_eq_true_eq] at hpeer
  exact ⟨mem_surviving.mp (List.mem_of_find?_eq_some h), hpeer⟩

/-- There is a peer for a key if another instance holds it. -/
theorem peerAt_eq_none {queryInstanceId : String} {k : κ} :
    peerAt run queryInstanceId k = none ↔ ∀ i, Held run i k → i = queryInstanceId := by
  rw [peerAt, List.find?_eq_none]
  simp only [mem_surviving, decide_eq_true_eq, not_and, not_not]
  constructor
  · rintro h i ⟨w, location, hlive⟩
    exact h _ hlive rfl
  · rintro h t hlive rfl
    exact h _ ⟨t.workerId, t.location, hlive⟩

/-- What the loop matches for a key is its peer. -/
theorem matchedKvChunkMeta_handleAll (processTokens : List τ → List (Chunk κ)) (run : List (Msg String κ))
    (queryInstanceId : String) (k : κ) :
    KVController.matchedKvChunkMeta queryInstanceId
        (((((KVController.start processTokens).handleAll run).kvPool).get? k).getD []) =
      (peerAt run queryInstanceId k).map KVMsg.metadata := by
  rw [getD_handleAll, KVController.matchedKvChunkMeta, List.find?_map, List.find?_filter, peerAt]
  congr 2
  funext t
  by_cases hinstance : t.instanceId = queryInstanceId <;> simp [KVMsg.metadata, hinstance]

/-- One key of the loop. -/
theorem batchedP2pLoop_cons (processTokens : List τ → List (Chunk κ)) (queryInstanceId : String) (workerId : ℤ)
    (key : κ) (hashes : List κ) (found : PeerLayout) :
    KVController.batchedP2pLoop getDistributedUrl ((KVController.start processTokens).handleAll run).kvPool
        queryInstanceId workerId (key :: hashes) found =
      match peerAt run queryInstanceId key with
      | none => found
      | some t =>
        if found.instanceId ≠ "" ∧ (found.instanceId ≠ t.instanceId ∨ found.location ≠ t.location) then found
        else
          KVController.batchedP2pLoop getDistributedUrl ((KVController.start processTokens).handleAll run).kvPool
            queryInstanceId workerId hashes
            (if found.instanceId = "" then
              ⟨t.instanceId, t.location, found.numHitChunks + 1, getDistributedUrl t.instanceId workerId⟩
            else { found with numHitChunks := found.numHitChunks + 1 }) := by
  have hmatched := matchedKvChunkMeta_handleAll processTokens run queryInstanceId key
  rw [KVController.batchedP2pLoop]
  cases hmetas : ((KVController.start processTokens).handleAll run).kvPool.get? key with
  | none =>
    rw [hmetas] at hmatched
    rw [Option.map_eq_none_iff.mp hmatched.symm]
  | some metas =>
    rw [hmetas, Option.getD_some] at hmatched
    dsimp only
    rw [hmatched]
    cases hpeer : peerAt run queryInstanceId key with
    | none => rfl
    | some t =>
      rw [Option.map_some]
      dsimp only [KVMsg.metadata]
      split_ifs <;> rfl

/-- Once there is a peer, the loop counts the keys it is the peer for. -/
theorem batchedP2pLoop_of_peer (processTokens : List τ → List (Chunk κ)) (queryInstanceId : String) (workerId : ℤ)
    (hashes : List κ) {instanceId : String} (h : instanceId ≠ "") (location : String) (n : ℕ) (url : Option String) :
    KVController.batchedP2pLoop getDistributedUrl ((KVController.start processTokens).handleAll run).kvPool
        queryInstanceId workerId hashes ⟨instanceId, location, n, url⟩ =
      ⟨instanceId, location, n + (hashes.takeWhile fun k => IsPeer run queryInstanceId instanceId location k).length,
        url⟩ := by
  induction hashes generalizing n with
  | nil => rfl
  | cons key hashes ih =>
    rw [batchedP2pLoop_cons]
    cases hpeer : peerAt run queryInstanceId key with
    | none =>
      have hnot : ¬ IsPeer run queryInstanceId instanceId location key := by
        rintro ⟨t, ht, -⟩
        rw [hpeer] at ht
        cases ht
      simp [hnot]
    | some t =>
      dsimp only
      by_cases hsame : t.instanceId = instanceId ∧ t.location = location
      · have his : IsPeer run queryInstanceId instanceId location key := ⟨t, hpeer, hsame⟩
        rw [if_neg (by simp [hsame.1, hsame.2]), if_neg h, ih]
        simp only [List.takeWhile_cons, his, decide_true, if_true, List.length_cons]
        rw [Nat.add_assoc, Nat.add_comm 1]
      · have hnot : ¬ IsPeer run queryInstanceId instanceId location key := by
          rintro ⟨t', ht', hsame'⟩
          rw [hpeer] at ht'
          obtain rfl := Option.some.inj ht'
          exact hsame hsame'
        rw [if_pos ⟨h, by rw [← not_and_or]; exact fun hc => hsame ⟨hc.1.symm, hc.2.symm⟩⟩]
        simp [hnot]

/-- The reply, by the peer for the first key. -/
theorem batchedP2pLookup_eq (processTokens : List τ → List (Chunk κ)) (hnamed : ∀ m ∈ run, m.about.instanceId ≠ "")
    (msg : BatchedP2PLookupMsg κ) :
    ((KVController.start processTokens).handleAll run).batchedP2pLookup getDistributedUrl msg =
      match msg.hashes.head?.bind (peerAt run msg.instanceId) with
      | none => .none
      | some t => ⟨t.instanceId, t.location,
          (msg.hashes.takeWhile fun k => IsPeer run msg.instanceId t.instanceId t.location k).length,
          getDistributedUrl t.instanceId msg.workerId⟩ := by
  rw [KVController.batchedP2pLookup]
  cases hhashes : msg.hashes with
  | nil => rfl
  | cons key hashes =>
    rw [batchedP2pLoop_cons, List.head?_cons, Option.bind_some]
    cases hpeer : peerAt run msg.instanceId key with
    | none => rfl
    | some t =>
      have hname : t.instanceId ≠ "" := hnamed _ (live_of_peerAt hpeer).1.mem_run
      have his : IsPeer run msg.instanceId t.instanceId t.location key := ⟨t, hpeer, rfl, rfl⟩
      dsimp only
      rw [if_neg fun h => h.1 rfl, if_pos (show PeerLayout.none.instanceId = "" from rfl),
        batchedP2pLoop_of_peer _ _ _ _ hname]
      simp only [List.takeWhile_cons, his, decide_true, if_true, List.length_cons]
      rw [show PeerLayout.none.numHitChunks = 0 from rfl, Nat.zero_add, Nat.add_comm 1]

/-- What ends an initial segment. -/
theorem not_of_getElem?_takeWhile {α : Type} {q : α → Bool} {l : List α} {a : α}
    (h : l[(l.takeWhile q).length]? = some a) : q a = false := by
  induction l with
  | nil => cases h
  | cons b l ih =>
    cases hb : q b with
    | true =>
      rw [List.takeWhile_cons_of_pos hb, List.length_cons, List.getElem?_cons_succ] at h
      exact ih h
    | false =>
      rw [List.takeWhile_cons_of_neg (by simp [hb])] at h
      obtain rfl := Option.some.inj h
      exact hb

/-- The last of an initial segment, by its place. -/
theorem getLast?_of_isPrefix {α : Type} {seg l : List α} (h : seg <+: l) :
    seg.getLast? = if seg.length = 0 then none else l[seg.length - 1]? := by
  obtain ⟨rest, rfl⟩ := h
  rw [List.getLast?_eq_getElem?]
  split_ifs with hlength
  · rw [List.eq_nil_of_length_eq_zero hlength]
    rfl
  · rw [List.getElem?_append_left (by omega)]

/-- The keys of a prompt that a peer is the peer for are keys of its live prefix. -/
theorem length_takeWhile_isPeer_le (queryInstanceId instanceId location : String) (chunks : List (Chunk κ)) :
    ((chunks.map (·.key)).takeWhile fun k => IsPeer run queryInstanceId instanceId location k).length ≤
      (livePrefix run instanceId chunks).length := by
  induction chunks with
  | nil => exact le_rfl
  | cons chunk chunks ih =>
    by_cases hpeer : IsPeer run queryInstanceId instanceId location chunk.key
    · have hheld : Held run instanceId chunk.key := by
        obtain ⟨t, ht, rfl, -⟩ := hpeer
        obtain ⟨hlive, hkey, -⟩ := live_of_peerAt ht
        exact ⟨t.workerId, t.location, hkey ▸ hlive⟩
      simpa [livePrefix, hpeer, hheld] using ih
    · simp [hpeer]

/-- And all of them, if nobody else but the asker holds anything, and it holds all at one location. -/
theorem length_takeWhile_isPeer_eq {queryInstanceId instanceId location : String}
    (hsole : ∀ t, Live run t → t.instanceId ≠ queryInstanceId → t.instanceId = instanceId ∧ t.location = location)
    (hne : instanceId ≠ queryInstanceId) (chunks : List (Chunk κ)) :
    ((chunks.map (·.key)).takeWhile fun k => IsPeer run queryInstanceId instanceId location k).length =
      (livePrefix run instanceId chunks).length := by
  induction chunks with
  | nil => rfl
  | cons chunk chunks ih =>
    have hiff : IsPeer run queryInstanceId instanceId location chunk.key ↔ Held run instanceId chunk.key := by
      constructor
      · rintro ⟨t, ht, rfl, -⟩
        obtain ⟨hlive, hkey, -⟩ := live_of_peerAt ht
        exact ⟨t.workerId, t.location, hkey ▸ hlive⟩
      · intro hheld
        cases hpeer : peerAt run queryInstanceId chunk.key with
        | none => exact absurd (peerAt_eq_none.mp hpeer instanceId hheld) hne
        | some t =>
          obtain ⟨hlive, -, hother⟩ := live_of_peerAt hpeer
          exact ⟨t, hpeer, hsole t hlive hother⟩
    by_cases hheld : Held run instanceId chunk.key
    · simpa [livePrefix, hiff, hheld] using ih
    · simp [livePrefix, hiff, hheld]

end Peer

/-! ### The reply after a run -/

section Reply

variable [DecidableEq κ] (getDistributedUrl : String → ℤ → Option String)
  (processTokens : List τ → List (Chunk κ)) {run : List (Msg String κ)}

/-- **What `batched_p2p_lookup` replies.** It finds nothing exactly if no other instance
than the asker holds the first key. Otherwise it names an instance, not the asker, that
is the peer for each of the first `num_hit_chunks` keys and not for the next: for each,
the first admit of another instance that no evict undid is its own, and at the location
of the reply. -/
theorem batchedP2pLookup_peer (hnamed : ∀ m ∈ run, m.about.instanceId ≠ "") (msg : BatchedP2PLookupMsg κ) :
    let reply := ((KVController.start processTokens).handleAll run).batchedP2pLookup getDistributedUrl msg
    (reply.numHitChunks = 0 ↔ ∀ k, msg.hashes.head? = some k → ∀ i, Held run i k → i = msg.instanceId) ∧
    (reply.numHitChunks = 0 → reply = .none) ∧
    (0 < reply.numHitChunks → reply.instanceId ≠ msg.instanceId ∧
      reply.peerInitUrl = getDistributedUrl reply.instanceId msg.workerId ∧
      ∀ n k, msg.hashes[n]? = some k →
        (n < reply.numHitChunks → IsPeer run msg.instanceId reply.instanceId reply.location k) ∧
        (n = reply.numHitChunks → ¬ IsPeer run msg.instanceId reply.instanceId reply.location k)) := by
  intro reply
  have hreply : reply = _ := batchedP2pLookup_eq processTokens hnamed msg
  cases hfirst : msg.hashes.head?.bind (peerAt run msg.instanceId) with
  | none =>
    rw [hfirst] at hreply
    refine ⟨⟨fun _ k hk => ?_, fun _ => by rw [hreply]; rfl⟩, fun _ => hreply, fun hpos => ?_⟩
    · rw [hk, Option.bind_some, peerAt_eq_none] at hfirst
      exact hfirst
    · rw [hreply] at hpos
      exact absurd hpos (Nat.lt_irrefl 0)
  | some t =>
    rw [hfirst] at hreply
    obtain ⟨k₀, hk₀, hpeer⟩ := Option.bind_eq_some_iff.mp hfirst
    obtain ⟨hlive, hkey, hother⟩ := live_of_peerAt hpeer
    have hpos : 0 < reply.numHitChunks := by
      obtain ⟨rest, hhashes⟩ : ∃ rest, msg.hashes = k₀ :: rest := List.head?_eq_some_iff.mp hk₀
      have his : IsPeer run msg.instanceId t.instanceId t.location k₀ := ⟨t, hpeer, rfl, rfl⟩
      rw [hreply, hhashes]
      simp [his]
    refine ⟨⟨fun hzero => absurd hzero hpos.ne', fun hsole => ?_⟩, fun hzero => absurd hzero hpos.ne', fun _ => ?_⟩
    · exact absurd (hsole k₀ hk₀ t.instanceId ⟨t.workerId, t.location, hkey ▸ hlive⟩) hother
    · refine ⟨by rw [hreply]; exact hother, by rw [hreply], fun n k hk => ?_⟩
      rw [hreply]
      dsimp only
      constructor
      · intro hn
        have hmem := List.mem_takeWhile_imp (List.getElem_mem hn)
        rw [List.IsPrefix.getElem (List.takeWhile_prefix _) hn] at hmem
        obtain ⟨hn', rfl⟩ := List.getElem?_eq_some_iff.mp hk
        exact of_decide_eq_true hmem
      · rintro rfl
        have hnot := not_of_getElem?_takeWhile hk
        exact of_decide_eq_false hnot

/-- A prompt whose tokens are its chunks, and their keys. -/
def oneKeyEach (tokens : List ℕ) : List (Chunk ℕ) :=
  tokens.zipIdx.map fun p => ⟨p.2, p.2 + 1, p.1⟩

/-- Two instances hold the keys 1 and 2. The first lost 1 and has it again, later than the second. -/
def overtaken : List (Msg String ℕ) :=
  [.kvAdmit ⟨"a", 0, 1, "cpu"⟩, .kvAdmit ⟨"b", 0, 1, "cpu"⟩, .kvEvict ⟨"a", 0, 1, "cpu"⟩, .kvAdmit ⟨"a", 0, 1, "cpu"⟩,
    .kvAdmit ⟨"a", 0, 2, "cpu"⟩, .kvAdmit ⟨"b", 0, 2, "cpu"⟩]

theorem named_overtaken : ∀ m ∈ overtaken, m.about.instanceId ≠ "" := by decide

/-- The second is the peer for 1 and not for 2, although it holds both. -/
theorem batchedP2pLookup_peer_overtaken :
    (((KVController.start oneKeyEach).handleAll overtaken).batchedP2pLookup (fun i _ => some i)
        ⟨[1, 2], "c", 0⟩).peerInitUrl = some "b" ∧
      Held overtaken "b" 2 ∧ ¬ IsPeer overtaken "c" "b" "cpu" 2 := by
  have h := (batchedP2pLookup_peer (fun i _ => some i) oneKeyEach named_overtaken ⟨[1, 2], "c", 0⟩).2.2
    (by decide +kernel)
  exact ⟨h.2.1.trans (by decide +kernel), by decide +kernel, (h.2.2 1 2 rfl).2 (by decide +kernel)⟩

/-- **The peer holds what the reply promises.** For the keys of a prompt, `lookup` credits
the named instance with at least the chunks that `batched_p2p_lookup` counts; and with
exactly these if it is the only instance but the asker to hold anything, all of it at one
location. -/
theorem batchedP2pLookup_le_lookup (hnamed : ∀ m ∈ run, m.about.instanceId ≠ "") (tokens : List τ)
    (queryInstanceId : String) (workerId : ℤ) :
    let c := (KVController.start processTokens).handleAll run
    let reply := c.batchedP2pLookup getDistributedUrl
      ⟨(processTokens tokens).map (·.key), queryInstanceId, workerId⟩
    let credited := fun i => ((c.lookup ⟨"", tokens⟩).layoutInfo.get? i).map Prod.snd
    (0 < reply.numHitChunks → ∃ m chunk, reply.numHitChunks ≤ m + 1 ∧ (processTokens tokens)[m]? = some chunk ∧
      credited reply.instanceId = some (chunk.stop : ℤ)) ∧
    ∀ i location, i ≠ queryInstanceId →
      (∀ t, Live run t → t.instanceId ≠ queryInstanceId → t.instanceId = i ∧ t.location = location) →
      credited i = if reply.numHitChunks = 0 then none
        else ((processTokens tokens)[reply.numHitChunks - 1]?).map fun chunk => (chunk.stop : ℤ) := by
  intro c reply credited
  have hinitial (i : String) : livePrefix run i (processTokens tokens) <+: processTokens tokens :=
    List.takeWhile_prefix _
  have hcredit (i : String) : credited i = if (livePrefix run i (processTokens tokens)).length = 0 then none
      else ((processTokens tokens)[(livePrefix run i (processTokens tokens)).length - 1]?).map fun chunk =>
        (chunk.stop : ℤ) := by
    refine (lookup_handleAll_credit processTokens run ⟨"", tokens⟩ i).trans ?_
    rw [getLast?_of_isPrefix (hinitial i)]
    split_ifs <;> rfl
  have hreply : reply = _ := batchedP2pLookup_eq processTokens hnamed _
  rw [List.head?_map] at hreply
  constructor
  · intro hpos
    have hle : reply.numHitChunks ≤ (livePrefix run reply.instanceId (processTokens tokens)).length := by
      cases hfirst : ((processTokens tokens).head?.map (·.key)).bind (peerAt run queryInstanceId) with
      | none =>
        rw [hreply, hfirst] at hpos
        exact absurd hpos (Nat.lt_irrefl 0)
      | some t =>
        rw [hreply, hfirst]
        exact length_takeWhile_isPeer_le queryInstanceId t.instanceId t.location (processTokens tokens)
    have hlt : (livePrefix run reply.instanceId (processTokens tokens)).length - 1 < (processTokens tokens).length :=
      lt_of_lt_of_le (by omega) (hinitial reply.instanceId).length_le
    refine ⟨_, _, by omega, List.getElem?_eq_getElem hlt, ?_⟩
    rw [hcredit, if_neg (by omega), List.getElem?_eq_getElem hlt]
    rfl
  · intro i location hi hsole
    have heq : reply.numHitChunks = (livePrefix run i (processTokens tokens)).length := by
      cases hfirst : ((processTokens tokens).head?.map (·.key)).bind (peerAt run queryInstanceId) with
      | none =>
        rw [hreply, hfirst]
        -- nobody else holds the first chunk
        cases hchunks : processTokens tokens with
        | nil => rfl
        | cons chunk chunks =>
          rw [hchunks, List.head?_cons, Option.map_some, Option.bind_some, peerAt_eq_none] at hfirst
          have hnot : ¬ Held run i chunk.key := fun hheld => hi (hfirst i hheld)
          simp [livePrefix, hnot, PeerLayout.none]
      | some t =>
        obtain ⟨k, -, hpeer⟩ := Option.bind_eq_some_iff.mp hfirst
        obtain ⟨hlive, -, hother⟩ := live_of_peerAt hpeer
        obtain ⟨rfl, rfl⟩ := hsole t hlive hother
        rw [hreply, hfirst]
        exact length_takeWhile_isPeer_eq hsole hi (processTokens tokens)
    rw [hcredit, heq]

/-- `lookup` credits the second with both. -/
theorem batchedP2pLookup_le_lookup_overtaken :
    ∃ m chunk, 1 ≤ m + 1 ∧ (oneKeyEach [1, 2])[m]? = some chunk ∧
      ((((KVController.start oneKeyEach).handleAll overtaken).lookup ⟨"", [1, 2]⟩).layoutInfo.get? "b").map Prod.snd =
        some (chunk.stop : ℤ) := by
  obtain ⟨m, chunk, -, hchunk, hcredit⟩ :=
    (batchedP2pLookup_le_lookup (fun i _ => some i) oneKeyEach named_overtaken [1, 2] "c" 0).1 (by decide +kernel)
  refine ⟨m, chunk, Nat.le_add_left 1 m, hchunk, Eq.trans ?_ hcredit⟩
  decide +kernel

end Reply

end CachingInLLMs.Controller

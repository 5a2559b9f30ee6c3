import CachingInLLMs.Controller.Registry
import CachingInLLMs.Library.Chunking

/-!
# Credit is a genuine shared prefix

What `lookup` credits is read off per-chunk entries that come from many prompts.
It says something about prompts only because of the contract of the token
database: a prompt is cut into chunks of a fixed size, a short final chunk is kept,
and the key of a chunk is a collision-free hash of the whole prefix that ends with
the chunk. `TokenDatabase` is that contract; a value of the type satisfies it.

`PrefixHashTokenDatabase` is the database of the tests, which rolls a hash over the
chunks. It meets the contract when `hash` has no collisions and never gives
`NONE_HASH` (`PrefixHashTokenDatabase.processTokens_eq`).

`lookup_credit_is_shared_prefix` has two directions: a credited prefix is a prefix
of a prompt the instance processed, all of it still held; and an instance that
still holds a prompt `Q` is credited with all full chunks that `Q` shares with the
request, and with the whole request if it is `Q`.
-/

namespace CachingInLLMs.Controller

open CachingInLLMs.Library

variable {ι κ τ : Type}

/-! ### The contract -/

/-- A token database: how prompts are cut, and the collision-free hash of a prefix. -/
structure TokenDatabase (κ τ : Type) where
  /-- `chunk_size`. -/
  chunkSize : ℕ
  /-- Chunks are not empty. -/
  chunkSize_pos : 0 < chunkSize
  /-- The key of the chunk that ends a prefix. -/
  prefixHash : List τ → κ
  /-- Different prefixes have different keys. -/
  collision_free : ∀ p q, p ≠ [] → q ≠ [] → prefixHash p = prefixHash q → p = q

namespace TokenDatabase

variable (db : TokenDatabase κ τ)

/-- Chunk `n` of a prompt. -/
def chunk (tokens : List τ) (n : ℕ) : Chunk κ where
  start := n * db.chunkSize
  stop := chunkStop db.chunkSize tokens.length n
  key := db.prefixHash (tokens.take (chunkStop db.chunkSize tokens.length n))

/-- `process_tokens(tokens, make_key=False)`. -/
def processTokens (tokens : List τ) : List (Chunk κ) :=
  (List.range (chunkCount db.chunkSize tokens.length)).map (db.chunk tokens)

variable {db}

theorem mem_processTokens {tokens : List τ} {c : Chunk κ} :
    c ∈ db.processTokens tokens ↔ ∃ n < chunkCount db.chunkSize tokens.length, db.chunk tokens n = c := by
  simp [processTokens]

/-- Chunks with one key end the same prefix. -/
theorem eq_of_key_eq {p q : List τ} {a b : Chunk κ} (ha : a ∈ db.processTokens p)
    (hb : b ∈ db.processTokens q) (h : a.key = b.key) : a.stop = b.stop ∧ p.take a.stop = q.take b.stop := by
  obtain ⟨n, hn, rfl⟩ := mem_processTokens.mp ha
  obtain ⟨m, hm, rfl⟩ := mem_processTokens.mp hb
  have hp : (p.take (chunkStop db.chunkSize p.length n)).length = chunkStop db.chunkSize p.length n :=
    List.length_take_of_le chunkStop_le
  have hq : (q.take (chunkStop db.chunkSize q.length m)).length = chunkStop db.chunkSize q.length m :=
    List.length_take_of_le chunkStop_le
  have hp_pos := chunkStop_pos db.chunkSize_pos hn
  have hq_pos := chunkStop_pos db.chunkSize_pos hm
  have heq := db.collision_free _ _ (List.ne_nil_of_length_pos (by omega))
    (List.ne_nil_of_length_pos (by omega)) h
  refine ⟨?_, heq⟩
  have := congrArg List.length heq
  rwa [hp, hq] at this

/-- Where two prompts still agree, their full chunks are the same. -/
theorem chunk_eq_of_common {p q : List τ} {n : ℕ}
    (h : (n + 1) * db.chunkSize ≤ p.length ∧ (n + 1) * db.chunkSize ≤ q.length)
    (htake : p.take ((n + 1) * db.chunkSize) = q.take ((n + 1) * db.chunkSize)) :
    db.chunk p n = db.chunk q n := by
  have hp : chunkStop db.chunkSize p.length n = (n + 1) * db.chunkSize := Nat.min_eq_left h.1
  have hq : chunkStop db.chunkSize q.length n = (n + 1) * db.chunkSize := Nat.min_eq_left h.2
  rw [chunk, chunk, hp, hq, htake]

/-- The first chunks of a prompt. -/
theorem take_processTokens {tokens : List τ} {n : ℕ} (hn : n ≤ chunkCount db.chunkSize tokens.length) :
    (List.range n).map (db.chunk tokens) <+: db.processTokens tokens := by
  obtain ⟨m, rfl⟩ : ∃ m, m = chunkCount db.chunkSize tokens.length - n := ⟨_, rfl⟩
  refine List.IsPrefix.map _ ?_
  exact List.prefix_iff_eq_take.mpr (by rw [List.length_range, List.take_range, Nat.min_eq_left hn])

end TokenDatabase

/-! ### The database of the tests -/

/-- `PrefixHashTokenDatabase`, with Python's `hash` of a pair and `NONE_HASH`. -/
structure PrefixHashTokenDatabase (κ τ : Type) where
  /-- `chunk_size`. -/
  chunkSize : ℕ
  /-- `hash((prefix_hash, chunk))`. -/
  hash : κ → List τ → κ
  /-- `NONE_HASH`. -/
  noneHash : κ

namespace PrefixHashTokenDatabase

variable (db : PrefixHashTokenDatabase κ τ)

/-- The loop of `process_tokens` over the starts of the chunks. -/
def processLoop (tokens : List τ) : List ℕ → κ → List (Chunk κ)
  | [], _ => []
  | start :: starts, prefixHash =>
    let chunk := (tokens.drop start).take db.chunkSize
    let prefixHash := db.hash prefixHash chunk
    ⟨start, min (start + db.chunkSize) tokens.length, prefixHash⟩ :: processLoop tokens starts prefixHash

/-- `process_tokens(tokens, make_key=False)`. -/
def processTokens (tokens : List τ) : List (Chunk κ) :=
  db.processLoop tokens
    ((List.range (chunkCount db.chunkSize tokens.length)).map (· * db.chunkSize)) db.noneHash

/-- The hash that has been rolled over the first `n` chunks. -/
def rolled (tokens : List τ) (n : ℕ) : κ :=
  ((List.range n).map fun m => (tokens.drop (m * db.chunkSize)).take db.chunkSize).foldl db.hash db.noneHash

theorem rolled_succ (tokens : List τ) (n : ℕ) :
    db.rolled tokens (n + 1) =
      db.hash (db.rolled tokens n) ((tokens.drop (n * db.chunkSize)).take db.chunkSize) := by
  rw [rolled, List.range_succ, List.map_append, List.foldl_append]
  rfl

/-- From chunk `k` on, the loop yields each chunk with the hash rolled up to it. -/
theorem processLoop_eq (tokens : List τ) (m k : ℕ) :
    db.processLoop tokens ((List.range' k m).map (· * db.chunkSize)) (db.rolled tokens k) =
      (List.range' k m).map fun n =>
        ⟨n * db.chunkSize, chunkStop db.chunkSize tokens.length n, db.rolled tokens (n + 1)⟩ := by
  induction m generalizing k with
  | zero => rfl
  | succ m ih =>
    rw [List.range'_succ, List.map_cons, List.map_cons, processLoop, ← rolled_succ, ih, chunkStop, Nat.succ_mul]

/-- The contract, for a hash without collisions. -/
def tokenDatabase (hsize : 0 < db.chunkSize) (hinj : ∀ x y a b, db.hash x a = db.hash y b → x = y ∧ a = b)
    (hnone : ∀ x a, db.hash x a ≠ db.noneHash) : TokenDatabase κ τ where
  chunkSize := db.chunkSize
  chunkSize_pos := hsize
  prefixHash p := (slices db.chunkSize p).foldl db.hash db.noneHash
  collision_free p q _ _ h := by
    rw [← flatten_slices hsize p, foldl_injective hinj hnone h, flatten_slices hsize]

/-- **The database of the tests meets the contract.** -/
theorem processTokens_eq (hsize : 0 < db.chunkSize)
    (hinj : ∀ x y a b, db.hash x a = db.hash y b → x = y ∧ a = b) (hnone : ∀ x a, db.hash x a ≠ db.noneHash)
    (tokens : List τ) : db.processTokens tokens = (db.tokenDatabase hsize hinj hnone).processTokens tokens := by
  have hloop := db.processLoop_eq tokens (chunkCount db.chunkSize tokens.length) 0
  rw [← List.range_eq_range'] at hloop
  rw [processTokens, TokenDatabase.processTokens]
  refine hloop.trans (List.map_congr_left fun n hn => ?_)
  have hkey : (db.tokenDatabase hsize hinj hnone).prefixHash (tokens.take (chunkStop db.chunkSize tokens.length n)) =
      db.rolled tokens (n + 1) := by
    show (slices db.chunkSize _).foldl db.hash db.noneHash = _
    rw [slices_take hsize (List.mem_range.mp hn), rolled]
  rw [← hkey]
  rfl

end PrefixHashTokenDatabase

/-! ### Credit and prompts -/

variable [DecidableEq ι] [DecidableEq κ]

/-- The tokens an instance is credited with, none if it is not named. -/
def creditedTokens (layoutInfo : LayoutInfo ι) (i : ι) : ℤ := ((layoutInfo.get? i).map Prod.snd).getD 0

/-- The live prefix of a prompt is its first chunks. -/
theorem livePrefix_processTokens (db : TokenDatabase κ τ) (run : List (Msg ι κ)) (i : ι) (tokens : List τ) :
    ∃ m ≤ chunkCount db.chunkSize tokens.length,
      livePrefix run i (db.processTokens tokens) = (List.range m).map (db.chunk tokens) := by
  have hpre : livePrefix run i (db.processTokens tokens) <+: db.processTokens tokens := List.takeWhile_prefix _
  have hlen : (livePrefix run i (db.processTokens tokens)).length ≤ chunkCount db.chunkSize tokens.length := by
    simpa [TokenDatabase.processTokens] using hpre.length_le
  obtain ⟨m, hm⟩ : ∃ m, m = (livePrefix run i (db.processTokens tokens)).length := ⟨_, rfl⟩
  refine ⟨m, hm ▸ hlen, ?_⟩
  rw [List.prefix_iff_eq_take.mp hpre, ← hm, TokenDatabase.processTokens, ← List.map_take, List.take_range,
    Nat.min_eq_left (hm ▸ hlen)]

/-- The Controller that reads a token database, after a run. -/
def TokenDatabase.controller (db : TokenDatabase κ τ) (run : List (Msg ι κ)) : KVController ι κ τ :=
  (KVController.start db.processTokens).handleAll run

/-- The credit of an instance, by the number of chunks of its live prefix. -/
theorem credit_of_livePrefix {db : TokenDatabase κ τ} {run : List (Msg ι κ)} {i : ι} {msg : LookupMsg τ} {m : ℕ}
    (h : livePrefix run i (db.processTokens msg.tokens) = (List.range m).map (db.chunk msg.tokens)) :
    (((db.controller run).lookup msg).layoutInfo.get? i).map Prod.snd =
      (List.range m).getLast?.map fun n => (chunkStop db.chunkSize msg.tokens.length n : ℤ) := by
  rw [TokenDatabase.controller, lookup_handleAll_credit, h, List.getLast?_map, Option.map_map]
  rfl

/-- A credited prefix is a prefix of a prompt the instance processed, and is still held. -/
theorem shared_prefix_of_credit {db : TokenDatabase κ τ} {prompts : ι → Set (List τ)} {run : List (Msg ι κ)}
    (hrun : ∀ msg, .kvAdmit msg ∈ run →
      ∃ q ∈ prompts msg.instanceId, ∃ chunk ∈ db.processTokens q, chunk.key = msg.key)
    {msg : LookupMsg τ} {i : ι} {location : String} {e : ℤ}
    (h : ((db.controller run).lookup msg).layoutInfo.get? i = some (location, e)) :
    ∃ q ∈ prompts i, ∃ chunk ∈ db.processTokens q, (chunk.stop : ℤ) = e ∧ Held run i chunk.key ∧
      msg.tokens.take chunk.stop = q.take chunk.stop ∧
      ∀ earlier ∈ db.processTokens msg.tokens, (earlier.stop : ℤ) ≤ e → Held run i earlier.key := by
  obtain ⟨m, hm, hlive⟩ := livePrefix_processTokens db run i msg.tokens
  have hcredit := credit_of_livePrefix hlive
  rw [h, Option.map_some] at hcredit
  cases m with
  | zero => exact nomatch hcredit
  | succ n =>
    rw [List.range_succ, List.getLast?_concat] at hcredit
    obtain rfl : e = chunkStop db.chunkSize msg.tokens.length n := Option.some.inj hcredit
    have hheld (k : ℕ) (hk : k ≤ n) : Held run i (db.chunk msg.tokens k).key :=
      held_of_mem_livePrefix (hlive ▸ List.mem_map_of_mem (List.mem_range.mpr (Nat.lt_succ_of_le hk)))
    obtain ⟨w, l, hl⟩ := hheld n le_rfl
    obtain ⟨q, hq, chunk, hchunk, hkey⟩ := hrun _ hl.mem_run
    have hlast : db.chunk msg.tokens n ∈ db.processTokens msg.tokens :=
      TokenDatabase.mem_processTokens.mpr ⟨n, hm, rfl⟩
    obtain ⟨hstop, htake⟩ := TokenDatabase.eq_of_key_eq hchunk hlast hkey
    refine ⟨q, hq, chunk, hchunk, by rw [hstop]; rfl, hkey ▸ hheld n le_rfl, by rw [htake, hstop], ?_⟩
    intro earlier hearlier hle
    obtain ⟨k, hk, rfl⟩ := TokenDatabase.mem_processTokens.mp hearlier
    refine hheld k (Nat.le_of_not_lt fun hnk => ?_)
    have hlt := chunkStop_lt_chunkStop db.chunkSize_pos hnk hk
    have hle : chunkStop db.chunkSize msg.tokens.length k ≤ chunkStop db.chunkSize msg.tokens.length n :=
      Int.ofNat_le.mp hle
    omega

/-- An instance that holds a prompt is credited with the full chunks the request shares with it. -/
theorem common_chunks_le_credit {db : TokenDatabase κ τ} {run : List (Msg ι κ)} {i : ι} {q : List τ}
    (hheld : ∀ chunk ∈ db.processTokens q, Held run i chunk.key) [DecidableEq τ] (msg : LookupMsg τ) :
    ((commonPrefixLength msg.tokens q / db.chunkSize * db.chunkSize : ℕ) : ℤ) ≤
      creditedTokens ((db.controller run).lookup msg).layoutInfo i := by
  obtain ⟨m, hm, hlive⟩ := livePrefix_processTokens db run i msg.tokens
  have hcredit := credit_of_livePrefix hlive
  obtain ⟨common, hcommon⟩ : ∃ common, common = commonPrefixLength msg.tokens q / db.chunkSize := ⟨_, rfl⟩
  have hle : common * db.chunkSize ≤ commonPrefixLength msg.tokens q := hcommon ▸ Nat.div_mul_le_self _ _
  have hp := commonPrefixLength_le_left msg.tokens q
  have hq := commonPrefixLength_le_right msg.tokens q
  have hfull (k : ℕ) (hk : k < common) : (k + 1) * db.chunkSize ≤ commonPrefixLength msg.tokens q :=
    (Nat.mul_le_mul_right db.chunkSize hk).trans hle
  have hcount (tokens : List τ) (h : commonPrefixLength msg.tokens q ≤ tokens.length) (k : ℕ) (hk : k < common) :
      k < chunkCount db.chunkSize tokens.length := by
    have hk := hfull k hk
    have hsucc : (k + 1) * db.chunkSize = k * db.chunkSize + db.chunkSize := Nat.succ_mul k db.chunkSize
    have hpos := db.chunkSize_pos
    rw [lt_chunkCount db.chunkSize_pos]
    omega
  -- the shared full chunks are held, so the live prefix has them all
  have hmle : common ≤ m := by
    have hpre : (List.range common).map (db.chunk msg.tokens) <+: db.processTokens msg.tokens := by
      refine TokenDatabase.take_processTokens ?_
      cases common with
      | zero => exact Nat.zero_le _
      | succ k => exact hcount msg.tokens hp k (Nat.lt_succ_self k)
    have hlivepre : (List.range common).map (db.chunk msg.tokens) <+:
        livePrefix run i (db.processTokens msg.tokens) := by
      refine prefix_livePrefix hpre fun chunk hchunk => ?_
      obtain ⟨k, hk, rfl⟩ := List.mem_map.mp hchunk
      have hk := List.mem_range.mp hk
      rw [TokenDatabase.chunk_eq_of_common ⟨(hfull k hk).trans hp, (hfull k hk).trans hq⟩
        (take_eq_of_le_commonPrefixLength (hfull k hk))]
      exact hheld _ (TokenDatabase.mem_processTokens.mpr ⟨k, hcount q hq k hk, rfl⟩)
    simpa [hlive] using hlivepre.length_le
  rw [← hcommon, creditedTokens, hcredit]
  cases m with
  | zero =>
    obtain rfl : common = 0 := Nat.le_zero.mp hmle
    simp
  | succ n =>
    have hstop : common * db.chunkSize ≤ (n + 1) * db.chunkSize := Nat.mul_le_mul_right _ hmle
    rw [List.range_succ, List.getLast?_concat]
    exact Int.ofNat_le.mpr (le_min hstop (hle.trans hp))

/-- An instance that holds the request is credited with all of it. -/
theorem credit_of_all_held {db : TokenDatabase κ τ} {run : List (Msg ι κ)} {i : ι} {msg : LookupMsg τ}
    (hheld : ∀ chunk ∈ db.processTokens msg.tokens, Held run i chunk.key) :
    creditedTokens ((db.controller run).lookup msg).layoutInfo i = msg.tokens.length := by
  obtain ⟨m, hm, hlive⟩ := livePrefix_processTokens db run i msg.tokens
  have hcredit := credit_of_livePrefix hlive
  have hmeq : m = chunkCount db.chunkSize msg.tokens.length := by
    have hpre : db.processTokens msg.tokens <+: livePrefix run i (db.processTokens msg.tokens) :=
      prefix_livePrefix List.prefix_rfl hheld
    have hlen := hpre.length_le
    rw [hlive, List.length_map, List.length_range] at hlen
    simp only [TokenDatabase.processTokens, List.length_map, List.length_range] at hlen
    omega
  rw [creditedTokens, hcredit]
  cases m with
  | zero =>
    have : ¬ 0 < chunkCount db.chunkSize msg.tokens.length := by omega
    rw [lt_chunkCount db.chunkSize_pos] at this
    simp only [List.range_zero, List.getLast?_nil, Option.map_none, Option.getD_none]
    omega
  | succ n =>
    rw [List.range_succ, List.getLast?_concat, Option.map_some, chunkStop_last db.chunkSize_pos hmeq]
    rfl

/-- **Credit is a genuine shared prefix.** In a run in which every instance admits
only chunks of prompts it processed, an instance credited with `e` tokens processed
a prompt that begins with the same `e` tokens, and still holds every chunk of them.
Conversely, an instance that holds every chunk of a prompt is credited with at least
the full chunks the request shares with the prompt, and with the whole prompt if
the two are equal. -/
theorem lookup_credit_is_shared_prefix [DecidableEq τ] (db : TokenDatabase κ τ) (prompts : ι → Set (List τ))
    (run : List (Msg ι κ))
    (hrun : ∀ msg, .kvAdmit msg ∈ run →
      ∃ q ∈ prompts msg.instanceId, ∃ chunk ∈ db.processTokens q, chunk.key = msg.key)
    (msg : LookupMsg τ) (i : ι) :
    let layoutInfo := (((KVController.start db.processTokens).handleAll run).lookup msg).layoutInfo
    (∀ location e, layoutInfo.get? i = some (location, e) →
      ∃ q ∈ prompts i, ∃ chunk ∈ db.processTokens q, (chunk.stop : ℤ) = e ∧ Held run i chunk.key ∧
        msg.tokens.take chunk.stop = q.take chunk.stop ∧
        ∀ earlier ∈ db.processTokens msg.tokens, (earlier.stop : ℤ) ≤ e → Held run i earlier.key) ∧
    ∀ q, (∀ chunk ∈ db.processTokens q, Held run i chunk.key) →
      ((commonPrefixLength msg.tokens q / db.chunkSize * db.chunkSize : ℕ) : ℤ) ≤ creditedTokens layoutInfo i ∧
      (msg.tokens = q → creditedTokens layoutInfo i = q.length) := by
  refine ⟨fun location e h => shared_prefix_of_credit hrun h, fun q hheld => ?_⟩
  refine ⟨common_chunks_le_credit hheld msg, ?_⟩
  rintro rfl
  exact credit_of_all_held hheld

/-- Chunks of four tokens, keyed by the list of the chunks up to them: a hash without collisions. -/
def fourTokenHashes : PrefixHashTokenDatabase (List (List ℕ)) ℕ :=
  ⟨4, fun prefixHash chunk => prefixHash ++ [chunk], []⟩

/-- What they meet of the contract. -/
def fourTokenChunks : TokenDatabase (List (List ℕ)) ℕ :=
  fourTokenHashes.tokenDatabase (by decide) (fun x y a b h => by simpa using List.append_inj' h rfl)
    (fun x a => by simp [fourTokenHashes])

theorem processTokens_fourTokenHashes : fourTokenHashes.processTokens = fourTokenChunks.processTokens :=
  funext (fourTokenHashes.processTokens_eq _ _ _)

/-- A Controller with the database of the tests. -/
theorem lookup_credit_is_shared_prefix_fourTokenChunks :
    let run : List (Msg String (List (List ℕ))) :=
      [.kvAdmit ⟨"a", 0, [[1, 2, 3, 4]], "cpu"⟩, .kvAdmit ⟨"a", 0, [[1, 2, 3, 4], [5]], "cpu"⟩]
    let layoutInfo := (((KVController.start fourTokenHashes.processTokens).handleAll run).lookup
      ⟨"e", [1, 2, 3, 4, 6, 7]⟩).layoutInfo
    (∀ location e, layoutInfo.get? "a" = some (location, e) →
      ∃ q ∈ ({[1, 2, 3, 4, 5]} : Set (List ℕ)), ∃ chunk ∈ fourTokenHashes.processTokens q,
        (chunk.stop : ℤ) = e ∧ Held run "a" chunk.key ∧ [1, 2, 3, 4, 6, 7].take chunk.stop = q.take chunk.stop ∧
        ∀ earlier ∈ fourTokenHashes.processTokens [1, 2, 3, 4, 6, 7],
          (earlier.stop : ℤ) ≤ e → Held run "a" earlier.key) ∧
    ∀ q, (∀ chunk ∈ fourTokenHashes.processTokens q, Held run "a" chunk.key) →
      ((commonPrefixLength [1, 2, 3, 4, 6, 7] q / 4 * 4 : ℕ) : ℤ) ≤ creditedTokens layoutInfo "a" ∧
      ([1, 2, 3, 4, 6, 7] = q → creditedTokens layoutInfo "a" = q.length) := by
  rw [processTokens_fourTokenHashes]
  exact lookup_credit_is_shared_prefix fourTokenChunks (fun _ => {[1, 2, 3, 4, 5]}) _
    (fun msg hmsg => ⟨[1, 2, 3, 4, 5], rfl, by
      rcases List.mem_cons.mp hmsg with h | h
      · exact ⟨fourTokenChunks.chunk [1, 2, 3, 4, 5] 0,
          TokenDatabase.mem_processTokens.mpr ⟨0, by decide, rfl⟩, by rw [Msg.kvAdmit.inj h]; decide⟩
      · exact ⟨fourTokenChunks.chunk [1, 2, 3, 4, 5] 1,
          TokenDatabase.mem_processTokens.mpr ⟨1, by decide, rfl⟩,
          by rw [Msg.kvAdmit.inj (List.mem_singleton.mp h)]; decide⟩⟩)
    ⟨"e", [1, 2, 3, 4, 6, 7]⟩ "a"

end CachingInLLMs.Controller

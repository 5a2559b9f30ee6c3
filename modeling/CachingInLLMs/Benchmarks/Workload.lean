import CachingInLLMs.Library.Numeral
import CachingInLLMs.Library.PyRandom
import Mathlib.Algebra.BigOperators.Group.List.Basic
import Mathlib.Algebra.Order.BigOperators.Group.List
import Mathlib.Algebra.Order.Field.Rat
import Mathlib.Tactic.Positivity

/-!
# Workloads

`workload_gen.py` makes the prompts that are sent to every setup. A request of the Zipfian
workload is a prefix of a shared pool and a suffix of its own; a request of the novel
workload shares nothing. A prefix cache shares what two prompts have in common before they
first differ, so every prefix, suffix and novel prompt begins with a numbered tag, and what
comes behind the tag is random.

The tags diverge whatever is drawn, also where a number outgrows its padding. So prompts of
different prefixes differ within their tags and no two prompts are the same
(`generate_spec`), and of novel prompts none shares more than a part of its tag
(`generateNovel_spec`).

Powers of floats are a parameter, as they are no rationals; a power that is too large raises.
-/

namespace CachingInLLMs.Benchmarks

open CachingInLLMs.Library

/-! ### The model -/

/-- `_WORDS`. -/
def words : List Text :=
  ["system", "context", "document", "retrieval", "answer", "question", "knowledge", "base", "cache",
    "policy", "latency", "throughput", "token", "prefix", "router", "instance", "replica",
    "workload", "analysis", "metric", "benchmark", "experiment", "evaluation", "baseline",
    "extension"].map String.toList

/-- `WorkloadConfig`. -/
structure WorkloadConfig where
  /-- `num_requests`. -/
  numRequests : ℤ := 500
  /-- `prefix_pool_size`: the number of shared prefixes. -/
  prefixPoolSize : ℤ := 128
  /-- `zipf_s`: the skew. -/
  zipfS : ℚ := 9 / 10
  /-- `prefix_tokens`. -/
  prefixTokens : ℤ := 2048
  /-- `suffix_tokens`. -/
  suffixTokens : ℤ := 32
  /-- `pool_seed`. -/
  poolSeed : ℤ := 42
  /-- `seed`. -/
  seed : ℤ := 42

/-- `NovelWorkloadConfig`. -/
structure NovelWorkloadConfig where
  /-- `num_requests`. -/
  numRequests : ℤ := 500
  /-- `prompt_tokens`. -/
  promptTokens : ℤ := 2048
  /-- `suffix_tokens`. -/
  suffixTokens : ℤ := 32
  /-- `seed`. -/
  seed : ℤ := 42

/-- `Request`. -/
structure Request where
  /-- `index`. -/
  index : ℕ
  /-- `prefix_id`. -/
  prefixId : ℕ
  /-- `prompt`. -/
  prompt : Text

/-- `zipf_weights`, with `pow k s` for `k**s`, which may raise `OverflowError`. -/
def zipfWeights (pow : ℕ → ℚ → Except PyError ℚ) (n : ℤ) (s : ℚ) : Except PyError (List ℚ) :=
  if n ≤ 0 then .error (.other "ValueError")
  else do
    let raw ← (List.range n.toNat).mapM fun k => do pyDiv 1 (← pow (k + 1) s)
    let total := raw.sum
    raw.mapM fun w => pyDiv w total

/-- A number in brackets: its label, the number padded to a width, and the bracket. -/
def numberTag (label : Text) (width n : ℕ) : Text := label ++ (padded width n ++ [']'])

/-- `f"[PREFIX-{i:03d}]"`. -/
def prefixTag (i : ℕ) : Text := numberTag "[PREFIX-".toList 3 i

/-- `f"[Q-{i:06d}]"`. -/
def queryTag (i : ℕ) : Text := numberTag "[Q-".toList 6 i

/-- `f"[NOVEL-{cfg.seed:03d}-{i:06d}]"`. -/
def novelTag (seed : ℤ) (i : ℕ) : Text :=
  "[NOVEL-".toList ++ (paddedInt 3 seed ++ numberTag "-".toList 6 i)

section Generate

variable (rng : PyRandom)

/-- `_filler`: the tag and random words. -/
def filler (approxTokens : ℤ) (tag : Text) : Py rng.State Text := do
  let drawn ← rng.choices words none (max 1 (Int.tdiv (3 * approxTokens) 4)).toNat
  return [' '].intercalate (tag :: drawn)

/-- `build_prefix_pool`. -/
def buildPrefixPool (cfg : WorkloadConfig) : Except PyError (List Text) :=
  (((List.range cfg.prefixPoolSize.toNat).mapM fun i =>
    filler rng cfg.prefixTokens (prefixTag i)).exec (rng.init cfg.poolSeed)).1

/-- One turn of the loop of `generate`. -/
def zipfRequest (cfg : WorkloadConfig) (prefixes : List Text) (weights : List ℚ) (i : ℕ) :
    Py rng.State Request := do
  let drawn ← rng.choices (List.range cfg.prefixPoolSize.toNat) (some weights) 1
  let pid ← Py.ofExcept (pyGet drawn 0)
  let suffix ← filler rng cfg.suffixTokens (queryTag i)
  let shared ← Py.ofExcept (pyGet prefixes pid)
  return ⟨i, pid, shared ++ '\n' :: suffix⟩

/-- `generate`. -/
def generate (pow : ℕ → ℚ → Except PyError ℚ) (cfg : WorkloadConfig) : Except PyError (List Request) := do
  let prefixes ← buildPrefixPool rng cfg
  let weights ← zipfWeights pow cfg.prefixPoolSize cfg.zipfS
  (((List.range cfg.numRequests.toNat).mapM (zipfRequest rng cfg prefixes weights)).exec
    (rng.init (cfg.seed + 1))).1

/-- One turn of the loop of `generate_novel`. -/
def novelRequest (cfg : NovelWorkloadConfig) (i : ℕ) : Py rng.State Request := do
  let body ← filler rng cfg.promptTokens (novelTag cfg.seed i)
  let suffix ← filler rng cfg.suffixTokens (queryTag i)
  return ⟨i, i, body ++ '\n' :: suffix⟩

/-- `generate_novel`. -/
def generateNovel (cfg : NovelWorkloadConfig) : Except PyError (List Request) :=
  (((List.range cfg.numRequests.toNat).mapM (novelRequest rng cfg)).exec
    (rng.init (cfg.seed + 1))).1

end Generate

/-- `reuse_factor`: requests per distinct prefix. -/
def reuseFactor (prefixIds : List ℕ) : ℚ :=
  if prefixIds = [] then 0 else prefixIds.length / prefixIds.dedup.length

/-! ### The tags -/

section Tags

variable {i j : ℕ} {seed seed' : ℤ}

/-- Numbers after the same label. -/
theorem diverge_numberTag (label : Text) (width : ℕ) (h : i ≠ j) :
    Diverge (numberTag label width i) (numberTag label width j) :=
  (diverge_padded h width rfl rfl [] []).append_left label

theorem diverge_prefixTag (h : i ≠ j) : Diverge (prefixTag i) (prefixTag j) :=
  diverge_numberTag _ 3 h

theorem diverge_queryTag (h : i ≠ j) : Diverge (queryTag i) (queryTag j) :=
  diverge_numberTag _ 6 h

/-- Tags of one seed diverge at the index. -/
theorem diverge_novelTag (seed : ℤ) (h : i ≠ j) : Diverge (novelTag seed i) (novelTag seed j) :=
  ((diverge_numberTag _ 6 h).append_left _).append_left _

/-- Tags of different seeds diverge at the seed already. -/
theorem diverge_novelTag_of_seed (hseed : 0 ≤ seed) (hseed' : 0 ≤ seed') (h : seed ≠ seed')
    (i j : ℕ) : Diverge (novelTag seed i) (novelTag seed' j) := by
  obtain ⟨n, rfl⟩ := Int.eq_ofNat_of_zero_le hseed
  obtain ⟨n', rfl⟩ := Int.eq_ofNat_of_zero_le hseed'
  have hne : n ≠ n' := fun heq => h (heq ▸ rfl)
  apply Diverge.append_left
  exact diverge_padded hne 3 rfl rfl _ _

end Tags

/-! ### Zipfian requests -/

section Requests

variable {rng : PyRandom} {pow : ℕ → ℚ → Except PyError ℚ} {cfg : WorkloadConfig} {prefixes : List Text}
  {weights : List ℚ} {requests : List Request} {i j : ℕ} {r r' : Request}

/-- Words that are joined begin with the first of them. -/
theorem prefix_join (word : Text) (rest : List Text) : word <+: [' '].intercalate (word :: rest) := by
  cases rest with
  | nil => exact ⟨[], by simp⟩
  | cons next rest => exact ⟨' ' :: [' '].intercalate (next :: rest), by simp⟩

/-- A filler begins with its tag. -/
theorem exec_filler (rng : PyRandom) (approxTokens : ℤ) (tag : Text) (s : rng.State) :
    ∃ text s', (filler rng approxTokens tag).exec s = (.ok text, s') ∧ tag <+: text := by
  obtain ⟨drawn, s', hdrawn, -, -⟩ := rng.exec_choices (show words ≠ [] by decide) none
    (max 1 (Int.tdiv (3 * approxTokens) 4)).toNat s
  refine ⟨[' '].intercalate (tag :: drawn), s', ?_, prefix_join tag drawn⟩
  rw [filler, Py.exec_bind_of_ok hdrawn]
  rfl

/-- The pool, each prefix with its tag. -/
theorem buildPrefixPool_ok (rng : PyRandom) (cfg : WorkloadConfig) :
    ∃ prefixes, buildPrefixPool rng cfg = .ok prefixes ∧
      List.Forall₂ (fun i shared => prefixTag i <+: shared) (List.range cfg.prefixPoolSize.toNat)
        prefixes := by
  obtain ⟨prefixes, s', hprefixes, htags⟩ := Py.exec_mapM
    (l := List.range cfg.prefixPoolSize.toNat)
    (fun i _ s => exec_filler rng cfg.prefixTokens (prefixTag i) s) (rng.init cfg.poolSeed)
  exact ⟨prefixes, congrArg Prod.fst hprefixes, htags⟩

/-- The weights, of a pool that is not empty, if the powers are positive. -/
theorem zipfWeights_ok {n : ℤ} {s : ℚ} (hn : 0 < n) (hpow : ∀ k : ℕ, 0 < k → k ≤ n → ∃ q, 0 < q ∧ pow k s = .ok q) :
    ∃ weights, zipfWeights pow n s = .ok weights := by
  obtain ⟨raw, hraw, hpos⟩ : ∃ raw, (List.range n.toNat).mapM (fun k => do pyDiv 1 (← pow (k + 1) s)) = .ok raw ∧
      List.Forall₂ (fun _ w => 0 < w) (List.range n.toNat) raw := by
    refine exists_mapM fun k hk => ?_
    have hk' := List.mem_range.mp hk
    obtain ⟨q, hq, hqpow⟩ := hpow (k + 1) (Nat.succ_pos k) (by omega)
    refine ⟨1 / q, ?_, by positivity⟩
    rw [hqpow]
    exact pyDiv_of_ne_zero 1 hq.ne'
  have htotal : 0 < raw.sum := by
    apply List.sum_pos
    · intro w hw
      obtain ⟨i, hi, rfl⟩ := List.getElem_of_mem hw
      exact hpos.get (hpos.length_eq ▸ hi) hi
    · rw [← List.length_pos_iff, ← hpos.length_eq, List.length_range]
      omega
  rw [zipfWeights, if_neg (not_le.mpr hn), hraw, ok_bind]
  exact ⟨_, mapM_eq_map fun w _ => pyDiv_of_ne_zero w htotal.ne'⟩

/-- Weights are of a pool that is not empty. -/
theorem pos_of_zipfWeights {n : ℤ} {s : ℚ} (h : zipfWeights pow n s = .ok weights) : 0 < n := by
  rw [zipfWeights] at h
  split_ifs at h with hn
  exact not_le.mp hn

/-- What the `i`-th request is: a prefix of the pool, and a suffix with its tag. -/
structure IsZipfRequest (prefixes : List Text) (i : ℕ) (r : Request) : Prop where
  /-- Its index. -/
  index : r.index = i
  /-- Its prompt. -/
  prompt : ∃ shared suffix, prefixes[r.prefixId]? = some shared ∧ prefixTag r.prefixId <+: shared ∧
    queryTag i <+: suffix ∧ r.prompt = shared ++ '\n' :: suffix

/-- One turn of the loop. -/
theorem exec_zipfRequest (hsize : 0 < cfg.prefixPoolSize)
    (htags : List.Forall₂ (fun i shared => prefixTag i <+: shared)
      (List.range cfg.prefixPoolSize.toNat) prefixes) (weights : List ℚ) (i : ℕ) (s : rng.State) :
    ∃ r s', (zipfRequest rng cfg prefixes weights i).exec s = (.ok r, s') ∧
      IsZipfRequest prefixes i r := by
  have hne : List.range cfg.prefixPoolSize.toNat ≠ [] := by
    rw [ne_eq, List.range_eq_nil]
    omega
  obtain ⟨drawn, s₁, hdrawn, hlength, hmem⟩ := rng.exec_choices hne (some weights) 1 s
  obtain ⟨pid, rfl⟩ := List.length_eq_one_iff.mp hlength
  obtain ⟨suffix, s₂, hsuffix, hquery⟩ := exec_filler rng cfg.suffixTokens (queryTag i) s₁
  have hpid : pid < (List.range cfg.prefixPoolSize.toNat).length := by
    simpa using hmem pid List.mem_cons_self
  have hpid' : pid < prefixes.length := htags.length_eq ▸ hpid
  have htag : prefixTag pid <+: prefixes[pid] := by
    simpa using htags.get hpid hpid'
  refine ⟨⟨i, pid, prefixes[pid] ++ '\n' :: suffix⟩, s₂, ?_, rfl, prefixes[pid], suffix,
    List.getElem?_eq_getElem hpid', htag, hquery, rfl⟩
  have hget : pyGet [pid] 0 = .ok pid := rfl
  have hshared : pyGet prefixes pid = .ok prefixes[pid] := by
    rw [pyGet, List.getElem?_eq_getElem hpid']
  rw [zipfRequest, Py.exec_bind_of_ok hdrawn, hget,
    Py.exec_bind_of_ok (Py.exec_ofExcept (.ok pid) s₁), Py.exec_bind_of_ok hsuffix, hshared,
    Py.exec_bind_of_ok (Py.exec_ofExcept (.ok prefixes[pid]) s₂)]
  rfl

/-- What a loop over the first numbers made of the `i`-th. -/
theorem of_forall₂_range {β : Type} {R : ℕ → β → Prop} {n i : ℕ} {l : List β} {b : β}
    (h : List.Forall₂ R (List.range n) l) (hb : l[i]? = some b) : R i b := by
  obtain ⟨hi, rfl⟩ := List.getElem?_eq_some_iff.mp hb
  simpa using h.get (h.length_eq ▸ hi) hi

/-- With weights, `generate` returns its requests. -/
theorem generate_ok (rng : PyRandom)
    (hweights : zipfWeights pow cfg.prefixPoolSize cfg.zipfS = .ok weights) :
    ∃ prefixes requests, buildPrefixPool rng cfg = .ok prefixes ∧
      generate rng pow cfg = .ok requests ∧
      List.Forall₂ (IsZipfRequest prefixes) (List.range cfg.numRequests.toNat) requests := by
  obtain ⟨prefixes, hprefixes, htags⟩ := buildPrefixPool_ok rng cfg
  obtain ⟨requests, s', hrequests, hall⟩ := Py.exec_mapM (l := List.range cfg.numRequests.toNat)
    (fun i _ s => exec_zipfRequest (pos_of_zipfWeights hweights) htags weights i s)
    (rng.init (cfg.seed + 1))
  refine ⟨prefixes, requests, hprefixes, ?_, hall⟩
  rw [generate, hprefixes, ok_bind, hweights, ok_bind, hrequests]

/-- Prompts of different prefixes differ within their tags. -/
theorem IsZipfRequest.differWithin (h : IsZipfRequest prefixes i r)
    (h' : IsZipfRequest prefixes j r') (hne : r.prefixId ≠ r'.prefixId) :
    DifferWithin (prefixTag r.prefixId) (prefixTag r'.prefixId) r.prompt r'.prompt := by
  obtain ⟨shared, suffix, -, htag, -, hprompt⟩ := h.prompt
  obtain ⟨shared', suffix', -, htag', -, hprompt'⟩ := h'.prompt
  rw [hprompt, hprompt']
  apply (diverge_prefixTag hne).differWithin
  · exact htag.trans (List.prefix_append _ _)
  · exact htag'.trans (List.prefix_append _ _)

/-- Prompts of one prefix differ within the tags of their suffixes. -/
theorem IsZipfRequest.prompt_ne (h : IsZipfRequest prefixes i r) (h' : IsZipfRequest prefixes j r')
    (hne : i ≠ j) : r.prompt ≠ r'.prompt := by
  by_cases hid : r.prefixId = r'.prefixId
  · obtain ⟨shared, _, hget, -, ⟨suffix, rfl⟩, hprompt⟩ := h.prompt
    obtain ⟨shared', _, hget', -, ⟨suffix', rfl⟩, hprompt'⟩ := h'.prompt
    obtain rfl : shared = shared' := Option.some.inj (hget.symm.trans (hid ▸ hget'))
    rw [hprompt, hprompt']
    have hdiverge := (diverge_queryTag hne).append suffix suffix'
    exact ((hdiverge.append_left ['\n']).append_left shared).ne
  · exact (h.differWithin h' hid).ne

/-- **The Zipfian workload.** Every prompt begins with its prefix of the pool, prompts of different
prefixes differ within their tags, and no two prompts are the same. -/
theorem generate_spec (h : generate rng pow cfg = .ok requests) :
    ∃ prefixes, buildPrefixPool rng cfg = .ok prefixes ∧
      requests.length = cfg.numRequests.toNat ∧
      (∀ r ∈ requests, ∃ shared, prefixes[r.prefixId]? = some shared ∧ shared <+: r.prompt) ∧
      (∀ r ∈ requests, ∀ r' ∈ requests, r.prefixId ≠ r'.prefixId →
        DifferWithin (prefixTag r.prefixId) (prefixTag r'.prefixId) r.prompt r'.prompt) ∧
      (requests.map (·.prompt)).Nodup := by
  obtain ⟨weights, hweights⟩ :
      ∃ weights, zipfWeights pow cfg.prefixPoolSize cfg.zipfS = .ok weights := by
    obtain ⟨prefixes, hprefixes, -⟩ := buildPrefixPool_ok rng cfg
    rw [generate, hprefixes, ok_bind, bind_eq_ok] at h
    obtain ⟨weights, hweights, -⟩ := h
    exact ⟨weights, hweights⟩
  obtain ⟨prefixes, requests', hprefixes, hrequests, hall⟩ := generate_ok rng hweights
  obtain rfl : requests = requests' := Except.ok.inj (h.symm.trans hrequests)
  refine ⟨prefixes, hprefixes, ?_, ?_, ?_, ?_⟩
  · rw [← hall.length_eq, List.length_range]
  · intro r hr
    obtain ⟨i, hi⟩ := List.mem_iff_getElem?.mp hr
    obtain ⟨shared, suffix, hget, -, -, hprompt⟩ := (of_forall₂_range hall hi).prompt
    exact ⟨shared, hget, '\n' :: suffix, hprompt.symm⟩
  · intro r hr r' hr' hne
    obtain ⟨i, hi⟩ := List.mem_iff_getElem?.mp hr
    obtain ⟨j, hj⟩ := List.mem_iff_getElem?.mp hr'
    exact (of_forall₂_range hall hi).differWithin (of_forall₂_range hall hj) hne
  · rw [List.Nodup, List.pairwise_map, List.pairwise_iff_getElem]
    intro i j hi hj hij
    exact (of_forall₂_range hall (List.getElem?_eq_getElem hi)).prompt_ne
      (of_forall₂_range hall (List.getElem?_eq_getElem hj)) hij.ne

end Requests

/-! ### Novel requests -/

section Novel

variable {requests : List Request}

/-- What the `i`-th novel request is. -/
structure IsNovelRequest (seed : ℤ) (i : ℕ) (r : Request) : Prop where
  /-- Its index. -/
  index : r.index = i
  /-- It is its own prefix. -/
  prefixId : r.prefixId = i
  /-- Its prompt begins with its tag. -/
  prompt : novelTag seed i <+: r.prompt

/-- One turn of the loop. -/
theorem exec_novelRequest (rng : PyRandom) (cfg : NovelWorkloadConfig) (i : ℕ) (s : rng.State) :
    ∃ r s', (novelRequest rng cfg i).exec s = (.ok r, s') ∧ IsNovelRequest cfg.seed i r := by
  obtain ⟨body, s₁, hbody, htag⟩ := exec_filler rng cfg.promptTokens (novelTag cfg.seed i) s
  obtain ⟨suffix, s₂, hsuffix, -⟩ := exec_filler rng cfg.suffixTokens (queryTag i) s₁
  refine ⟨⟨i, i, body ++ '\n' :: suffix⟩, s₂, ?_, rfl, rfl, htag.trans (List.prefix_append _ _)⟩
  rw [novelRequest, Py.exec_bind_of_ok hbody, Py.exec_bind_of_ok hsuffix]
  rfl

/-- `generate_novel` returns its requests. -/
theorem generateNovel_ok (rng : PyRandom) (cfg : NovelWorkloadConfig) :
    ∃ requests, generateNovel rng cfg = .ok requests ∧
      List.Forall₂ (IsNovelRequest cfg.seed) (List.range cfg.numRequests.toNat) requests := by
  obtain ⟨requests, s', hrequests, hall⟩ := Py.exec_mapM (l := List.range cfg.numRequests.toNat)
    (fun i _ s => exec_novelRequest rng cfg i s) (rng.init (cfg.seed + 1))
  exact ⟨requests, congrArg Prod.fst hrequests, hall⟩

/-- The prefix ids are the indices. -/
theorem map_prefixId_of_forall₂ {seed : ℤ} {n : ℕ}
    (h : List.Forall₂ (IsNovelRequest seed) (List.range n) requests) :
    requests.map (·.prefixId) = List.range n := by
  refine List.ext_getElem (by rw [List.length_map, h.length_eq]) fun i hi hi' => ?_
  rw [List.length_map] at hi
  rw [List.getElem_map, (of_forall₂_range h (List.getElem?_eq_getElem hi)).prefixId,
    List.getElem_range]

/-- Distinct prefixes are not used again. -/
theorem reuseFactor_of_nodup {prefixIds : List ℕ} (h : prefixIds.Nodup) (hne : prefixIds ≠ []) :
    reuseFactor prefixIds = 1 := by
  rw [reuseFactor, if_neg hne, h.dedup]
  apply div_self
  exact_mod_cast (List.length_pos_iff.mpr hne).ne'

/-- **The novel workload.** Prompts differ within their tags, also those of another seed, if no seed
is negative; no prefix is used twice. -/
theorem generateNovel_spec (rng : PyRandom) (cfg : NovelWorkloadConfig) :
    ∃ requests, generateNovel rng cfg = .ok requests ∧ requests.length = cfg.numRequests.toNat ∧
      requests.Pairwise (fun r r' => DifferWithin (novelTag cfg.seed r.index)
        (novelTag cfg.seed r'.index) r.prompt r'.prompt) ∧
      (∀ cfg' requests', 0 ≤ cfg.seed → 0 ≤ cfg'.seed → cfg.seed ≠ cfg'.seed →
        generateNovel rng cfg' = .ok requests' → ∀ r ∈ requests, ∀ r' ∈ requests',
        DifferWithin (novelTag cfg.seed r.index) (novelTag cfg'.seed r'.index) r.prompt r'.prompt) ∧
      (requests ≠ [] → reuseFactor (requests.map (·.prefixId)) = 1) := by
  obtain ⟨requests, hrequests, hall⟩ := generateNovel_ok rng cfg
  refine ⟨requests, hrequests, by rw [← hall.length_eq, List.length_range], ?_, ?_, ?_⟩
  · rw [List.pairwise_iff_getElem]
    intro i j hi hj hij
    have h := of_forall₂_range hall (List.getElem?_eq_getElem hi)
    have h' := of_forall₂_range hall (List.getElem?_eq_getElem hj)
    rw [h.index, h'.index]
    exact (diverge_novelTag cfg.seed hij.ne).differWithin h.prompt h'.prompt
  · intro cfg' requests' hseed hseed' hne hrequests' r hr r' hr'
    obtain ⟨requests₁, hrequests₁, hall'⟩ := generateNovel_ok rng cfg'
    obtain rfl : requests' = requests₁ := Except.ok.inj (hrequests'.symm.trans hrequests₁)
    obtain ⟨i, hi⟩ := List.mem_iff_getElem?.mp hr
    obtain ⟨j, hj⟩ := List.mem_iff_getElem?.mp hr'
    have h := of_forall₂_range hall hi
    have h' := of_forall₂_range hall' hj
    rw [h.index, h'.index]
    exact (diverge_novelTag_of_seed hseed hseed' hne i j).differWithin h.prompt h'.prompt
  · intro hnonempty
    rw [map_prefixId_of_forall₂ hall]
    apply reuseFactor_of_nodup List.nodup_range
    rintro hnil
    rw [hnil] at hall
    exact hnonempty (List.forall₂_nil_left_iff.mp hall)

end Novel

/-- **Where prompts differ.** The Zipfian workload is generated for every pool with a positive size;
the novel one always. Whatever is drawn, prompts differ within their tags. -/
theorem prompts_differ (rng : PyRandom) (pow : ℕ → ℚ → Except PyError ℚ) :
    (∀ cfg : WorkloadConfig,
      (0 < cfg.prefixPoolSize →
        (∀ k : ℕ, 0 < k → k ≤ cfg.prefixPoolSize → ∃ q, 0 < q ∧ pow k cfg.zipfS = .ok q) →
        ∃ requests, generate rng pow cfg = .ok requests) ∧
      ∀ requests, generate rng pow cfg = .ok requests →
        ∃ prefixes, buildPrefixPool rng cfg = .ok prefixes ∧
        requests.length = cfg.numRequests.toNat ∧
        (∀ r ∈ requests, ∃ shared, prefixes[r.prefixId]? = some shared ∧ shared <+: r.prompt) ∧
        (∀ r ∈ requests, ∀ r' ∈ requests, r.prefixId ≠ r'.prefixId →
          DifferWithin (prefixTag r.prefixId) (prefixTag r'.prefixId) r.prompt r'.prompt) ∧
        (requests.map (·.prompt)).Nodup) ∧
    ∀ cfg : NovelWorkloadConfig, ∃ requests, generateNovel rng cfg = .ok requests ∧
      requests.length = cfg.numRequests.toNat ∧
      requests.Pairwise (fun r r' => DifferWithin (novelTag cfg.seed r.index)
        (novelTag cfg.seed r'.index) r.prompt r'.prompt) ∧
      (∀ cfg' requests', 0 ≤ cfg.seed → 0 ≤ cfg'.seed → cfg.seed ≠ cfg'.seed →
        generateNovel rng cfg' = .ok requests' → ∀ r ∈ requests, ∀ r' ∈ requests',
        DifferWithin (novelTag cfg.seed r.index) (novelTag cfg'.seed r'.index) r.prompt r'.prompt) ∧
      (requests ≠ [] → reuseFactor (requests.map (·.prefixId)) = 1) := by
  refine ⟨fun cfg => ⟨fun hsize hpow => ?_, fun requests h => generate_spec h⟩,
    generateNovel_spec rng⟩
  obtain ⟨weights, hweights⟩ := zipfWeights_ok hsize hpow
  obtain ⟨prefixes, requests, -, hrequests, -⟩ := generate_ok rng hweights
  exact ⟨requests, hrequests⟩

/-- Two prefixes and two requests, all prefixes equally popular. -/
theorem prompts_differ_twoPrefixes :
    ∃ requests prefixes,
      generate .cycle (fun _ _ => .ok 1) { numRequests := 2, prefixPoolSize := 2, zipfS := 0 } =
        .ok requests ∧
      buildPrefixPool .cycle { numRequests := 2, prefixPoolSize := 2, zipfS := 0 } = .ok prefixes ∧
      (requests.map (·.prompt)).Nodup := by
  obtain ⟨hreturns, hspec⟩ := (prompts_differ .cycle fun _ _ => .ok 1).1
    { numRequests := 2, prefixPoolSize := 2, zipfS := 0 }
  obtain ⟨requests, hrequests⟩ := hreturns (by decide) fun _ _ _ => ⟨1, one_pos, rfl⟩
  obtain ⟨prefixes, hprefixes, -, -, -, hnodup⟩ := hspec requests hrequests
  exact ⟨requests, prefixes, hrequests, hprefixes, hnodup⟩

end CachingInLLMs.Benchmarks

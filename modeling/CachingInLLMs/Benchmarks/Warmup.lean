import CachingInLLMs.Benchmarks.FrozenDataset
import Mathlib.Data.List.Sigma

/-!
# The warm-up

Before anything is measured, `warmup.py` sends every prefix of the pool, a number of times, with a
tag of its own behind it. No engine has seen a prompt of the warm-up before, and no request of the
workload is one; but each request begins as the prompts of its prefix do.

Only the last pass decides the code that `run` returns. The requests of a pass overlap, and the
answer to a prompt is any: prompts are never repeated, so it is one function of the prompt.
-/

namespace CachingInLLMs.Benchmarks.FrozenDataset

open CachingInLLMs.Library

/-! ### The command -/

/-- `f"[WARMUP-{pass_no}-{i:03d}]"`. -/
def warmupTag (passNo i : ℕ) : Text := "[WARMUP-".toList ++ (natText passNo ++ numberTag "-".toList 3 i)

/-- The prompt of a prefix, in a pass. -/
def warmupPrompt (passNo i : ℕ) (shared : Text) : Text :=
  shared ++ '\n' :: (warmupTag passNo i ++ " summarize:".toList)

/-- The prompts of a pass. -/
def warmupPass (pool : List Text) (passNo : ℕ) : List Text := pool.zipIdx.map fun p => warmupPrompt passNo p.2 p.1

/-- What `run` has sent, and `failed`, which is not bound before the first pass. -/
structure Warmup where
  /-- The prompts that were sent. -/
  sent : List Text
  /-- `failed`. -/
  failed : Option ℕ

/-- A pass: the requests that are not answered are counted. -/
def Warmup.pass (pool : List Text) (answered : Text → Bool) (w : Warmup) (passNo : ℕ) : Warmup where
  sent := w.sent ++ warmupPass pool passNo
  failed := some ((warmupPass pool passNo).countP fun prompt => !answered prompt)

/-- All passes. -/
def warmupPasses (pool : List Text) (passes : ℤ) (answered : Text → Bool) : Warmup :=
  (List.range' 1 passes.toNat).foldl (Warmup.pass pool answered) ⟨[], none⟩

/-- `run`: the prompts that it sends, and its code. -/
def warmup (rng : PyRandom) (passes : ℤ) (answered : Text → Bool) : Except PyError (List Text × ℕ) := do
  let pool ← buildPrefixPool rng (frozenConfig 0)
  let w := warmupPasses pool passes answered
  match w.failed with
  | none => .error (.other "UnboundLocalError")
  | some failed => return (w.sent, if failed = 0 then 0 else 1)

/-! ### Prompts -/

section Prompts

variable {passNo passNo' i i' : ℕ} {shared shared' suffix : Text} {pool : List Text}

/-- Tags of different passes, or of different prefixes. -/
theorem diverge_warmupTag (h : passNo ≠ passNo' ∨ i ≠ i') : Diverge (warmupTag passNo i) (warmupTag passNo' i') := by
  apply Diverge.append_left
  by_cases hpass : passNo = passNo'
  · subst hpass
    exact (diverge_numberTag _ 3 (h.resolve_left fun hne => hne rfl)).append_left _
  · refine diverge_of_ne (p := Char.isDigit) ?_ ?_ rfl rfl fun heq => hpass (natText_injective heq)
    · exact fun c hc => isDigit_of_mem_natText hc
    · exact fun c hc => isDigit_of_mem_natText hc

/-- A warm-up tag is no tag of a request. -/
theorem diverge_warmupTag_queryTag (passNo i j : ℕ) : Diverge (warmupTag passNo i) (queryTag j) :=
  ⟨['['], 'W', 'Q', _, _, by decide, rfl, rfl⟩

/-- The prefixes of the pool begin with their tags. -/
def Tagged (pool : List Text) : Prop := ∀ i shared, pool[i]? = some shared → prefixTag i <+: shared

/-- Texts that begin with prefixes of the pool differ, unless it is the same one. -/
theorem Tagged.eq_of_append (hpool : Tagged pool) (h : pool[i]? = some shared) (h' : pool[i']? = some shared')
    {rest rest' : Text} (heq : shared ++ rest = shared' ++ rest') : i = i' ∧ rest = rest' := by
  by_cases hi : i = i'
  · subst hi
    obtain rfl : shared = shared' := Option.some.inj (h.symm.trans h')
    exact ⟨rfl, List.append_cancel_left heq⟩
  · obtain ⟨text, rfl⟩ := hpool i shared h
    obtain ⟨text', rfl⟩ := hpool i' shared' h'
    rw [List.append_assoc, List.append_assoc] at heq
    exact absurd heq ((diverge_prefixTag hi).append _ _).ne

theorem mem_warmupPass {prompt : Text} :
    prompt ∈ warmupPass pool passNo ↔ ∃ i shared, pool[i]? = some shared ∧ prompt = warmupPrompt passNo i shared := by
  rw [warmupPass, List.mem_map]
  constructor
  · rintro ⟨⟨shared, i⟩, hmem, rfl⟩
    exact ⟨i, shared, List.mk_mem_zipIdx_iff_getElem?.mp hmem, rfl⟩
  · rintro ⟨i, shared, hget, rfl⟩
    exact ⟨(shared, i), List.mk_mem_zipIdx_iff_getElem?.mpr hget, rfl⟩

/-- One prompt is sent once. -/
theorem Tagged.eq_of_warmupPrompt (hpool : Tagged pool) (h : pool[i]? = some shared) (h' : pool[i']? = some shared')
    (heq : warmupPrompt passNo i shared = warmupPrompt passNo' i' shared') : passNo = passNo' ∧ i = i' := by
  obtain ⟨-, hrest⟩ := hpool.eq_of_append h h' heq
  by_contra hne
  have hdiverge := (diverge_warmupTag (not_and_or.mp hne)).append " summarize:".toList " summarize:".toList
  exact hdiverge.ne (List.cons.inj hrest).2

theorem Tagged.nodup_warmupPass (hpool : Tagged pool) (passNo : ℕ) : (warmupPass pool passNo).Nodup := by
  refine List.Nodup.map_on ?_ (List.Nodup.of_map _ (List.nodup_zipIdx_map_snd pool))
  rintro ⟨shared, i⟩ hmem ⟨shared', i'⟩ hmem' heq
  have hget := List.mk_mem_zipIdx_iff_getElem?.mp hmem
  have hget' := List.mk_mem_zipIdx_iff_getElem?.mp hmem'
  obtain ⟨-, rfl⟩ := hpool.eq_of_warmupPrompt hget hget' heq
  rw [Option.some.inj (hget.symm.trans hget')]

/-- Neither is one sent in two passes. -/
theorem Tagged.nodup_flatMap (hpool : Tagged pool) (passes : List ℕ) (h : passes.Nodup) :
    (passes.flatMap (warmupPass pool)).Nodup := by
  rw [List.nodup_flatMap]
  refine ⟨fun passNo _ => hpool.nodup_warmupPass passNo, h.imp fun hne prompt hmem hmem' => ?_⟩
  obtain ⟨i, shared, hget, rfl⟩ := mem_warmupPass.mp hmem
  obtain ⟨i', shared', hget', heq⟩ := mem_warmupPass.mp hmem'
  exact hne (hpool.eq_of_warmupPrompt hget hget' heq).1

/-- A request is never sent. -/
theorem Tagged.ne_warmupPrompt (hpool : Tagged pool) (h : pool[i]? = some shared) (h' : pool[i']? = some shared')
    {j : ℕ} (hsuffix : queryTag j <+: suffix) : shared' ++ '\n' :: suffix ≠ warmupPrompt passNo i shared := by
  intro heq
  obtain ⟨rest, rfl⟩ := hsuffix
  obtain ⟨-, hrest⟩ := hpool.eq_of_append h' h heq
  have hdiverge := (diverge_warmupTag_queryTag passNo i j).symm.append rest " summarize:".toList
  exact hdiverge.ne (List.cons.inj hrest).2

end Prompts

/-! ### What the warm-up does -/

section Covers

variable {m : Machine} {pool : List Text} {passes : ℤ} {answered : Text → Bool}

/-- The loop over the passes. -/
theorem sent_foldl_pass (pool : List Text) (answered : Text → Bool) (passNos : List ℕ) (w : Warmup) :
    (passNos.foldl (Warmup.pass pool answered) w).sent = w.sent ++ passNos.flatMap (warmupPass pool) := by
  induction passNos generalizing w with
  | nil => exact (List.append_nil _).symm
  | cons passNo passNos ih => rw [List.foldl_cons, ih, List.flatMap_cons, Warmup.pass, List.append_assoc]

/-- The last pass decides. -/
theorem warmupPasses_of_pos (hpasses : 0 < passes) : warmupPasses pool passes answered =
    ⟨(List.range' 1 passes.toNat).flatMap (warmupPass pool),
      some ((warmupPass pool passes.toNat).countP fun prompt => !answered prompt)⟩ := by
  obtain ⟨n, hn⟩ : ∃ n, passes.toNat = n + 1 := ⟨passes.toNat - 1, by omega⟩
  rw [warmupPasses, hn, List.range'_concat, List.foldl_concat, List.flatMap_append, List.flatMap_singleton]
  have hlast : 1 + 1 * n = n + 1 := by omega
  rw [hlast, Warmup.pass, sent_foldl_pass, List.nil_append]

/-- The pool of every frozen config. -/
theorem exists_pool (m : Machine) : ∃ pool, buildPrefixPool m.rng (frozenConfig 0) = .ok pool ∧
    pool.length = 128 ∧ Tagged pool ∧ ∀ seed : ℕ, ∀ r ∈ m.frozen .zipfian seed, ∃ i, IsZipfRequest pool i r := by
  obtain ⟨pool, hpool, htags⟩ := buildPrefixPool_ok m.rng (frozenConfig 0)
  refine ⟨pool, hpool, ?_, ?_, ?_⟩
  · rw [← htags.length_eq, List.length_range]
    rfl
  · exact fun i shared h => of_forall₂_range htags h
  · intro seed r hr
    have hsize : 0 < (frozenConfig seed).prefixPoolSize := by
      rw [frozenConfig]
      norm_num
    obtain ⟨weights, hweights⟩ := zipfWeights_ok hsize m.pow_pos
    obtain ⟨prefixes, requests, hprefixes, hrequests, hall⟩ := generate_ok m.rng hweights
    -- the pool does not depend on the seed
    obtain rfl : pool = prefixes := Except.ok.inj (hpool.symm.trans hprefixes)
    obtain rfl : m.frozen .zipfian seed = requests :=
      Except.ok.inj ((requests_eq m .zipfian seed).symm.trans hrequests)
    obtain ⟨i, hi⟩ := List.mem_iff_getElem?.mp hr
    exact ⟨i, of_forall₂_range hall hi⟩

/-- **The warm-up covers the workload.** It sends no prompt twice and no request of the workload, and returns 0
exactly if all of its last pass was answered. For every request of every seed, each pass has a prompt that begins
with the same prefix and newline as the request. -/
theorem warmup_covers (m : Machine) (answered : Text → Bool) (hpasses : 0 < passes) :
    ∃ pool sent code, buildPrefixPool m.rng (frozenConfig 0) = .ok pool ∧ pool.length = 128 ∧
      warmup m.rng passes answered = .ok (sent, code) ∧ sent.Nodup ∧
      (code = 0 ↔ ∀ prompt ∈ warmupPass pool passes.toNat, answered prompt) ∧
      ∀ seed, ∀ r ∈ m.frozen .zipfian seed, r.prompt ∉ sent ∧
        ∃ shared, pool[r.prefixId]? = some shared ∧ shared ++ ['\n'] <+: r.prompt ∧
          ∀ passNo, 1 ≤ passNo → passNo ≤ passes.toNat →
            ∃ prompt ∈ warmupPass pool passNo, prompt ∈ sent ∧ shared ++ ['\n'] <+: prompt := by
  obtain ⟨pool, hpool, hlength, htagged, hrequests⟩ := exists_pool m
  have hwarmup : warmup m.rng passes answered = .ok ((List.range' 1 passes.toNat).flatMap (warmupPass pool),
      if (warmupPass pool passes.toNat).countP (fun prompt => !answered prompt) = 0 then 0 else 1) := by
    rw [warmup, hpool, ok_bind]
    simp only [warmupPasses_of_pos hpasses]
    rfl
  refine ⟨pool, _, _, hpool, hlength, hwarmup, htagged.nodup_flatMap _ List.nodup_range', ?_, ?_⟩
  · have hcount : (warmupPass pool passes.toNat).countP (fun prompt => !answered prompt) = 0 ↔
        ∀ prompt ∈ warmupPass pool passes.toNat, answered prompt := by
      rw [List.countP_eq_zero]
      simp only [Bool.not_eq_true', Bool.not_eq_false]
    rw [← hcount]
    exact ⟨fun hcode => by_contra fun h => one_ne_zero ((if_neg h).symm.trans hcode), fun h => if_pos h⟩
  · intro seed r hr
    obtain ⟨j, hzipf⟩ := hrequests seed r hr
    obtain ⟨shared, suffix, hget, -, hsuffix, hprompt⟩ := hzipf.prompt
    refine ⟨fun hsent => ?_, shared, hget, ⟨suffix, by rw [hprompt, List.append_assoc]; rfl⟩, fun passNo h1 hle => ?_⟩
    · obtain ⟨passNo, -, hmem⟩ := List.mem_flatMap.mp hsent
      obtain ⟨i, shared', hget', heq⟩ := mem_warmupPass.mp hmem
      exact htagged.ne_warmupPrompt hget' hget hsuffix (hprompt.symm.trans heq)
    · have hmem : warmupPrompt passNo r.prefixId shared ∈ warmupPass pool passNo :=
        mem_warmupPass.mpr ⟨r.prefixId, shared, hget, rfl⟩
      refine ⟨_, hmem, List.mem_flatMap.mpr ⟨passNo, List.mem_range'_1.mpr ⟨h1, by omega⟩, hmem⟩, ?_⟩
      exact ⟨warmupTag passNo r.prefixId ++ " summarize:".toList, by rw [warmupPrompt, List.append_assoc]; rfl⟩

/-- Two passes, all answered. -/
theorem warmup_covers_two : ∃ sent, warmup (Sample.cycling 0).rng 2 (fun _ => true) = .ok (sent, 0) ∧ sent.Nodup := by
  obtain ⟨pool, sent, code, -, -, hwarmup, hnodup, hcode, -⟩ :=
    warmup_covers (Sample.cycling 0) (fun _ => true) (show (0 : ℤ) < 2 by decide)
  rw [hcode.mpr fun _ _ => rfl] at hwarmup
  exact ⟨sent, hwarmup, hnodup⟩

end Covers

end CachingInLLMs.Benchmarks.FrozenDataset

import CachingInLLMs.Benchmarks.DriverCsv
import CachingInLLMs.Library.Steps
import Mathlib.Logic.Relation

/-!
# What the loop measures

The loop of `one_request` takes the times of the chunks that carry a token, and of no others. The TTFT
and the gaps are together the time from the request to its last token, whatever came in between:
lines without a payload, chunks with the usage, chunks that carry neither.

`Pads` puts one line that carries no token into a stream. `readLines_measures` says that no number
of such insertions and deletions changes what is measured.
-/

namespace CachingInLLMs.Benchmarks.LoadDriver

open CachingInLLMs.Library

/-! ### Gaps -/

theorem gaps_eq (times : List ℚ) : gaps times = (times.zip times.tail).map fun p => p.2 - p.1 := by
  rw [gaps, List.zipWith_comm, List.zip, List.map_zipWith]

theorem sum_gaps (times : List ℚ) : (gaps times).sum = stepSum (fun a b => b - a) times := by
  rw [gaps_eq]
  rfl

theorem gaps_nonneg {times : List ℚ} (h : times.Pairwise (· ≤ ·)) :
    ∀ gap ∈ gaps times, 0 ≤ gap := by
  intro gap hgap
  rw [gaps_eq] at hgap
  obtain ⟨p, hp, rfl⟩ := List.mem_map.mp hgap
  exact sub_nonneg.mpr (rel_of_mem_zip_tail h p hp)

/-! ### Lines without a token -/

section Stream

variable {lib : Stdlib}

/-- Tokens arrive in the order of their lines. -/
theorem pairwise_tokenTimes {lines : List (Text × ℚ)} (h : lines.Pairwise fun l l' => l.2 ≤ l'.2) :
    ((payloads lines).filterMap (tokenTime lib)).Pairwise (· ≤ ·) := by
  have hdata : (dataLines lines).Pairwise fun d d' => d.2 ≤ d'.2 := by
    refine h.filterMap _ fun l l' hle d hd d' hd' => ?_
    obtain ⟨-, -, rfl⟩ := Option.map_eq_some_iff.mp hd
    obtain ⟨-, -, rfl⟩ := Option.map_eq_some_iff.mp hd'
    exact hle
  have htime {d : Text × ℚ} {time : ℚ} (hd : tokenTime lib d = some time) : d.2 = time := by
    rw [tokenTime] at hd
    split at hd
    · split_ifs at hd
      exact Option.some.inj hd
    · cases hd
  refine (hdata.sublist (List.takeWhile_sublist _)).filterMap _ fun d d' hle time hd time' hd' => ?_
  rwa [← htime hd, ← htime hd']

/-- A line that carries no token: it has no payload, or its chunk has no choices. -/
def CarriesNoToken (lib : Stdlib) (line : Text) : Prop :=
  ∀ data, payloadOf line = some data →
    data ≠ donePayload ∧ ∃ p, lib.loads data = .ok p ∧ p.carriesToken = false

/-- The second stream is the first with such a line put in, at any time. -/
inductive Pads (lib : Stdlib) : List (Text × ℚ) → List (Text × ℚ) → Prop where
  /-- Between two others. -/
  | mk {line : Text} (before : List (Text × ℚ)) (now : ℚ) (after : List (Text × ℚ)) :
      CarriesNoToken lib line → Pads lib (before ++ after) (before ++ (line, now) :: after)

/-- What the loop makes of a stream: whether it completes, and its tokens. -/
def heard (lib : Stdlib) (interruption : Option Raised) (lines : List (Text × ℚ)) : Bool × List ℚ :=
  (finishes lib interruption lines, (payloads lines).filterMap (tokenTime lib))

/-- One line more, in front of what is heard the same. -/
theorem heard_cons {interruption : Option Raised} {lines lines' : List (Text × ℚ)}
    (h : heard lib interruption lines = heard lib interruption lines') (l : Text × ℚ) :
    heard lib interruption (l :: lines) = heard lib interruption (l :: lines') := by
  obtain ⟨line, now⟩ := l
  obtain ⟨hfinishes, htokens⟩ := Prod.ext_iff.mp h
  dsimp only [heard] at hfinishes htokens
  cases hline : payloadOf line with
  | none =>
    obtain ⟨hpayloads, hends⟩ := finishes_skip lib hline now interruption lines
    obtain ⟨hpayloads', hends'⟩ := finishes_skip lib hline now interruption lines'
    rw [heard, heard, hpayloads, hends, hpayloads', hends', hfinishes, htokens]
  | some data =>
    by_cases hdone : data = donePayload
    · subst hdone
      obtain ⟨hpayloads, hends⟩ := finishes_done lib hline now interruption lines
      obtain ⟨hpayloads', hends'⟩ := finishes_done lib hline now interruption lines'
      rw [heard, heard, hpayloads, hends, hpayloads', hends']
    · obtain ⟨hpayloads, hends⟩ := finishes_data lib hline hdone now interruption lines
      obtain ⟨hpayloads', hends'⟩ := finishes_data lib hline hdone now interruption lines'
      rw [heard, heard, hpayloads, hends, hpayloads', hends', List.filterMap_cons,
        List.filterMap_cons, hfinishes, htokens]

theorem heard_of_carriesNoToken {line : Text} (h : CarriesNoToken lib line)
    (interruption : Option Raised) (now : ℚ) (lines : List (Text × ℚ)) :
    heard lib interruption ((line, now) :: lines) = heard lib interruption lines := by
  cases hline : payloadOf line with
  | none =>
    obtain ⟨hpayloads, hends⟩ := finishes_skip lib hline now interruption lines
    rw [heard, heard, hpayloads, hends]
  | some data =>
    obtain ⟨hdone, p, hloads, htoken⟩ := h data hline
    obtain ⟨hpayloads, hends⟩ := finishes_data lib hline hdone now interruption lines
    have hreadable : isReadable lib (data, now) = true := by
      rw [isReadable, hloads]
      rfl
    have hnone : tokenTime lib (data, now) = none := by
      rw [tokenTime_of_loads hloads, htoken]
      rfl
    rw [heard, heard, hpayloads, hends, hreadable, Bool.true_and, List.filterMap_cons_none hnone]

/-- Such a line changes nothing, wherever it stands. -/
theorem Pads.heard_eq {lines lines' : List (Text × ℚ)} (h : Pads lib lines lines')
    (interruption : Option Raised) :
    heard lib interruption lines = heard lib interruption lines' := by
  obtain ⟨before, now, after, hline⟩ := h
  induction before with
  | nil => exact (heard_of_carriesNoToken hline interruption now after).symm
  | cons l before ih => exact heard_cons ih l

theorem heard_eq_of_eqvGen {lines lines' : List (Text × ℚ)}
    (h : Relation.EqvGen (Pads lib) lines lines') (interruption : Option Raised) :
    heard lib interruption lines = heard lib interruption lines' := by
  induction h with
  | rel _ _ h => exact h.heard_eq interruption
  | refl => rfl
  | symm _ _ _ ih => exact ih.symm
  | trans _ _ _ _ _ ih ih' => exact ih.trans ih'

/-! ### What is measured -/

/-- The loop, on a stream that completes. -/
theorem exists_readLines (t0 : ℚ) {interruption : Option Raised} {lines : List (Text × ℚ)}
    (h : finishes lib interruption lines) :
    ∃ s, readLines lib t0 interruption lines .start = (s, none) ∧
      Saw t0 ((payloads lines).filterMap (tokenTime lib)) s := by
  obtain ⟨hends, hsaw⟩ := readLines_spec lib interruption lines (saw_start t0)
  exact ⟨_, Prod.ext rfl (hends.mpr h), hsaw h⟩

/-- **What the loop measures.** On a stream that completes, the TTFT is the delay of the first token,
there is a gap for each token but one, none of them negative, and together they reach the
last token. Lines that carry no token may be put in or left out anywhere. -/
theorem readLines_measures (t0 : ℚ) {interruption : Option Raised} {lines : List (Text × ℚ)}
    (hfinishes : finishes lib interruption lines)
    (harrivals : lines.Pairwise fun l l' => l.2 ≤ l'.2) :
    ∃ s tokens, readLines lib t0 interruption lines .start = (s, none) ∧
      tokens = (payloads lines).filterMap (tokenTime lib) ∧
      s.ttft = tokens.head?.map (· - t0) ∧
      s.itls.length = tokens.length - 1 ∧ (∀ gap ∈ s.itls, 0 ≤ gap) ∧
      (∀ ttft last, s.ttft = some ttft → tokens.getLast? = some last →
        ttft + s.itls.sum = last - t0) ∧
      ∀ lines', Relation.EqvGen (Pads lib) lines lines' →
        ∃ s', readLines lib t0 interruption lines' .start = (s', none) ∧ s'.ttft = s.ttft ∧
        s'.itls = s.itls := by
  obtain ⟨s, hread, hsaw⟩ := exists_readLines t0 hfinishes
  refine ⟨s, _, hread, rfl, hsaw.ttft, ?_, ?_, fun ttft last httft hlast => ?_,
    fun lines' hpads => ?_⟩
  · rw [hsaw.itls, length_gaps]
  · rw [hsaw.itls]
    exact gaps_nonneg (pairwise_tokenTimes harrivals)
  · -- the gaps telescope
    rw [hsaw.ttft] at httft
    rw [hsaw.itls, sum_gaps]
    cases htokens : (payloads lines).filterMap (tokenTime lib) with
    | nil =>
      rw [htokens] at hlast
      exact nomatch hlast
    | cons first tokens =>
      rw [htokens] at httft hlast
      cases httft
      rw [List.getLast?_cons] at hlast
      obtain rfl : tokens.getLastD first = last := by simpa using hlast
      rw [stepSum_sub fun t => t]
      ring
  · obtain ⟨hends, htokens⟩ := Prod.ext_iff.mp (heard_eq_of_eqvGen hpads interruption)
    obtain ⟨s', hread', hsaw'⟩ := exists_readLines t0 (hends.symm.trans hfinishes)
    refine ⟨s', hread', ?_, ?_⟩
    · rw [hsaw'.ttft, hsaw.ttft]
      exact congrArg _ (congrArg _ htokens.symm)
    · rw [hsaw'.itls, hsaw.itls]
      exact congrArg _ htokens.symm

end Stream

/-- Two tokens, an empty line between them and the usage behind. -/
def sampleStream : List (Text × ℚ) :=
  [(dataLine tokenChunk, 1 / 10), ([], 1 / 5), (dataLine tokenChunk, 7 / 20),
    (dataLine usageChunk, 2 / 5), (dataLine donePayload, 1 / 2)]

/-- The second token comes 7/20 after the request. -/
theorem readLines_measures_sampleStream :
    ∃ s, readLines sampleStdlib 0 none sampleStream .start = (s, none) ∧
    s.itls.length = 1 ∧ ∀ ttft, s.ttft = some ttft → ttft + s.itls.sum = 7 / 20 := by
  have htokens : (payloads sampleStream).filterMap (tokenTime sampleStdlib) =
      [1 / 10, 7 / 20] := by decide +kernel
  obtain ⟨s, tokens, hread, rfl, -, hlength, -, hsum, -⟩ :=
    @readLines_measures sampleStdlib 0 none sampleStream (by decide +kernel) (by decide +kernel)
  rw [htokens] at hlength hsum
  exact ⟨s, hread, hlength, fun ttft httft => (hsum ttft _ httft rfl).trans (sub_zero _)⟩

end CachingInLLMs.Benchmarks.LoadDriver

import CachingInLLMs.Library.Dict
import CachingInLLMs.Library.Python
import CachingInLLMs.Library.Text
import Mathlib.Algebra.Order.Field.Rat
import Mathlib.Data.List.Sort

/-!
# The load driver

`load_driver.py` replays a workload: one streamed request each, with a row of measurements
that is written whether the stream completes or fails. The first chunk that carries a token gives
the TTFT, and every later one a gap to the one before.

## The model

An `Exchange` is what happens to one request: when it was sent, the response as it came in,
line by line with the time of each, and the exceptions that opening, reading or closing it
raise. `oneRequest` is the function of the source on it; the clock readings are part of the
exchange, so it is a function.

What a stream is, apart from the loop that reads it, is in the second part: its payloads
are the `data:` lines up to `[DONE]`, its tokens those with choices, and it completes
when nothing raises before the end.

## What is proved

* `readChunk_saw`: what one chunk adds to the variables of the loop.
* `readLines_spec`: the loop ends without an exception exactly for a stream that completes,
  and has then seen its tokens.
* `oneRequest_of_completes`, `oneRequest_of_fails`: the row of either kind.
-/

namespace CachingInLLMs.Benchmarks.LoadDriver

open CachingInLLMs.Library

/-! ### What happens to a request -/

/-- An exception: the name of its class, and its text. -/
structure Raised where
  /-- `type(e).__name__`. -/
  className : Text
  /-- `str(e)`. -/
  message : Text
  deriving DecidableEq

/-- The usage of a chunk: counts by their names. -/
abbrev Usage := Dict Text (Option ℤ)

/-- A payload, as far as it is read. -/
structure Payload where
  /-- `usage`; `null` on the chunks of tokens. -/
  usage : Option Usage
  /-- `choices`, if it is there. -/
  choices : Option (List Text)

/-- What the driver and the analysis use of the standard library. -/
structure Stdlib where
  /-- `json.loads(data)`, or what it or reading its result raises. -/
  loads : Text → Except Raised Payload
  /-- `str(x)` of a float. -/
  str : ℚ → Text
  /-- `f"{x:.2f}"`. -/
  fixed2 : ℚ → Text
  /-- `float(text)`. -/
  float : Text → Except PyError ℚ
  /-- `int(text)`. -/
  int : Text → Except PyError ℤ
  /-- What `csv.DictWriter` writes: a header and its rows. -/
  csvWrite : List Text → List (List Text) → Text
  /-- The rows that `csv.DictReader` reads. -/
  dictReader : Text → List (Dict Text Text)

/-- A request of the workload, as far as its row has it. -/
structure Request where
  /-- `index`. -/
  index : ℤ
  /-- `prefix_id`. -/
  prefixId : ℤ

/-- A response that was opened. -/
structure Response where
  /-- `resp.status_code`. -/
  statusCode : ℕ
  /-- `(await resp.aread()).decode("utf-8", "replace")`. -/
  body : Except Raised Text
  /-- The lines, each with the time when it is read. -/
  lines : List (Text × ℚ)
  /-- What the iteration raises after the last of them. -/
  interruption : Option Raised
  /-- What leaving the response raises. -/
  closing : Option Raised

/-- What happens to a request. -/
structure Exchange where
  /-- `t0`. -/
  t0 : ℚ
  /-- `wall0`. -/
  wall0 : ℚ
  /-- What opening the stream returns. -/
  response : Except Raised Response
  /-- The clock when the row is made. -/
  t1 : ℚ

/-- `Result`: the measurements of one request. -/
structure Result where
  /-- `index`. -/
  index : ℤ
  /-- `prefix_id`. -/
  prefixId : ℤ
  /-- `send_ts`. -/
  sendTs : ℚ
  /-- `ttft_s`. -/
  ttftS : Option ℚ
  /-- `e2e_s`. -/
  e2eS : Option ℚ
  /-- `prompt_tokens`. -/
  promptTokens : Option ℤ
  /-- `completion_tokens`. -/
  completionTokens : Option ℤ
  /-- `status`. -/
  status : Text
  /-- `error`. -/
  error : Text := []
  /-- `itls_ms`. -/
  itlsMs : Text := []

/-! ### One request -/

/-- The variables of `one_request`. -/
structure Progress where
  /-- `ttft`. -/
  ttft : Option ℚ
  /-- `last`. -/
  last : Option ℚ
  /-- `itls`. -/
  itls : List ℚ
  /-- `prompt_toks`. -/
  promptToks : Option ℤ
  /-- `completion_toks`. -/
  completionToks : Option ℤ

/-- Before the request. -/
def Progress.start : Progress := ⟨none, none, [], none, none⟩

/-- `bool(obj.get("choices"))`. -/
def Payload.carriesToken (p : Payload) : Bool := p.choices.getD [] ≠ []

section Driver

variable (lib : Stdlib)

/-- `classify_chunk`. -/
def classifyChunk (data : Text) : Except Raised (Option Usage × Bool) := do
  let obj ← lib.loads data
  return (obj.usage, obj.carriesToken)

/-- `if usage: …`. -/
def Progress.readUsage (s : Progress) : Option Usage → Progress
  | some usage =>
    if usage.items = [] then s
    else { s with
      promptToks := (usage.get? "prompt_tokens".toList).join
      completionToks := (usage.get? "completion_tokens".toList).join }
  | none => s

/-- `if ttft is None: … else: …`, and `last = now`. -/
def Progress.readToken (s : Progress) (t0 now : ℚ) : Except Raised Progress :=
  match s.ttft, s.last with
  | none, _ => .ok { s with ttft := some (now - t0), last := some now }
  | some _, some last => .ok { s with itls := s.itls ++ [now - last], last := some now }
  | some _, none => .error ⟨"TypeError".toList, "unsupported operand type(s) for -: 'float' and 'NoneType'".toList⟩

/-- A chunk; an exception leaves the variables as they were. -/
def readChunk (t0 : ℚ) (s : Progress) (data : Text) (now : ℚ) : Except Raised Progress := do
  let (usage, carriesToken) ← classifyChunk lib data
  let s := s.readUsage usage
  if !carriesToken then return s
  s.readToken t0 now

/-- `text.strip()`. -/
def strip (text : Text) : Text := (text.dropWhile isSpace).rdropWhile isSpace

/-- The payload of a line, `line[5:].strip()`; only `data:` lines have one. -/
def payloadOf (line : Text) : Option Text := (literal "data:".toList line).map strip

/-- The payload that ends a stream. -/
def donePayload : Text := "[DONE]".toList

/-- The loop over the lines: the variables it leaves, and what it raises. -/
def readLines (t0 : ℚ) (interruption : Option Raised) : List (Text × ℚ) → Progress → Progress × Option Raised
  | [], s => (s, interruption)
  | (line, now) :: lines, s =>
    match payloadOf line with
    | none => readLines t0 interruption lines s
    | some data =>
      if data = donePayload then (s, none)
      else
        match readChunk lib t0 s data now with
        | .error e => (s, some e)
        | .ok s' => readLines t0 interruption lines s'

/-- The stream of `one_request`; what leaving it raises replaces what was raised before. -/
def readResponse (t0 : ℚ) (resp : Response) : Progress × Option Raised :=
  let (s, raised) :=
    if 400 ≤ resp.statusCode then
      match resp.body with
      | .error e => (.start, some e)
      | .ok body =>
        (.start, some ⟨"RuntimeError".toList, "HTTP ".toList ++ natText resp.statusCode ++ ": ".toList ++ strip body⟩)
    else readLines lib t0 resp.interruption resp.lines .start
  (s, resp.closing.or raised)

/-- The `try` of `one_request`. -/
def attempt (x : Exchange) : Progress × Option Raised :=
  match x.response with
  | .error e => (.start, some e)
  | .ok resp => readResponse lib x.t0 resp

/-- `";".join(f"{g * 1000:.2f}" for g in itls)`. -/
def joinItls (itls : List ℚ) : Text := [';'].intercalate (itls.map fun g => lib.fixed2 (g * 1000))

/-- `one_request`. -/
def oneRequest (req : Request) (x : Exchange) : Result :=
  match attempt lib x with
  | (s, none) =>
    { index := req.index
      prefixId := req.prefixId
      sendTs := x.wall0
      ttftS := s.ttft
      e2eS := some (x.t1 - x.t0)
      promptTokens := s.promptToks
      completionTokens := s.completionToks
      status := "ok".toList
      itlsMs := joinItls lib s.itls }
  | (s, some e) =>
    { index := req.index
      prefixId := req.prefixId
      sendTs := x.wall0
      ttftS := s.ttft
      e2eS := some (x.t1 - x.t0)
      promptTokens := none
      completionTokens := none
      status := "error".toList
      error := (e.className ++ ": ".toList ++ e.message).take 500 }

end Driver

/-! ### What a stream is -/

/-- The differences of successive times. -/
def gaps (times : List ℚ) : List ℚ := List.zipWith (· - ·) times.tail times

theorem length_gaps (times : List ℚ) : (gaps times).length = times.length - 1 := by
  rw [gaps, List.length_zipWith, List.length_tail]
  omega

theorem gaps_concat {times : List ℚ} {last : ℚ} (h : times.getLast? = some last) (now : ℚ) :
    gaps (times ++ [now]) = gaps times ++ [now - last] := by
  induction times with
  | nil => exact nomatch h
  | cons t times ih =>
    cases times with
    | nil =>
      cases h
      rfl
    | cons t' times =>
      have hgaps : gaps (t' :: (times ++ [now])) = gaps (t' :: times) ++ [now - last] := ih h
      exact congrArg _ hgaps

/-- The payloads of some lines. -/
def dataLines (lines : List (Text × ℚ)) : List (Text × ℚ) :=
  lines.filterMap fun l => (payloadOf l.1).map fun data => (data, l.2)

/-- Those up to `[DONE]`. -/
def payloads (lines : List (Text × ℚ)) : List (Text × ℚ) := (dataLines lines).takeWhile fun d => d.1 ≠ donePayload

/-- Whether `[DONE]` came. -/
def saysDone (lines : List (Text × ℚ)) : Bool := (dataLines lines).any fun d => d.1 = donePayload

section Stream

variable (lib : Stdlib)

/-- A payload can be read. -/
def isReadable (data : Text × ℚ) : Bool := (lib.loads data.1).toBool

/-- The time of a token. -/
def tokenTime (data : Text × ℚ) : Option ℚ :=
  match lib.loads data.1 with
  | .ok p => if p.carriesToken then some data.2 else none
  | .error _ => none

/-- The lines come to their end, with `[DONE]` or without, and nothing raises. -/
def finishes (interruption : Option Raised) (lines : List (Text × ℚ)) : Bool :=
  (payloads lines).all (isReadable lib) && (saysDone lines || interruption.isNone)

/-- The stream completes. -/
def Exchange.completes (x : Exchange) : Bool :=
  match x.response with
  | .ok resp => resp.statusCode < 400 && finishes lib resp.interruption resp.lines && resp.closing.isNone
  | .error _ => false

/-- The times of its tokens. -/
def Exchange.tokenTimes (x : Exchange) : List ℚ :=
  match x.response with
  | .ok resp => (payloads resp.lines).filterMap (tokenTime lib)
  | .error _ => []

/-- How many tokens it carries. -/
def Exchange.tokens (x : Exchange) : ℕ := (x.tokenTimes lib).length

/-- How long the first of them took. -/
def Exchange.firstTokenDelay (x : Exchange) : Option ℚ := (x.tokenTimes lib).head?.map (· - x.t0)

end Stream

/-! ### The loop reads the stream -/

section Loop

variable {lib : Stdlib}

/-- The variables, once tokens came at these times. -/
structure Saw (t0 : ℚ) (times : List ℚ) (s : Progress) : Prop where
  /-- The delay of the first. -/
  ttft : s.ttft = times.head?.map (· - t0)
  /-- The time of the last. -/
  last : s.last = times.getLast?
  /-- The differences. -/
  itls : s.itls = gaps times

theorem tokenTime_of_loads {data : Text} {p : Payload} (h : lib.loads data = .ok p) (now : ℚ) :
    tokenTime lib (data, now) = if p.carriesToken then some now else none := by
  rw [tokenTime, h]

theorem saw_start (t0 : ℚ) : Saw t0 [] .start := ⟨rfl, rfl, rfl⟩

theorem Saw.readUsage {t0 : ℚ} {times : List ℚ} {s : Progress} (h : Saw t0 times s) (usage : Option Usage) :
    Saw t0 times (s.readUsage usage) := by
  cases usage with
  | none => exact h
  | some usage =>
    rw [Progress.readUsage]
    split_ifs
    · exact h
    · exact ⟨h.ttft, h.last, h.itls⟩

theorem Saw.readToken {t0 : ℚ} {times : List ℚ} {s : Progress} (h : Saw t0 times s) (now : ℚ) :
    ∃ s', s.readToken t0 now = .ok s' ∧ Saw t0 (times ++ [now]) s' := by
  rw [Progress.readToken, h.ttft, h.last]
  cases times with
  | nil => exact ⟨_, rfl, rfl, rfl, h.itls⟩
  | cons t times =>
    have hlast : (t :: times).getLast? = some _ := List.getLast?_eq_some_getLast (List.cons_ne_nil t times)
    rw [hlast]
    exact ⟨_, rfl, rfl, (List.getLast?_concat ..).symm, by rw [h.itls, gaps_concat hlast]⟩

/-- **What a chunk adds**: the time of its token, if it carries one. -/
theorem readChunk_saw {t0 : ℚ} {times : List ℚ} {s : Progress} (h : Saw t0 times s) {data : Text} {p : Payload}
    (hdata : lib.loads data = .ok p) (now : ℚ) :
    ∃ s', readChunk lib t0 s data now = .ok s' ∧ Saw t0 (times ++ (tokenTime lib (data, now)).toList) s' := by
  have husage := h.readUsage p.usage
  have hchunk : readChunk lib t0 s data now =
      if !p.carriesToken then .ok (s.readUsage p.usage) else (s.readUsage p.usage).readToken t0 now := by
    rw [readChunk, classifyChunk, hdata]
    rfl
  rw [hchunk, tokenTime_of_loads hdata now]
  cases p.carriesToken with
  | false => exact ⟨_, rfl, by simpa using husage⟩
  | true => exact husage.readToken now

/-- A line without a payload says nothing. -/
theorem finishes_skip (lib : Stdlib) {line : Text} (h : payloadOf line = none) (now : ℚ) (interruption : Option Raised)
    (lines : List (Text × ℚ)) :
    payloads ((line, now) :: lines) = payloads lines ∧
      finishes lib interruption ((line, now) :: lines) = finishes lib interruption lines := by
  have hdata : dataLines ((line, now) :: lines) = dataLines lines := List.filterMap_cons_none (by rw [h]; rfl)
  simp only [finishes, payloads, saysDone, hdata, and_self]

/-- After `[DONE]` nothing counts. -/
theorem finishes_done (lib : Stdlib) {line : Text} (h : payloadOf line = some donePayload) (now : ℚ) (interruption : Option Raised)
    (lines : List (Text × ℚ)) :
    payloads ((line, now) :: lines) = [] ∧ finishes lib interruption ((line, now) :: lines) = true := by
  have hdata : dataLines ((line, now) :: lines) = (donePayload, now) :: dataLines lines :=
    List.filterMap_cons_some (by rw [h]; rfl)
  simp [finishes, payloads, saysDone, hdata]

/-- Another payload is one of the stream. -/
theorem finishes_data (lib : Stdlib) {line data : Text} (h : payloadOf line = some data) (hne : data ≠ donePayload) (now : ℚ)
    (interruption : Option Raised) (lines : List (Text × ℚ)) :
    payloads ((line, now) :: lines) = (data, now) :: payloads lines ∧
      finishes lib interruption ((line, now) :: lines) =
        (isReadable lib (data, now) && finishes lib interruption lines) := by
  have hdata : dataLines ((line, now) :: lines) = (data, now) :: dataLines lines :=
    List.filterMap_cons_some (by rw [h]; rfl)
  simp [finishes, payloads, saysDone, hdata, hne, Bool.and_assoc]

/-- **What the loop leaves**: it raises nothing exactly where the lines come to their end,
and has then seen the tokens. -/
theorem readLines_spec (lib : Stdlib) {t0 : ℚ} (interruption : Option Raised) (lines : List (Text × ℚ)) {times : List ℚ}
    {s : Progress} (h : Saw t0 times s) :
    ((readLines lib t0 interruption lines s).2 = none ↔ finishes lib interruption lines) ∧
      (finishes lib interruption lines → Saw t0 (times ++ (payloads lines).filterMap (tokenTime lib))
        (readLines lib t0 interruption lines s).1) := by
  induction lines generalizing times s with
  | nil =>
    constructor
    · simp [readLines, finishes, payloads, saysDone, dataLines]
    · intro _
      simpa [readLines, payloads, dataLines] using h
  | cons l lines ih =>
    obtain ⟨line, now⟩ := l
    rw [readLines]
    cases hline : payloadOf line with
    | none =>
      obtain ⟨hpayloads, hfinishes⟩ := finishes_skip lib hline now interruption lines
      rw [hpayloads, hfinishes]
      exact ih h
    | some data =>
      dsimp only
      split_ifs with hdone
      · subst hdone
        obtain ⟨hpayloads, hfinishes⟩ := finishes_done lib hline now interruption lines
        rw [hpayloads, hfinishes]
        simpa using h
      · obtain ⟨hpayloads, hfinishes⟩ := finishes_data lib hline hdone now interruption lines
        rw [hpayloads, hfinishes]
        cases hloads : lib.loads data with
        | error e =>
          have hreadable : isReadable lib (data, now) = false := by
            rw [isReadable, hloads]
            rfl
          have hchunk : readChunk lib t0 s data now = .error e := by
            rw [readChunk, classifyChunk, hloads]
            rfl
          simp [hchunk, hreadable]
        | ok p =>
          have hreadable : isReadable lib (data, now) = true := by
            rw [isReadable, hloads]
            rfl
          obtain ⟨s', hchunk, hs'⟩ := readChunk_saw h hloads now
          obtain ⟨hends, hsaw⟩ := ih hs'
          rw [hchunk, hreadable, Bool.true_and]
          refine ⟨hends, fun hfinishes => ?_⟩
          have htimes := hsaw hfinishes
          rw [List.append_assoc] at htimes
          cases htoken : tokenTime lib (data, now) with
          | none =>
            rw [htoken] at htimes
            rwa [List.filterMap_cons_none htoken]
          | some time =>
            rw [htoken] at htimes
            rwa [List.filterMap_cons_some htoken]

theorem readResponse_raises (lib : Stdlib) (t0 : ℚ) {resp : Response} (h : 400 ≤ resp.statusCode) :
    ∃ s e, readResponse lib t0 resp = (s, some e) := by
  have hraises (e : Raised) : ∃ e', resp.closing.or (some e) = some e' := by
    cases resp.closing with
    | none => exact ⟨e, rfl⟩
    | some e' => exact ⟨e', rfl⟩
  rw [readResponse, if_pos h]
  cases resp.body with
  | error e =>
    obtain ⟨e', he'⟩ := hraises e
    exact ⟨.start, e', Prod.ext rfl he'⟩
  | ok body =>
    obtain ⟨e', he'⟩ := hraises _
    exact ⟨.start, e', Prod.ext rfl he'⟩

/-- The `try` ends without an exception exactly for a stream that completes. -/
theorem attempt_spec (lib : Stdlib) (x : Exchange) :
    ((attempt lib x).2 = none ↔ x.completes lib) ∧
      (x.completes lib → Saw x.t0 (x.tokenTimes lib) (attempt lib x).1) := by
  rw [attempt, Exchange.completes, Exchange.tokenTimes]
  cases x.response with
  | error e => simp
  | ok resp =>
    dsimp only
    by_cases hstatus : 400 ≤ resp.statusCode
    · obtain ⟨s, e, hresp⟩ := readResponse_raises lib x.t0 hstatus
      have hbound : decide (resp.statusCode < 400) = false := by simpa using hstatus
      rw [hresp, hbound]
      simp
    · have hbound : decide (resp.statusCode < 400) = true := by simpa using hstatus
      have hresp : readResponse lib x.t0 resp = ((readLines lib x.t0 resp.interruption resp.lines .start).1,
          resp.closing.or (readLines lib x.t0 resp.interruption resp.lines .start).2) := by
        rw [readResponse, if_neg hstatus]
      obtain ⟨hends, hsaw⟩ := readLines_spec lib resp.interruption resp.lines (saw_start x.t0)
      rw [hresp, hbound, Bool.true_and, Option.or_eq_none_iff, hends, Bool.and_eq_true, Option.isNone_iff_eq_none]
      exact ⟨and_comm, fun h => hsaw h.1⟩

/-- The row of a stream that completes. -/
theorem oneRequest_of_completes {x : Exchange} (h : x.completes lib) (req : Request) :
    ∃ promptTokens completionTokens, oneRequest lib req x =
      { index := req.index
        prefixId := req.prefixId
        sendTs := x.wall0
        ttftS := x.firstTokenDelay lib
        e2eS := some (x.t1 - x.t0)
        promptTokens
        completionTokens
        status := "ok".toList
        itlsMs := joinItls lib (gaps (x.tokenTimes lib)) } := by
  obtain ⟨hends, hsaw⟩ := attempt_spec lib x
  rw [oneRequest]
  cases hattempt : attempt lib x with
  | mk s raised =>
    rw [hattempt] at hends hsaw
    cases hends.mpr h
    refine ⟨s.promptToks, s.completionToks, ?_⟩
    dsimp only
    rw [(hsaw h).ttft, (hsaw h).itls, Exchange.firstTokenDelay]

/-- The row of one that fails: it may have a TTFT, but neither a status `ok` nor gaps. -/
theorem oneRequest_of_fails {x : Exchange} (h : x.completes lib = false) (req : Request) :
    ∃ ttftS error, oneRequest lib req x =
      { index := req.index
        prefixId := req.prefixId
        sendTs := x.wall0
        ttftS
        e2eS := some (x.t1 - x.t0)
        promptTokens := none
        completionTokens := none
        status := "error".toList
        error } := by
  obtain ⟨hends, -⟩ := attempt_spec lib x
  rw [oneRequest]
  cases hattempt : attempt lib x with
  | mk s raised =>
    rw [hattempt, h] at hends
    cases raised with
    | none => exact absurd (hends.mp rfl) Bool.false_ne_true
    | some e => exact ⟨s.ttft, _, rfl⟩

end Loop

end CachingInLLMs.Benchmarks.LoadDriver

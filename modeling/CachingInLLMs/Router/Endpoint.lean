import CachingInLLMs.Library.Python
import CachingInLLMs.Library.Split
import Mathlib.Tactic.Common

/-!
# Endpoints and their query ips

An endpoint is a serving engine as service discovery reports it. The Controller
is asked about an engine by the engine's ip, which the router cuts out of the
endpoint's URL with three calls of `str.split`:

    query_ip = url.split(f":{url.split(':')[-1]}")[0].split("//")[1]

`queryIp` is that expression. On a URL without `//` it raises `IndexError`; on a
well-formed `http://host:port` URL it does not (`WellFormedUrl.queryIp_ok`).
-/

namespace CachingInLLMs.Router

open CachingInLLMs.Library

/-- A serving engine, as service discovery reports it. -/
structure EndpointInfo where
  /-- The engine's URL. -/
  url : String
  /-- The models it serves. -/
  modelNames : List String
  deriving DecidableEq, Repr

/-- `s.split(sep)`, for a non-empty separator. -/
def strSplit (s sep : String) : List String := (splitOn sep.toList s.toList).map String.ofList

/-- The ip the Controller is asked about. -/
def queryIp (url : String) : Except PyError String := do
  let port ← pyGetLast (strSplit url ":")
  let base ← pyGet (strSplit url (":" ++ port)) 0
  pyGet (strSplit base "//") 1

example : queryIp "http://10.0.0.1:8000" = .ok "10.0.0.1" := by decide

/-- A URL `http://host:port`, the port a decimal number. -/
def WellFormedUrl (url : String) : Prop :=
  ∃ host port : String, url = "http://" ++ host ++ ":" ++ port ∧ port ≠ "" ∧ ∀ c ∈ port.toList, c.isDigit

/-! ### The three cuts -/

/-- The first cut: the port is what follows the last colon. -/
theorem getLast_split_colon {l port : List Char} (h : ':' ∉ port) :
    pyGetLast ((splitOn [':'] (l ++ ':' :: port)).map String.ofList) = .ok (String.ofList port) := by
  obtain ⟨q, qs, hq, hlast⟩ := splitOn_singleton_append l h
  have : (q :: qs).getLast? = some port := by rw [List.getLast?_cons, hlast]; rfl
  rw [pyGetLast, hq, List.getLast?_map, this]
  rfl

/-- The second cut: no `:port` begins inside `http://`, since no port begins with a
slash, so the first piece begins with `http://`. -/
theorem head_split_port (port rest : List Char) {d : Char} (hd : d ≠ '/') :
    ∃ t, (splitOn (':' :: d :: port) ("http://".toList ++ rest)).head? = some ("http://".toList ++ t) := by
  obtain ⟨t, ts, ht⟩ := List.exists_cons_of_ne_nil (splitOn_ne_nil (':' :: d :: port) rest)
  refine ⟨t, ?_⟩
  show (splitOn (':' :: d :: port) ('h' :: 't' :: 't' :: 'p' :: ':' :: '/' :: '/' :: rest)).head? = _
  repeat rw [splitOn_cons_of_not_isPrefix (by simp [List.isPrefixOf, hd])]
  rw [ht]
  rfl

/-- The third cut: what begins with `http://` has a second piece at `//`. -/
theorem second_split_slashes (t : List Char) :
    ∃ ip, pyGet ((splitOn ['/', '/'] ("http://".toList ++ t)).map String.ofList) 1 = .ok ip := by
  obtain ⟨p, ps, hp⟩ := List.exists_cons_of_ne_nil (splitOn_ne_nil ['/', '/'] t)
  refine ⟨String.ofList p, ?_⟩
  have h : splitOn ['/', '/'] ("http://".toList ++ t) = "http:".toList :: p :: ps := by
    show splitOn ['/', '/'] ('h' :: 't' :: 't' :: 'p' :: ':' :: '/' :: '/' :: t) = _
    repeat rw [splitOn_cons_of_not_isPrefix rfl]
    have : splitOn ['/', '/'] ('/' :: '/' :: t) = [] :: splitOn ['/', '/'] t := rfl
    rw [this, hp]
    rfl
  rw [h]
  rfl

/-- **A well-formed URL has a query ip**: the three cuts do not raise. -/
theorem WellFormedUrl.queryIp_ok {url : String} (h : WellFormedUrl url) : ∃ ip, queryIp url = .ok ip := by
  obtain ⟨host, port, rfl, hne, hdigits⟩ := h
  obtain ⟨d, ds, hport⟩ : ∃ d ds, port.toList = d :: ds :=
    List.exists_cons_of_ne_nil (by simpa using hne)
  have hcolon : ':' ∉ port.toList := fun hc => absurd (hdigits _ hc) (by decide)
  have hd : d ≠ '/' := by
    rintro rfl
    exact absurd (hdigits '/' (hport ▸ List.mem_cons_self)) (by decide)
  have hurl : ("http://" ++ host ++ ":" ++ port).toList = "http://".toList ++ (host.toList ++ ':' :: port.toList) := by
    simp
  obtain ⟨t, ht⟩ := head_split_port ds (host.toList ++ ':' :: port.toList) hd
  obtain ⟨ip, hip⟩ := second_split_slashes t
  refine ⟨ip, ?_⟩
  have h₁ : pyGetLast (strSplit ("http://" ++ host ++ ":" ++ port) ":") = .ok port := by
    have := getLast_split_colon (l := "http://".toList ++ host.toList) hcolon
    rw [strSplit, hurl, ← List.append_assoc]
    simpa using this
  have h₂ : pyGet (strSplit ("http://" ++ host ++ ":" ++ port) (":" ++ port)) 0
      = .ok (String.ofList ("http://".toList ++ t)) := by
    have hsep : (":" ++ port).toList = ':' :: d :: ds := by simp [hport]
    rw [strSplit, hurl, hsep, pyGet, List.getElem?_map, ← List.head?_eq_getElem?, ht]
    rfl
  have h₃ : pyGet (strSplit (String.ofList ("http://".toList ++ t)) "//") 1 = .ok ip := by
    rw [strSplit, String.toList_ofList (l := "http://".toList ++ t)]
    exact hip
  simp only [queryIp, h₁, h₂, h₃, ok_bind]

end CachingInLLMs.Router

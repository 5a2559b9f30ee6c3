import CachingInLLMs.Library.Rotation
import CachingInLLMs.Router.Score

/-!
# Round robin, with its caches

`RoundRobinRouter` counts its requests and sends request number `k` to endpoint number
`k` modulo their number, in the order of their URLs. It does not sort on every request:
`last_endpoints_id` says whether the list object is the one of the last call, and
`last_endpoints_hash` whether a new object has the URLs of the list sorted last.

## The model

A list object has an identity, and `hash` of the tuple of its URLs is a parameter. An
identity belongs to an object only as long as that object lives, so a later list may have
the identity of an earlier one; nothing is assumed of that. What the caches rely on is
`Faithful`.

## What is proved

* `answers_eq_turns`: with caches that are relied on rightly, each call is answered as by a
  router without caches.
* `roundRobin_fair`: over any calls in a row about the same endpoints, each endpoint gets
  its share of them, rounded down or up, whatever came before and whatever order the lists
  have.
-/

namespace CachingInLLMs.Router

open CachingInLLMs.Library

/-- A list of endpoints, as an object. -/
structure EndpointList where
  /-- `id(endpoints)`. -/
  id : ℕ
  /-- The endpoints. -/
  endpoints : List EndpointInfo

/-- The URLs of the endpoints. -/
def EndpointList.urls (call : EndpointList) : List String := call.endpoints.map (·.url)

/-- The URLs in their order. -/
def EndpointList.sortedUrls (call : EndpointList) : List String := call.urls.insertionSort (· ≤ ·)

/-- `RoundRobinRouter`. -/
structure RoundRobinRouter where
  /-- `req_id`. -/
  reqId : ℕ
  /-- `sorted_endpoints`. -/
  sortedEndpoints : List EndpointInfo
  /-- `last_endpoints_id`. -/
  lastEndpointsId : Option ℕ
  /-- `last_endpoints_hash`. -/
  lastEndpointsHash : Option ℤ

namespace RoundRobinRouter

/-- `__init__`. -/
def start : RoundRobinRouter := ⟨0, [], none, none⟩

variable (hash : List String → ℤ)

/-- The part of `route_request` that brings `sorted_endpoints` up to date. -/
def refreshEndpoints (call : EndpointList) : Py RoundRobinRouter PUnit := do
  let s ← get
  if some call.id ≠ s.lastEndpointsId then
    let currentHash := hash call.urls
    if some currentHash ≠ s.lastEndpointsHash then
      set { s with sortedEndpoints := call.endpoints.insertionSort byUrl, lastEndpointsHash := some currentHash }
    let s ← get
    set { s with lastEndpointsId := some call.id }

/-- `route_request`. -/
def routeRequest (call : EndpointList) : Py RoundRobinRouter String := do
  refreshEndpoints hash call
  let s ← get
  if s.sortedEndpoints.length = 0 then throw .zeroDivisionError
  let chosen ← Py.ofExcept (pyGet s.sortedEndpoints (s.reqId % s.sortedEndpoints.length))
  set { s with reqId := s.reqId + 1 }
  return chosen.url

/-- The answers to calls made one after another. -/
def answers (s : RoundRobinRouter) : List EndpointList → List (Except PyError String)
  | [] => []
  | call :: calls => ((routeRequest hash call).exec s).1 :: answers ((routeRequest hash call).exec s).2 calls

/-! ### Without caches -/

/-- The endpoint whose turn it is; there is none on an empty list. -/
def turnOf (call : EndpointList) (k : ℕ) : Except PyError String :=
  match turn call.sortedUrls k with
  | some url => .ok url
  | none => .error .zeroDivisionError

/-- The answers of a router that sorts on every call, from its request number `k` on. -/
def turns : ℕ → List EndpointList → List (Except PyError String)
  | _, [] => []
  | k, call :: calls => turnOf call k :: turns (if call.urls = [] then k else k + 1) calls

/-- The caches may be relied on: of two calls in a row, lists with one identity have the
same URLs, and so do any two lists whose URLs have one hash. -/
structure Faithful (calls : List EndpointList) : Prop where
  /-- The identities. -/
  id : calls.IsChain fun c c' => c.id = c'.id → c.urls.Perm c'.urls
  /-- The hashes. -/
  hash : ∀ c ∈ calls, ∀ c' ∈ calls, hash c.urls = hash c'.urls → c.urls.Perm c'.urls

/-! ### The caches -/

section Caches

variable {hash} {all : List EndpointList} {s : RoundRobinRouter} {prev call : EndpointList}

/-- The router after bringing `sorted_endpoints` up to date. -/
def refreshed (hash : List String → ℤ) (s : RoundRobinRouter) (call : EndpointList) : RoundRobinRouter :=
  if s.lastEndpointsId = some call.id then s
  else
    { s with
      sortedEndpoints :=
        if s.lastEndpointsHash = some (hash call.urls) then s.sortedEndpoints else call.endpoints.insertionSort byUrl
      lastEndpointsId := some call.id
      lastEndpointsHash := some (hash call.urls) }

theorem refreshEndpoints_exec (s : RoundRobinRouter) (call : EndpointList) :
    (refreshEndpoints hash call).exec s = (.ok ⟨⟩, s.refreshed hash call) := by
  rw [refreshEndpoints, Py.exec_bind_of_ok (Py.exec_get s), refreshed]
  by_cases hid : s.lastEndpointsId = some call.id
  · rw [if_neg (not_not.mpr hid.symm), if_pos hid]
    rfl
  · rw [if_pos (Ne.symm hid), if_neg hid]
    by_cases hhash : s.lastEndpointsHash = some (hash call.urls)
    · rw [if_neg (not_not.mpr hhash.symm), if_pos hhash, ← hhash]
      rfl
    · rw [if_pos (Ne.symm hhash), if_neg hhash]
      rfl

/-- The caches are those of the call. -/
structure Cached (hash : List String → ℤ) (all : List EndpointList) (s : RoundRobinRouter) (call : EndpointList) :
    Prop where
  /-- Its identity. -/
  id : s.lastEndpointsId = some call.id
  /-- Its URLs. -/
  sorted : s.sortedEndpoints.map (·.url) = call.sortedUrls
  /-- The hash is that of a list with its URLs. -/
  hash : ∃ c ∈ all, s.lastEndpointsHash = some (hash c.urls) ∧ c.urls.Perm call.urls

theorem insertionSort_eq_of_perm {l l' : List String} (h : l.Perm l') :
    l.insertionSort (· ≤ ·) = l'.insertionSort (· ≤ ·) := by
  refine List.Perm.eq_of_pairwise' (List.pairwise_insertionSort _ _) (List.pairwise_insertionSort _ _) ?_
  exact ((List.perm_insertionSort _ _).trans h).trans (List.perm_insertionSort _ _).symm

theorem map_url_insertionSort (call : EndpointList) :
    (call.endpoints.insertionSort byUrl).map (·.url) = call.sortedUrls :=
  List.map_insertionSort byUrl (· ≤ ·) (·.url) call.endpoints fun _ _ _ _ => Iff.rfl

theorem cached_start (hmem : call ∈ all) : Cached hash all (refreshed hash start call) call where
  id := rfl
  sorted := map_url_insertionSort call
  hash := ⟨call, hmem, rfl, List.Perm.refl _⟩

/-- A call moves the caches on. -/
theorem Cached.refreshed (h : Cached hash all s prev) (hid : prev.id = call.id → prev.urls.Perm call.urls)
    (hhash : ∀ c ∈ all, hash c.urls = hash call.urls → c.urls.Perm call.urls) (hmem : call ∈ all) :
    Cached hash all (s.refreshed hash call) call := by
  rw [RoundRobinRouter.refreshed]
  split_ifs with hcurrent hlast
  · -- the object of the last call
    have hperm := hid (Option.some.inj (h.id.symm.trans hcurrent))
    obtain ⟨c, hc, hlast, hcperm⟩ := h.hash
    exact ⟨hcurrent, h.sorted.trans (insertionSort_eq_of_perm hperm), c, hc, hlast, hcperm.trans hperm⟩
  · -- another object with the URLs sorted last
    obtain ⟨c, hc, hchash, hcperm⟩ := h.hash
    have hperm := hhash c hc (Option.some.inj (hchash.symm.trans hlast))
    exact ⟨rfl, h.sorted.trans (insertionSort_eq_of_perm (hcperm.symm.trans hperm)), call, hmem, rfl, List.Perm.refl _⟩
  · exact ⟨rfl, map_url_insertionSort call, call, hmem, rfl, List.Perm.refl _⟩

/-- With the caches of the call, it takes its turn. -/
theorem routeRequest_exec (h : Cached hash all (s.refreshed hash call) call) :
    (routeRequest hash call).exec s = (turnOf call s.reqId,
      { s.refreshed hash call with reqId := if call.urls = [] then s.reqId else s.reqId + 1 }) := by
  have hreqId : (s.refreshed hash call).reqId = s.reqId := by
    rw [refreshed]
    split_ifs <;> rfl
  have hlength : (s.refreshed hash call).sortedEndpoints.length = call.sortedUrls.length := by
    rw [← h.sorted, List.length_map]
  have hurls : call.sortedUrls.length = call.urls.length := List.length_insertionSort _ _
  rw [routeRequest, Py.exec_bind_of_ok (refreshEndpoints_exec s call), Py.exec_bind_of_ok (Py.exec_get _), turnOf]
  by_cases hempty : call.urls = []
  · have hnil : call.sortedUrls = [] := List.eq_nil_of_length_eq_zero (by rw [hurls, hempty]; rfl)
    rw [if_pos (by rw [hlength, hnil]; rfl), if_pos hempty, hnil, turn_nil]
    rw [← hreqId]
    rfl
  · have hpos : 0 < call.sortedUrls.length := by
      rw [hurls]
      exact List.length_pos_of_ne_nil hempty
    rw [if_neg (by omega), if_neg hempty, turn, ← h.sorted, List.length_map, List.getElem?_map, hreqId]
    have hlt : s.reqId % (s.refreshed hash call).sortedEndpoints.length <
        (s.refreshed hash call).sortedEndpoints.length := Nat.mod_lt _ (by omega)
    have hget : pyGet (s.refreshed hash call).sortedEndpoints
        (s.reqId % (s.refreshed hash call).sortedEndpoints.length) =
        .ok ((s.refreshed hash call).sortedEndpoints[s.reqId % (s.refreshed hash call).sortedEndpoints.length]) := by
      rw [pyGet, List.getElem?_eq_getElem hlt]
    rw [List.getElem?_eq_getElem hlt, Option.map_some]
    dsimp only
    rw [hget, Py.exec_bind_of_ok (Py.exec_ofExcept _ _), Py.exec_bind_of_ok (Py.exec_set _ _)]
    rfl

end Caches

/-! ### The calls of a run -/

variable {hash} {calls : List EndpointList}

/-- With the caches of one call, the next calls take their turns. -/
theorem answers_of_cached {all : List EndpointList} {s : RoundRobinRouter} {prev : EndpointList}
    (h : Cached hash all s prev) (hid : (prev :: calls).IsChain fun c c' => c.id = c'.id → c.urls.Perm c'.urls)
    (hhash : ∀ c ∈ all, ∀ c' ∈ all, hash c.urls = hash c'.urls → c.urls.Perm c'.urls) (hmem : ∀ c ∈ calls, c ∈ all) :
    answers hash s calls = turns s.reqId calls := by
  induction calls generalizing s prev with
  | nil => rfl
  | cons call calls ih =>
    obtain ⟨hid₁, hid⟩ := List.isChain_cons_cons.mp hid
    have hcall := hmem call List.mem_cons_self
    have hcached := h.refreshed hid₁ (fun c hc => hhash c hc call hcall) hcall
    rw [answers, turns, routeRequest_exec hcached]
    congr 1
    refine ih ?_ hid fun c hc => hmem c (List.mem_cons_of_mem _ hc)
    exact ⟨hcached.id, hcached.sorted, hcached.hash⟩

theorem answers_eq_turns (h : Faithful hash calls) : answers hash start calls = turns 0 calls := by
  cases calls with
  | nil => rfl
  | cons call calls =>
    have hcached : Cached hash (call :: calls) (refreshed hash start call) call := cached_start List.mem_cons_self
    rw [answers, turns, routeRequest_exec hcached]
    congr 1
    exact answers_of_cached ⟨hcached.id, hcached.sorted, hcached.hash⟩ h.id h.hash fun c hc =>
      List.mem_cons_of_mem _ hc

/-- A call with endpoints is sent to one of them. -/
theorem turnOf_mem (call : EndpointList) (k : ℕ) :
    (call.urls = [] → turnOf call k = .error .zeroDivisionError) ∧
      (call.urls ≠ [] → ∃ url ∈ call.urls, turnOf call k = .ok url) := by
  constructor
  · intro hempty
    rw [turnOf, EndpointList.sortedUrls, hempty]
    rfl
  · intro hne
    have hsorted : call.sortedUrls ≠ [] := fun hnil => hne <| List.eq_nil_of_length_eq_zero <| by
      rw [← List.length_insertionSort (· ≤ ·) call.urls]
      exact congrArg List.length hnil
    obtain ⟨url, hmem, hturn⟩ := exists_turn hsorted k
    exact ⟨url, (List.mem_insertionSort _).mp hmem, by rw [turnOf, hturn]⟩

theorem turns_getElem? {n : ℕ} {call : EndpointList} (h : calls[n]? = some call) (k : ℕ) :
    ∃ j, (turns k calls)[n]? = some (turnOf call j) := by
  induction calls generalizing n k with
  | nil => cases h
  | cons c calls ih =>
    cases n with
    | zero =>
      obtain rfl := Option.some.inj h
      exact ⟨k, rfl⟩
    | succ n => exact ih h _

/-- **The caches are transparent.** In a run of calls in which they may be relied on, the
calls are answered as by a router that sorts the endpoints of each: with one of them, the
one whose turn it is, and with `ZeroDivisionError` if there are none. -/
theorem caches_transparent (h : Faithful hash calls) :
    answers hash start calls = turns 0 calls ∧
    ∀ (n : ℕ) (call : EndpointList), calls[n]? = some call →
      (call.urls = [] → (answers hash start calls)[n]? = some (.error .zeroDivisionError)) ∧
      (call.urls ≠ [] → ∃ url ∈ call.urls, (answers hash start calls)[n]? = some (.ok url)) := by
  rw [answers_eq_turns h]
  refine ⟨rfl, fun n call hcall => ?_⟩
  obtain ⟨j, hj⟩ := turns_getElem? hcall 0
  rw [hj]
  obtain ⟨hempty, hmem⟩ := turnOf_mem call j
  refine ⟨fun hnil => by rw [hempty hnil], fun hne => ?_⟩
  obtain ⟨url, hurl, hturn⟩ := hmem hne
  exact ⟨url, hurl, by rw [hturn]⟩

/-- A list whose URLs are hashed by their number. -/
def byNumber (urls : List String) : ℤ := urls.length

-- a list that has the identity of the last call's, which is gone: its endpoint is not called
example : answers byNumber start [⟨1, [⟨"http://a", []⟩]⟩, ⟨1, [⟨"http://b", []⟩]⟩] = [.ok "http://a", .ok "http://a"] := by
  decide

/-- Two calls. -/
def twoCalls : List EndpointList := [⟨1, [⟨"http://c", []⟩]⟩, ⟨2, []⟩]

/-- Three calls about two endpoints: two with one object, one with another. -/
def threeCalls : List EndpointList :=
  [⟨3, [⟨"http://b", []⟩, ⟨"http://a", []⟩]⟩, ⟨3, [⟨"http://b", []⟩, ⟨"http://a", []⟩]⟩,
    ⟨1, [⟨"http://a", []⟩, ⟨"http://b", []⟩]⟩]

theorem faithful_threeCalls : Faithful byNumber (twoCalls ++ threeCalls) := ⟨by decide, by decide⟩

/-- The empty list among them. -/
theorem caches_transparent_threeCalls :
    (answers byNumber start (twoCalls ++ threeCalls))[1]? = some (.error .zeroDivisionError) :=
  ((caches_transparent faithful_threeCalls).2 1 ⟨2, []⟩ rfl).1 rfl

/-! ### Shares -/

theorem turns_append (k : ℕ) (calls calls' : List EndpointList) :
    ∃ k', turns k (calls ++ calls') = turns k calls ++ turns k' calls' := by
  induction calls generalizing k with
  | nil => exact ⟨k, rfl⟩
  | cons call calls ih =>
    obtain ⟨k', hk'⟩ := ih (if call.urls = [] then k else k + 1)
    exact ⟨k', by rw [List.cons_append, turns, hk', turns, List.cons_append]⟩

@[simp] theorem length_turns (k : ℕ) (calls : List EndpointList) : (turns k calls).length = calls.length := by
  induction calls generalizing k with
  | nil => rfl
  | cons call calls ih => rw [turns, List.length_cons, ih, List.length_cons]

/-- The answers to calls about the same endpoints, as turns of one list. -/
theorem count_turns_of_same {l : List String} {window : List EndpointList} (hne : l ≠ [])
    (hsame : ∀ call ∈ window, call.sortedUrls = l) (k : ℕ) (u : String) :
    (turns k window).count (.ok u) = ((List.range' k window.length).map (turn l)).count (some u) := by
  induction window generalizing k with
  | nil => rfl
  | cons call window ih =>
    have hcall := hsame call List.mem_cons_self
    have hurls : call.urls ≠ [] := by
      rintro hnil
      rw [EndpointList.sortedUrls, hnil] at hcall
      exact hne hcall.symm
    obtain ⟨url, -, hturn⟩ := exists_turn hne k
    rw [turns, if_neg hurls, List.length_cons, List.range'_succ, List.map_cons, List.count_cons, List.count_cons,
      ih fun c hc => hsame c (List.mem_cons_of_mem _ hc), turnOf, hcall, hturn]
    simp

/-- **Round robin is fair.** In any run of calls in which the caches may be relied on, of
any calls in a row about the same `n` endpoints, each endpoint gets their number divided
by `n`, rounded down or up. -/
theorem roundRobin_fair {before window : List EndpointList} {l : List String}
    (h : Faithful hash (before ++ window)) (hsame : ∀ call ∈ window, call.urls.Perm l)
    (hnodup : l.Nodup) {u : String} (hu : u ∈ l) :
    let served := ((answers hash start (before ++ window)).drop before.length).count (.ok u)
    window.length / l.length ≤ served ∧
      served ≤ (window.length + (l.length - 1)) / l.length := by
  intro served
  obtain ⟨k', hturns⟩ := turns_append 0 before window
  have hperm := List.perm_insertionSort (· ≤ ·) l
  have hsorted : ∀ call ∈ window, call.sortedUrls = l.insertionSort (· ≤ ·) := fun call hcall =>
    insertionSort_eq_of_perm (hsame call hcall)
  have hserved : served = ((List.range' k' window.length).map (turn (l.insertionSort (· ≤ ·)))).count
      (some u) := by
    have hdrop : (turns 0 before ++ turns k' window).drop before.length = turns k' window := by
      rw [← length_turns 0 before]
      exact List.drop_left
    show ((answers hash start (before ++ window)).drop before.length).count (.ok u) = _
    rw [answers_eq_turns h, hturns, hdrop]
    exact count_turns_of_same (List.ne_nil_of_mem (hperm.mem_iff.mpr hu)) hsorted k' u
  have hfair := count_turns (hperm.nodup_iff.mpr hnodup) (hperm.mem_iff.mpr hu) k' window.length
  rwa [← hserved, hperm.length_eq] at hfair

/-- Of three calls about two endpoints, each gets one or two. -/
theorem roundRobin_fair_threeCalls :
    let served := ((answers byNumber start (twoCalls ++ threeCalls)).drop 2).count (.ok "http://a")
    1 ≤ served ∧ served ≤ 2 :=
  roundRobin_fair (l := ["http://a", "http://b"]) faithful_threeCalls (by decide) (by decide) List.mem_cons_self

end RoundRobinRouter

end CachingInLLMs.Router

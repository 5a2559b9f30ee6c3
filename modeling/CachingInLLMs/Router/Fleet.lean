import CachingInLLMs.Router.Bridge
import Mathlib.Data.Set.Basic

/-!
# Engines that boot

An engine registers with the Controller under a fresh instance id each time it
boots, and the Controller answers a query about its ip with the id of its current
boot. `Engines` is what the Controller knows of them. A value of the type cannot
give one id to two engines, since a boot takes an id that was never used.

`Fleet` is the set of URLs that service discovery may report: each has a query ip,
and no two have the same.
-/

namespace CachingInLLMs.Router

open CachingInLLMs.Library

variable {ι : Type}

/-- The URLs that may be reported: distinct URLs have distinct query ips. -/
structure Fleet where
  /-- The URLs. -/
  urls : Set String
  /-- Each has a query ip. -/
  queryIp_ok : ∀ url ∈ urls, ∃ ip, queryIp url = .ok ip
  /-- No two have the same. -/
  queryIp_injOn : ∀ u ∈ urls, ∀ v ∈ urls, queryIp u = queryIp v → u = v

theorem Fleet.ipOf_injOn (fleet : Fleet) {u v : String} (hu : u ∈ fleet.urls) (hv : v ∈ fleet.urls)
    (h : ipOf u = ipOf v) : u = v := by
  refine fleet.queryIp_injOn u hu v hv ?_
  rw [queryIp_eq_ipOf (fleet.queryIp_ok u hu), queryIp_eq_ipOf (fleet.queryIp_ok v hv), h]

/-- A fleet of two engines. -/
def twoEngines : Fleet where
  urls := {"http://10.0.0.1:8000", "http://10.0.0.2:8000"}
  queryIp_ok := by
    rintro url (rfl | rfl)
    · exact ⟨"10.0.0.1", by decide⟩
    · exact ⟨"10.0.0.2", by decide⟩
  queryIp_injOn := by
    rintro u (rfl | rfl) v (rfl | rfl) h
    · rfl
    · exact absurd h (by decide)
    · exact absurd h (by decide)
    · rfl

/-- The engines, as the Controller knows them. -/
structure Engines (ι : Type) where
  /-- The id of the current boot of the engine at an ip. -/
  current : String → Option ι
  /-- The ids used so far, with the ip each was used at. -/
  booted : Dict ι String
  /-- A current id was used at its ip. -/
  current_mem_items : ∀ ip i, current ip = some i → (i, ip) ∈ booted.items

namespace Engines

/-- No engine has booted. -/
def start : Engines ι := ⟨fun _ => none, ∅, nofun⟩

/-- The id of the current boot of the engine at a URL. -/
def currentId (engines : Engines ι) (url : String) : Option ι := engines.current (ipOf url)

/-- What the Controller answers about an ip: the current id there, or what stands for
an engine that has not booted. -/
def answer (unregistered : ι) (engines : Engines ι) (ip : String) : ι := (engines.current ip).getD unregistered

variable [DecidableEq ι]

theorem booted_of_current {engines : Engines ι} {ip : String} {i : ι} (h : engines.current ip = some i) :
    engines.booted.get? i = some ip := Dict.get?_eq_some_iff.mpr (engines.current_mem_items ip i h)

theorem mem_booted {engines : Engines ι} {ip : String} {i : ι} (h : engines.current ip = some i) :
    i ∈ engines.booted := Dict.mem_of_get? (booted_of_current h)

/-- The engine at `url` boots under the fresh id `i`. -/
def boot (engines : Engines ι) (url : String) (i : ι) (hfresh : i ∉ engines.booted) : Engines ι where
  current := Function.update engines.current (ipOf url) (some i)
  booted := engines.booted.set i (ipOf url)
  current_mem_items ip j h := by
    rw [← Dict.get?_eq_some_iff]
    by_cases hip : ip = ipOf url
    · rw [hip, Function.update_self] at h
      rw [← Option.some.inj h, Dict.get?_set_self, hip]
    · rw [Function.update_of_ne hip] at h
      have hne : j ≠ i := fun hji => hfresh (hji ▸ mem_booted h)
      rw [Dict.get?_set_of_ne _ _ hne, booted_of_current h]

@[simp] theorem currentId_boot (engines : Engines ι) (url : String) (i : ι) (hfresh : i ∉ engines.booted) :
    (engines.boot url i hfresh).currentId url = some i := Function.update_self _ _ _

/-- A boot forgets no id. -/
theorem booted_boot {engines : Engines ι} {url : String} {i : ι} (hfresh : i ∉ engines.booted) {j : ι} {ip : String}
    (h : engines.booted.get? j = some ip) : (engines.boot url i hfresh).booted.get? j = some ip := by
  have hne : j ≠ i := fun hji => hfresh (hji ▸ Dict.mem_of_get? h)
  exact (Dict.get?_set_of_ne _ _ hne).trans h

/-- A boot concerns no other engine of the fleet. -/
theorem currentId_boot_of_ne (engines : Engines ι) {url : String} {i : ι} (hfresh : i ∉ engines.booted)
    {fleet : Fleet} {v : String} (hurl : url ∈ fleet.urls) (hv : v ∈ fleet.urls) (h : v ≠ url) :
    (engines.boot url i hfresh).currentId v = engines.currentId v :=
  Function.update_of_ne (fun hip => h (fleet.ipOf_injOn hv hurl hip)) _ _

omit [DecidableEq ι] in
/-- Two engines of the fleet do not have one current id. -/
theorem currentId_inj (engines : Engines ι) {fleet : Fleet} {u v : String} {i : ι} (hu : u ∈ fleet.urls)
    (hv : v ∈ fleet.urls) (h : engines.currentId u = some i) (h' : engines.currentId v = some i) : u = v := by
  classical
  exact fleet.ipOf_injOn hu hv (Option.some.inj ((booted_of_current h).symm.trans (booted_of_current h')))

end Engines

end CachingInLLMs.Router

import CachingInLLMs.Controller.KVController
import Mathlib.Algebra.Order.Ring.Int
import Mathlib.Data.Int.ConditionallyCompleteOrder
import Mathlib.Order.ConditionallyCompleteLattice.Basic
import Mathlib.Order.WithBot

/-!
# What `kvaware` reads off a `layout_info`

`KvawareRouter.route_request` looks at one instance only, the first key of
`layout_info`. It compares that instance's matched tokens with a threshold to
choose between the cache route and the session-hash / QPS fallback, and on the
cache route it sends the request to that instance.
-/

namespace CachingInLLMs.Router.Kvaware

open CachingInLLMs.Library CachingInLLMs.Controller

variable {ι : Type} [DecidableEq ι]

/-- `list(layout_info.keys())[0]`: the instance selected, if any. -/
def selectedInstance (layoutInfo : LayoutInfo ι) : Option ι := layoutInfo.keys.head?

/-- `matched_tokens`: those of the selected instance, `math.inf` if there is none. -/
def matchedTokens (layoutInfo : LayoutInfo ι) : WithTop ℤ :=
  match (selectedInstance layoutInfo).bind layoutInfo.get? with
  | some info => (info.2 : ℤ)
  | none => ⊤

/-- The condition under which the request leaves the cache route: no instance is
reported, or `matched_tokens < max(len(token_ids) - self.threshold, 0)`. -/
def FallsBack (layoutInfo : LayoutInfo ι) (promptTokens threshold : ℤ) : Prop :=
  layoutInfo.keys = [] ∨ matchedTokens layoutInfo < ((max (promptTokens - threshold) 0 : ℤ) : WithTop ℤ)

/-- The branch is decided by the selected instance and what it matches. -/
theorem fallsBack_congr {a b : LayoutInfo ι} (hsel : selectedInstance a = selectedInstance b)
    (hget : ∀ i, selectedInstance a = some i → a.get? i = b.get? i) (promptTokens threshold : ℤ) :
    FallsBack a promptTokens threshold ↔ FallsBack b promptTokens threshold := by
  have hkeys : a.keys = [] ↔ b.keys = [] := by
    unfold selectedInstance at hsel
    rw [← List.head?_eq_none_iff, ← List.head?_eq_none_iff, hsel]
  have hmatched : matchedTokens a = matchedTokens b := by
    unfold matchedTokens
    rw [← hsel]
    cases hs : selectedInstance a with
    | none => rfl
    | some i => simp [hget i hs]
  rw [FallsBack, FallsBack, hkeys, hmatched]

end CachingInLLMs.Router.Kvaware

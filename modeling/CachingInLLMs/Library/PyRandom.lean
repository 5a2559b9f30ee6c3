import CachingInLLMs.Library.Python

/-!
# Random choices

A generator is a state that its seed determines. Of what it draws only this is known, that
it is as many elements of the population as were asked for; so whatever is proved holds for
every outcome. `PyRandom.cycle` draws one element after the other.
-/

namespace CachingInLLMs.Library

/-- `random.Random`. -/
structure PyRandom where
  /-- The state of a generator. -/
  State : Type
  /-- `random.Random(seed)`. -/
  init : ℤ → State
  /-- What is drawn of a population, with these weights if any. -/
  sample : {α : Type} → List α → Option (List ℚ) → ℕ → State → List α × State
  /-- As many as were asked for. -/
  length_sample : ∀ {α : Type} (population : List α) (weights : Option (List ℚ)) (k : ℕ) (s : State),
    population ≠ [] → (sample population weights k s).1.length = k
  /-- They are from the population. -/
  mem_sample : ∀ {α : Type} (population : List α) (weights : Option (List ℚ)) (k : ℕ) (s : State),
    ∀ a ∈ (sample population weights k s).1, a ∈ population

namespace PyRandom

variable {α : Type}

/-- `rng.choices(population, weights=weights, k=k)`. -/
def choices (rng : PyRandom) (population : List α) (weights : Option (List ℚ)) (k : ℕ) :
    Py rng.State (List α) := fun s =>
  (.ok (rng.sample population weights k s).1, (rng.sample population weights k s).2)

theorem exec_choices (rng : PyRandom) {population : List α} (h : population ≠ [])
    (weights : Option (List ℚ)) (k : ℕ) (s : rng.State) :
    ∃ drawn s', (rng.choices population weights k).exec s = (.ok drawn, s') ∧ drawn.length = k ∧
      ∀ a ∈ drawn, a ∈ population :=
  ⟨_, _, rfl, rng.length_sample population weights k s h, rng.mem_sample population weights k s⟩

/-- One element after the other. -/
def cycle : PyRandom where
  State := ℕ
  init seed := seed.toNat
  sample population _ k s :=
    ((List.range k).filterMap fun j => population[(s + j) % population.length]?, s + k)
  length_sample population _ k s h := by
    have hlt (j : ℕ) : (s + j) % population.length < population.length :=
      Nat.mod_lt _ (List.length_pos_iff.mpr h)
    rw [List.length_filterMap_eq_countP, List.countP_eq_length.mpr, List.length_range]
    intro j _
    rw [List.getElem?_eq_getElem (hlt j)]
    rfl
  mem_sample population _ k s a ha := by
    obtain ⟨j, -, hj⟩ := List.mem_filterMap.mp ha
    exact List.mem_of_getElem? hj

end PyRandom

end CachingInLLMs.Library

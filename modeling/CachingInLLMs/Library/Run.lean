import Mathlib.Data.List.Basic

/-!
# Runs of a labelled step relation

`Run step s es s'`: the events `es`, taken one after another by `step`, lead from
`s` to `s'`. What every step on certain events preserves, a run on such events
preserves (`Run.invariant_of`); a run splits wherever its events do (`run_append_iff`).
`EveryStep P s es` says `P` of each event of a run and the state it is taken in; what
such steps preserve, the run preserves (`Run.invariant_of_every`). Where each step is matched by a step of
another relation, so is a run (`Run.simulate`).
-/

namespace CachingInLLMs.Library

universe u v

variable {σ : Type u} {ε : Type v}

/-- The events `es` lead from one state to another. -/
inductive Run (step : σ → ε → σ → Prop) : σ → List ε → σ → Prop
  /-- No event. -/
  | nil (s : σ) : Run step s [] s
  /-- A first event, and the rest. -/
  | cons {s s' s'' : σ} {e : ε} {es : List ε} : step s e s' → Run step s' es s'' → Run step s (e :: es) s''

variable {step : σ → ε → σ → Prop} {s s' s'' : σ} {e : ε} {es fs : List ε}

theorem run_nil_iff : Run step s [] s' ↔ s = s' := by
  constructor
  · rintro ⟨⟩
    rfl
  · rintro rfl
    exact Run.nil _

theorem run_cons_iff : Run step s (e :: es) s'' ↔ ∃ s', step s e s' ∧ Run step s' es s'' := by
  constructor
  · rintro (_ | ⟨h, hr⟩)
    exact ⟨_, h, hr⟩
  · rintro ⟨s', h, hr⟩
    exact Run.cons h hr

theorem Run.single (h : step s e s') : Run step s [e] s' := Run.cons h (Run.nil _)

theorem Run.append (h₁ : Run step s es s') (h₂ : Run step s' fs s'') : Run step s (es ++ fs) s'' := by
  induction h₁ with
  | nil => exact h₂
  | cons h _ ih => exact Run.cons h (ih h₂)

/-- A run splits wherever its events do. -/
theorem run_append_iff : Run step s (es ++ fs) s'' ↔ ∃ s', Run step s es s' ∧ Run step s' fs s'' := by
  constructor
  · induction es generalizing s with
    | nil => exact fun h => ⟨s, Run.nil s, h⟩
    | cons e es ih =>
      intro h
      rw [List.cons_append, run_cons_iff] at h
      obtain ⟨t, ht, h⟩ := h
      obtain ⟨s', h₁, h₂⟩ := ih h
      exact ⟨s', Run.cons ht h₁, h₂⟩
  · rintro ⟨s', h₁, h₂⟩
    exact h₁.append h₂

/-- What every step on an event allowed by `Q` preserves, a run on such events preserves. -/
theorem Run.invariant_of {P : σ → Prop} {Q : ε → Prop} (hstep : ∀ s e s', Q e → P s → step s e s' → P s')
    (h : Run step s es s') (hQ : ∀ e ∈ es, Q e) (hP : P s) : P s' := by
  induction h with
  | nil => exact hP
  | cons he _ ih =>
    exact ih (fun e h => hQ e (List.mem_cons_of_mem _ h)) (hstep _ _ _ (hQ _ List.mem_cons_self) hP he)

/-- Take the events one after another, where each leads to one state at most. -/
def runAll? (step? : σ → ε → Option σ) : σ → List ε → Option σ
  | s, [] => some s
  | s, e :: es => (step? s e).bind fun s' => runAll? step? s' es

theorem run_of_runAll? {step? : σ → ε → Option σ} (h : runAll? step? s es = some s') :
    Run (fun s e s' => step? s e = some s') s es s' := by
  induction es generalizing s with
  | nil =>
    obtain rfl := Option.some.inj h
    exact Run.nil s
  | cons e es ih =>
    obtain ⟨t, ht, h⟩ := Option.bind_eq_some_iff.mp h
    exact Run.cons ht (ih h)

theorem runAll?_of_run {step? : σ → ε → Option σ} (h : Run (fun s e s' => step? s e = some s') s es s') :
    runAll? step? s es = some s' := by
  induction h with
  | nil => rfl
  | cons he _ ih =>
    rw [runAll?, he]
    exact ih

/-- If an event leads to one state only, so does a list of events. -/
theorem Run.unique (h : Run step s es s') (h' : Run step s es s'')
    (hdet : ∀ s e t t', step s e t → step s e t' → t = t') : s' = s'' := by
  induction h with
  | nil => exact run_nil_iff.mp h'
  | cons he _ ih =>
    obtain ⟨t, ht, h'⟩ := run_cons_iff.mp h'
    obtain rfl := hdet _ _ _ _ he ht
    exact ih h'

/-! ### Properties of the steps of a run -/

/-- `P` holds of each event and the state it is taken in. -/
def EveryStep (step : σ → ε → σ → Prop) (P : σ → ε → Prop) (s : σ) (es : List ε) : Prop :=
  ∀ es₁ e es₂ t, es = es₁ ++ e :: es₂ → Run step s es₁ t → P t e

variable {P : σ → ε → Prop}

theorem EveryStep.head (h : EveryStep step P s (e :: es)) : P s e := h [] e es s rfl (Run.nil s)

theorem EveryStep.tail (h : EveryStep step P s (e :: es)) (he : step s e s') : EveryStep step P s' es := by
  intro es₁ e' es₂ t hes ht
  exact h (e :: es₁) e' es₂ t (by rw [hes, List.cons_append]) (Run.cons he ht)

/-- One step. -/
theorem everyStep_single (h : P s e) : EveryStep step P s [e] := by
  intro es₁ e' es₂ t hes hrun
  cases es₁ with
  | nil =>
    obtain ⟨rfl, -⟩ := List.cons.inj hes
    exact run_nil_iff.mp hrun ▸ h
  | cons e₁ es₁ => simp at hes

/-- One step more. -/
theorem EveryStep.concat (h : EveryStep step P s es) (he : ∀ t, Run step s es t → P t e) :
    EveryStep step P s (es ++ [e]) := by
  intro es₁ e' es₂ t hes hrun
  rcases List.eq_nil_or_concat es₂ with rfl | ⟨es₂, e₂, rfl⟩
  · obtain ⟨rfl, hlast⟩ := List.append_inj' hes rfl
    obtain ⟨rfl, -⟩ := List.cons.inj hlast
    exact he t hrun
  · rw [List.concat_eq_append, ← List.cons_append, ← List.append_assoc] at hes
    exact h es₁ e' es₂ t (List.append_inj' hes rfl).1 hrun

/-- One run after another. -/
theorem everyStep_append (h : EveryStep step P s es) (hf : ∀ t, Run step s es t → EveryStep step P t fs) :
    EveryStep step P s (es ++ fs) := by
  intro es₁ e es₂ t hes hrun
  rcases List.append_eq_append_iff.mp hes with ⟨es', rfl, hfs⟩ | ⟨es', hes', hrest⟩
  · obtain ⟨r, hr, hrun⟩ := run_append_iff.mp hrun
    exact hf r hr es' e es₂ t hfs hrun
  · cases es' with
    | nil =>
      rw [List.append_nil] at hes'
      exact hf t (hes' ▸ hrun) [] e es₂ t hrest.symm (Run.nil t)
    | cons e' es' =>
      obtain ⟨rfl, -⟩ := List.cons.inj hrest
      exact h es₁ e es' t hes' hrun

/-- What the steps with `P` preserve, a run of such steps preserves. -/
theorem Run.invariant_of_every {I : σ → Prop} (hstep : ∀ s e s', P s e → I s → step s e s' → I s')
    (h : Run step s es s') (hP : EveryStep step P s es) (hI : I s) : I s' := by
  induction h with
  | nil => exact hI
  | cons he _ ih => exact ih (hP.tail he) (hstep _ _ _ hP.head hI he)

/-! ### Simulation -/

/-- A run is followed step by step, if each step is. -/
theorem Run.simulate {τ : Type*} {ε' : Type*} {step' : τ → ε' → τ → Prop} {f : ε' → ε} {R : σ → τ → Prop} {t : τ}
    (hstep : ∀ s t e s', R s t → step s (f e) s' → ∃ t', step' t e t' ∧ R s' t') {es : List ε'}
    (h : Run step s (es.map f) s') (hR : R s t) : ∃ t', Run step' t es t' ∧ R s' t' := by
  induction es generalizing s t with
  | nil => exact ⟨t, Run.nil t, run_nil_iff.mp h ▸ hR⟩
  | cons e es ih =>
    rw [List.map_cons, run_cons_iff] at h
    obtain ⟨s₁, he, h⟩ := h
    obtain ⟨t₁, he', hR₁⟩ := hstep s t e s₁ hR he
    obtain ⟨t', hrun, hR'⟩ := ih h hR₁
    exact ⟨t', Run.cons he' hrun, hR'⟩

end CachingInLLMs.Library

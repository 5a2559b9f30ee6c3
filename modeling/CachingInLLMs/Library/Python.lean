import Mathlib.Algebra.Field.Rat
import Mathlib.Data.List.Forall2

/-!
# Exceptions and state

The conventions by which Python code is read here. A function that may raise
returns `Except PyError`; a method that may also change the object it belongs to
is a `Py σ` program, which keeps the changes made before an exception, as Python
does. Arithmetic is exact; only a division can raise.
-/

namespace CachingInLLMs.Library

/-- The exceptions the modelled code can meet. -/
inductive PyError where
  /-- `IndexError`. -/
  | indexError
  /-- `KeyError`. -/
  | keyError
  /-- `ZeroDivisionError`. -/
  | zeroDivisionError
  /-- Any other exception, by its class name. -/
  | other (name : String)
  deriving DecidableEq, Repr

/-- A program on the state `σ` that may raise; what it changed before raising stays changed. -/
abbrev Py (σ : Type) := ExceptT PyError (StateM σ)

namespace Py

variable {σ τ α β : Type}

/-- Run a program: its result, and the state it leaves. -/
def exec (p : Py σ α) (s : σ) : Except PyError α × σ := p s

/-- A computation that touches no state. -/
def ofExcept (r : Except PyError α) : Py σ α := fun s => (r, s)

/-- A program on a part of the state. -/
def zoom (getPart : σ → τ) (setPart : τ → σ → σ) (p : Py τ α) : Py σ α := fun s =>
  ((p.exec (getPart s)).1, setPart (p.exec (getPart s)).2 s)

@[simp] theorem exec_pure (a : α) (s : σ) : exec (pure a : Py σ α) s = (.ok a, s) := rfl

@[simp] theorem exec_ofExcept (r : Except PyError α) (s : σ) : exec (ofExcept r) s = (r, s) := rfl

@[simp] theorem exec_get (s : σ) : exec (get : Py σ σ) s = (.ok s, s) := rfl

@[simp] theorem exec_set (s' s : σ) : exec (set s' : Py σ PUnit) s = (.ok ⟨⟩, s') := rfl

@[simp] theorem exec_zoom (getPart : σ → τ) (setPart : τ → σ → σ) (p : Py τ α) (s : σ) :
    exec (zoom getPart setPart p) s = ((p.exec (getPart s)).1, setPart (p.exec (getPart s)).2 s) := rfl

/-- One program after another: an exception of the first ends the whole. -/
theorem exec_bind (p : Py σ α) (f : α → Py σ β) (s : σ) :
    exec (p >>= f) s = match exec p s with
      | (.ok a, s') => exec (f a) s'
      | (.error e, s') => (.error e, s') := by
  show (ExceptT.bind p f) s = _
  unfold ExceptT.bind exec
  simp only [ExceptT.mk, bind, StateT.bind]
  rcases h : p s with ⟨r, s'⟩
  cases r <;> rfl

@[simp] theorem exec_bind_of_ok {p : Py σ α} {f : α → Py σ β} {s s' : σ} {a : α}
    (h : p.exec s = (.ok a, s')) : exec (p >>= f) s = exec (f a) s' := by
  rw [exec_bind, h]

@[simp] theorem exec_bind_of_error {p : Py σ α} {f : α → Py σ β} {s s' : σ} {e : PyError}
    (h : p.exec s = (.error e, s')) : exec (p >>= f) s = (.error e, s') := by
  rw [exec_bind, h]

/-- A loop whose body never raises. -/
theorem exec_mapM {f : α → Py σ β} {P : α → β → Prop} {l : List α}
    (h : ∀ a ∈ l, ∀ s, ∃ b s', (f a).exec s = (.ok b, s') ∧ P a b) (s : σ) :
    ∃ bs s', (l.mapM f).exec s = (.ok bs, s') ∧ List.Forall₂ P l bs := by
  induction l generalizing s with
  | nil => exact ⟨[], s, rfl, .nil⟩
  | cons a l ih =>
    obtain ⟨b, s₁, hb, hP⟩ := h a List.mem_cons_self s
    obtain ⟨bs, s₂, hbs, hall⟩ := ih (fun a' ha' => h a' (List.mem_cons_of_mem a ha')) s₁
    refine ⟨b :: bs, s₂, ?_, .cons hP hall⟩
    rw [List.mapM_cons, exec_bind_of_ok hb, exec_bind_of_ok hbs]
    rfl

end Py

@[simp] theorem ok_bind {ε α β : Type} (a : α) (f : α → Except ε β) : (Except.ok a >>= f) = f a := rfl

@[simp] theorem error_bind {ε α β : Type} (e : ε) (f : α → Except ε β) :
    (Except.error e >>= f) = Except.error e := rfl

/-- What two computations return, one after the other. -/
theorem bind_eq_ok {ε α β : Type} {r : Except ε α} {f : α → Except ε β} {b : β} :
    (r >>= f) = .ok b ↔ ∃ a, r = .ok a ∧ f a = .ok b := by
  cases r with
  | error e =>
    constructor
    · exact fun h => nomatch h
    · rintro ⟨_, ⟨⟩, _⟩
  | ok a =>
    constructor
    · exact fun h => ⟨a, rfl, h⟩
    · rintro ⟨_, ⟨⟩, h⟩
      exact h

theorem mapError_eq_ok {ε ε' α : Type} {r : Except ε α} {f : ε → ε'} {a : α} : r.mapError f = .ok a ↔ r = .ok a := by
  cases r with
  | error e => exact ⟨(fun h => nomatch h), (fun h => nomatch h)⟩
  | ok a' => exact ⟨fun h => congrArg _ (Except.ok.inj h), fun h => congrArg _ (Except.ok.inj h)⟩

/-- `l[i]`, for an index that is not negative. -/
def pyGet {α : Type} (l : List α) (i : ℕ) : Except PyError α :=
  match l[i]? with
  | some a => .ok a
  | none => .error .indexError

/-- `l[-1]`. -/
def pyGetLast {α : Type} (l : List α) : Except PyError α :=
  match l.getLast? with
  | some a => .ok a
  | none => .error .indexError

/-- `a / b`. -/
def pyDiv (a b : ℚ) : Except PyError ℚ := if b = 0 then .error .zeroDivisionError else .ok (a / b)

theorem pyDiv_of_ne_zero (a : ℚ) {b : ℚ} (h : b ≠ 0) : pyDiv a b = .ok (a / b) := if_neg h

/-- A comprehension whose body never raises. -/
theorem mapM_eq_map {ε α β : Type} {f : α → Except ε β} {g : α → β} {l : List α} (h : ∀ a ∈ l, f a = .ok (g a)) :
    l.mapM f = .ok (l.map g) := by
  induction l with
  | nil => rfl
  | cons a l ih =>
    rw [List.mapM_cons, h a List.mem_cons_self, ih fun a' ha' => h a' (List.mem_cons_of_mem _ ha')]
    rfl

/-- If every element gives a value, so does the list. -/
theorem exists_mapM {ε α β : Type} {f : α → Except ε β} {P : α → β → Prop} {l : List α}
    (h : ∀ a ∈ l, ∃ b, f a = .ok b ∧ P a b) : ∃ bs, l.mapM f = .ok bs ∧ List.Forall₂ P l bs := by
  induction l with
  | nil => exact ⟨[], rfl, .nil⟩
  | cons a l ih =>
    obtain ⟨b, hb, hP⟩ := h a List.mem_cons_self
    obtain ⟨bs, hbs, hall⟩ := ih fun a' ha' => h a' (List.mem_cons_of_mem _ ha')
    exact ⟨b :: bs, by rw [List.mapM_cons, hb, hbs]; rfl, .cons hP hall⟩

/-- What a comprehension returns. -/
theorem mapM_eq_ok {ε α β : Type} {f : α → Except ε β} {l : List α} {bs : List β} :
    l.mapM f = .ok bs ↔ List.Forall₂ (fun a b => f a = .ok b) l bs := by
  induction l generalizing bs with
  | nil =>
    rw [List.forall₂_nil_left_iff]
    exact ⟨fun h => (Except.ok.inj h).symm, fun h => h ▸ rfl⟩
  | cons a l ih =>
    rw [List.mapM_cons, bind_eq_ok, List.forall₂_cons_left_iff]
    constructor
    · rintro ⟨b, hb, h⟩
      obtain ⟨bs', hbs', h⟩ := bind_eq_ok.mp h
      exact ⟨b, bs', hb, ih.mp hbs', (Except.ok.inj h).symm⟩
    · rintro ⟨b, bs', hb, hbs', rfl⟩
      exact ⟨b, hb, bind_eq_ok.mpr ⟨bs', ih.mpr hbs', rfl⟩⟩

/-- What a loop returns, by its last round. -/
theorem foldlM_concat_eq_ok {ε α σ : Type} {f : σ → α → Except ε σ} {l : List α} {a : α} {s s' : σ} :
    (l ++ [a]).foldlM f s = .ok s' ↔ ∃ t, l.foldlM f s = .ok t ∧ f t a = .ok s' := by
  rw [List.foldlM_append, bind_eq_ok]
  simp only [List.foldlM_cons, List.foldlM_nil, bind_pure]

theorem exists_of_forall₂_of_mem {α β : Type} {R : α → β → Prop} {l : List α} {l' : List β} {a : α}
    (h : List.Forall₂ R l l') (ha : a ∈ l) : ∃ b ∈ l', R a b := by
  obtain ⟨i, hi, rfl⟩ := List.getElem_of_mem ha
  obtain ⟨hlength, h⟩ := List.forall₂_iff_get.mp h
  exact ⟨l'[i], List.getElem_mem (hlength ▸ hi), h i hi (hlength ▸ hi)⟩

theorem map_eq_map_iff_forall₂ {α β γ : Type} {f : α → γ} {g : β → γ} {l : List α} {l' : List β} :
    l.map f = l'.map g ↔ List.Forall₂ (fun a b => f a = g b) l l' :=
  calc l.map f = l'.map g ↔ List.Forall₂ (· = ·) (l.map f) (l'.map g) := by rw [List.forall₂_eq_eq_eq]
    _ ↔ List.Forall₂ (fun a b => f a = g b) l l' := by
      rw [List.forall₂_map_left_iff, List.forall₂_map_right_iff]

end CachingInLLMs.Library

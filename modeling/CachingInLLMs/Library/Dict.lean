import Mathlib.Data.List.Basic
import Mathlib.Data.List.Nodup

/-!
# Insertion-ordered dictionaries

A dictionary that remembers the order in which its keys were first written, as
Python's `dict` does: assigning to a key already present keeps the key where it
stands, a new key goes to the end, and iteration is in that order.

A dictionary is determined by two observations, the order of its keys (`keys`)
and the value under each key (`get?`); every operation is described by what it
does to the two. `Before` is the order of two keys. Inverting a dictionary
(`{v: k for k, v in d.items()}`) lets the last key of each value win, which
`get?_invert_eq_some` states in terms of `get?` and `Before`.
-/

namespace CachingInLLMs.Library

universe u v w

/-- An insertion-ordered dictionary: its items, oldest key first, no key twice. -/
@[ext]
structure Dict (κ : Type u) (α : Type v) where
  /-- The items. -/
  items : List (κ × α)
  /-- No key occurs twice. -/
  nodup : (items.map Prod.fst).Nodup
  deriving DecidableEq

namespace Dict

variable {κ : Type u} {α : Type v} {β : Type w} [DecidableEq κ]

/-- The keys, oldest first. -/
def keys (d : Dict κ α) : List κ := d.items.map Prod.fst

/-- The values, in the order of the keys. -/
def values (d : Dict κ α) : List α := d.items.map Prod.snd

instance : Membership κ (Dict κ α) := ⟨fun d k => k ∈ d.keys⟩

instance : EmptyCollection (Dict κ α) := ⟨⟨[], List.nodup_nil⟩⟩

instance : Inhabited (Dict κ α) := ⟨∅⟩

instance (k : κ) (d : Dict κ α) : Decidable (k ∈ d) := inferInstanceAs (Decidable (k ∈ d.keys))

/-- `d.get(k)`. -/
def get? (d : Dict κ α) (k : κ) : Option α := d.items.lookup k

/-- Assigning to a key among the items: in place if it is there, at the end if not. -/
def setItems (k : κ) (v : α) : List (κ × α) → List (κ × α)
  | [] => [(k, v)]
  | p :: l => if p.1 = k then (k, v) :: l else p :: setItems k v l

theorem map_fst_setItems (k : κ) (v : α) (l : List (κ × α)) :
    (setItems k v l).map Prod.fst =
      if k ∈ l.map Prod.fst then l.map Prod.fst else l.map Prod.fst ++ [k] := by
  induction l with
  | nil => simp [setItems]
  | cons p l ih =>
    by_cases hp : p.1 = k
    · simp [setItems, hp]
    · simp only [setItems, if_neg hp, List.map_cons, ih, List.mem_cons, Ne.symm hp, false_or]
      split <;> simp

theorem setItems_of_not_mem {k : κ} {v : α} {l : List (κ × α)} (h : k ∉ l.map Prod.fst) :
    setItems k v l = l ++ [(k, v)] := by
  induction l with
  | nil => rfl
  | cons p l ih =>
    rw [List.map_cons, List.mem_cons, not_or] at h
    rw [setItems, if_neg (Ne.symm h.1), ih h.2]
    rfl

theorem lookup_setItems (k k' : κ) (v : α) (l : List (κ × α)) :
    (setItems k v l).lookup k' = if k' = k then some v else l.lookup k' := by
  induction l with
  | nil => by_cases h : k' = k <;> simp [setItems, h]
  | cons p l ih =>
    obtain ⟨a, b⟩ := p
    by_cases ha : a = k
    · subst ha
      by_cases h : k' = a
      · simp [setItems, h]
      · simp [setItems, List.lookup_cons, beq_eq_false_iff_ne.mpr h, h]
    · rw [setItems, if_neg ha, List.lookup_cons, ih, List.lookup_cons]
      by_cases h : k' = a
      · subst h
        simp [ha]
      · simp [beq_eq_false_iff_ne.mpr h]

/-- `d[k] = v`. -/
def set (d : Dict κ α) (k : κ) (v : α) : Dict κ α where
  items := setItems k v d.items
  nodup := by
    rw [map_fst_setItems]
    split
    · exact d.nodup
    · next h => exact List.nodup_append.mpr ⟨d.nodup, List.nodup_singleton k, by
        rintro a ha b hb rfl
        exact h (List.mem_singleton.mp hb ▸ ha)⟩

/-- `del d[k]` for a key that is there; the dictionary itself otherwise. -/
def erase (d : Dict κ α) (k : κ) : Dict κ α where
  items := d.items.filter fun p => p.1 ≠ k
  nodup := (List.filter_sublist.map Prod.fst).nodup d.nodup

/-- `d.setdefault(k, v)`. -/
def setdefault (d : Dict κ α) (k : κ) (v : α) : Dict κ α := if k ∈ d then d else d.set k v

/-- Assign every pair of a list, in order. -/
def update (d : Dict κ α) (l : List (κ × α)) : Dict κ α := l.foldl (fun d p => d.set p.1 p.2) d

/-- `{k: v for k, v in l}`. -/
def ofList (l : List (κ × α)) : Dict κ α := (∅ : Dict κ α).update l

/-- `d.setdefault(k, v)` for every pair of a list, in order. -/
def setdefaults (d : Dict κ α) (l : List (κ × α)) : Dict κ α :=
  l.foldl (fun d p => d.setdefault p.1 p.2) d

omit [DecidableEq κ] in
/-- `{k: f(v) for k, v in d.items()}`. -/
def mapValues (f : α → β) (d : Dict κ α) : Dict κ β where
  items := d.items.map fun p => (p.1, f p.2)
  nodup := by rw [List.map_map]; exact d.nodup

/-- `{k: f(v) for k, v in d.items()}`, for an `f` that may fail. -/
def mapValuesM {ε : Type*} (f : α → Except ε β) (d : Dict κ α) : Except ε (Dict κ β) :=
  (d.items.mapM fun p => (f p.2).map fun b => (p.1, b)).map ofList

/-- `{v: k for k, v in d.items()}`. -/
def invert [DecidableEq α] (d : Dict κ α) : Dict α κ := ofList (d.items.map Prod.swap)

/-- Read `f` off every item, and keep what it gives under the item's key. -/
def collect (f : κ → α → Option β) (d : Dict κ α) : Dict κ β :=
  d.items.foldl (fun e p => match f p.1 p.2 with
    | some b => e.set p.1 b
    | none => e) ∅

/-- The key `a` was first written before the key `b`. -/
def Before (d : Dict κ α) (a b : κ) : Prop := List.Sublist [a, b] d.keys

instance (d : Dict κ α) (a b : κ) : Decidable (d.Before a b) :=
  inferInstanceAs (Decidable (List.Sublist [a, b] d.keys))

/-! ### Membership and lookup -/

omit [DecidableEq κ] in
theorem mem_keys {d : Dict κ α} {k : κ} : k ∈ d.keys ↔ k ∈ d := Iff.rfl

omit [DecidableEq κ] in
theorem nodup_keys (d : Dict κ α) : d.keys.Nodup := d.nodup

@[simp] theorem get?_empty (k : κ) : (∅ : Dict κ α).get? k = none := rfl

omit [DecidableEq κ] in
@[simp] theorem keys_empty : (∅ : Dict κ α).keys = [] := rfl

omit [DecidableEq κ] in
@[simp] theorem not_mem_empty (k : κ) : k ∉ (∅ : Dict κ α) := List.not_mem_nil

theorem get?_eq_none {d : Dict κ α} {k : κ} : d.get? k = none ↔ k ∉ d := by
  simp only [get?, List.lookup_eq_none_iff, ← mem_keys, keys, List.mem_map, not_exists, not_and]
  constructor
  · intro h p hp hk
    exact absurd hk.symm (by simpa using h p hp)
  · intro h p hp
    simpa using fun hk => h p hp hk.symm

theorem get?_isSome {d : Dict κ α} {k : κ} : (d.get? k).isSome ↔ k ∈ d := by
  rw [← not_iff_not, ← get?_eq_none]
  simp

theorem mem_of_get? {d : Dict κ α} {k : κ} {v : α} (h : d.get? k = some v) : k ∈ d := by
  rw [← get?_isSome, h]
  rfl

theorem exists_get?_of_mem {d : Dict κ α} {k : κ} (h : k ∈ d) : ∃ v, d.get? k = some v :=
  Option.isSome_iff_exists.mp (get?_isSome.mpr h)

theorem lookup_eq_none {l : List (κ × α)} {k : κ} (h : k ∉ l.map Prod.fst) : l.lookup k = none := by
  rw [List.lookup_eq_none_iff]
  intro p hp
  exact bne_iff_ne.mpr fun hk => h (List.mem_map.mpr ⟨p, hp, hk.symm⟩)

/-- A lookup succeeds exactly on the items. -/
theorem get?_eq_some_iff {d : Dict κ α} {k : κ} {v : α} : d.get? k = some v ↔ (k, v) ∈ d.items := by
  constructor
  · intro h
    obtain ⟨l₁, l₂, hl, -⟩ := List.lookup_eq_some_iff.mp h
    rw [hl]
    exact List.mem_append_right _ List.mem_cons_self
  · intro h
    obtain ⟨l₁, l₂, hl⟩ := List.append_of_mem h
    refine List.lookup_eq_some_iff.mpr ⟨l₁, l₂, hl, fun p hp => ?_⟩
    have hnd := d.nodup
    rw [hl, List.map_append, List.nodup_append] at hnd
    simpa using fun hk => hnd.2.2 p.1 (List.mem_map_of_mem hp) k (by simp) hk.symm

theorem lookup_eq_some_iff {l : List (κ × α)} (hl : (l.map Prod.fst).Nodup) {k : κ} {v : α} :
    l.lookup k = some v ↔ (k, v) ∈ l := get?_eq_some_iff (d := ⟨l, hl⟩)

/-! ### Assignment -/

@[simp] theorem get?_set (d : Dict κ α) (k k' : κ) (v : α) :
    (d.set k v).get? k' = if k' = k then some v else d.get? k' := lookup_setItems k k' v d.items

theorem get?_set_self (d : Dict κ α) (k : κ) (v : α) : (d.set k v).get? k = some v := by simp

theorem get?_set_of_ne (d : Dict κ α) {k k' : κ} (v : α) (h : k' ≠ k) : (d.set k v).get? k' = d.get? k' := by
  simp [h]

/-- Assignment keeps the order of the keys; a new key goes to the end. -/
theorem keys_set (d : Dict κ α) (k : κ) (v : α) :
    (d.set k v).keys = if k ∈ d then d.keys else d.keys ++ [k] := map_fst_setItems k v d.items

theorem keys_set_of_mem {d : Dict κ α} {k : κ} (v : α) (h : k ∈ d) : (d.set k v).keys = d.keys := by
  rw [keys_set, if_pos h]

theorem keys_set_of_not_mem {d : Dict κ α} {k : κ} (v : α) (h : k ∉ d) :
    (d.set k v).keys = d.keys ++ [k] := by
  rw [keys_set, if_neg h]

theorem keys_prefix_set (d : Dict κ α) (k : κ) (v : α) : d.keys <+: (d.set k v).keys := by
  rw [keys_set]
  split
  · exact List.prefix_rfl
  · exact List.prefix_append _ _

@[simp] theorem mem_set {d : Dict κ α} {k k' : κ} {v : α} : k' ∈ d.set k v ↔ k' = k ∨ k' ∈ d := by
  rw [← get?_isSome, get?_set, ← get?_isSome]
  by_cases h : k' = k <;> simp [h]

/-- Two dictionaries with the same keys in the same order and the same values are equal. -/
theorem ext_get? {d e : Dict κ α} (hk : d.keys = e.keys) (hg : ∀ k, d.get? k = e.get? k) : d = e := by
  have hlen : d.items.length = e.items.length := by
    simpa [keys] using congrArg List.length hk
  refine Dict.ext (List.ext_getElem hlen fun n h₁ h₂ => ?_)
  have hkn : (d.items[n]).1 = (e.items[n]).1 := by
    have := List.getElem_of_eq hk (i := n) (by simpa [keys] using h₁)
    simpa [keys] using this
  have hd : d.get? (d.items[n]).1 = some (d.items[n]).2 := get?_eq_some_iff.mpr (List.getElem_mem h₁)
  have he : e.get? (e.items[n]).1 = some (e.items[n]).2 := get?_eq_some_iff.mpr (List.getElem_mem h₂)
  rw [hg, hkn, he] at hd
  exact Prod.ext hkn (Option.some.inj hd).symm

/-- Writing the value a key already has changes nothing. -/
theorem set_of_get? {d : Dict κ α} {k : κ} {v : α} (h : d.get? k = some v) : d.set k v = d := by
  refine ext_get? (keys_set_of_mem v (mem_of_get? h)) fun k' => ?_
  by_cases hk : k' = k
  · rw [hk, get?_set_self, h]
  · rw [get?_set_of_ne d v hk]

/-! ### Assigning many pairs -/

theorem update_cons (d : Dict κ α) (p : κ × α) (l : List (κ × α)) :
    d.update (p :: l) = (d.set p.1 p.2).update l := rfl

/-- The last pair of each key is the one that stays. -/
theorem get?_update (d : Dict κ α) (l : List (κ × α)) (k : κ) :
    (d.update l).get? k = (l.reverse.lookup k).or (d.get? k) := by
  induction l generalizing d with
  | nil => simp [update]
  | cons p l ih =>
    obtain ⟨a, b⟩ := p
    rw [update_cons, ih, List.reverse_cons, List.lookup_append, Option.or_assoc, get?_set]
    by_cases h : k = a
    · simp [h]
    · simp [List.lookup_cons, beq_eq_false_iff_ne.mpr h, h]

/-- With no key twice, the pairs are what is read back. -/
theorem get?_update_of_nodup {l : List (κ × α)} (hl : (l.map Prod.fst).Nodup) (d : Dict κ α) (k : κ) :
    (d.update l).get? k = (l.lookup k).or (d.get? k) := by
  induction l generalizing d with
  | nil => simp [update]
  | cons p l ih =>
    obtain ⟨a, b⟩ := p
    rw [List.map_cons, List.nodup_cons] at hl
    rw [update_cons, ih hl.2, get?_set, List.lookup_cons]
    by_cases h : k = a
    · subst h
      simp [lookup_eq_none hl.1]
    · simp [beq_eq_false_iff_ne.mpr h, h]

theorem get?_ofList {l : List (κ × α)} (hl : (l.map Prod.fst).Nodup) (k : κ) : (ofList l).get? k = l.lookup k := by
  rw [ofList, get?_update_of_nodup hl, get?_empty, Option.or_none]

/-- Assigning to each key of a list a value that depends on the key. -/
theorem get?_update_map (g : κ → α) (d : Dict κ α) (l : List κ) (k : κ) :
    (d.update (l.map fun k => (k, g k))).get? k = if k ∈ l then some (g k) else d.get? k := by
  induction l generalizing d with
  | nil => rfl
  | cons a l ih =>
    rw [List.map_cons, update_cons, ih, get?_set]
    by_cases hl : k ∈ l
    · rw [if_pos hl, if_pos (List.mem_cons_of_mem a hl)]
    · by_cases ha : k = a
      · subst ha
        rw [if_neg hl, if_pos rfl, if_pos List.mem_cons_self]
      · rw [if_neg hl, if_neg ha, if_neg fun h => (List.mem_cons.mp h).elim ha hl]

/-- The new keys go to the end in the order of their pairs. -/
theorem keys_update_of_nodup {l : List (κ × α)} (hl : (l.map Prod.fst).Nodup) (d : Dict κ α) :
    (d.update l).keys = d.keys ++ (l.map Prod.fst).filter (· ∉ d) := by
  induction l generalizing d with
  | nil => simp [update]
  | cons p l ih =>
    rw [List.map_cons, List.nodup_cons] at hl
    have hfilter : (l.map Prod.fst).filter (· ∉ d.set p.1 p.2) = (l.map Prod.fst).filter (· ∉ d) := by
      refine List.filter_congr fun k hk => ?_
      have : k ≠ p.1 := fun h => hl.1 (h ▸ hk)
      simp [this]
    rw [update_cons, ih hl.2, hfilter, keys_set]
    by_cases h : p.1 ∈ d
    · simp [h]
    · simp [h]

@[simp] theorem mem_update {d : Dict κ α} {l : List (κ × α)} {k : κ} :
    k ∈ d.update l ↔ k ∈ l.map Prod.fst ∨ k ∈ d := by
  induction l generalizing d with
  | nil => simp [update]
  | cons p l ih =>
    rw [update_cons, ih, mem_set, List.map_cons, List.mem_cons]
    tauto

/-- Keys already there keep their place. -/
theorem keys_prefix_update (d : Dict κ α) (l : List (κ × α)) : d.keys <+: (d.update l).keys := by
  induction l generalizing d with
  | nil => exact List.prefix_rfl
  | cons p l ih => exact (keys_prefix_set d p.1 p.2).trans (ih _)

/-! ### `setdefault` -/

theorem get?_setdefault (d : Dict κ α) (k k' : κ) (v : α) :
    (d.setdefault k v).get? k' = (d.get? k').or (if k' = k then some v else none) := by
  unfold setdefault
  by_cases h : k ∈ d
  · obtain ⟨b, hb⟩ := exists_get?_of_mem h
    by_cases hk : k' = k
    · simp [h, hk, hb]
    · simp [h, hk]
  · by_cases hk : k' = k
    · simp [h, hk, get?_eq_none.mpr h]
    · simp [h, hk]

theorem setdefaults_cons (d : Dict κ α) (p : κ × α) (l : List (κ × α)) :
    d.setdefaults (p :: l) = (d.setdefault p.1 p.2).setdefaults l := rfl

/-- The first pair of each key is the one that stays. -/
theorem get?_setdefaults (d : Dict κ α) (l : List (κ × α)) (k : κ) :
    (d.setdefaults l).get? k = (d.get? k).or (l.lookup k) := by
  induction l generalizing d with
  | nil => simp [setdefaults]
  | cons p l ih =>
    obtain ⟨a, b⟩ := p
    rw [setdefaults_cons, ih, get?_setdefault, Option.or_assoc, List.lookup_cons]
    by_cases h : k = a
    · simp [h]
    · simp [h, beq_eq_false_iff_ne.mpr h]

theorem keys_prefix_setdefaults (d : Dict κ α) (l : List (κ × α)) : d.keys <+: (d.setdefaults l).keys := by
  induction l generalizing d with
  | nil => exact List.prefix_rfl
  | cons p l ih =>
    refine List.IsPrefix.trans ?_ (ih (d.setdefault p.1 p.2))
    rw [setdefault]
    split
    · exact List.prefix_rfl
    · exact keys_prefix_set d p.1 p.2

/-- The first key of a dictionary filled by `setdefault` is the first pair's. -/
theorem keys_head?_setdefaults (l : List (κ × α)) :
    ((∅ : Dict κ α).setdefaults l).keys.head? = (l.map Prod.fst).head? := by
  cases l with
  | nil => rfl
  | cons p l =>
    obtain ⟨t, ht⟩ := keys_prefix_setdefaults ((∅ : Dict κ α).setdefault p.1 p.2) l
    rw [setdefaults_cons, ← ht, setdefault, if_neg (not_mem_empty _),
      keys_set_of_not_mem _ (not_mem_empty _)]
    simp

/-! ### One item among the others -/

section Item

variable {d : Dict κ α} {before after : List (κ × α)} {k : κ} {v : α}

omit [DecidableEq κ] in
theorem not_mem_before (h : d.items = before ++ (k, v) :: after) : k ∉ before.map Prod.fst := by
  intro hk
  have hnodup := d.nodup
  rw [h, List.map_append, List.map_cons, List.nodup_append] at hnodup
  exact hnodup.2.2 k hk k List.mem_cons_self rfl

omit [DecidableEq κ] in
theorem not_mem_after (h : d.items = before ++ (k, v) :: after) : k ∉ after.map Prod.fst := by
  have hnodup := d.nodup
  rw [h, List.map_append, List.map_cons, List.nodup_append, List.nodup_cons] at hnodup
  exact hnodup.2.1.1

theorem get?_of_items (h : d.items = before ++ (k, v) :: after) : d.get? k = some v := by
  rw [get?_eq_some_iff, h]
  exact List.mem_append_right _ List.mem_cons_self

/-- An item that is assigned to stays where it is. -/
theorem items_set (h : d.items = before ++ (k, v) :: after) (v' : α) :
    (d.set k v').items = before ++ (k, v') :: after := by
  have hbefore := not_mem_before h
  have hset : (d.set k v').items = setItems k v' (before ++ (k, v) :: after) := congrArg (setItems k v') h
  rw [hset]
  clear h hset
  induction before with
  | nil => simp [setItems]
  | cons p before ih =>
    rw [List.map_cons, List.mem_cons, not_or] at hbefore
    rw [List.cons_append, setItems, if_neg (Ne.symm hbefore.1)]
    exact congrArg _ (ih hbefore.2)

/-- The others stay where they are. -/
theorem items_erase (h : d.items = before ++ (k, v) :: after) : (d.erase k).items = before ++ after := by
  have hother (l : List (κ × α)) (hl : k ∉ l.map Prod.fst) : l.filter (fun p => p.1 ≠ k) = l := by
    refine List.filter_eq_self.mpr fun p hp => decide_eq_true ?_
    rintro rfl
    exact hl (List.mem_map_of_mem hp)
  have herase : (d.erase k).items = (before ++ (k, v) :: after).filter fun p => p.1 ≠ k :=
    congrArg (List.filter fun p : κ × α => p.1 ≠ k) h
  rw [herase, List.filter_append, List.filter_cons_of_neg (by simp), hother _ (not_mem_before h),
    hother _ (not_mem_after h)]

end Item

/-! ### Erasing and mapping -/

@[simp] theorem get?_erase (d : Dict κ α) (k k' : κ) :
    (d.erase k).get? k' = if k' = k then none else d.get? k' := by
  by_cases h : k' = k
  · subst h
    rw [if_pos rfl, get?_eq_none, ← mem_keys]
    simp [keys, erase]
  · rw [if_neg h]
    refine Option.ext fun v => ?_
    simp [get?_eq_some_iff, erase, h]

@[simp] theorem get?_mapValues (f : α → β) (d : Dict κ α) (k : κ) :
    (d.mapValues f).get? k = (d.get? k).map f := by
  obtain ⟨l, hl⟩ := d
  simp only [get?, mapValues]
  clear hl
  induction l with
  | nil => rfl
  | cons p l ih =>
    obtain ⟨a, b⟩ := p
    by_cases h : k = a
    · simp [h]
    · simp [List.lookup_cons, beq_eq_false_iff_ne.mpr h, ih]

omit [DecidableEq κ] in
@[simp] theorem keys_mapValues (f : α → β) (d : Dict κ α) : (d.mapValues f).keys = d.keys := by
  simp [keys, mapValues]

omit [DecidableEq κ] in
@[simp] theorem values_mapValues (f : α → β) (d : Dict κ α) : (d.mapValues f).values = d.values.map f := by
  simp [values, mapValues]

omit [DecidableEq κ] in
theorem mapValues_mapValues {γ : Type*} (f : α → β) (g : β → γ) (d : Dict κ α) :
    (d.mapValues f).mapValues g = d.mapValues fun a => g (f a) := by
  simp [mapValues]

theorem mapValues_set (f : α → β) (d : Dict κ α) (k : κ) (v : α) :
    (d.set k v).mapValues f = (d.mapValues f).set k (f v) := by
  refine ext_get? ?_ fun k' => ?_
  · have hmem : k ∈ d.mapValues f ↔ k ∈ d := by rw [← mem_keys, ← mem_keys, keys_mapValues]
    simp only [keys_mapValues, keys_set, hmem]
  · rw [get?_mapValues, get?_set, get?_set, get?_mapValues]
    split <;> rfl

/-- Mapping the values of a comprehension. -/
theorem mapValues_ofList (f : α → β) (l : List (κ × α)) :
    (ofList l).mapValues f = ofList (l.map fun p => (p.1, f p.2)) := by
  suffices ∀ d : Dict κ α, (d.update l).mapValues f = (d.mapValues f).update (l.map fun p => (p.1, f p.2)) from
    this ∅
  induction l with
  | nil => exact fun _ => rfl
  | cons p l ih => exact fun d => by rw [update_cons, ih, mapValues_set, List.map_cons, update_cons]

theorem ofList_items (d : Dict κ α) : ofList d.items = d := by
  refine ext_get? ?_ fun k => ?_
  · rw [ofList, keys_update_of_nodup d.nodup, keys_empty, List.nil_append, List.filter_eq_self.mpr (by simp)]
    rfl
  · rw [ofList, get?_update_of_nodup d.nodup, get?_empty, Option.or_none]
    rfl

theorem items_ofList {l : List (κ × α)} (hl : (l.map Prod.fst).Nodup) : (ofList l).items = l :=
  congrArg items (ofList_items ⟨l, hl⟩)

/-- If `f` never fails, neither does the comprehension. -/
theorem mapValuesM_ok {ε : Type*} {f : α → Except ε β} {g : α → β} (h : ∀ a, f a = .ok (g a)) (d : Dict κ α) :
    d.mapValuesM f = .ok (d.mapValues g) := by
  have hitem : (fun p : κ × α => (f p.2).map fun b => (p.1, b)) = fun p => pure (p.1, g p.2) := by
    funext p
    rw [h]
    rfl
  rw [mapValuesM, hitem, List.mapM_pure]
  exact congrArg Except.ok (ofList_items (d.mapValues g))

theorem get?_collect (f : κ → α → Option β) (d : Dict κ α) (k : κ) :
    (d.collect f).get? k = (d.get? k).bind (f k) := by
  obtain ⟨l, hl⟩ := d
  suffices h : ∀ e : Dict κ β, (l.foldl (fun e p => match f p.1 p.2 with
      | some b => e.set p.1 b
      | none => e) e).get? k = ((l.lookup k).bind (f k)).or (e.get? k) by
    exact (h ∅).trans (by rw [get?_empty, Option.or_none]; rfl)
  induction l with
  | nil => exact fun e => rfl
  | cons p l ih =>
    obtain ⟨a, b⟩ := p
    rw [List.map_cons, List.nodup_cons] at hl
    intro e
    rw [List.foldl_cons, ih hl.2, List.lookup_cons]
    by_cases h : k = a
    · subst h
      rw [lookup_eq_none hl.1]
      cases hf : f k b <;> simp [hf]
    · rw [beq_eq_false_iff_ne.mpr h]
      cases hf : f a b <;> simp [h]

theorem mem_values {d : Dict κ α} {v : α} : v ∈ d.values ↔ ∃ k, d.get? k = some v := by
  simp only [values, List.mem_map, get?_eq_some_iff]
  constructor
  · rintro ⟨⟨k, v⟩, hp, rfl⟩
    exact ⟨k, hp⟩
  · rintro ⟨k, hk⟩
    exact ⟨(k, v), hk, rfl⟩

omit [DecidableEq κ] in
/-- Values that depend on the key, in the order of the keys. -/
theorem values_eq_map {d : Dict κ α} {g : κ → α} (h : ∀ p ∈ d.items, p.2 = g p.1) : d.values = d.keys.map g := by
  rw [values, keys, List.map_map]
  exact List.map_congr_left h

/-- What is read back does not depend on the order of insertion. -/
theorem get?_of_perm {d e : Dict κ α} (h : d.items.Perm e.items) (k : κ) : d.get? k = e.get? k := by
  ext v
  rw [get?_eq_some_iff, get?_eq_some_iff, h.mem_iff]

/-! ### The order of the keys -/

/-- Assigning adds one relation: every key stands before a new one. -/
theorem before_set {d : Dict κ α} {k a b : κ} {v : α} :
    (d.set k v).Before a b ↔ d.Before a b ∨ k ∉ d ∧ a ∈ d ∧ b = k := by
  unfold Before
  rw [keys_set]
  split
  · next h => simp [h]
  · next h =>
    rw [List.sublist_append_iff]
    constructor
    · rintro ⟨l₁, l₂, hl, h₁, h₂⟩
      rcases l₁ with _ | ⟨x, _ | ⟨y, l₁⟩⟩
      · have hlen := h₂.length_le
        rw [← List.nil_append l₂, ← hl] at hlen
        simp at hlen
      · obtain ⟨rfl, rfl⟩ : a = x ∧ [b] = l₂ := by simpa using hl
        exact Or.inr ⟨h, List.singleton_sublist.mp h₁, by simpa using h₂⟩
      · obtain ⟨rfl, rfl, -⟩ : a = x ∧ b = y ∧ l₁ ++ l₂ = [] := by simpa [eq_comm] using hl
        exact Or.inl ((List.sublist_append_left [a, b] l₁).trans h₁)
    · rintro (hab | ⟨-, ha, rfl⟩)
      · exact ⟨[a, b], [], by simp, hab, List.nil_sublist _⟩
      · exact ⟨[a], [b], by simp, List.singleton_sublist.mpr ha, List.Sublist.refl _⟩

/-- Assigning does not change the order of the keys already there. -/
theorem before_update {d : Dict κ α} {l : List (κ × α)} {a b : κ} (hb : b ∈ d) :
    (d.update l).Before a b ↔ d.Before a b := by
  induction l generalizing d with
  | nil => rfl
  | cons p l ih =>
    rw [update_cons, ih (mem_set.mpr (Or.inr hb)), before_set]
    constructor
    · rintro (h | ⟨hk, -, rfl⟩)
      · exact h
      · exact absurd hb hk
    · exact Or.inl

omit [DecidableEq κ] in
theorem not_before_self {d : Dict κ α} {a : κ} : ¬ d.Before a a := by
  intro h
  have := h.nodup d.nodup_keys
  simp at this

/-! ### Inversion -/

variable [DecidableEq α]

/-- The inverted dictionary gives each value its last key. -/
theorem get?_invert_eq_some {d : Dict κ α} {u : α} {k : κ} :
    d.invert.get? u = some k ↔ d.get? k = some u ∧ ∀ k', d.get? k' = some u → ¬ d.Before k k' := by
  have hlast : d.invert.get? u = some k ↔
      ∃ l₁ l₂, d.items = l₁ ++ (k, u) :: l₂ ∧ ∀ p ∈ l₂, p.2 ≠ u := by
    rw [invert, ofList, get?_update, get?_empty, Option.or_none, List.lookup_eq_some_iff]
    constructor
    · rintro ⟨l₁, l₂, hl, hne⟩
      refine ⟨(l₂.map Prod.swap).reverse, (l₁.map Prod.swap).reverse, ?_, ?_⟩
      · have := congrArg (fun l => (l.map Prod.swap).reverse) hl
        simpa [List.map_reverse] using this
      · intro p hp
        have hp' : p.swap ∈ l₁ := by
          obtain ⟨q, hq, rfl⟩ := by simpa only [List.mem_reverse, List.mem_map] using hp
          simpa using hq
        simpa using fun h => (by simpa using hne _ hp' : u ≠ p.2) h.symm
    · rintro ⟨l₁, l₂, hl, hne⟩
      refine ⟨(l₂.map Prod.swap).reverse, (l₁.map Prod.swap).reverse, by simp [hl], ?_⟩
      intro p hp
      obtain ⟨q, hq, rfl⟩ := by simpa only [List.mem_reverse, List.mem_map] using hp
      simpa using (hne q hq).symm
  rw [hlast]
  constructor
  · rintro ⟨l₁, l₂, hl, hne⟩
    refine ⟨get?_eq_some_iff.mpr (hl ▸ List.mem_append_right _ List.mem_cons_self), fun k' hk' hb => ?_⟩
    have hnd := d.nodup_keys
    unfold Before at hb
    rw [keys, hl, List.map_append, List.map_cons] at hb hnd
    have hmem : k' ∈ l₂.map Prod.fst := by
      obtain ⟨r₁, r₂, hr, h₁, h₂⟩ := List.sublist_append_iff.mp hb
      have hk : k ∉ l₁.map Prod.fst := fun h => (List.nodup_append.mp hnd).2.2 k h k (by simp) rfl
      rcases r₁ with _ | ⟨x, r₁⟩
      · simp only [List.nil_append] at hr
        subst hr
        exact List.singleton_sublist.mp (List.cons_sublist_cons.mp h₂)
      · obtain ⟨rfl, -⟩ : k = x ∧ [k'] = r₁ ++ r₂ := by simpa using hr
        exact absurd (h₁.subset List.mem_cons_self) hk
    obtain ⟨p, hp, rfl⟩ := List.mem_map.mp hmem
    have hpd : d.get? p.1 = some p.2 :=
      get?_eq_some_iff.mpr (hl ▸ List.mem_append_right _ (List.mem_cons_of_mem _ hp))
    rw [hpd] at hk'
    exact hne p hp (Option.some.inj hk')
  · rintro ⟨hk, hlast⟩
    obtain ⟨l₁, l₂, hl⟩ := List.append_of_mem (get?_eq_some_iff.mp hk)
    refine ⟨l₁, l₂, hl, fun p hp hpu => hlast p.1 ?_ ?_⟩
    · rw [get?_eq_some_iff, hl, ← hpu]
      exact List.mem_append_right _ (List.mem_cons_of_mem _ hp)
    · unfold Before
      rw [keys, hl, List.map_append, List.map_cons]
      refine List.Sublist.trans ?_ (List.sublist_append_right _ _)
      exact List.cons_sublist_cons.mpr (List.singleton_sublist.mpr (List.mem_map_of_mem hp))

/-- A new key takes its value over. -/
theorem invert_set_of_not_mem {d : Dict κ α} {k : κ} {v : α} (h : k ∉ d) :
    (d.set k v).invert = d.invert.set v k := by
  have hitems : (d.set k v).items = d.items ++ [(k, v)] := setItems_of_not_mem h
  rw [invert, ofList, update, hitems, List.map_append, List.foldl_append]
  rfl

/-- A key that takes another value does not disturb the last key of a value. -/
theorem get?_invert_set_of_ne {d : Dict κ α} {k j : κ} {u v : α} (h : d.invert.get? v = some j) (hk : k ≠ j)
    (hu : u ≠ v) : (d.set k u).invert.get? v = some j := by
  rw [get?_invert_eq_some] at h ⊢
  refine ⟨by rw [get?_set_of_ne d u (Ne.symm hk), h.1], fun k' hk' hb => ?_⟩
  have hne : k' ≠ k := by
    rintro rfl
    rw [get?_set_self] at hk'
    exact hu (Option.some.inj hk')
  rw [get?_set_of_ne d u hne] at hk'
  rcases before_set.mp hb with hb | ⟨-, -, rfl⟩
  · exact h.2 k' hk' hb
  · exact hne rfl

end Dict

end CachingInLLMs.Library

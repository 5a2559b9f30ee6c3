import CachingInLLMs.Library.Python
import CachingInLLMs.Library.Text

/-!
# Numbers in texts

Two lists diverge if they differ at some place before either ends; what follows them cannot
undo that. Words over a class of characters, each followed by a character outside it,
diverge unless they are the same word, however long they are.

A numeral that is padded with zeros is still read back as its number, also if the number is
too wide for the padding. So numbered tags diverge.

What is a digit is a matter of Unicode; `PyDigits` knows the digits of ASCII only.
-/

namespace CachingInLLMs.Library

/-! ### Lists that diverge -/

section Diverge

variable {α : Type*} {s t s' t' word word' : List α} {c c' : α} {p : α → Bool}

/-- The two lists differ at a place that both have, and are the same before it. -/
def Diverge (s t : List α) : Prop :=
  ∃ common a b s' t', a ≠ b ∧ s = common ++ a :: s' ∧ t = common ++ b :: t'

theorem Diverge.symm (h : Diverge s t) : Diverge t s := by
  obtain ⟨common, a, b, s', t', hne, hs, ht⟩ := h
  exact ⟨common, b, a, t', s', hne.symm, ht, hs⟩

/-- What comes after changes nothing. -/
theorem Diverge.append (h : Diverge s t) (s' t' : List α) : Diverge (s ++ s') (t ++ t') := by
  obtain ⟨common, a, b, s₁, t₁, hne, rfl, rfl⟩ := h
  exact ⟨common, a, b, s₁ ++ s', t₁ ++ t', hne, by simp, by simp⟩

/-- Neither does what both begin with. -/
theorem Diverge.append_left (h : Diverge s t) (common : List α) :
    Diverge (common ++ s) (common ++ t) := by
  obtain ⟨common', a, b, s', t', hne, rfl, rfl⟩ := h
  exact ⟨common ++ common', a, b, s', t', hne, by simp, by simp⟩

/-- The place where they differ. -/
theorem Diverge.exists_index (h : Diverge s t) : ∃ k, k < s.length ∧ k < t.length ∧ s[k]? ≠ t[k]? := by
  obtain ⟨common, a, b, s', t', hne, rfl, rfl⟩ := h
  refine ⟨common.length, by simp, by simp, ?_⟩
  simpa using hne

theorem Diverge.ne (h : Diverge s t) : s ≠ t := by
  rintro rfl
  obtain ⟨k, -, -, hne⟩ := h.exists_index
  exact hne rfl

theorem Diverge.not_prefix (h : Diverge s t) : ¬ s <+: t := by
  rintro ⟨rest, rfl⟩
  obtain ⟨k, hk, -, hne⟩ := h.exists_index
  exact hne (List.getElem?_append_left hk).symm

/-- **Words with an end.** Different words of a class diverge, if each is followed by something
outside the class. -/
theorem diverge_of_ne (hword : ∀ a ∈ word, p a) (hword' : ∀ a ∈ word', p a) (hc : p c = false)
    (hc' : p c' = false) (hne : word ≠ word') : Diverge (word ++ c :: s) (word' ++ c' :: t) := by
  induction word generalizing word' with
  | nil =>
    cases word' with
    | nil => exact absurd rfl hne
    | cons b word' =>
      refine ⟨[], c, b, s, word' ++ c' :: t, ?_, rfl, rfl⟩
      rintro rfl
      simp [hc] at hword'
  | cons a word ih =>
    cases word' with
    | nil =>
      refine ⟨[], a, c', word ++ c :: s, t, ?_, rfl, rfl⟩
      rintro rfl
      simp [hc'] at hword
    | cons b word' =>
      by_cases hab : a = b
      · subst hab
        have hne' : word ≠ word' := fun heq => hne (heq ▸ rfl)
        apply Diverge.append_left (ih _ _ hne') [a]
        · exact fun a' ha' => hword a' (List.mem_cons_of_mem a ha')
        · exact fun a' ha' => hword' a' (List.mem_cons_of_mem a ha')
      · exact ⟨[], a, b, _, _, hab, rfl, rfl⟩

end Diverge

/-- The texts begin with these tags, and differ within them. -/
structure DifferWithin (tag tag' text text' : Text) : Prop where
  /-- One text begins with its tag. -/
  left : tag <+: text
  /-- So does the other. -/
  right : tag' <+: text'
  /-- The tag is no prefix of the other. -/
  neither : ¬ tag <+: tag'
  /-- The other is none of it. -/
  nor : ¬ tag' <+: tag
  /-- The texts differ at a place within both tags. -/
  differ : ∃ k, k < tag.length ∧ k < tag'.length ∧ text[k]? ≠ text'[k]?

/-- Texts differ within tags that diverge. -/
theorem Diverge.differWithin {tag tag' text text' : Text} (h : Diverge tag tag')
    (htag : tag <+: text) (htag' : tag' <+: text') : DifferWithin tag tag' text text' := by
  refine ⟨htag, htag', h.not_prefix, h.symm.not_prefix, ?_⟩
  obtain ⟨k, hk, hk', hne⟩ := h.exists_index
  obtain ⟨rest, rfl⟩ := htag
  obtain ⟨rest', rfl⟩ := htag'
  exact ⟨k, hk, hk', by rwa [List.getElem?_append_left hk, List.getElem?_append_left hk']⟩

theorem DifferWithin.ne {tag tag' text text' : Text} (h : DifferWithin tag tag' text text') :
    text ≠ text' := by
  rintro rfl
  obtain ⟨k, -, -, hne⟩ := h.differ
  exact hne rfl

/-! ### Padded numerals -/

/-- A number that is not negative, with zeros before it up to a width: `{n:03d}` for 3. -/
def padded (width n : ℕ) : Text := List.replicate (width - (natText n).length) '0' ++ natText n

/-- The same for any integer. The sign comes before the zeros, and counts. -/
def paddedInt (width : ℕ) : ℤ → Text
  | .ofNat n => padded width n
  | .negSucc n => '-' :: padded (width - 1) (n + 1)

example : [padded 3 7, padded 3 12345, paddedInt 3 (-5)] =
    ["007".toList, "12345".toList, "-05".toList] := by decide +kernel

section Padded

variable {width n n' : ℕ}

/-- The number is read back. -/
theorem ofDigitChars_padded (width n : ℕ) : Nat.ofDigitChars 10 (padded width n) 0 = n := by
  rw [padded, Nat.ofDigitChars_append, Nat.ofDigitChars_replicate_zero, Nat.mul_zero]
  exact Nat.ofDigitChars_ten_toDigits

theorem padded_injective (width : ℕ) : Function.Injective (padded width) := by
  intro n n' h
  rw [← ofDigitChars_padded width n, h, ofDigitChars_padded]

theorem isDigit_of_mem_padded {c : Char} (h : c ∈ padded width n) : c.isDigit := by
  rcases List.mem_append.mp h with h | h
  · rw [(List.mem_replicate.mp h).2]
    rfl
  · exact isDigit_of_mem_natText h

/-- **Padded numerals with an end** diverge, unless the numbers are the same. -/
theorem diverge_padded (hne : n ≠ n') (width : ℕ) {c c' : Char} (hc : c.isDigit = false)
    (hc' : c'.isDigit = false) (s t : Text) :
    Diverge (padded width n ++ c :: s) (padded width n' ++ c' :: t) :=
  diverge_of_ne (fun _ => isDigit_of_mem_padded) (fun _ => isDigit_of_mem_padded) hc hc'
    fun h => hne (padded_injective width h)

end Padded

/-! ### Digits -/

/-- Digits, and the numbers they are read as. -/
structure PyDigits where
  /-- `c.isdigit()`. -/
  isdigit : Char → Bool
  /-- `int(digits)`, of digits. -/
  int : Text → Except PyError ℕ
  /-- In ASCII, the digits are those from 0 to 9. -/
  isdigit_ascii : ∀ c : Char, c.toNat < 128 → isdigit c = c.isDigit
  /-- They are read in decimal, up to the length that `int` accepts. -/
  int_ascii : ∀ digits : Text, digits ≠ [] → (∀ c ∈ digits, c.isDigit) → digits.length ≤ 4300 →
    int digits = .ok (Nat.ofDigitChars 10 digits 0)

/-- No other digits. -/
def PyDigits.ascii : PyDigits where
  isdigit := Char.isDigit
  int digits :=
    if digits ≠ [] ∧ digits.all Char.isDigit ∧ digits.length ≤ 4300 then
      .ok (Nat.ofDigitChars 10 digits 0)
    else .error (.other "ValueError")
  isdigit_ascii _ _ := rfl
  int_ascii _ hne hdigits hlength := if_pos ⟨hne, List.all_eq_true.mpr hdigits, hlength⟩

end CachingInLLMs.Library

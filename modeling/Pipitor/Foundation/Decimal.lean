import Mathlib.Data.List.Basic
import Mathlib.Data.Nat.Notation

/-!
# Decimal numerals

A numeral is a sequence of digits, which a plus sign may precede, of a number below a limit: what
`str::parse` takes for an unsigned integer. `parse_eq_some_iff` is the grammar.
-/

namespace Decimal

/-- One more digit, unless the number becomes too large. -/
def push (limit n : ℕ) (c : Char) : Option ℕ :=
  if c.isDigit then
    if 10 * n + (c.toNat - '0'.toNat) < limit then some (10 * n + (c.toNat - '0'.toNat)) else none
  else none

/-- The numeral without its sign. -/
def digitsOf : List Char → List Char
  | '+' :: digits => digits
  | digits => digits

def parse (limit : ℕ) (text : String) : Option ℕ :=
  match digitsOf text.toList with
  | [] => none
  | digits => digits.foldlM (push limit) 0

/-- The text is a numeral of the number. -/
def Denotes (text : String) (n : ℕ) : Prop :=
  ∃ digits, (text.toList = digits ∨ text.toList = '+' :: digits) ∧ digits ≠ [] ∧
    (∀ c ∈ digits, c.isDigit = true) ∧ Nat.ofDigitChars 10 digits 0 = n

theorem le_ofDigitChars (digits : List Char) (n : ℕ) : n ≤ Nat.ofDigitChars 10 digits n := by
  induction digits generalizing n with
  | nil => exact Nat.le_refl n
  | cons c digits ih =>
    rw [Nat.ofDigitChars_cons]
    have hrest := ih (10 * n + (c.toNat - '0'.toNat))
    omega

theorem foldlM_push {limit n m : ℕ} {digits : List Char} (hn : n < limit) :
    digits.foldlM (push limit) n = some m ↔
      (∀ c ∈ digits, c.isDigit = true) ∧ Nat.ofDigitChars 10 digits n = m ∧ m < limit := by
  induction digits generalizing n with
  | nil =>
    rw [List.foldlM_nil, Option.pure_def, Option.some.injEq, Nat.ofDigitChars_nil]
    constructor
    · rintro rfl
      exact ⟨by simp, rfl, hn⟩
    · exact fun h => h.2.1
  | cons c digits ih =>
    rw [List.foldlM_cons, Nat.ofDigitChars_cons, List.forall_mem_cons]
    by_cases hdigit : c.isDigit = true
    · by_cases hlt : 10 * n + (c.toNat - '0'.toNat) < limit
      · rw [push, if_pos hdigit, if_pos hlt, Option.bind_eq_bind, Option.bind_some, ih hlt]
        simp [hdigit]
      · rw [push, if_pos hdigit, if_neg hlt]
        refine iff_of_false (by simp) ?_
        rintro ⟨-, hm, hmlt⟩
        have hle := le_ofDigitChars digits (10 * n + (c.toNat - '0'.toNat))
        omega
    · rw [push, if_neg hdigit]
      exact iff_of_false (by simp) fun h => hdigit h.1.1

theorem digitsOf_of_digits {digits : List Char} (h : ∀ c ∈ digits, c.isDigit = true) :
    digitsOf digits = digits := by
  cases digits with
  | nil => rfl
  | cons c digits =>
    have hplus : c ≠ '+' := by
      rintro rfl
      exact absurd (h '+' List.mem_cons_self) (by decide)
    simp [digitsOf, hplus]

theorem digitsOf_cases (text : List Char) : text = digitsOf text ∨ text = '+' :: digitsOf text := by
  unfold digitsOf
  split
  · exact Or.inr rfl
  · exact Or.inl rfl

theorem parse_eq_some_iff {limit n : ℕ} (hlimit : 0 < limit) {text : String} :
    parse limit text = some n ↔ Denotes text n ∧ n < limit := by
  have hfold : parse limit text = some n ↔ digitsOf text.toList ≠ [] ∧
      (digitsOf text.toList).foldlM (push limit) 0 = some n := by
    unfold parse
    cases digitsOf text.toList <;> simp
  rw [hfold, foldlM_push hlimit]
  constructor
  · rintro ⟨hne, hdigits, hvalue, hlt⟩
    exact ⟨⟨_, digitsOf_cases _, hne, hdigits, hvalue⟩, hlt⟩
  · rintro ⟨⟨digits, htext, hne, hdigits, hvalue⟩, hlt⟩
    have hsame : digitsOf text.toList = digits := by
      rcases htext with htext | htext
      · rw [htext, digitsOf_of_digits hdigits]
      · rw [htext, digitsOf]
    rw [hsame]
    exact ⟨hne, hdigits, hvalue, hlt⟩

theorem denotes_toString (n : ℕ) : Denotes (toString n) n := by
  refine ⟨Nat.toDigits 10 n, Or.inl ?_, Nat.toDigits_ne_nil, ?_, Nat.ofDigitChars_ten_toDigits⟩
  · rw [Nat.toString_eq_ofList_toDigits, String.toList_ofList]
  · exact fun c hc => Nat.isDigit_of_mem_toDigits (by decide) (by decide) hc

/-- A text is a numeral of at most one number. -/
theorem Denotes.unique {text : String} {n m : ℕ} (hn : Denotes text n) (hm : Denotes text m) : n = m := by
  have hparse : ∀ k, Denotes text k → k < n + m + 1 → parse (n + m + 1) text = some k := fun k hk hlt =>
    (parse_eq_some_iff (by omega)).mpr ⟨hk, hlt⟩
  have heq := (hparse n hn (by omega)).symm.trans (hparse m hm (by omega))
  simpa using heq

end Decimal

import Mathlib.Data.List.Basic
import Mathlib.Data.Option.Basic

/-!
# Base64 for URLs

The URL-safe alphabet without padding, on lists. Three bytes are four letters; the one or two bytes that
may be left at the end are two or three letters, whose unused bits are zero. `decode_encode` is the round
trip.
-/

namespace Base64

def alphabet : List Char := "ABCDEFGHIJKLMNOPQRSTUVWXYZabcdefghijklmnopqrstuvwxyz0123456789-_".toList

/-- The letter of a group of six bits. -/
def letter (n : ℕ) : Char := alphabet.getD n 'A'

/-- The group of six bits of a letter. -/
def value (c : Char) : Option ℕ := alphabet.idxOf? c

def encode : List UInt8 → List Char
  | a :: b :: c :: bytes =>
    letter (a.toNat / 4) :: letter (a.toNat % 4 * 16 + b.toNat / 16) ::
      letter (b.toNat % 16 * 4 + c.toNat / 64) :: letter (c.toNat % 64) :: encode bytes
  | [a, b] => [letter (a.toNat / 4), letter (a.toNat % 4 * 16 + b.toNat / 16), letter (b.toNat % 16 * 4)]
  | [a] => [letter (a.toNat / 4), letter (a.toNat % 4 * 16)]
  | [] => []

def decode : List Char → Option (List UInt8)
  | w :: x :: y :: z :: letters => do
    let w ← value w
    let x ← value x
    let y ← value y
    let z ← value z
    let bytes ← decode letters
    return .ofNat (w * 4 + x / 16) :: .ofNat (x % 16 * 16 + y / 4) :: .ofNat (y % 4 * 64 + z) :: bytes
  | [w, x, y] => do
    let w ← value w
    let x ← value x
    let y ← value y
    guard (y % 4 = 0)
    return [.ofNat (w * 4 + x / 16), .ofNat (x % 16 * 16 + y / 4)]
  | [w, x] => do
    let w ← value w
    let x ← value x
    guard (x % 16 = 0)
    return [.ofNat (w * 4 + x / 16)]
  | [_] => none
  | [] => some []

/-! ### Letters -/

theorem value_letter {n : ℕ} (h : n < 64) : value (letter n) = some n := by
  have hall : ∀ n < 64, value (letter n) = some n := by decide +kernel
  exact hall n h

theorem letter_mem (n : ℕ) : letter n ∈ alphabet := by
  unfold letter
  rw [List.getD_eq_getElem?_getD]
  cases h : alphabet[n]? with
  | none => decide
  | some c => exact List.mem_of_getElem? h

theorem mem_alphabet_of_encode {bytes : List UInt8} : ∀ c ∈ encode bytes, c ∈ alphabet := by
  fun_induction encode bytes <;> simp_all [letter_mem]

/-- The characters of the alphabet: none is a delimiter of a URI. -/
def IsUrlSafe (c : Char) : Prop := c.isAlphanum = true ∨ c = '-' ∨ c = '_'

instance (c : Char) : Decidable (IsUrlSafe c) := inferInstanceAs (Decidable (_ ∨ _ ∨ _))

theorem isUrlSafe_encode (bytes : List UInt8) : ∀ c ∈ encode bytes, IsUrlSafe c := by
  have hall : ∀ c ∈ alphabet, decide (IsUrlSafe c) = true := List.all_eq_true.mp (by decide)
  exact fun c hc => of_decide_eq_true (hall c (mem_alphabet_of_encode c hc))

theorem length_encode (bytes : List UInt8) : (encode bytes).length = (4 * bytes.length + 2) / 3 := by
  fun_induction encode bytes with
  | case1 a b c bytes ih =>
    simp only [List.length_cons, ih]
    omega
  | case2 a b => simp
  | case3 a => simp
  | case4 => rfl

theorem utf8ByteSize_encode (bytes : List UInt8) :
    (String.ofList (encode bytes)).utf8ByteSize = (4 * bytes.length + 2) / 3 := by
  have hone : ∀ c ∈ alphabet, decide (c.utf8Size = 1) = true := List.all_eq_true.mp (by decide)
  have hsize : ∀ l : List Char, (∀ c ∈ l, c ∈ alphabet) → (String.ofList l).utf8ByteSize = l.length := by
    intro l
    induction l with
    | nil => simp
    | cons c l ih =>
      intro hl
      obtain ⟨hc, hl⟩ := List.forall_mem_cons.mp hl
      rw [String.ofList_cons, String.utf8ByteSize_append, String.utf8ByteSize_singleton,
        of_decide_eq_true (hone c hc), ih hl, List.length_cons, Nat.add_comm]
  rw [hsize _ mem_alphabet_of_encode, length_encode]

/-! ### The round trip -/

theorem ofNat_eq {n : ℕ} {a : UInt8} (h : n = a.toNat) : UInt8.ofNat n = a := by
  rw [h, UInt8.ofNat_toNat]

theorem decode_encode (bytes : List UInt8) : decode (encode bytes) = some bytes := by
  fun_induction encode bytes with
  | case1 a b c bytes ih =>
    have ha := a.toNat_lt
    have hb := b.toNat_lt
    have hc := c.toNat_lt
    simp only [decode, value_letter (n := a.toNat / 4) (by omega),
      value_letter (n := a.toNat % 4 * 16 + b.toNat / 16) (by omega),
      value_letter (n := b.toNat % 16 * 4 + c.toNat / 64) (by omega),
      value_letter (n := c.toNat % 64) (by omega), ih,
      Option.bind_eq_bind, Option.bind_some]
    rw [ofNat_eq (a := a) (by omega), ofNat_eq (a := b) (by omega), ofNat_eq (a := c) (by omega)]
    rfl
  | case2 a b =>
    have ha := a.toNat_lt
    have hb := b.toNat_lt
    simp only [decode, value_letter (n := a.toNat / 4) (by omega),
      value_letter (n := a.toNat % 4 * 16 + b.toNat / 16) (by omega),
      value_letter (n := b.toNat % 16 * 4) (by omega), Option.bind_eq_bind, Option.bind_some]
    rw [ofNat_eq (a := a) (by omega), ofNat_eq (a := b) (by omega)]
    simp
  | case3 a =>
    have ha := a.toNat_lt
    simp only [decode, value_letter (n := a.toNat / 4) (by omega),
      value_letter (n := a.toNat % 4 * 16) (by omega), Option.bind_eq_bind, Option.bind_some]
    rw [ofNat_eq (a := a) (by omega)]
    simp
  | case4 => rfl

end Base64

import Mathlib.Data.List.Basic

/-!
# Hexadecimal digits

A text of two digits for each byte, the high one first, in either case. `Denotes` is the relation between a
text and its bytes, `decode` computes it.
-/

namespace Hex

/-- The value of an ASCII digit. -/
def value (c : UInt8) : Option ℕ :=
  if 0x30 ≤ c.toNat ∧ c.toNat ≤ 0x39 then some (c.toNat - 0x30)
  else if 0x41 ≤ c.toNat ∧ c.toNat ≤ 0x46 then some (c.toNat - 0x41 + 10)
  else if 0x61 ≤ c.toNat ∧ c.toNat ≤ 0x66 then some (c.toNat - 0x61 + 10)
  else none

theorem value_lt {c : UInt8} {n : ℕ} (h : value c = some n) : n < 16 := by
  unfold value at h
  split at h
  · cases h
    omega
  split at h
  · cases h
    omega
  split at h
  · cases h
    omega
  · cases h

inductive Denotes : List UInt8 → List UInt8 → Prop
  | nil : Denotes [] []
  | cons {high low byte : UInt8} {text bytes : List UInt8} (hhigh : value high = some (byte.toNat / 16))
      (hlow : value low = some (byte.toNat % 16)) (hrest : Denotes text bytes) :
      Denotes (high :: low :: text) (byte :: bytes)

def decode : List UInt8 → Option (List UInt8)
  | high :: low :: text => do
    let high ← value high
    let low ← value low
    let bytes ← decode text
    return .ofNat (16 * high + low) :: bytes
  | [_] => none
  | [] => some []

theorem decode_eq_some_iff {text bytes : List UInt8} : decode text = some bytes ↔ Denotes text bytes := by
  constructor
  · fun_induction decode text generalizing bytes with
    | case1 high low text ih =>
      intro h
      simp only [Option.bind_eq_bind, Option.bind_eq_some_iff, Option.pure_def, Option.some.injEq] at h
      obtain ⟨x, hx, y, hy, rest, hrest, rfl⟩ := h
      have hxlt := value_lt hx
      have hylt := value_lt hy
      have hbyte : (UInt8.ofNat (16 * x + y)).toNat = 16 * x + y := by
        rw [UInt8.toNat_ofNat']
        omega
      refine .cons ?_ ?_ (ih hrest)
      · rw [hbyte, hx]
        congr 1
        omega
      · rw [hbyte, hy]
        congr 1
        omega
    | case2 c => intro h; cases h
    | case3 =>
      intro h
      cases h
      exact .nil
  · intro h
    induction h with
    | nil => rfl
    | @cons high low byte text bytes hhigh hlow hrest ih =>
      have hbyte : UInt8.ofNat (16 * (byte.toNat / 16) + byte.toNat % 16) = byte := by
        rw [Nat.div_add_mod, UInt8.ofNat_toNat]
      simp only [decode, hhigh, hlow, ih, Option.bind_eq_bind, Option.bind_some, hbyte]
      rfl

end Hex

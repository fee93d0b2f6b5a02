import Mathlib.Algebra.Group.Nat.Defs
import QuicWire.Bytes

set_option autoImplicit false

namespace QuicWire

@[simp] theorem beValue_cons (byte : UInt8) (rest : Bytes) :
    beValue (byte :: rest) = byte.toNat * 2 ^ (8 * rest.length) + beValue rest := by
  rw [beValue, Nat.shiftLeft_eq]

theorem beValue_lt (b : Bytes) : beValue b < 2 ^ (8 * b.length) := by
  induction b with
  | nil => simp [beValue]
  | cons byte rest ih =>
    have top : byte.toNat + 1 ≤ 2 ^ 8 := byte.toNat_lt
    have scaled := Nat.mul_le_mul_right (2 ^ (8 * rest.length)) top
    rw [← Nat.pow_add, Nat.add_mul, Nat.one_mul] at scaled
    rw [beValue_cons, List.length_cons, Nat.mul_succ, Nat.add_comm (8 * rest.length)]
    omega

theorem beValue_cons_div (byte : UInt8) (rest : Bytes) :
    beValue (byte :: rest) / 2 ^ (8 * rest.length) = byte.toNat := by
  rw [beValue_cons, Nat.add_comm, Nat.add_mul_div_right _ _ (Nat.two_pow_pos _), Nat.div_eq_of_lt (beValue_lt rest),
    Nat.zero_add]

theorem beValue_cons_mod (byte : UInt8) (rest : Bytes) :
    beValue (byte :: rest) % 2 ^ (8 * rest.length) = beValue rest := by
  rw [beValue_cons, Nat.add_comm, Nat.add_mul_mod_self_right, Nat.mod_eq_of_lt (beValue_lt rest)]

theorem beValue_beBytes (n v : Nat) : beValue (beBytes n v) = v % 2 ^ (8 * n) := by
  induction n with
  | zero => simp [beBytes, beValue, Nat.mod_one]
  | succ n ih =>
    have split : 2 ^ (8 * (n + 1)) = 2 ^ (8 * n) * 2 ^ 8 := by
      rw [← Nat.pow_add, Nat.mul_add]
    rw [beBytes, beValue_cons, length_beBytes, ih, split, Nat.mod_mul, Nat.shiftRight_eq_div_pow,
      UInt8.toNat_ofNat']
    rw [Nat.mul_comm, Nat.add_comm]

theorem beBytes_mod (n v : Nat) : beBytes n (v % 2 ^ (8 * n)) = beBytes n v := by
  -- The recursion shortens the bytes and not the number, so the two widths are told apart.
  have low (m k : Nat) (le : m ≤ k) : beBytes m (v % 2 ^ (8 * k)) = beBytes m v := by
    induction m with
    | zero => rfl
    | succ m ih =>
      rw [beBytes, beBytes, ih (by omega)]
      congr 1
      apply UInt8.toNat_inj.mp
      have width : 2 ^ (8 * k) = 2 ^ (8 * m) * (2 ^ 8 * 2 ^ (8 * (k - (m + 1)))) := by
        rw [← Nat.pow_add, ← Nat.pow_add]
        congr 1
        omega
      rw [UInt8.toNat_ofNat', UInt8.toNat_ofNat', Nat.shiftRight_eq_div_pow, Nat.shiftRight_eq_div_pow,
        width, Nat.mod_mul_right_div_self, Nat.mod_mul_right_mod]
  exact low n n (Nat.le_refl n)

theorem beBytes_beValue (b : Bytes) : beBytes b.length (beValue b) = b := by
  induction b with
  | nil => rfl
  | cons byte rest ih =>
    rw [List.length_cons, beBytes, Nat.shiftRight_eq_div_pow, beValue_cons_div, ← beBytes_mod, beValue_cons_mod, ih,
      UInt8.ofNat_toNat]

end QuicWire

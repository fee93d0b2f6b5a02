set_option autoImplicit false

namespace QuicWire

abbrev Bytes := List UInt8

namespace Bytes

/-- Whether there are at least `n` bytes. Looks at no more than `n` of them. -/
def covers : Nat → Bytes → Bool
  | 0, _ => true
  | _ + 1, [] => false
  | n + 1, _ :: rest => covers n rest

@[simp] theorem covers_iff (n : Nat) (b : Bytes) : b.covers n = true ↔ n ≤ b.length := by
  induction n generalizing b with
  | zero => simp [covers]
  | succ n ih => cases b <;> simp [covers, ih]

end Bytes

def beBytes : Nat → Nat → Bytes
  | 0, _ => []
  | n + 1, v => UInt8.ofNat (v >>> (8 * n)) :: beBytes n v

def beValue : Bytes → Nat
  | [] => 0
  | byte :: rest => byte.toNat <<< (8 * rest.length) + beValue rest

@[simp] theorem length_beBytes (n v : Nat) : (beBytes n v).length = n := by
  induction n with
  | zero => rfl
  | succ n ih => simp [beBytes, ih]

end QuicWire

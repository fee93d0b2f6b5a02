import QuicWire.Error

/-!
Arithmetic that has to stay inside a 64-bit word, and the two ways in which work on bytes can end early.

`overrun` is not an answer to a peer: it says that a step left the bytes or the word it works on. Readers
are written so that a test stands in front of every such step, and the theory shows that no input
reaches it.
-/

set_option autoImplicit false

namespace QuicWire

inductive Failure where
  | refused (cause : Error)
  | overrun
  deriving DecidableEq, Repr

namespace Word

def size : Nat := 1 <<< 64

def fit (n : Nat) : Except Failure Nat :=
  if n < size then .ok n else .error .overrun

def sub (a b : Nat) : Except Failure Nat :=
  if b ≤ a then .ok (a - b) else .error .overrun

@[simp] theorem fit_eq_ok_iff (n m : Nat) : fit n = .ok m ↔ n < size ∧ n = m := by
  by_cases h : n < size <;> simp [fit, h]

@[simp] theorem sub_eq_ok_iff (a b c : Nat) : sub a b = .ok c ↔ b ≤ a ∧ a - b = c := by
  by_cases h : b ≤ a <;> simp [sub, h]

end Word

end QuicWire

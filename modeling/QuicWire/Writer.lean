import QuicWire.Error

set_option autoImplicit false

namespace QuicWire

abbrev Writer := EStateM Error Bytes

namespace Writer

variable {α : Type}

def check : Except Error α → Writer α
  | .ok a => pure a
  | .error cause => throw cause

def put (b : Bytes) : Writer Unit :=
  modify (· ++ b)

def putByte (byte : UInt8) : Writer Unit :=
  put [byte]

def putWord32 (word : UInt32) : Writer Unit :=
  put (beBytes 4 word.toNat)

@[simp] theorem run_map {β : Type} (f : α → β) (w : Writer α) (out : Bytes) :
    (f <$> w).run out = match w.run out with
      | .ok a out => .ok (f a) out
      | .error cause out => .error cause out := by
  rw [map_eq_pure_bind, EStateM.run_bind]
  cases w.run out <;> rfl

@[simp] theorem run_put (b out : Bytes) : (put b).run out = .ok () (out ++ b) := rfl

@[simp] theorem run_check_ok (a : α) (out : Bytes) : (check (.ok a)).run out = .ok a out := rfl

@[simp] theorem run_check_error (cause : Error) (out : Bytes) :
    (check (.error cause) : Writer α).run out = .error cause out := rfl

end Writer

end QuicWire

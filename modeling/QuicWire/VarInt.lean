import QuicWire.Reader
import QuicWire.Writer

set_option autoImplicit false

namespace QuicWire.VarInt

def limit : Nat := 1 <<< 62

def size (v : Nat) : Except Error Nat :=
  if v < 0x40 then .ok 1
  else if v < 0x4000 then .ok 2
  else if v < 0x40000000 then .ok 4
  else if v < limit then .ok 8
  else .error (.valueTooLarge v)

def ofInt (v : Int) : Except Error Nat :=
  if v < 0 then .error .invalidValue
  else if v.toNat < limit then .ok v.toNat
  else .error (.valueTooLarge v.toNat)

def marker : Nat → Nat
  | 1 => 0
  | 2 => 0x4000
  | 4 => 0x80000000
  | _ => 0xc000000000000000

def write (v : Nat) : Writer Nat := do
  let n ← Writer.check (size v)
  Writer.put (beBytes n (marker n + v))
  return n

def writeZero : Writer Nat := do
  Writer.putByte 0
  return 1

def read : Reader Nat := do
  Reader.need 1
  let first ← Reader.look
  let n := 1 <<< (first >>> 6).toNat
  Reader.need n
  let first ← Reader.byte
  let rest ← Reader.take (n - 1)
  return beValue ((first &&& 0x3f) :: rest)

theorem run_write {v n : Nat} (h : size v = .ok n) (out : Bytes) :
    (write v).run out = .ok n (out ++ beBytes n (marker n + v)) := by
  simp [write, h]

theorem run_write_error {v : Nat} {cause : Error} (h : size v = .error cause) (out : Bytes) :
    (write v).run out = .error cause out := by
  simp [write, h]

@[simp] theorem run_read_nil : read.run [] = .error (.refused .violation) [] := rfl

theorem run_read_cons (first : UInt8) (rest : Bytes) :
    read.run (first :: rest) =
      let n := 1 <<< (first >>> 6).toNat
      if n ≤ rest.length + 1 then
        .ok (beValue ((first &&& 0x3f) :: rest.take (n - 1))) (rest.drop (n - 1))
      else .error (.refused .violation) (first :: rest) := by
  have positive : 0 < 1 <<< (first >>> 6).toNat := by
    rw [Nat.one_shiftLeft]
    exact Nat.two_pow_pos _
  simp only [read, EStateM.run_bind, Reader.run_need, Reader.run_look_cons, List.length_cons,
    Nat.le_add_left, if_true]
  by_cases enough : 1 <<< (first >>> 6).toNat ≤ rest.length + 1
  · simp only [enough, if_true, Reader.run_byte_cons, Reader.run_take]
    rw [if_pos (by omega)]
    rfl
  · simp only [enough, if_false]

end QuicWire.VarInt

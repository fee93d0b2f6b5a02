import QuicWire.Bytes

set_option autoImplicit false

namespace QuicWire.Hex

def digit (n : Nat) : Char :=
  if n < 10 then Char.ofNat (48 + n) else Char.ofNat (87 + n)

def padded : Nat → Nat → List Char
  | 0, _ => []
  | width + 1, n => padded width (n / 16) ++ [digit (n % 16)]

def ofByte (byte : UInt8) : List Char :=
  padded 2 byte.toNat

def ofBytes (b : Bytes) : String :=
  String.ofList (b.flatMap ofByte)

end QuicWire.Hex

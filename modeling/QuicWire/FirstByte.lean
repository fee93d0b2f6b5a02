import QuicWire.Word

/-!
The first byte of a packet.

    long header    1 F T T R R P P
    short header   0 F S R R K P P

F is the fixed bit, TT the long packet type, RR reserved, S the spin bit, K the key phase, and PP one
less than the length of the packet number.
-/

set_option autoImplicit false

namespace QuicWire.FirstByte

def formBit : UInt8 := 0x80
def fixedBit : UInt8 := 0x40
def spinBit : UInt8 := 0x20
def keyPhaseBit : UInt8 := 0x04
def longReserved : UInt8 := 0x0c
def shortReserved : UInt8 := 0x18

def isLong (first : UInt8) : Bool :=
  first &&& formBit ≠ 0

def isFixed (first : UInt8) : Bool :=
  first &&& fixedBit ≠ 0

def checkReserved (first mask : UInt8) : Except Error Unit :=
  if first &&& mask = 0 then .ok () else .error .violation

def pnLength (first : UInt8) : Nat :=
  (first &&& 0x03).toNat + 1

def pnBits (length : Nat) : UInt8 :=
  UInt8.ofNat (length - 1)

def protectedBits (first : UInt8) : UInt8 :=
  if isLong first then 0x0f else 0x1f

theorem pnLength_pos (first : UInt8) : 1 ≤ pnLength first := by
  simp [pnLength]

theorem pnLength_le (first : UInt8) : pnLength first ≤ 4 := by
  have : (first &&& 0x03).toNat ≤ 3 := by
    rw [UInt8.toNat_and]
    exact Nat.and_le_right
  unfold pnLength
  omega

end QuicWire.FirstByte

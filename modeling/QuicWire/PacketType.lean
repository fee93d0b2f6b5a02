import QuicWire.Version

set_option autoImplicit false

namespace QuicWire

inductive PacketNumberSpace where
  | initial
  | handshake
  | applicationData
  deriving DecidableEq, Repr

inductive EncryptionLevel where
  | initial
  | earlyData
  | handshake
  | application
  deriving DecidableEq, Repr

def EncryptionLevel.space : EncryptionLevel → PacketNumberSpace
  | initial => .initial
  | handshake => .handshake
  | earlyData | application => .applicationData

inductive PacketType where
  | initial
  | zeroRtt
  | handshake
  | retry
  | versionNegotiation
  | oneRtt
  deriving DecidableEq, Repr

namespace PacketType

def isLong (t : PacketType) : Bool :=
  t ≠ oneRtt

def isNumbered (t : PacketType) : Bool :=
  t ≠ retry ∧ t ≠ versionNegotiation

/-- Whether the packet says where it ends, so that another can follow it in a datagram. -/
def isDelimited (t : PacketType) : Bool :=
  t = initial ∨ t = zeroRtt ∨ t = handshake

def level : PacketType → Option EncryptionLevel
  | initial => some .initial
  | zeroRtt => some .earlyData
  | handshake => some .handshake
  | oneRtt => some .application
  | retry | versionNegotiation => none

def space (t : PacketType) : Option PacketNumberSpace :=
  t.level.map EncryptionLevel.space

def reservedBits : PacketType → UInt8
  | initial | zeroRtt | handshake => 0x0c
  | oneRtt => 0x18
  | retry | versionNegotiation => 0

def longBits : Version → PacketType → Option UInt8
  | .v1, initial => some 0x00
  | .v1, zeroRtt => some 0x10
  | .v1, handshake => some 0x20
  | .v1, retry => some 0x30
  | .v1, versionNegotiation | .v1, oneRtt | .v0, _ => none

def ofLongBits (version : Version) (first : UInt8) : PacketType :=
  match version with
  | .v0 => versionNegotiation
  | .v1 =>
    if first &&& 0x30 = 0x00 then initial
    else if first &&& 0x30 = 0x10 then zeroRtt
    else if first &&& 0x30 = 0x20 then handshake
    else retry

end PacketType

end QuicWire

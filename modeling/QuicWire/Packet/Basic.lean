import QuicWire.Packet.Long
import QuicWire.Packet.Retry
import QuicWire.Packet.Short
import QuicWire.Packet.VersionNegotiation

set_option autoImplicit false

namespace QuicWire

inductive Packet (F : Type) where
  | initial (p : Packet.Initial F)
  | zeroRtt (p : Packet.Long F)
  | handshake (p : Packet.Long F)
  | retry (p : Packet.Retry)
  | versionNegotiation (p : Packet.VersionNegotiation)
  | oneRtt (p : Packet.Short F)
  deriving DecidableEq

namespace Packet

variable {F : Type}

def type : Packet F → PacketType
  | initial _ => .initial
  | zeroRtt _ => .zeroRtt
  | handshake _ => .handshake
  | retry _ => .retry
  | versionNegotiation _ => .versionNegotiation
  | oneRtt _ => .oneRtt

def packetNumber : Packet F → Option Nat
  | initial p => some p.packetNumber
  | zeroRtt p | handshake p => some p.packetNumber
  | oneRtt p => some p.packetNumber
  | retry _ | versionNegotiation _ => none

def dcid : Packet F → ConnectionId
  | initial p => p.dcid
  | zeroRtt p | handshake p => p.dcid
  | retry p => p.dcid
  | versionNegotiation p => p.dcid
  | oneRtt p => p.dcid

def scid : Packet F → Option ConnectionId
  | initial p => some p.scid
  | zeroRtt p | handshake p => some p.scid
  | retry p => some p.scid
  | versionNegotiation p => some p.scid
  | oneRtt _ => none

def version : Packet F → Option Version
  | initial p => some p.version
  | zeroRtt p | handshake p => some p.version
  | retry p => some p.version
  | versionNegotiation _ => some .v0
  | oneRtt _ => none

def token : Packet F → Option Bytes
  | initial p => some p.token
  | retry p => some p.token
  | zeroRtt _ | handshake _ | versionNegotiation _ | oneRtt _ => none

def frames : Packet F → List F
  | initial p => p.frames
  | zeroRtt p | handshake p => p.frames
  | oneRtt p => p.frames
  | retry _ | versionNegotiation _ => []

theorem packetNumber_isSome (p : Packet F) : p.packetNumber.isSome = p.type.isNumbered := by
  cases p <;> rfl

section Reading

/-- The type that the first bytes announce; none where a long header has an unknown version. -/
def peekType (b : Bytes) : Except Error (Option PacketType) :=
  match b with
  | [] => .error .violation
  | first :: _ =>
    if FirstByte.isLong first then
      match LongHeader.version? b with
      | none => .error .violation
      | some word => .ok ((Version.ofWire? word).map fun version => PacketType.ofLongBits version first)
    else .ok (some .oneRtt)

def readAs (t : PacketType) (ctx : ParseContext) (decode : FrameDecoder F) : Reader (Packet F) :=
  match t with
  | .initial => initial <$> Initial.read ctx decode
  | .zeroRtt => zeroRtt <$> Long.read .zeroRtt ctx decode
  | .handshake => handshake <$> Long.read .handshake ctx decode
  | .retry => retry <$> Retry.read
  | .versionNegotiation => versionNegotiation <$> VersionNegotiation.read
  | .oneRtt => oneRtt <$> Short.read ctx decode

def read (ctx : ParseContext) (decode : FrameDecoder F) : Reader (Packet F) := do
  let b ← get
  match ← Reader.check (peekType b) with
  | some t => readAs t ctx decode
  | none => Reader.refuse (.unsupportedVersion ((LongHeader.version? b).getD 0))

end Reading

section Writing

variable [Frame F]

def payloadLen : Packet F → Option Nat
  | initial p => some p.payloadLen
  | zeroRtt p | handshake p => some p.payloadLen
  | oneRtt p => some p.payloadLen
  | retry _ | versionNegotiation _ => none

def encodedLen (p : Packet F) (largest : Option Nat) (tagLen : Nat) : Except Error Nat :=
  match p with
  | initial p => p.encodedLen largest tagLen
  | zeroRtt p => p.encodedLen .zeroRtt largest tagLen
  | handshake p => p.encodedLen .handshake largest tagLen
  | retry p => .ok p.encodedLen
  | versionNegotiation p => .ok p.encodedLen
  | oneRtt p => p.encodedLen largest tagLen

def maxEncodedLen (p : Packet F) (tagLen : Nat) : Except Error Nat :=
  match p with
  | initial p => p.maxEncodedLen tagLen
  | zeroRtt p => p.maxEncodedLen .zeroRtt tagLen
  | handshake p => p.maxEncodedLen .handshake tagLen
  | retry p => .ok p.encodedLen
  | versionNegotiation p => .ok p.encodedLen
  | oneRtt p => .ok (p.maxEncodedLen tagLen)

def writeHeader (p : Packet F) (largest : Option Nat) (tagLen : Nat) : Writer Nat :=
  match p with
  | initial p => p.writeHeader largest tagLen
  | zeroRtt p => p.writeHeader .zeroRtt largest tagLen
  | handshake p => p.writeHeader .handshake largest tagLen
  | retry p => p.writeHeader
  | versionNegotiation p => p.writeHeader
  | oneRtt p => p.writeHeader largest

def writePayload : Packet F → Writer Nat
  | initial p => p.writePayload
  | zeroRtt p | handshake p => p.writePayload
  | retry p => p.writePayload
  | versionNegotiation p => p.writePayload
  | oneRtt p => p.writePayload

/-- Header and frames. The tag is for the cipher to append, but the Length counts it. -/
def write (p : Packet F) (largest : Option Nat) (tagLen : Nat) : Writer Nat := do
  let headerLen ← p.writeHeader largest tagLen
  let payloadLen ← p.writePayload
  return headerLen + payloadLen

end Writing

end Packet

end QuicWire

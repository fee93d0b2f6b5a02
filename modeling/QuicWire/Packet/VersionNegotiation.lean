import QuicWire.Packet.LongHeader

set_option autoImplicit false

namespace QuicWire.Packet

structure VersionNegotiation where
  dcid : ConnectionId
  scid : ConnectionId
  offered : List UInt32
  deriving DecidableEq

namespace VersionNegotiation

def versions (p : VersionNegotiation) : List (Option Version) :=
  p.offered.map Version.ofWire?

def readWords : Nat → Reader (List UInt32)
  | 0 => pure []
  | n + 1 => do
    let word ← Reader.word32
    return word :: (← readWords n)

def checkVersion (header : LongHeader) : Except Error Unit :=
  if header.version = Version.v0.toWire then .ok () else .error .violation

def checkRoom (remaining : Nat) : Except Error Unit :=
  if remaining ≠ 0 ∧ remaining % 4 = 0 then .ok () else .error .violation

def read : Reader VersionNegotiation :=
  Reader.atomic do
    let header ← LongHeader.read
    Reader.check (checkVersion header)
    let room ← Reader.remaining
    Reader.check (checkRoom room)
    let offered ← readWords (room / 4)
    return { dcid := header.dcid, scid := header.scid, offered }

def encodedLen (p : VersionNegotiation) : Nat :=
  LongHeader.encodedLen p.dcid p.scid + 4 * p.offered.length

def writeHeader (p : VersionNegotiation) : Writer Nat := do
  LongHeader.write {
    first := FirstByte.formBit ||| FirstByte.fixedBit
    version := Version.v0.toWire
    dcid := p.dcid
    scid := p.scid }
  return LongHeader.encodedLen p.dcid p.scid

def writePayload (p : VersionNegotiation) : Writer Nat := do
  Writer.put (p.offered.flatMap fun word => beBytes 4 word.toNat)
  return 4 * p.offered.length

def write (p : VersionNegotiation) : Writer Nat := do
  let headerLen ← p.writeHeader
  let payloadLen ← p.writePayload
  return headerLen + payloadLen

end VersionNegotiation

end QuicWire.Packet

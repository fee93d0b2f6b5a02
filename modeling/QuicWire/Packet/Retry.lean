import QuicWire.Packet.LongHeader

set_option autoImplicit false

namespace QuicWire.Packet

structure IntegrityTag where
  bytes : Bytes
  length_eq : bytes.length = 16
  deriving DecidableEq

def IntegrityTag.length : Nat := 16

def IntegrityTag.ofBytes? (b : Bytes) : Option IntegrityTag :=
  if h : b.length = 16 then some ⟨b, h⟩ else none

structure Retry where
  version : Version
  dcid : ConnectionId
  scid : ConnectionId
  token : Bytes
  tag : IntegrityTag
  deriving DecidableEq

namespace Retry

def readToken : Reader Bytes := do
  Reader.need IntegrityTag.length
  let tokenLen ← Reader.lift (Word.sub (← Reader.remaining) IntegrityTag.length)
  Reader.take tokenLen

def read : Reader Retry :=
  Reader.atomic do
    let header ← LongHeader.read
    -- The low four bits of the first byte are unused, and any will do.
    let version ← Reader.check (header.checkType .retry)
    let token ← readToken
    let tag ← Reader.require (IntegrityTag.ofBytes? (← Reader.take IntegrityTag.length)) .violation
    return { version, dcid := header.dcid, scid := header.scid, token, tag }

def encodedLen (p : Retry) : Nat :=
  LongHeader.encodedLen p.dcid p.scid + p.token.length + IntegrityTag.length

def writeHeader (p : Retry) : Writer Nat := do
  let first ← Writer.check (LongHeader.firstByte p.version .retry)
  LongHeader.write { first, version := p.version.toWire, dcid := p.dcid, scid := p.scid }
  Writer.put p.token
  return p.encodedLen - IntegrityTag.length

def writePayload (p : Retry) : Writer Nat := do
  Writer.put p.tag.bytes
  return IntegrityTag.length

def write (p : Retry) : Writer Nat := do
  let headerLen ← p.writeHeader
  let payloadLen ← p.writePayload
  return headerLen + payloadLen

end Retry

end QuicWire.Packet

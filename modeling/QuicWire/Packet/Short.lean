import QuicWire.ConnectionId
import QuicWire.Packet.Body

set_option autoImplicit false

namespace QuicWire.Packet

structure Short (F : Type) where
  spin : Bool
  keyPhase : Bool
  dcid : ConnectionId
  packetNumber : Nat
  frames : List F
  deriving DecidableEq

namespace Short

variable {F : Type}

def checkForm (first : UInt8) : Except Error Unit :=
  if ¬ FirstByte.isLong first ∧ FirstByte.isFixed first then .ok () else .error .violation

def read (ctx : ParseContext) (decode : FrameDecoder F) : Reader (Short F) :=
  Reader.atomic do
    Reader.need 1
    let first ← Reader.byte
    Reader.check (checkForm first)
    Reader.check (FirstByte.checkReserved first FirstByte.shortReserved)
    let dcid ← ConnectionId.take ctx.dcidLen
    let (packetNumber, frames) ← Body.read ctx decode first
    return {
      spin := first &&& FirstByte.spinBit ≠ 0
      keyPhase := first &&& FirstByte.keyPhaseBit ≠ 0
      dcid, packetNumber, frames }

section Writing

variable [Frame F]

def payloadLen (p : Short F) : Nat :=
  Frame.totalLen p.frames

def lenWith (p : Short F) (pnLen tagLen : Nat) : Nat :=
  1 + p.dcid.length + pnLen + p.payloadLen + tagLen

def encodedLen (p : Short F) (largest : Option Nat) (tagLen : Nat) : Except Error Nat := do
  let pnLen ← PacketNumber.encodedLen p.packetNumber largest
  return p.lenWith pnLen tagLen

def maxEncodedLen (p : Short F) (tagLen : Nat) : Nat :=
  p.lenWith PacketNumber.maxLength tagLen

def firstByte (p : Short F) (pnLen : Nat) : UInt8 :=
  FirstByte.fixedBit ||| FirstByte.pnBits pnLen
    ||| (if p.spin then FirstByte.spinBit else 0)
    ||| (if p.keyPhase then FirstByte.keyPhaseBit else 0)

def writeHeader (p : Short F) (largest : Option Nat) : Writer Nat := do
  let pnLen ← Writer.check (PacketNumber.encodedLen p.packetNumber largest)
  Writer.putByte (p.firstByte pnLen)
  Writer.put p.dcid.bytes
  discard <| PacketNumber.write p.packetNumber largest
  return 1 + p.dcid.length + pnLen

def writePayload (p : Short F) : Writer Nat :=
  Frame.writeAll p.frames

def write (p : Short F) (largest : Option Nat) : Writer Nat := do
  let headerLen ← p.writeHeader largest
  let payloadLen ← p.writePayload
  return headerLen + payloadLen

end Writing

end Short

end QuicWire.Packet

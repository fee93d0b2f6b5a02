import QuicWire.Packet.Body
import QuicWire.Packet.LongHeader

set_option autoImplicit false

namespace QuicWire.Packet

structure Long (F : Type) where
  version : Version
  dcid : ConnectionId
  scid : ConnectionId
  packetNumber : Nat
  frames : List F
  deriving DecidableEq

structure Initial (F : Type) extends Long F where
  token : Bytes
  deriving DecidableEq

namespace Long

variable {F T : Type}

section Reading

def readWith (token : Reader T) (t : PacketType) (ctx : ParseContext) (decode : FrameDecoder F) :
    Reader (T × Long F) := do
  let header ← LongHeader.read
  let version ← Reader.check (header.checkType t)
  Reader.check (FirstByte.checkReserved header.first FirstByte.longReserved)
  let token ← token
  let body ← VarInt.readCounted
  let (packetNumber, frames) ← Reader.within body (Body.read ctx decode header.first)
  return (token, { version, dcid := header.dcid, scid := header.scid, packetNumber, frames })

def checkType (t : PacketType) : Except Error Unit :=
  if t = .zeroRtt ∨ t = .handshake then .ok () else .error .invalidValue

def read (t : PacketType) (ctx : ParseContext) (decode : FrameDecoder F) : Reader (Long F) :=
  Reader.atomic do
    Reader.check (checkType t)
    let (_, packet) ← readWith (pure ()) t ctx decode
    return packet

end Reading

section Writing

variable [Frame F]

def payloadLen (p : Long F) : Nat :=
  Frame.totalLen p.frames

def tokenLen : Option Bytes → Except Error Nat
  | none => .ok 0
  | some token => do return (← VarInt.size token.length) + token.length

def fixedLen (p : Long F) (token : Option Bytes) : Except Error Nat := do
  return LongHeader.encodedLen p.dcid p.scid + (← tokenLen token)

def lenWith (p : Long F) (token : Option Bytes) (pnLen tagLen : Nat) : Except Error Nat := do
  let length := pnLen + p.payloadLen + tagLen
  return (← p.fixedLen token) + (← VarInt.size length) + length

def writeHeaderWith (p : Long F) (t : PacketType) (token : Option Bytes) (largest : Option Nat)
    (tagLen : Nat) : Writer Nat := do
  -- Every check stands before the first byte is written.
  let pnLen ← Writer.check (PacketNumber.encodedLen p.packetNumber largest)
  let first ← Writer.check (LongHeader.firstByte p.version t)
  let length := pnLen + p.payloadLen + tagLen
  let fixedLen ← Writer.check (p.fixedLen token)
  let lengthLen ← Writer.check (VarInt.size length)
  -- Nothing below fails: each part was measured above.
  LongHeader.write {
    first := first ||| FirstByte.pnBits pnLen
    version := p.version.toWire
    dcid := p.dcid
    scid := p.scid }
  match token with
  | none => pure ()
  | some token =>
    discard <| VarInt.write token.length
    Writer.put token
  discard <| VarInt.write length
  discard <| PacketNumber.write p.packetNumber largest
  return fixedLen + lengthLen + pnLen

def encodedLen (p : Long F) (t : PacketType) (largest : Option Nat) (tagLen : Nat) :
    Except Error Nat := do
  checkType t
  let pnLen ← PacketNumber.encodedLen p.packetNumber largest
  p.lenWith none pnLen tagLen

def maxEncodedLen (p : Long F) (t : PacketType) (tagLen : Nat) : Except Error Nat := do
  checkType t
  p.lenWith none PacketNumber.maxLength tagLen

def writeHeader (p : Long F) (t : PacketType) (largest : Option Nat) (tagLen : Nat) : Writer Nat := do
  Writer.check (checkType t)
  p.writeHeaderWith t none largest tagLen

def writePayload (p : Long F) : Writer Nat :=
  Frame.writeAll p.frames

def write (p : Long F) (t : PacketType) (largest : Option Nat) (tagLen : Nat) : Writer Nat := do
  let headerLen ← p.writeHeader t largest tagLen
  let payloadLen ← p.writePayload
  return headerLen + payloadLen

end Writing

end Long

namespace Initial

variable {F : Type}

def read (ctx : ParseContext) (decode : FrameDecoder F) : Reader (Initial F) :=
  Reader.atomic do
    let (token, packet) ← Long.readWith VarInt.readCounted .initial ctx decode
    return { packet with token }

section Writing

variable [Frame F]

def encodedLen (p : Initial F) (largest : Option Nat) (tagLen : Nat) : Except Error Nat := do
  let pnLen ← PacketNumber.encodedLen p.packetNumber largest
  p.lenWith (some p.token) pnLen tagLen

def maxEncodedLen (p : Initial F) (tagLen : Nat) : Except Error Nat :=
  p.lenWith (some p.token) PacketNumber.maxLength tagLen

def writeHeader (p : Initial F) (largest : Option Nat) (tagLen : Nat) : Writer Nat :=
  p.writeHeaderWith .initial (some p.token) largest tagLen

def writePayload (p : Initial F) : Writer Nat :=
  p.toLong.writePayload

def write (p : Initial F) (largest : Option Nat) (tagLen : Nat) : Writer Nat := do
  let headerLen ← p.writeHeader largest tagLen
  let payloadLen ← p.writePayload
  return headerLen + payloadLen

end Writing

end Initial

end QuicWire.Packet

import QuicWire.FirstByte
import QuicWire.Frame.Basic
import QuicWire.PacketNumber

set_option autoImplicit false

namespace QuicWire

/-- What a receiver knows and the wire does not say. -/
structure ParseContext where
  largest : Option Nat := none
  dcidLen : Nat := 0
  tagLen : Nat := 0
  deriving DecidableEq, Repr

namespace Packet.Body

variable {F : Type}

def read (ctx : ParseContext) (decode : FrameDecoder F) (first : UInt8) : Reader (Nat × List F) := do
  let pnLen := FirstByte.pnLength first
  Reader.need (← Reader.lift (Word.fit (pnLen + ctx.tagLen)))
  let packetNumber ← PacketNumber.read pnLen ctx.largest
  let payloadLen ← Reader.lift (Word.sub (← Reader.remaining) ctx.tagLen)
  let frames ← Reader.lift (decode.decodeAll (← Reader.take payloadLen))
  Reader.skip ctx.tagLen
  return (packetNumber, frames)

end Packet.Body

end QuicWire

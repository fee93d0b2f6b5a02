import QuicWire.Packet.Basic

set_option autoImplicit false

namespace QuicWire

structure Splitter (σ : Type) where
  datagram : Bytes
  contexts : σ
  failed : Bool := false

namespace Splitter

variable {σ F : Type}

def askFor (ask : PacketType → σ → ParseContext × σ) (s : Splitter σ) : ParseContext × σ :=
  match Packet.peekType s.datagram with
  | .ok (some t) => ask t s.contexts
  -- A header of no known type is still read, so that its error comes to light.
  | .ok none | .error _ => ({}, s.contexts)

def next (ask : PacketType → σ → ParseContext × σ) (decode : FrameDecoder F) (s : Splitter σ) :
    Option (Except Failure (Packet F) × Splitter σ) :=
  if s.failed ∨ s.datagram.isEmpty then none
  else
    let (ctx, contexts) := s.askFor ask
    match (Packet.read ctx decode).run s.datagram with
    | .ok p rest => some (.ok p, { datagram := rest, contexts })
    | .error failure rest => some (.error failure, { datagram := rest, contexts, failed := true })

end Splitter

end QuicWire

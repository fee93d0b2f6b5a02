import QuicWire.Datagram.Splitter

set_option autoImplicit false

namespace QuicWire

structure Contexts where
  initial : ParseContext := {}
  zeroRtt : ParseContext := {}
  handshake : ParseContext := {}
  retry : ParseContext := {}
  versionNegotiation : ParseContext := {}
  oneRtt : ParseContext := {}

namespace Contexts

def get (contexts : Contexts) : PacketType → ParseContext
  | .initial => contexts.initial
  | .zeroRtt => contexts.zeroRtt
  | .handshake => contexts.handshake
  | .retry => contexts.retry
  | .versionNegotiation => contexts.versionNegotiation
  | .oneRtt => contexts.oneRtt

def ofFn (f : PacketType → ParseContext) : Contexts where
  initial := f .initial
  zeroRtt := f .zeroRtt
  handshake := f .handshake
  retry := f .retry
  versionNegotiation := f .versionNegotiation
  oneRtt := f .oneRtt

def ask (t : PacketType) (contexts : Contexts) : ParseContext × Contexts :=
  (contexts.get t, contexts)

def later (largest : Option Nat) (pn : Nat) : Nat :=
  match largest with
  | none => pn
  | some largest => max largest pn

def observe {F : Type} (contexts : Contexts) (p : Packet F) : Contexts :=
  match p.packetNumber with
  | none => contexts
  | some pn => ofFn fun t =>
    let ctx := contexts.get t
    if t.space = p.type.space then { ctx with largest := some (later ctx.largest pn) } else ctx

end Contexts

end QuicWire

import QuicWire.Packet.Basic

set_option autoImplicit false

namespace QuicWire

structure DatagramBuilder where
  maxSize : Nat
  bytes : Bytes := []
  packets : List (Nat × Nat) := []
  isSealed : Bool := false
  deriving DecidableEq

namespace DatagramBuilder

variable {F : Type} [Frame F]

def len (d : DatagramBuilder) : Nat :=
  d.bytes.length

def isEmpty (d : DatagramBuilder) : Bool :=
  d.bytes.isEmpty

def remaining (d : DatagramBuilder) : Nat :=
  d.maxSize - d.len

def tagFor (t : PacketType) (tagLen : Nat) : Nat :=
  if t.isNumbered then tagLen else 0

def append (p : Packet F) (largest : Option Nat) (tagLen : Nat) : EStateM Error DatagramBuilder Unit :=
  fun d =>
    match (p.write largest tagLen).run d.bytes with
    | .error cause bytes => .error cause { d with bytes }
    | .ok _ bytes =>
      let bytes := bytes ++ List.replicate tagLen 0
      .ok () { d with
        bytes
        packets := d.packets ++ [(d.len, bytes.length)]
        isSealed := !p.type.isDelimited }

def tryPush (p : Packet F) (largest : Option Nat) (tagLen : Nat) :
    EStateM Error DatagramBuilder Bool := do
  let d ← get
  if d.isSealed then return false
  let reserved ← ofExcept (p.maxEncodedLen tagLen)
  if d.remaining < reserved then return false
  let tagLen := tagFor p.type tagLen
  -- An encoding that fails has to fail before the first byte.
  let _ ← ofExcept (p.encodedLen largest tagLen)
  append p largest tagLen
  return true
where
  ofExcept {α : Type} : Except Error α → EStateM Error DatagramBuilder α
    | .ok a => pure a
    | .error cause => throw cause

end DatagramBuilder

end QuicWire

import QuicWire.ConnectionId
import QuicWire.FirstByte
import QuicWire.PacketType
import QuicWire.VarInt

set_option autoImplicit false

namespace QuicWire

def VarInt.readCounted : Reader Bytes := do
  let length ← VarInt.read
  Reader.need length
  Reader.take length

namespace Packet

structure LongHeader where
  first : UInt8
  version : UInt32
  dcid : ConnectionId
  scid : ConnectionId
  deriving DecidableEq

namespace LongHeader

def version? : Bytes → Option UInt32
  | first :: v₀ :: v₁ :: v₂ :: v₃ :: _ =>
    if FirstByte.isLong first then some (UInt32.ofNat (beValue [v₀, v₁, v₂, v₃])) else none
  | _ => none

def read : Reader LongHeader := do
  Reader.need 5
  let first ← Reader.byte
  if FirstByte.isLong first then
    let version ← Reader.word32
    let dcid ← ConnectionId.read
    let scid ← ConnectionId.read
    return { first, version, dcid, scid }
  else
    Reader.refuse .violation

def write (header : LongHeader) : Writer Unit := do
  Writer.putByte header.first
  Writer.putWord32 header.version
  header.dcid.write
  header.scid.write

def encodedLen (dcid scid : ConnectionId) : Nat :=
  1 + 4 + (1 + dcid.length) + (1 + scid.length)

def checkType (header : LongHeader) (expected : PacketType) : Except Error Version :=
  -- An unknown version is refused before the rest of the first byte is looked at.
  match Version.ofWire? header.version with
  | none => .error (.unsupportedVersion header.version)
  | some .v0 => .error .violation
  | some version =>
    if FirstByte.isFixed header.first ∧ PacketType.ofLongBits version header.first = expected then
      .ok version
    else .error .violation

def firstByte (version : Version) (t : PacketType) : Except Error UInt8 :=
  match t.longBits version with
  | some bits => .ok (FirstByte.formBit ||| FirstByte.fixedBit ||| bits)
  | none => .error (.unsupportedVersion version.toWire)

@[simp] theorem run_write (header : LongHeader) (out : Bytes) :
    header.write.run out = .ok () (out ++ (header.first :: beBytes 4 header.version.toNat ++
      UInt8.ofNat header.dcid.length :: header.dcid.bytes ++
      UInt8.ofNat header.scid.length :: header.scid.bytes)) := by
  simp [write, Writer.putByte, Writer.putWord32]

end LongHeader

end Packet

end QuicWire

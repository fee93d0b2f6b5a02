import QuicWire.Packet.Retry
import QuicWire.PacketNumber

/-!
What a header tells before its protection is removed.

The mask hides the low bits of the first byte and the packet number, and the packet number's length is
among the hidden bits. Until it is known a header counts as if it had the longest packet number; removing
protection settles the length, once.
-/

set_option autoImplicit false

namespace QuicWire

structure ProtectedHeader where
  bits : UInt8
  version : Option Version
  dcid : ConnectionId
  scid : Option ConnectionId
  token : Option Bytes
  length : Nat
  pnOffset : Option Nat := none
  packetLen : Option Nat := none
  unprotected : Bool := false
  deriving DecidableEq

namespace ProtectedHeader

def consumed (total : Nat) : Reader Nat := do
  Reader.lift (Word.sub total (← Reader.remaining))

def provisionalLength (pnOffset : Nat) : Reader Nat :=
  Reader.lift (Word.fit (pnOffset + PacketNumber.maxLength))

def readShort (total dcidLen : Nat) : Reader ProtectedHeader := do
  let bits ← Reader.byte
  if FirstByte.isFixed bits then
    let dcid ← ConnectionId.take dcidLen
    let pnOffset ← consumed total
    let length ← provisionalLength pnOffset
    return {
      bits, version := none, dcid, scid := none, token := none, length
      pnOffset := some pnOffset, packetLen := some total }
  else
    Reader.refuse .violation

def typeOf (header : Packet.LongHeader) : Except Error (Version × PacketType) :=
  match Version.ofWire? header.version with
  | none => .error (.unsupportedVersion header.version)
  | some version =>
    if version = .v0 ∨ FirstByte.isFixed header.first then
      .ok (version, PacketType.ofLongBits version header.first)
    else .error .violation

def readToken : PacketType → Reader (Option Bytes)
  | .initial => some <$> VarInt.readCounted
  | .retry => some <$> Packet.Retry.readToken
  | .zeroRtt | .handshake | .versionNegotiation | .oneRtt => pure none

def readLong (total : Nat) : Reader ProtectedHeader := do
  let header ← Packet.LongHeader.read
  let (version, t) ← Reader.check (typeOf header)
  let token ← readToken t
  let peeked : ProtectedHeader := {
    bits := header.first, version := some version, dcid := header.dcid, scid := some header.scid, token
    length := total, packetLen := some total, unprotected := true }
  if t.isNumbered then
    let rest ← VarInt.read
    Reader.need rest
    -- From here on everything is hidden.
    let pnOffset ← consumed total
    let length ← provisionalLength pnOffset
    let packetLen ← Reader.lift (Word.fit (pnOffset + rest))
    return { peeked with
      length, pnOffset := some pnOffset, packetLen := some packetLen, unprotected := false }
  else
    return peeked

def peek (packet : Bytes) (dcidLen : Nat) : Except Failure ProtectedHeader :=
  match packet with
  | [] => .error (.refused .violation)
  | first :: _ =>
    if FirstByte.isLong first then (readLong packet.length).eval packet
    else (readShort packet.length dcidLen).eval packet

def isLong (h : ProtectedHeader) : Bool :=
  FirstByte.isLong h.bits

def type (h : ProtectedHeader) : PacketType :=
  match h.version with
  | none => .oneRtt
  | some version => PacketType.ofLongBits version h.bits

def sampleOffset (h : ProtectedHeader) : Option Nat :=
  h.pnOffset.map (· + PacketNumber.maxLength)

def pnLength (h : ProtectedHeader) : Option Nat :=
  if h.unprotected then h.pnOffset.map fun _ => FirstByte.pnLength h.bits else none

def unprotect (h : ProtectedHeader) (mask : UInt8) (delta : Nat) : ProtectedHeader :=
  if h.unprotected then h
  else { h with bits := h.bits ^^^ mask, length := h.length - delta, unprotected := true }

def maskOf (h : ProtectedHeader) (maskByte : UInt8) : UInt8 :=
  maskByte &&& FirstByte.protectedBits h.bits

def excess (h : ProtectedHeader) (maskByte : UInt8) : Nat :=
  PacketNumber.maxLength - FirstByte.pnLength (h.bits ^^^ h.maskOf maskByte)

def removeProtection (h : ProtectedHeader) (maskByte : UInt8) : ProtectedHeader :=
  h.unprotect (h.maskOf maskByte) (h.excess maskByte)

@[simp] theorem unprotect_unprotected (h : ProtectedHeader) (mask : UInt8) (delta : Nat) :
    (h.unprotect mask delta).unprotected = true := by
  unfold unprotect
  split <;> simp_all

theorem unprotect_of_unprotected {h : ProtectedHeader} (latched : h.unprotected = true) (mask : UInt8)
    (delta : Nat) : h.unprotect mask delta = h := by
  simp [unprotect, latched]

end ProtectedHeader

end QuicWire

import QuicWire.Reader
import QuicWire.Writer

set_option autoImplicit false

namespace QuicWire

structure ConnectionId where
  bytes : Bytes
  length_le : bytes.length ≤ 255
  deriving DecidableEq

namespace ConnectionId

def maxLengthV1 : Nat := 20

def empty : ConnectionId := ⟨[], by simp⟩

def ofBytes? (b : Bytes) : Option ConnectionId :=
  if h : b.length ≤ 255 then some ⟨b, h⟩ else none

def length (cid : ConnectionId) : Nat :=
  cid.bytes.length

def isEmpty (cid : ConnectionId) : Bool :=
  cid.bytes.isEmpty

instance : Ord ConnectionId where
  compare a b := compare a.bytes b.bytes

def toHex (cid : ConnectionId) : String :=
  Hex.ofBytes cid.bytes

def describe (cid : ConnectionId) : String :=
  "ConnectionId([" ++ ", ".intercalate (cid.bytes.map fun byte => String.ofList (Hex.ofByte byte)) ++ "])"

def take (length : Nat) : Reader ConnectionId := do
  Reader.need length
  Reader.require (ofBytes? (← Reader.take length)) .violation

def read : Reader ConnectionId := do
  Reader.need 1
  let length ← Reader.byte
  take length.toNat

def write (cid : ConnectionId) : Writer Unit := do
  Writer.putByte (UInt8.ofNat cid.length)
  Writer.put cid.bytes

@[simp] theorem ofBytes?_bytes (cid : ConnectionId) : ofBytes? cid.bytes = some cid := by
  simp [ofBytes?, cid.length_le]

@[simp] theorem run_write (cid : ConnectionId) (out : Bytes) :
    cid.write.run out = .ok () (out ++ UInt8.ofNat cid.length :: cid.bytes) := by
  simp [write, Writer.putByte]

end ConnectionId

end QuicWire

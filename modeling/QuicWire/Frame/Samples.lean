import QuicWire.Frame.Basic

set_option autoImplicit false

namespace QuicWire

structure RawPayload where
  bytes : Bytes
  deriving DecidableEq

namespace RawPayload

instance : Frame RawPayload where
  encodedLen f := f.bytes.length
  encode f := f.bytes

instance : LawfulFrame RawPayload where
  length_encode _ := rfl

def decoder : FrameDecoder RawPayload := fun payload =>
  .ok (⟨payload⟩, payload.length)

theorem decodeAll_decoder {payload : Bytes} (some : payload ≠ []) :
    decoder.decodeAll payload = .ok [⟨payload⟩] := by
  have first : decoder.next payload = .some (.ok ⟨payload⟩, []) := by
    obtain ⟨byte, rest, rfl⟩ := List.exists_cons_of_ne_nil some
    simp [FrameDecoder.next, decoder, Reader.run_skip]
  have last : decoder.next [] = none := rfl
  have nonempty : ¬ payload.isEmpty = true := by simp [some]
  rw [FrameDecoder.decodeAll, if_neg nonempty, FrameDecoder.items_of_next_some first,
    FrameDecoder.items_of_next_none last]
  rfl

def fixedDecoder (width : Nat) : FrameDecoder RawPayload := fun payload =>
  .ok (⟨payload.take width⟩, width)

def refusingDecoder (cause : Error) : FrameDecoder RawPayload := fun payload =>
  if payload.head? = some 0xff then .error cause else .ok (⟨payload.take 1⟩, 1)

end RawPayload

structure CountedPayload where
  bytes : Bytes
  length_lt : bytes.length < 256
  deriving DecidableEq

namespace CountedPayload

def ofBytes? (b : Bytes) : Option CountedPayload :=
  if h : b.length < 256 then some ⟨b, h⟩ else none

instance : Frame CountedPayload where
  encodedLen f := 1 + f.bytes.length
  encode f := UInt8.ofNat f.bytes.length :: f.bytes

instance : LawfulFrame CountedPayload where
  length_encode f := by simp [Frame.encode, Frame.encodedLen, Nat.add_comm]

def decoder : FrameDecoder CountedPayload := fun payload =>
  match payload with
  | [] => .error .violation
  | count :: rest =>
    if Bytes.covers count.toNat rest then
      match ofBytes? (rest.take count.toNat) with
      | some f => .ok (f, 1 + count.toNat)
      | none => .error .violation
    else .error .violation

end CountedPayload

section Sum

variable {F G : Type} [Frame F] [Frame G]

instance : Frame (F ⊕ G) where
  encodedLen := Sum.elim Frame.encodedLen Frame.encodedLen
  encode := Sum.elim Frame.encode Frame.encode

end Sum

end QuicWire

import QuicWire.FirstByte
import QuicWire.PacketType

set_option autoImplicit false

namespace QuicWire.FirstByte

instance decidableForallByte (P : UInt8 → Prop) [DecidablePred P] : Decidable (∀ byte, P byte) :=
  decidable_of_iff (∀ n : Fin 256, P (UInt8.ofFin n))
    ⟨fun h byte => by simpa using h byte.toFin, fun h n => h _⟩

/-- The bits that a packet type fixes, reserved bits among them, and their values. -/
def pattern : PacketType → UInt8 × UInt8
  | .initial => (0xfc, 0xc0)
  | .zeroRtt => (0xfc, 0xd0)
  | .handshake => (0xfc, 0xe0)
  | .retry => (0xf0, 0xf0)
  | .versionNegotiation => (0x80, 0x80)
  | .oneRtt => (0xd8, 0x40)

def Announces (first : UInt8) (t : PacketType) : Prop :=
  first &&& (pattern t).1 = (pattern t).2

instance (first : UInt8) (t : PacketType) : Decidable (Announces first t) :=
  inferInstanceAs (Decidable (_ = _))

@[simp] theorem checkReserved_eq_ok_iff (first mask : UInt8) (u : Unit) :
    checkReserved first mask = .ok u ↔ first &&& mask = 0 := by
  by_cases clear : first &&& mask = 0 <;> simp [checkReserved, clear]

theorem announces_delimited_iff {t : PacketType} (delimited : t.isDelimited = true) (first : UInt8) :
    Announces first t ↔ isLong first = true ∧ isFixed first = true ∧
      PacketType.ofLongBits .v1 first = t ∧ first &&& longReserved = 0 := by
  cases t with
  | initial | zeroRtt | handshake => revert first; decide +kernel
  | retry | versionNegotiation | oneRtt => cases delimited

theorem announces_retry_iff (first : UInt8) :
    Announces first .retry ↔
      isLong first = true ∧ isFixed first = true ∧ PacketType.ofLongBits .v1 first = .retry := by
  revert first
  decide +kernel

theorem announces_versionNegotiation_iff (first : UInt8) :
    Announces first .versionNegotiation ↔ isLong first = true := by
  revert first
  decide +kernel

theorem announces_oneRtt_iff (first : UInt8) :
    Announces first .oneRtt ↔
      isLong first = false ∧ isFixed first = true ∧ first &&& shortReserved = 0 := by
  revert first
  decide +kernel

theorem announces_isLong {first : UInt8} {t : PacketType} (h : Announces first t) :
    isLong first = t.isLong := by
  revert first
  cases t <;> decide +kernel

theorem written_long {t : PacketType} (delimited : t.isDelimited = true) {bits : UInt8}
    (typed : t.longBits .v1 = some bits) {length : Nat} (low : 1 ≤ length) (high : length ≤ 4) :
    Announces (formBit ||| fixedBit ||| bits ||| pnBits length) t ∧
      pnLength (formBit ||| fixedBit ||| bits ||| pnBits length) = length := by
  have lengths : length = 1 ∨ length = 2 ∨ length = 3 ∨ length = 4 := by omega
  cases t with
  | initial | zeroRtt | handshake =>
    cases typed
    rcases lengths with rfl | rfl | rfl | rfl <;> decide
  | retry | versionNegotiation | oneRtt => cases delimited

theorem eq_of_announces {t : PacketType} (delimited : t.isDelimited = true) {a b : UInt8}
    (announced : Announces a t) (other : Announces b t) (same : pnLength a = pnLength b) : a = b := by
  have split (byte : UInt8) : byte = byte &&& 0xfc ||| byte &&& 0x03 := by
    revert byte
    decide +kernel
  have low : a &&& 0x03 = b &&& 0x03 := UInt8.toNat_inj.mp (Nat.succ.inj same)
  have high : a &&& 0xfc = b &&& 0xfc := by
    cases t with
    | initial | zeroRtt | handshake => exact announced.trans other.symm
    | retry | versionNegotiation | oneRtt => cases delimited
  rw [split a, split b, high, low]

theorem written_short (spin keyPhase : Bool) {length : Nat} (low : 1 ≤ length) (high : length ≤ 4) :
    let first := fixedBit ||| pnBits length ||| (if spin then spinBit else 0)
      ||| (if keyPhase then keyPhaseBit else 0)
    Announces first .oneRtt ∧ pnLength first = length ∧ spin = decide (first &&& 0x20 ≠ 0) ∧
      keyPhase = decide (first &&& 0x04 ≠ 0) := by
  have lengths : length = 1 ∨ length = 2 ∨ length = 3 ∨ length = 4 := by omega
  rcases lengths with rfl | rfl | rfl | rfl <;> cases spin <;> cases keyPhase <;> decide

theorem eq_written_short {first : UInt8} (announced : Announces first .oneRtt) :
    first = fixedBit ||| pnBits (pnLength first) ||| (if decide (first &&& 0x20 ≠ 0) then spinBit else 0)
      ||| (if decide (first &&& 0x04 ≠ 0) then keyPhaseBit else 0) := by
  revert first
  decide +kernel

theorem eq_of_announces_retry {first : UInt8} (announced : Announces first .retry)
    (unused : first &&& 0x0f = 0) : first = 0xf0 := by
  revert first
  decide +kernel

end QuicWire.FirstByte

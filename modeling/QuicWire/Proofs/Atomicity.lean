import QuicWire.Frame.Samples
import QuicWire.Proofs.Lengths

set_option autoImplicit false

namespace QuicWire

namespace Packet

variable {F : Type}

def Typed (p : Packet F) : Prop :=
  p.version = some .v0 → p.type = .versionNegotiation

theorem Typed.eq_v1 {p : Packet F} (typed : p.Typed) {version : Version} (versioned : p.version = some version)
    (other : p.type ≠ .versionNegotiation) : version = .v1 := by
  cases version with
  | v0 => exact absurd (typed versioned) other
  | v1 => rfl

theorem typed_of_v1 {p : Packet F} (version : p.version = some .v1) : p.Typed := by
  intro versionless
  rw [version] at versionless
  cases versionless

variable [Frame F]

theorem Long.map_headerWire {p : Long F} {t : PacketType} (delimited : t.isDelimited = true)
    (version : p.version = .v1) (token : Option Bytes) (largest : Option Nat) (tagLen : Nat) :
    (p.headerWire t token largest tagLen).map (fun wire => wire.2 + p.payloadLen + tagLen) =
      PacketNumber.encodedLen p.packetNumber largest >>= (p.lenWith token · tagLen) := by
  obtain ⟨bits, typed⟩ := PacketType.exists_longBits delimited
  have first := LongHeader.firstByte_eq_ok_iff.mpr ⟨rfl, bits, typed, rfl⟩
  rw [headerWire, version, first]
  -- One case for each check that both sides run; a check that fails ends both.
  cases PacketNumber.encodedLen p.packetNumber largest with
  | error cause => rfl
  | ok pnLen =>
    cases fixed : p.fixedLen token with
    | error cause => simp [lenWith, fixed, bind, Except.bind, Except.map]
    | ok front =>
      cases size : VarInt.size (pnLen + p.payloadLen + tagLen) with
      | error cause => simp [lenWith, fixed, size, bind, Except.bind, Except.map]
      | ok k =>
        simp only [lenWith, fixed, size, bind, Except.bind, Except.map, pure, Except.pure, Except.ok.injEq]
        omega

theorem map_headerWire {p : Packet F} (typed : p.Typed) (largest : Option Nat) (tagLen : Nat) :
    (p.headerWire largest tagLen).map
        (fun wire => wire.2 + p.payloadWire.2 + if p.type.isNumbered then tagLen else 0) =
      p.encodedLen largest tagLen := by
  cases p with
  | initial p => exact Long.map_headerWire rfl (typed.eq_v1 rfl nofun) (some p.token) largest tagLen
  | zeroRtt p | handshake p => exact Long.map_headerWire rfl (typed.eq_v1 rfl nofun) none largest tagLen
  | retry p =>
    have version : p.version = .v1 := typed.eq_v1 rfl nofun
    rw [headerWire, version]
    rfl
  | versionNegotiation p => rfl
  | oneRtt p =>
    simp only [headerWire, encodedLen, Short.encodedLen]
    cases PacketNumber.encodedLen p.packetNumber largest <;> rfl

theorem typed_of_headerWire {p : Packet F} {largest : Option Nat} {tagLen n : Nat} {header : Bytes}
    (wrote : p.headerWire largest tagLen = .ok (header, n)) : p.Typed := by
  cases p with
  | initial p => exact typed_of_v1 (congrArg some ((Long.headerWire_eq_ok_iff rfl).mp wrote).1)
  | zeroRtt p | handshake p => exact typed_of_v1 (congrArg some ((Long.headerWire_eq_ok_iff rfl).mp wrote).1)
  | retry p => exact typed_of_v1 (congrArg some (headerWire_retry_eq_ok_iff.mp wrote).1)
  | versionNegotiation p => exact fun _ => rfl
  | oneRtt p => exact nofun

theorem map_wire {p : Packet F} (typed : p.Typed) (largest : Option Nat) (tagLen : Nat) :
    (p.wire largest tagLen).map (fun wire => wire.2 + if p.type.isNumbered then tagLen else 0) =
      p.encodedLen largest tagLen := by
  rw [← map_headerWire typed, wire]
  cases p.headerWire largest tagLen <;> rfl

theorem exists_wire_iff (p : Packet F) (largest : Option Nat) (tagLen : Nat) :
    (∃ value, p.wire largest tagLen = .ok value) ↔ (∃ n, p.encodedLen largest tagLen = .ok n) ∧ p.Typed := by
  constructor
  · intro success
    obtain ⟨value, written⟩ := success
    obtain ⟨_, _, headed, -⟩ := wire_eq_ok_iff.mp written
    have typed := typed_of_headerWire headed
    rw [← map_wire typed, written]
    exact ⟨⟨_, rfl⟩, typed⟩
  · intro given
    obtain ⟨⟨n, predicted⟩, typed⟩ := given
    rw [← map_wire typed] at predicted
    cases written : p.wire largest tagLen with
    | ok value => exact ⟨value, rfl⟩
    | error cause =>
      rw [written] at predicted
      cases predicted

theorem encodedLen_eq_error_of_wire {p : Packet F} (typed : p.Typed) {largest : Option Nat} {tagLen : Nat}
    {cause : Error} (refused : p.wire largest tagLen = .error cause) :
    p.encodedLen largest tagLen = .error cause := by
  rw [← map_wire typed, refused]
  rfl

theorem Long.refused_of_other (p : Long F) {t : PacketType} (zeroRtt : t ≠ .zeroRtt) (handshake : t ≠ .handshake)
    (largest : Option Nat) (tagLen : Nat) (out : Bytes) :
    (p.write t largest tagLen).run out = .error .invalidValue out ∧
      (p.writeHeader t largest tagLen).run out = .error .invalidValue out ∧
      p.encodedLen t largest tagLen = .error .invalidValue ∧ p.maxEncodedLen t tagLen = .error .invalidValue := by
  have refused : checkType t = .error .invalidValue := if_neg (not_or.mpr ⟨zeroRtt, handshake⟩)
  have header : (p.writeHeader t largest tagLen).run out = .error .invalidValue out := by
    rw [writeHeader, EStateM.run_bind, refused, Writer.run_check_error]
  refine ⟨?_, header, ?_, ?_⟩
  · rw [write, EStateM.run_bind, header]
  · rw [encodedLen, refused]
    rfl
  · rw [maxEncodedLen, refused]
    rfl

theorem write_all_or_nothing (p : Packet F) (largest : Option Nat) (tagLen : Nat) (out : Bytes) :
    (∀ cause left, (p.writeHeader largest tagLen).run out = .error cause left → left = out) ∧
    (∀ cause left, (p.write largest tagLen).run out = .error cause left → left = out) ∧
    ((∃ n left, (p.write largest tagLen).run out = .ok n left) ↔
      (∃ n, p.encodedLen largest tagLen = .ok n) ∧ p.Typed) ∧
    (p.Typed → ∀ cause left, (p.write largest tagLen).run out = .error cause left →
      p.encodedLen largest tagLen = .error cause) ∧
    ∀ (q : Long F) (t : PacketType), t ≠ .zeroRtt → t ≠ .handshake →
      (q.write t largest tagLen).run out = .error .invalidValue out ∧
        (q.writeHeader t largest tagLen).run out = .error .invalidValue out ∧
        q.encodedLen t largest tagLen = .error .invalidValue ∧ q.maxEncodedLen t tagLen = .error .invalidValue := by
  have header := p.denotes_writeHeader largest tagLen
  have whole := p.denotes_write largest tagLen
  refine ⟨?_, ?_, ?_, ?_, ?_⟩
  · intro cause left failed
    exact (header.run_error failed).2
  · intro cause left failed
    exact (whole.run_error failed).2
  · rw [whole.exists_run_ok_iff]
    exact p.exists_wire_iff largest tagLen
  · intro typed cause left failed
    exact encodedLen_eq_error_of_wire typed (whole.run_error failed).1
  · intro q t zeroRtt handshake
    exact q.refused_of_other zeroRtt handshake largest tagLen out

theorem write_all_or_nothing_initial :
    let q : Long RawPayload :=
      { version := .v1, dcid := ⟨[7, 8], by decide⟩, scid := ⟨[], by decide⟩, packetNumber := 5, frames := [⟨[6, 6]⟩] }
    let stale : Packet RawPayload := .zeroRtt q
    let versionless : Packet RawPayload := .initial { q with version := .v0, token := [9] }
    stale.Typed ∧ (stale.write (some 5) 2).run [1] = .error (.nonMonotonic 5 5) [1] ∧
      stale.encodedLen (some 5) 2 = .error (.nonMonotonic 5 5) ∧
      versionless.encodedLen (some 4) 2 = .ok 17 ∧ ¬ versionless.Typed ∧
      (¬ ∃ n left, (versionless.write (some 4) 2).run [1] = .ok n left) ∧
      (q.write .oneRtt (some 4) 2).run [1] = .error .invalidValue [1] := by
  intro q stale versionless
  have failed : (stale.write (some 5) 2).run [1] = .error (.nonMonotonic 5 5) [1] := rfl
  have untyped : ¬ versionless.Typed := fun typed => absurd (typed rfl) nofun
  obtain ⟨-, -, -, same, -⟩ := write_all_or_nothing stale (some 5) 2 [1]
  obtain ⟨-, -, iff, -, others⟩ := write_all_or_nothing versionless (some 4) 2 [1]
  exact ⟨nofun, failed, same nofun _ _ failed, rfl, untyped, fun success => untyped (iff.mp success).2,
    (others q .oneRtt nofun nofun).1⟩

end Packet

end QuicWire

import QuicWire.Proofs.Grammar
import QuicWire.Proofs.Writer

set_option autoImplicit false

namespace QuicWire

theorem bind_eq_ok_iff {ε α β : Type} {x : Except ε α} {f : α → Except ε β} {y : β} :
    (x >>= f) = .ok y ↔ ∃ a, x = .ok a ∧ f a = .ok y := by
  cases x <;> simp [bind, Except.bind]

def VarInt.shortest (v : Nat) : Bytes :=
  match size v with
  | .ok n => beBytes n (marker n + v)
  | .error _ => []

theorem VarInt.encodes_shortest {v n : Nat} (h : size v = .ok n) : Encodes v (shortest v) := by
  simp only [shortest, h]
  exact encodes_of_size h

theorem VarInt.appends_write {v n : Nat} (h : size v = .ok n) :
    Writer.Appends (write v) (shortest v) n := by
  intro out
  simp only [shortest, h]
  exact run_write h out

theorem PacketNumber.appends_write {pn length : Nat} {largest : Option Nat}
    (h : encodedLen pn largest = .ok length) :
    Writer.Appends (write pn largest) (beBytes length pn) length := by
  intro out
  rw [run_write, h]

theorem PacketType.exists_longBits {t : PacketType} (delimited : t.isDelimited = true) :
    ∃ bits, t.longBits .v1 = some bits := by
  cases t with
  | initial | zeroRtt | handshake => exact ⟨_, rfl⟩
  | retry | versionNegotiation | oneRtt => cases delimited

namespace Packet

variable {F : Type} [Frame F]

def Long.tokenWire : Option Bytes → Bytes
  | none => []
  | some token => VarInt.shortest token.length ++ token

def Long.headerWire (p : Long F) (t : PacketType) (token : Option Bytes) (largest : Option Nat)
    (tagLen : Nat) : Except Error (Bytes × Nat) := do
  let pnLen ← PacketNumber.encodedLen p.packetNumber largest
  let first ← LongHeader.firstByte p.version t
  let length := pnLen + p.payloadLen + tagLen
  let fixedLen ← p.fixedLen token
  let lengthLen ← VarInt.size length
  let header : LongHeader := ⟨first ||| FirstByte.pnBits pnLen, p.version.toWire, p.dcid, p.scid⟩
  return (header.encode ++ (tokenWire token ++ (VarInt.shortest length ++ beBytes pnLen p.packetNumber)),
    fixedLen + lengthLen + pnLen)

omit [Frame F] in
theorem Long.fixedLen_eq_ok_iff {p : Long F} {token : Option Bytes} {n : Nat} :
    p.fixedLen token = .ok n ↔
      ∃ between, tokenLen token = .ok between ∧ LongHeader.encodedLen p.dcid p.scid + between = n := by
  simp only [fixedLen, bind_eq_ok_iff, pure, Except.pure, Except.ok.injEq]

theorem Long.size_of_tokenLen {token : Bytes} {n : Nat} (h : tokenLen (some token) = .ok n) :
    ∃ k, VarInt.size token.length = .ok k := by
  simp only [tokenLen, bind_eq_ok_iff] at h
  obtain ⟨k, size, -⟩ := h
  exact ⟨k, size⟩

theorem LongHeader.firstByte_eq_ok_iff {version : Version} {t : PacketType} {first : UInt8} :
    firstByte version t = .ok first ↔ version = .v1 ∧ ∃ bits, t.longBits .v1 = some bits ∧
      first = FirstByte.formBit ||| FirstByte.fixedBit ||| bits := by
  cases version with
  | v0 => simp [firstByte, PacketType.longBits]
  | v1 => cases t <;> simp [firstByte, PacketType.longBits, eq_comm]

theorem Long.headerWire_eq_ok_iff {p : Long F} {t : PacketType} (delimited : t.isDelimited = true)
    {token : Option Bytes} {largest : Option Nat} {tagLen n : Nat} {header : Bytes} :
    p.headerWire t token largest tagLen = .ok (header, n) ↔
      p.version = .v1 ∧ ∃ first, FirstByte.Announces first t ∧
        PacketNumber.encodedLen p.packetNumber largest = .ok (FirstByte.pnLength first) ∧
        ∃ between k, tokenLen token = .ok between ∧
          VarInt.size (FirstByte.pnLength first + p.payloadLen + tagLen) = .ok k ∧
          header = LongHeader.encode ⟨first, Version.v1.toWire, p.dcid, p.scid⟩ ++ tokenWire token ++
            VarInt.shortest (FirstByte.pnLength first + p.payloadLen + tagLen) ++
            beBytes (FirstByte.pnLength first) p.packetNumber ∧
          n = LongHeader.encodedLen p.dcid p.scid + between + k + FirstByte.pnLength first := by
  simp only [headerWire, bind_eq_ok_iff, LongHeader.firstByte_eq_ok_iff, fixedLen_eq_ok_iff]
  constructor
  · intro wrote
    obtain ⟨pnLen, number, _, ⟨version, bits, typed, rfl⟩, _, ⟨between, counted, rfl⟩, k, size, wrote⟩ := wrote
    cases wrote
    obtain ⟨low, high, -⟩ := PacketNumber.encodedLen_bounds number
    obtain ⟨announces, announced⟩ := FirstByte.written_long delimited typed low high
    refine ⟨version, _, announces, ?_⟩
    rw [announced]
    refine ⟨number, between, k, counted, size, ?_, rfl⟩
    simp only [version, List.append_assoc]
  · intro spelled
    obtain ⟨version, first, announces, number, between, k, counted, size, rfl, rfl⟩ := spelled
    obtain ⟨low, high, -⟩ := PacketNumber.encodedLen_bounds number
    obtain ⟨bits, typed⟩ := PacketType.exists_longBits delimited
    -- The writer has one first byte for a type and a length of number, so it is this one.
    obtain ⟨written, announced⟩ := FirstByte.written_long delimited typed low high
    have same := FirstByte.eq_of_announces delimited written announces announced
    refine ⟨_, number, _, ⟨version, bits, typed, rfl⟩, _, ⟨between, counted, rfl⟩, k, size, ?_⟩
    simp only [same, version, List.append_assoc]
    rfl

theorem LongHeader.appends_write (header : LongHeader) : Writer.Appends header.write header.encode () :=
  header.run_write_encode

theorem Long.denotes_writeHeaderWith (p : Long F) (t : PacketType) (token : Option Bytes)
    (largest : Option Nat) (tagLen : Nat) :
    Writer.Denotes (p.writeHeaderWith t token largest tagLen)
      (p.headerWire t token largest tagLen) := by
  apply Writer.Denotes.check_bind
  intro pnLen number
  apply Writer.Denotes.check_bind
  intro first typed
  apply Writer.Denotes.check_bind
  intro fixedLen fixed
  apply Writer.Denotes.check_bind
  intro lengthLen length
  have numbered : Writer.Appends (do
        discard (VarInt.write (pnLen + p.payloadLen + tagLen))
        discard (PacketNumber.write p.packetNumber largest)
        return fixedLen + lengthLen + pnLen)
      (VarInt.shortest (pnLen + p.payloadLen + tagLen) ++ beBytes pnLen p.packetNumber)
      (fixedLen + lengthLen + pnLen) :=
    (VarInt.appends_write length).discarded.bind
      ((PacketNumber.appends_write number).discarded.andReturn fun _ => fixedLen + lengthLen + pnLen)
  refine Writer.Appends.bind (LongHeader.appends_write _) ?_
  cases token with
  | none => exact numbered
  | some token =>
    obtain ⟨between, counted, -⟩ := fixedLen_eq_ok_iff.mp fixed
    obtain ⟨n, size⟩ := size_of_tokenLen counted
    rw [tokenWire, List.append_assoc]
    exact (VarInt.appends_write size).discarded.bind ((Writer.Appends.put token).bind numbered)

def headerWire (p : Packet F) (largest : Option Nat) (tagLen : Nat) : Except Error (Bytes × Nat) :=
  match p with
  | initial p => p.headerWire .initial (some p.token) largest tagLen
  | zeroRtt p => p.headerWire .zeroRtt none largest tagLen
  | handshake p => p.headerWire .handshake none largest tagLen
  | retry p => do
    let first ← LongHeader.firstByte p.version .retry
    return (LongHeader.encode ⟨first, p.version.toWire, p.dcid, p.scid⟩ ++ p.token,
      p.encodedLen - IntegrityTag.length)
  | versionNegotiation p =>
    return (LongHeader.encode ⟨FirstByte.formBit ||| FirstByte.fixedBit, Version.v0.toWire, p.dcid, p.scid⟩,
      LongHeader.encodedLen p.dcid p.scid)
  | oneRtt p => do
    let pnLen ← PacketNumber.encodedLen p.packetNumber largest
    return (p.firstByte pnLen :: (p.dcid.bytes ++ beBytes pnLen p.packetNumber), 1 + p.dcid.length + pnLen)

theorem headerWire_retry_eq_ok_iff {p : Retry} {largest : Option Nat} {tagLen n : Nat} {header : Bytes} :
    (retry p : Packet F).headerWire largest tagLen = .ok (header, n) ↔
      p.version = .v1 ∧ header = LongHeader.encode ⟨0xf0, Version.v1.toWire, p.dcid, p.scid⟩ ++ p.token ∧
        n = p.encodedLen - IntegrityTag.length := by
  simp only [headerWire, bind_eq_ok_iff, LongHeader.firstByte_eq_ok_iff, pure, Except.pure, Except.ok.injEq,
    Prod.mk.injEq]
  constructor
  · intro wrote
    obtain ⟨first, ⟨version, bits, typed, rfl⟩, rfl, rfl⟩ := wrote
    cases typed
    refine ⟨version, ?_, rfl⟩
    rw [version]
    rfl
  · intro given
    obtain ⟨version, rfl, rfl⟩ := given
    refine ⟨0xf0, ⟨version, 0x30, rfl, rfl⟩, ?_, rfl⟩
    rw [version]

theorem headerWire_oneRtt_eq_ok_iff {p : Short F} {largest : Option Nat} {tagLen n : Nat} {header : Bytes} :
    (oneRtt p).headerWire largest tagLen = .ok (header, n) ↔
      ∃ first, FirstByte.Announces first .oneRtt ∧ p.spin = decide (first &&& 0x20 ≠ 0) ∧
        p.keyPhase = decide (first &&& 0x04 ≠ 0) ∧
        PacketNumber.encodedLen p.packetNumber largest = .ok (FirstByte.pnLength first) ∧
        header = first :: (p.dcid.bytes ++ beBytes (FirstByte.pnLength first) p.packetNumber) ∧
        n = 1 + p.dcid.length + FirstByte.pnLength first := by
  simp only [headerWire, bind_eq_ok_iff, pure, Except.pure, Except.ok.injEq, Prod.mk.injEq]
  constructor
  · intro wrote
    obtain ⟨pnLen, number, rfl, rfl⟩ := wrote
    obtain ⟨low, high, -⟩ := PacketNumber.encodedLen_bounds number
    obtain ⟨announces, announced, spin, keyPhase⟩ := FirstByte.written_short p.spin p.keyPhase low high
    have width : FirstByte.pnLength (p.firstByte pnLen) = pnLen := announced
    refine ⟨p.firstByte pnLen, announces, spin, keyPhase, ?_⟩
    rw [width]
    exact ⟨number, rfl, rfl⟩
  · intro spelled
    obtain ⟨first, announces, spin, keyPhase, number, rfl, rfl⟩ := spelled
    have same : p.firstByte (FirstByte.pnLength first) = first := by
      rw [Short.firstByte, spin, keyPhase]
      exact (FirstByte.eq_written_short announces).symm
    exact ⟨FirstByte.pnLength first, number, by rw [same], rfl⟩

def payloadWire : Packet F → Bytes × Nat
  | initial p => (p.frames.flatMap Frame.encode, Frame.totalLen p.frames)
  | zeroRtt p | handshake p => (p.frames.flatMap Frame.encode, Frame.totalLen p.frames)
  | retry p => (p.tag.bytes, IntegrityTag.length)
  | versionNegotiation p => (VersionNegotiation.words p.offered, 4 * p.offered.length)
  | oneRtt p => (p.frames.flatMap Frame.encode, Frame.totalLen p.frames)

def wire (p : Packet F) (largest : Option Nat) (tagLen : Nat) : Except Error (Bytes × Nat) :=
  (p.headerWire largest tagLen).map fun (header, n) =>
    (header ++ p.payloadWire.1, n + p.payloadWire.2)

theorem length_payloadWire [LawfulFrame F] (p : Packet F) : p.payloadWire.1.length = p.payloadWire.2 := by
  cases p with
  | initial p => exact Frame.length_flatMap_encode p.frames
  | zeroRtt p | handshake p => exact Frame.length_flatMap_encode p.frames
  | oneRtt p => exact Frame.length_flatMap_encode p.frames
  | retry p => exact p.tag.length_eq
  | versionNegotiation p => exact VersionNegotiation.length_words p.offered

omit [Frame F] in
theorem isNumbered_of_packetNumber {p : Packet F} {pn : Nat} (numbered : p.packetNumber = some pn) :
    p.type.isNumbered = true := by
  rw [← p.packetNumber_isSome, numbered]
  rfl

theorem payloadLen_of_isNumbered {p : Packet F} (numbered : p.type.isNumbered = true) :
    p.payloadLen = some p.payloadWire.2 := by
  cases p with
  | initial | zeroRtt | handshake | oneRtt => rfl
  | retry | versionNegotiation => cases numbered

structure AsLong (p : Packet F) (q : Long F) : Prop where
  version_eq : p.version = some q.version
  dcid_eq : p.dcid = q.dcid
  scid_eq : p.scid = some q.scid
  packetNumber_eq : p.packetNumber = some q.packetNumber
  payloadLen_eq : p.payloadLen = some q.payloadLen
  payloadWire_eq : p.payloadWire = (q.frames.flatMap Frame.encode, q.payloadLen)
  headerWire_eq : ∀ largest tagLen, p.headerWire largest tagLen = q.headerWire p.type p.token largest tagLen

theorem asLong_of_isDelimited {p : Packet F} (delimited : p.type.isDelimited = true) : ∃ q, p.AsLong q := by
  cases p with
  | initial q => exact ⟨q.toLong, rfl, rfl, rfl, rfl, rfl, rfl, fun _ _ => rfl⟩
  | zeroRtt q | handshake q => exact ⟨q, rfl, rfl, rfl, rfl, rfl, rfl, fun _ _ => rfl⟩
  | retry | versionNegotiation | oneRtt => cases delimited

theorem wire_eq_ok_iff {p : Packet F} {largest : Option Nat} {tagLen n : Nat} {bytes : Bytes} :
    p.wire largest tagLen = .ok (bytes, n) ↔ ∃ header headerLen,
      p.headerWire largest tagLen = .ok (header, headerLen) ∧ bytes = header ++ p.payloadWire.1 ∧
        n = headerLen + p.payloadWire.2 := by
  cases headed : p.headerWire largest tagLen with
  | error cause => simp [wire, headed, Except.map]
  | ok value => simp [wire, headed, Except.map, Prod.ext_iff, eq_comm, and_assoc]

theorem denotes_writeHeader (p : Packet F) (largest : Option Nat) (tagLen : Nat) :
    Writer.Denotes (p.writeHeader largest tagLen) (p.headerWire largest tagLen) := by
  cases p with
  | initial p => exact p.denotes_writeHeaderWith .initial (some p.token) largest tagLen
  | zeroRtt p => exact p.denotes_writeHeaderWith .zeroRtt none largest tagLen
  | handshake p => exact p.denotes_writeHeaderWith .handshake none largest tagLen
  | retry p =>
    apply Writer.Denotes.check_bind
    intro first typed
    exact (LongHeader.appends_write _).bind ((Writer.Appends.put p.token).andReturn _)
  | versionNegotiation p =>
    exact (LongHeader.appends_write _).andReturn fun _ => LongHeader.encodedLen p.dcid p.scid
  | oneRtt p =>
    apply Writer.Denotes.check_bind
    intro pnLen number
    exact (Writer.Appends.put [p.firstByte pnLen]).bind ((Writer.Appends.put p.dcid.bytes).bind
      ((PacketNumber.appends_write number).discarded.andReturn _))

theorem appends_writePayload (p : Packet F) :
    Writer.Appends p.writePayload p.payloadWire.1 p.payloadWire.2 := by
  cases p <;> exact (Writer.Appends.put _).andReturn _

theorem denotes_write (p : Packet F) (largest : Option Nat) (tagLen : Nat) :
    Writer.Denotes (p.write largest tagLen) (p.wire largest tagLen) :=
  (p.denotes_writeHeader largest tagLen).andAppend fun _ => p.appends_writePayload.andReturn _

end Packet

end QuicWire

import QuicWire.Frame.Samples
import QuicWire.Proofs.Grammar

set_option autoImplicit false

namespace QuicWire.Packet

variable {F : Type}

theorem LongHeader.version?_encode {header : LongHeader} (long : FirstByte.isLong header.first = true)
    (rest : Bytes) : version? (header.encode ++ rest) = some header.version := by
  obtain ⟨v₀, v₁, v₂, v₃, four⟩ : ∃ v₀ v₁ v₂ v₃, beBytes 4 header.version.toNat = [v₀, v₁, v₂, v₃] :=
    ⟨_, _, _, _, rfl⟩
  have word : UInt32.ofNat (beValue [v₀, v₁, v₂, v₃]) = header.version := by
    rw [← four]
    exact (Reader.ofNat_beValue_eq_iff (length_beBytes _ _)).mpr rfl
  rw [encode, four]
  simp only [List.cons_append, version?, long, if_true, word]

theorem peekType_encode {header : LongHeader} (long : FirstByte.isLong header.first = true) (rest : Bytes) :
    peekType (header.encode ++ rest) = .ok ((Version.ofWire? header.version).map fun version =>
      PacketType.ofLongBits version header.first) := by
  have found := LongHeader.version?_encode long rest
  rw [LongHeader.encode, List.cons_append, List.cons_append] at found ⊢
  simp only [peekType, long, if_true, found]

theorem peekType_of_spelled {ctx : ParseContext} {decode : FrameDecoder F} {p : Packet F} {bytes : Bytes}
    (spelled : p.Spelled ctx decode bytes) (rest : Bytes) : peekType (bytes ++ rest) = .ok (some p.type) := by
  have typed {t : PacketType} (delimited : t.isDelimited = true) {token : Bytes} {q : Long F}
      (long : q.Spelled t ctx decode token bytes) : peekType (bytes ++ rest) = .ok (some t) := by
    obtain ⟨first, length, body, announces, -, -, -, rfl⟩ := long
    obtain ⟨form, -, bits, -⟩ := (FirstByte.announces_delimited_iff delimited first).mp announces
    simp only [List.append_assoc]
    rw [peekType_encode form]
    simp [bits]
  cases p with
  | initial p =>
    obtain ⟨count, -, long⟩ := spelled
    exact typed rfl long
  | zeroRtt p => exact typed rfl spelled
  | handshake p => exact typed rfl spelled
  | retry p =>
    obtain ⟨first, announces, -, rfl⟩ := spelled
    obtain ⟨form, -, bits⟩ := (FirstByte.announces_retry_iff first).mp announces
    simp only [List.append_assoc]
    rw [peekType_encode form]
    simp [bits, type]
  | versionNegotiation p =>
    obtain ⟨first, announces, -, rfl⟩ := spelled
    have form := (FirstByte.announces_versionNegotiation_iff first).mp announces
    simp only [List.append_assoc]
    rw [peekType_encode form]
    simp [PacketType.ofLongBits, type]
  | oneRtt p =>
    obtain ⟨first, body, announces, -, -, -, -, rfl⟩ := spelled
    have short := FirstByte.announces_isLong announces
    have form : FirstByte.isLong first = false := short
    simp [peekType, form, type]

theorem run_read (ctx : ParseContext) (decode : FrameDecoder F) (b : Bytes) :
    (read ctx decode).run b = match peekType b with
      | .ok (some t) => (readAs t ctx decode).run b
      | .ok none => .error (.refused (.unsupportedVersion ((LongHeader.version? b).getD 0))) b
      | .error cause => .error (.refused cause) b := by
  show ((Reader.check (peekType b) >>= _ : Reader (Packet F))).run b = _
  rw [EStateM.run_bind]
  match peekType b with
  | .ok (some t) => rfl
  | .ok none => rfl
  | .error cause => rfl

theorem eq_of_run_read_eq_error {ctx : ParseContext} {decode : FrameDecoder F} {b left : Bytes}
    {failure : Failure} (h : (read ctx decode).run b = .error failure left) : left = b := by
  rw [run_read] at h
  split at h
  next t _ => cases t <;> exact Reader.eq_of_run_atomic_eq_error (Reader.run_eq_error_of_run_map h)
  next => cases h; rfl
  next => cases h; rfl

theorem spelled_of_run_readAs {t : PacketType} {ctx : ParseContext} {decode : FrameDecoder F}
    {b rest : Bytes} {p : Packet F} (success : (readAs t ctx decode).run b = .ok p rest) :
    ∃ bytes, p.Spelled ctx decode bytes ∧ b = bytes ++ rest ∧ (p.type.isDelimited = false → rest = []) := by
  cases t <;> simp only [readAs, Reader.run_map_eq_ok_iff] at success <;> obtain ⟨q, read, rfl⟩ := success
  case initial =>
    obtain ⟨bytes, spelled, rfl⟩ := Initial.run_read_eq_ok_iff.mp read
    exact ⟨bytes, spelled, rfl, by rintro ⟨⟩⟩
  case zeroRtt =>
    obtain ⟨bytes, spelled, rfl⟩ := (Long.run_read_eq_ok_iff (.inl rfl)).mp read
    exact ⟨bytes, spelled, rfl, by rintro ⟨⟩⟩
  case handshake =>
    obtain ⟨bytes, spelled, rfl⟩ := (Long.run_read_eq_ok_iff (.inr rfl)).mp read
    exact ⟨bytes, spelled, rfl, by rintro ⟨⟩⟩
  case retry =>
    obtain ⟨rfl, spelled⟩ := Retry.run_read_eq_ok_iff.mp read
    exact ⟨b, spelled, (List.append_nil b).symm, fun _ => rfl⟩
  case versionNegotiation =>
    obtain ⟨rfl, spelled⟩ := VersionNegotiation.run_read_eq_ok_iff.mp read
    exact ⟨b, spelled, (List.append_nil b).symm, fun _ => rfl⟩
  case oneRtt =>
    obtain ⟨rfl, -, spelled⟩ := Short.run_read_eq_ok_iff.mp read
    exact ⟨b, spelled, (List.append_nil b).symm, fun _ => rfl⟩

theorem spelled_of_run_read {ctx : ParseContext} {decode : FrameDecoder F} {b rest : Bytes} {p : Packet F}
    (success : (read ctx decode).run b = .ok p rest) :
    ∃ bytes, p.Spelled ctx decode bytes ∧ b = bytes ++ rest ∧ (p.type.isDelimited = false → rest = []) := by
  rw [run_read] at success
  split at success
  next => exact spelled_of_run_readAs success
  next => cases success
  next => cases success

theorem run_read_of_spelled {ctx : ParseContext} {decode : FrameDecoder F} {bytes rest : Bytes}
    {p : Packet F} (spelled : p.Spelled ctx decode bytes) (last : p.type.isDelimited = false → rest = [])
    (fits : p.type = .oneRtt → ∀ first ∈ bytes.head?, FirstByte.pnLength first + ctx.tagLen < Word.size) :
    (read ctx decode).run (bytes ++ rest) = .ok p rest := by
  rw [run_read, peekType_of_spelled spelled]
  cases p <;> simp only [type, readAs, Reader.run_map_eq_ok_iff]
  case initial p => exact ⟨p, Initial.run_read_eq_ok_iff.mpr ⟨bytes, spelled, rfl⟩, rfl⟩
  case zeroRtt p => exact ⟨p, (Long.run_read_eq_ok_iff (.inl rfl)).mpr ⟨bytes, spelled, rfl⟩, rfl⟩
  case handshake p => exact ⟨p, (Long.run_read_eq_ok_iff (.inr rfl)).mpr ⟨bytes, spelled, rfl⟩, rfl⟩
  all_goals
    obtain rfl := last rfl
    rw [List.append_nil]
  case retry p => exact ⟨p, Retry.run_read_eq_ok_iff.mpr ⟨rfl, spelled⟩, rfl⟩
  case versionNegotiation p => exact ⟨p, VersionNegotiation.run_read_eq_ok_iff.mpr ⟨rfl, spelled⟩, rfl⟩
  case oneRtt p => exact ⟨p, Short.run_read_eq_ok_iff.mpr ⟨rfl, fits rfl, spelled⟩, rfl⟩

theorem run_read_iff_spelled {ctx : ParseContext} {decode : FrameDecoder F} {b rest : Bytes} {p : Packet F}
    (fits : ctx.tagLen + PacketNumber.maxLength < Word.size) :
    (read ctx decode).run b = .ok p rest ↔
      ∃ bytes, p.Spelled ctx decode bytes ∧ b = bytes ++ rest ∧
        (p.type.isDelimited = false → rest = []) := by
  constructor
  · exact spelled_of_run_read
  · intro given
    obtain ⟨bytes, spelled, rfl, last⟩ := given
    apply run_read_of_spelled spelled last
    intro _ first _
    have longest : FirstByte.pnLength first ≤ PacketNumber.maxLength := FirstByte.pnLength_le first
    omega

theorem run_read_iff_spelled_oneRtt :
    let ctx : ParseContext := { dcidLen := 2, tagLen := 1 }
    let p : Packet RawPayload := .oneRtt ⟨true, false, ⟨[7, 8], by decide⟩, 5, [⟨[1, 2]⟩]⟩
    ctx.tagLen + PacketNumber.maxLength < Word.size ∧
      (read ctx RawPayload.decoder).run [0x60, 7, 8, 5, 1, 2, 9] = .ok p [] := by
  refine ⟨by decide, (run_read_iff_spelled (by decide)).mpr ⟨_, ?_, (List.append_nil _).symm, fun _ => rfl⟩⟩
  refine ⟨0x60, [5, 1, 2, 9], by decide, by decide, by decide, by decide, ?_, rfl⟩
  exact ⟨[5], [1, 2], [9], rfl, by decide, rfl, rfl, RawPayload.decodeAll_decoder (by decide)⟩

section Alone

variable {ctx : ParseContext} {decode : FrameDecoder F} {b rest : Bytes} {p : Packet F}

def ReadAlone (ctx : ParseContext) (decode : FrameDecoder F) (b : Bytes) : Packet F → Bytes → Prop
  | initial q, rest => (Initial.read ctx decode).run b = .ok q rest
  | zeroRtt q, rest => (Long.read .zeroRtt ctx decode).run b = .ok q rest
  | handshake q, rest => (Long.read .handshake ctx decode).run b = .ok q rest
  | retry q, rest => Retry.read.run b = .ok q rest
  | versionNegotiation q, rest => VersionNegotiation.read.run b = .ok q rest
  | oneRtt q, rest => (Short.read ctx decode).run b = .ok q rest

theorem run_readAs_eq_ok_iff {t : PacketType} :
    (readAs t ctx decode).run b = .ok p rest ↔ p.type = t ∧ ReadAlone ctx decode b p rest := by
  cases t <;> cases p <;> simp only [readAs, Reader.run_map_eq_ok_iff, ReadAlone, type] <;> simp

theorem ReadAlone.peekType_eq (alone : ReadAlone ctx decode b p rest) : peekType b = .ok (some p.type) := by
  have success : (readAs p.type ctx decode).run b = .ok p rest := run_readAs_eq_ok_iff.mpr ⟨rfl, alone⟩
  obtain ⟨bytes, spelled, rfl, -⟩ := spelled_of_run_readAs success
  exact peekType_of_spelled spelled rest

theorem run_read_iff_readAlone : (read ctx decode).run b = .ok p rest ↔ ReadAlone ctx decode b p rest := by
  constructor
  · intro success
    rw [run_read] at success
    split at success
    next => exact (run_readAs_eq_ok_iff.mp success).2
    next => cases success
    next => cases success
  · intro alone
    rw [run_read, alone.peekType_eq]
    exact run_readAs_eq_ok_iff.mpr ⟨rfl, alone⟩

theorem run_read_disjoint_union (ctx : ParseContext) (decode : FrameDecoder F) (b : Bytes) :
    (∀ p q rest left, ReadAlone ctx decode b p rest → ReadAlone ctx decode b q left → p.type = q.type) ∧
    (∀ p rest, (read ctx decode).run b = .ok p rest ↔ ReadAlone ctx decode b p rest) ∧
    (∀ p rest, ReadAlone ctx decode b p rest → peekType b = .ok (some p.type)) ∧
    (∀ failure left, (read ctx decode).run b = .error failure left →
      ∀ p rest, ¬ ReadAlone ctx decode b p rest) := by
  refine ⟨?_, fun p rest => run_read_iff_readAlone, fun p rest alone => alone.peekType_eq, ?_⟩
  · intro p q rest left alone other
    have same := alone.peekType_eq.symm.trans other.peekType_eq
    injection same with same
    exact Option.some.inj same
  · intro failure left failed p rest alone
    rw [run_read_iff_readAlone.mpr alone] at failed
    cases failed

end Alone

end QuicWire.Packet

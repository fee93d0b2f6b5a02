import QuicWire.Proofs.Conservation
import QuicWire.Proofs.Truncation

set_option autoImplicit false

namespace QuicWire

namespace FirstByte

def AgreeOutside (mask first other : UInt8) : Prop :=
  other &&& ~~~mask = first &&& ~~~mask

instance (mask first other : UInt8) : Decidable (AgreeOutside mask first other) :=
  inferInstanceAs (Decidable (_ = _))

namespace AgreeOutside

variable {mask first other : UInt8} (agree : AgreeOutside mask first other)

include agree

theorem and_eq {kept : UInt8} (outside : ~~~mask &&& kept = kept) : other &&& kept = first &&& kept := by
  rw [← outside, ← UInt8.and_assoc, ← UInt8.and_assoc, agree]

theorem isLong_eq (outside : ~~~mask &&& 0x80 = 0x80) : isLong other = isLong first := by
  rw [isLong, isLong, formBit, agree.and_eq outside]

theorem ofLongBits_eq (outside : ~~~mask &&& 0x30 = 0x30) :
    PacketType.ofLongBits .v1 other = PacketType.ofLongBits .v1 first := by
  simp only [PacketType.ofLongBits, agree.and_eq outside]

theorem pnLength_eq (outside : ~~~mask &&& 0x03 = 0x03) : pnLength other = pnLength first := by
  rw [pnLength, pnLength, agree.and_eq outside]

theorem announces {t : PacketType} (outside : ~~~mask &&& (pattern t).1 = (pattern t).1)
    (announced : Announces first t) : Announces other t :=
  (agree.and_eq outside).trans announced

end AgreeOutside

theorem isFixed_eq_false {first : UInt8} (clear : first &&& 0x40 = 0) : isFixed first = false := by
  simp [isFixed, fixedBit, clear]

theorem not_announces_of_unfixed {first : UInt8} (unfixed : isFixed first = false) {t : PacketType}
    (fixing : t ≠ .versionNegotiation) : ¬ Announces first t := by
  cases t with
  | initial | zeroRtt | handshake => simp [announces_delimited_iff, PacketType.isDelimited, unfixed]
  | retry => simp [announces_retry_iff, unfixed]
  | oneRtt => simp [announces_oneRtt_iff, unfixed]
  | versionNegotiation => exact absurd rfl fixing

end FirstByte

namespace Packet

variable {F : Type} {ctx : ParseContext} {decode : FrameDecoder F}

theorem run_read_of_refused {b : Bytes} {t : PacketType} {α : Type} {r : Reader α} {f : α → Packet F}
    (typed : peekType b = .ok (some t)) (reads : readAs t ctx decode = f <$> Reader.atomic r)
    (refused : ∃ left, r.run b = .error (.refused .violation) left) :
    (read ctx decode).run b = .error (.refused .violation) b := by
  obtain ⟨left, refused⟩ := refused
  rw [run_read, typed]
  dsimp only
  rw [reads, Reader.run_map, Reader.run_atomic, refused]

section Unannounced

variable {header : LongHeader} {rest : Bytes}

theorem LongHeader.refused_behind {α : Type} {f : LongHeader → Reader α}
    (long : FirstByte.isLong header.first = true)
    (later : ∃ left, (f header).run rest = .error (.refused .violation) left) :
    ∃ left, (LongHeader.read >>= f).run (header.encode ++ rest) = .error (.refused .violation) left := by
  obtain ⟨left, refused⟩ := later
  have headed : LongHeader.read.run (header.encode ++ rest) = .ok header rest :=
    (takes_read long).run_append rest
  exact ⟨left, by rw [EStateM.run_bind, headed]; exact refused⟩

theorem LongHeader.checkType_of_unfixed (known : header.version = Version.v1.toWire)
    (unfixed : FirstByte.isFixed header.first = false) (t : PacketType) :
    header.checkType t = .error .violation := by
  simp [checkType, known, unfixed]

theorem Long.refused_of_unannounced {α T : Type} {token : Reader T} {t : PacketType} {f : T × Long F → Reader α}
    (delimited : t.isDelimited = true) (long : FirstByte.isLong header.first = true)
    (known : header.version = Version.v1.toWire) (bits : PacketType.ofLongBits .v1 header.first = t)
    (unannounced : ¬ FirstByte.Announces header.first t) :
    ∃ left, (readWith token t ctx decode >>= f).run (header.encode ++ rest) =
      .error (.refused .violation) left := by
  apply Reader.refused_bind
  apply LongHeader.refused_behind long
  cases fixed : FirstByte.isFixed header.first with
  | false =>
    rw [LongHeader.checkType_of_unfixed known fixed]
    exact ⟨rest, rfl⟩
  | true =>
    have typed : header.checkType t = .ok .v1 := LongHeader.checkType_eq_ok_iff.mpr ⟨rfl, known, fixed, bits⟩
    -- The only part of the pattern that is left to be wrong are the reserved bits.
    have reserved : ¬ header.first &&& FirstByte.longReserved = 0 := by
      intro clear
      exact unannounced ((FirstByte.announces_delimited_iff delimited _).mpr ⟨long, fixed, bits, clear⟩)
    rw [typed]
    simp only [FirstByte.checkReserved, if_neg reserved]
    exact ⟨rest, rfl⟩

theorem malformed_of_unannounced_long {t : PacketType} (long : FirstByte.isLong header.first = true)
    (known : header.version = Version.v1.toWire) (bits : PacketType.ofLongBits .v1 header.first = t)
    (unannounced : ¬ FirstByte.Announces header.first t) (rest : Bytes) : Malformed (header.encode ++ rest) := by
  intro G ctx decode
  have typed : peekType (header.encode ++ rest) = .ok (some t) := by
    rw [peekType_encode long, known, Version.ofWire?_toWire, Option.map_some, bits]
  cases t with
  | initial => exact run_read_of_refused typed rfl (Long.refused_of_unannounced rfl long known bits unannounced)
  | zeroRtt => exact run_read_of_refused typed rfl (Long.refused_of_unannounced rfl long known bits unannounced)
  | handshake => exact run_read_of_refused typed rfl (Long.refused_of_unannounced rfl long known bits unannounced)
  | retry =>
    have unfixed : FirstByte.isFixed header.first = false := by
      rw [← Bool.not_eq_true]
      intro fixed
      exact unannounced ((FirstByte.announces_retry_iff _).mpr ⟨long, fixed, bits⟩)
    refine run_read_of_refused typed rfl (LongHeader.refused_behind long ?_)
    rw [LongHeader.checkType_of_unfixed known unfixed]
    exact ⟨rest, rfl⟩
  | versionNegotiation => exact absurd ((FirstByte.announces_versionNegotiation_iff _).mpr long) unannounced
  | oneRtt =>
    unfold PacketType.ofLongBits at bits
    grind

theorem malformed_of_unannounced_short {first : UInt8} (short : FirstByte.isLong first = false)
    (unannounced : ¬ FirstByte.Announces first .oneRtt) (rest : Bytes) : Malformed (first :: rest) := by
  intro G ctx decode
  have typed : peekType (first :: rest) = .ok (some .oneRtt) := by simp [peekType, short]
  refine run_read_of_refused typed rfl ⟨rest, ?_⟩
  have enough : (Reader.need 1).run (first :: rest) = .ok () (first :: rest) := by simp
  rw [EStateM.run_bind, enough]
  dsimp only
  rw [EStateM.run_bind, Reader.run_byte_cons]
  dsimp only
  cases fixed : FirstByte.isFixed first with
  | false => simp [Short.checkForm, short, fixed]
  | true =>
    have reserved : ¬ first &&& FirstByte.shortReserved = 0 := by
      intro clear
      exact unannounced ((FirstByte.announces_oneRtt_iff first).mpr ⟨short, fixed, clear⟩)
    simp [Short.checkForm, short, fixed, FirstByte.checkReserved, reserved]

end Unannounced

section Spelled

variable {p : Packet F} {first other : UInt8} {more : Bytes}

theorem Spelled.announces (spelled : p.Spelled ctx decode (first :: more)) : FirstByte.Announces first p.type := by
  cases p with
  | initial p =>
    obtain ⟨_, -, _, _, _, announces, -, -, -, same⟩ := spelled
    cases same
    exact announces
  | zeroRtt p | handshake p =>
    obtain ⟨_, _, _, announces, -, -, -, same⟩ := spelled
    cases same
    exact announces
  | retry p | versionNegotiation p =>
    obtain ⟨_, announces, -, same⟩ := spelled
    cases same
    exact announces
  | oneRtt p =>
    obtain ⟨_, _, announces, -, -, -, -, same⟩ := spelled
    cases same
    exact announces

theorem LongHeader.encode_reannounced {version : UInt32} {dcid scid : ConnectionId} {back : Bytes} {was : UInt8}
    (same : first :: more = encode ⟨was, version, dcid, scid⟩ ++ back) (other : UInt8) :
    other :: more = encode ⟨other, version, dcid, scid⟩ ++ back :=
  congrArg (other :: ·) (List.cons.inj same).2

theorem Spelled.exists_header (spelled : p.Spelled ctx decode (first :: more)) (long : p.type.isLong = true)
    (versioned : p.type ≠ .versionNegotiation) :
    ∃ dcid scid back, ∀ other, other :: more = LongHeader.encode ⟨other, Version.v1.toWire, dcid, scid⟩ ++ back := by
  cases p with
  | initial p =>
    obtain ⟨count, -, _, length, body, -, -, -, -, same⟩ := spelled
    rw [List.append_assoc, List.append_assoc] at same
    exact ⟨p.dcid, p.scid, count ++ p.token ++ (length ++ body), LongHeader.encode_reannounced same⟩
  | zeroRtt p | handshake p =>
    obtain ⟨_, length, body, -, -, -, -, same⟩ := spelled
    rw [List.append_nil, List.append_assoc] at same
    exact ⟨p.dcid, p.scid, length ++ body, LongHeader.encode_reannounced same⟩
  | retry p =>
    obtain ⟨_, -, -, same⟩ := spelled
    rw [List.append_assoc] at same
    exact ⟨p.dcid, p.scid, p.token ++ p.tag.bytes, LongHeader.encode_reannounced same⟩
  | versionNegotiation p => exact absurd rfl versioned
  | oneRtt p => cases long

theorem typed_of_announces {t : PacketType} (announced : FirstByte.Announces first t) (long : t.isLong = true)
    (versioned : t ≠ .versionNegotiation) : PacketType.ofLongBits .v1 first = t := by
  cases t with
  | initial | zeroRtt | handshake => exact ((FirstByte.announces_delimited_iff rfl first).mp announced).2.2.1
  | retry => exact ((FirstByte.announces_retry_iff first).mp announced).2.2
  | versionNegotiation => exact absurd rfl versioned
  | oneRtt => cases long

theorem Spelled.malformed_of_unannounced {mask : UInt8} (spelled : p.Spelled ctx decode (first :: more))
    (versioned : p.type ≠ .versionNegotiation) (agree : FirstByte.AgreeOutside mask first other)
    (form : ~~~mask &&& 0x80 = 0x80) (bits : p.type.isLong = true → ~~~mask &&& 0x30 = 0x30)
    (unannounced : ¬ FirstByte.Announces other p.type) (rest : Bytes) : Malformed (other :: (more ++ rest)) := by
  have announced := spelled.announces
  have form := (agree.isLong_eq form).trans (FirstByte.announces_isLong announced)
  cases long : p.type.isLong with
  | true =>
    have bits := (agree.ofLongBits_eq (bits long)).trans (typed_of_announces announced long versioned)
    rw [long] at form
    obtain ⟨dcid, scid, back, same⟩ := spelled.exists_header long versioned
    rw [← List.cons_append, same other, List.append_assoc]
    exact malformed_of_unannounced_long form rfl bits unannounced (back ++ rest)
  | false =>
    have short : p.type = .oneRtt := by cases p <;> first | rfl | cases long
    rw [short] at unannounced
    rw [long] at form
    exact malformed_of_unannounced_short form unannounced (more ++ rest)

theorem Retry.Spelled.reannounced {p : Retry} (spelled : p.Spelled (first :: more))
    (announced : FirstByte.Announces other .retry) : p.Spelled (other :: more) := by
  obtain ⟨_, -, version, same⟩ := spelled
  cases same
  exact ⟨other, announced, version, rfl⟩

theorem VersionNegotiation.Spelled.reannounced {p : VersionNegotiation} (spelled : p.Spelled (first :: more))
    (announced : FirstByte.Announces other .versionNegotiation) : p.Spelled (other :: more) := by
  obtain ⟨_, -, offered, same⟩ := spelled
  cases same
  exact ⟨other, announced, offered, rfl⟩

def Short.flagged (p : Short F) (first : UInt8) : Short F :=
  { p with spin := first &&& 0x20 ≠ 0, keyPhase := first &&& 0x04 ≠ 0 }

theorem Short.Spelled.reannounced {p : Short F} (spelled : p.Spelled ctx decode (first :: more))
    (announced : FirstByte.Announces other .oneRtt) (same : FirstByte.pnLength other = FirstByte.pnLength first) :
    (p.flagged other).Spelled ctx decode (other :: more) := by
  obtain ⟨_, body, -, -, -, width, inner, spelled⟩ := spelled
  cases spelled
  obtain ⟨number, payload, tag, split, counted, others⟩ := inner
  exact ⟨other, body, announced, rfl, rfl, width, ⟨number, payload, tag, split, counted.trans same.symm, others⟩, rfl⟩

end Spelled

structure Depends (ctx : ParseContext) (decode : FrameDecoder F) (first : UInt8) (more rest : Bytes)
    (p : Packet F) : Prop where
  reserved_long : p.type.isDelimited = true → ∀ other, FirstByte.AgreeOutside 0x0c first other →
    other &&& 0x0c ≠ 0 → Malformed (other :: more)
  reserved_short : p.type = .oneRtt → ∀ other, FirstByte.AgreeOutside 0x18 first other →
    other &&& 0x18 ≠ 0 → Malformed (other :: more)
  fixed : p.type ≠ .versionNegotiation → ∀ other, FirstByte.AgreeOutside 0x40 first other →
    other &&& 0x40 = 0 → Malformed (other :: more)
  flags : ∀ q, p = .oneRtt q → ∀ other, FirstByte.AgreeOutside 0x24 first other →
    (read ctx decode).run (other :: more) = .ok (.oneRtt (q.flagged other)) rest
  unused_retry : p.type = .retry → ∀ other, FirstByte.AgreeOutside 0x0f first other →
    (read ctx decode).run (other :: more) = .ok p rest
  unused_versionNegotiation : p.type = .versionNegotiation → ∀ other, FirstByte.AgreeOutside 0x7f first other →
    (read ctx decode).run (other :: more) = .ok p rest

theorem fits_of_run_read {b rest : Bytes} {p : Packet F} (success : (read ctx decode).run b = .ok p rest)
    (short : p.type = .oneRtt) : ∀ first ∈ b.head?, FirstByte.pnLength first + ctx.tagLen < Word.size := by
  have alone := run_read_iff_readAlone.mp success
  cases p with
  | oneRtt p => exact (Short.run_read_eq_ok_iff.mp alone).2.1
  | initial | zeroRtt | handshake | retry | versionNegotiation => cases short

theorem first_byte_of_run_read {b rest : Bytes} {p : Packet F} (success : (read ctx decode).run b = .ok p rest) :
    ∃ first more, b = first :: more ∧ Depends ctx decode first more rest p := by
  obtain ⟨bytes, spelled, rfl, last⟩ := spelled_of_run_read success
  obtain ⟨first, more, rfl⟩ := List.exists_cons_of_ne_nil spelled.ne_nil
  have announced := spelled.announces
  refine ⟨first, more ++ rest, rfl, ?_⟩
  constructor
  case reserved_long =>
    intro delimited other agree set
    have versioned : p.type ≠ .versionNegotiation := by
      intro unversioned
      rw [unversioned] at delimited
      cases delimited
    apply spelled.malformed_of_unannounced versioned agree (by decide) (fun _ => by decide)
    intro again
    exact set ((FirstByte.announces_delimited_iff delimited other).mp again).2.2.2
  case reserved_short =>
    intro short other agree set
    have versioned : p.type ≠ .versionNegotiation := by simp [short]
    -- The bits of a long type are among the changed ones.
    have notLong : p.type.isLong ≠ true := by simp [short, PacketType.isLong]
    apply spelled.malformed_of_unannounced versioned agree (by decide) (fun long => absurd long notLong)
    intro again
    rw [short] at again
    exact set ((FirstByte.announces_oneRtt_iff other).mp again).2.2
  case fixed =>
    intro versioned other agree clear
    apply spelled.malformed_of_unannounced versioned agree (by decide) (fun _ => by decide)
    exact FirstByte.not_announces_of_unfixed (FirstByte.isFixed_eq_false clear) versioned
  case flags =>
    intro q is other agree
    subst is
    have counted : FirstByte.pnLength other = FirstByte.pnLength first := agree.pnLength_eq (by decide)
    have again : (q.flagged other).Spelled ctx decode (other :: more) :=
      Short.Spelled.reannounced spelled (agree.announces (by decide) announced) counted
    have fits := fits_of_run_read success rfl first rfl
    apply run_read_of_spelled (p := .oneRtt (q.flagged other)) again last
    rintro - _ ⟨⟩
    rwa [counted]
  case unused_retry =>
    intro isRetry other agree
    cases p with
    | retry q =>
      have again := Retry.Spelled.reannounced spelled (agree.announces (by decide) announced)
      exact run_read_of_spelled (p := .retry q) again last nofun
    | initial | zeroRtt | handshake | versionNegotiation | oneRtt => cases isRetry
  case unused_versionNegotiation =>
    intro isVersionNegotiation other agree
    cases p with
    | versionNegotiation q =>
      have again := VersionNegotiation.Spelled.reannounced spelled (agree.announces (by decide) announced)
      exact run_read_of_spelled (p := .versionNegotiation q) again last nofun
    | initial | zeroRtt | handshake | retry | oneRtt => cases isVersionNegotiation

theorem first_byte_of_run_read_oneRtt :
    let ctx : ParseContext := { dcidLen := 2, tagLen := 1 }
    let q : Short RawPayload := ⟨true, false, ⟨[7, 8], by decide⟩, 5, [⟨[1, 2]⟩]⟩
    (read ctx RawPayload.decoder).run [0x60, 7, 8, 5, 1, 2, 9] = .ok (.oneRtt q) [] ∧
      Malformed [0x68, 7, 8, 5, 1, 2, 9] ∧ Malformed [0x20, 7, 8, 5, 1, 2, 9] ∧
      (read ctx RawPayload.decoder).run [0x44, 7, 8, 5, 1, 2, 9] =
        .ok (.oneRtt { q with spin := false, keyPhase := true }) [] := by
  intro ctx q
  have spelled : (Packet.oneRtt q).Spelled ctx RawPayload.decoder [0x60, 7, 8, 5, 1, 2, 9] := by
    refine ⟨0x60, [5, 1, 2, 9], by decide, by decide, by decide, by decide, ?_, rfl⟩
    exact ⟨[5], [1, 2], [9], rfl, by decide, rfl, rfl, RawPayload.decodeAll_decoder (by decide)⟩
  have success : (read ctx RawPayload.decoder).run [0x60, 7, 8, 5, 1, 2, 9] = .ok (.oneRtt q) [] := by
    refine run_read_of_spelled spelled (fun _ => rfl) ?_
    rintro - _ ⟨⟩
    decide
  obtain ⟨_, _, same, depends⟩ := first_byte_of_run_read success
  cases same
  exact ⟨success, depends.reserved_short rfl 0x68 (by decide) (by decide),
    depends.fixed nofun 0x20 (by decide) (by decide), depends.flags q rfl 0x44 (by decide)⟩

end Packet

end QuicWire

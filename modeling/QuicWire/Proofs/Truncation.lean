import QuicWire.Proofs.Dispatch

set_option autoImplicit false

namespace QuicWire.Packet

variable {F : Type}

-- Nothing that a receiver knows, and no decoder of its frames, makes a packet of these bytes.
def Malformed (b : Bytes) : Prop :=
  ∀ (G : Type) (ctx : ParseContext) (decode : FrameDecoder G),
    (read ctx decode).run b = .error (.refused .violation) b

theorem Spelled.peekType_eq {ctx : ParseContext} {decode : FrameDecoder F} {p : Packet F} {bytes : Bytes}
    (spelled : p.Spelled ctx decode bytes) : peekType bytes = .ok (some p.type) := by
  have typed := peekType_of_spelled spelled []
  rwa [List.append_nil] at typed

theorem peekType_take {b : Bytes} {t : PacketType} (typed : peekType b = .ok (some t))
    (long : t.isLong = true) (k : Nat) :
    peekType (b.take k) = .error .violation ∨ peekType (b.take k) = .ok (some t) := by
  cases b with
  | nil => cases typed
  | cons first tail =>
    by_cases form : FirstByte.isLong first = true
    · match tail, k with
      | _, 0 => exact .inl rfl
      | [], k + 1 | [_], k + 1 | [_, _], k + 1 | [_, _, _], k + 1 =>
        simp [peekType, LongHeader.version?, form] at typed
      | _ :: _ :: _ :: _ :: _, 1 | _ :: _ :: _ :: _ :: _, 2
      | _ :: _ :: _ :: _ :: _, 3 | _ :: _ :: _ :: _ :: _, 4 =>
        left
        simp [peekType, LongHeader.version?, form]
      | _ :: _ :: _ :: _ :: _, k + 5 =>
        right
        simpa [peekType, LongHeader.version?, form] using typed
    · simp only [peekType, form] at typed
      cases typed
      cases long

theorem run_read_take {b : Bytes} {t : PacketType} {k : Nat} {ctx : ParseContext}
    {decode : FrameDecoder F} {α : Type} {r : Reader α} {f : α → Packet F}
    (typed : peekType b = .ok (some t)) (long : t.isLong = true)
    (reads : readAs t ctx decode = f <$> Reader.atomic r)
    (refused : ∃ left, r.run (b.take k) = .error (.refused .violation) left) :
    (read ctx decode).run (b.take k) = .error (.refused .violation) (b.take k) := by
  obtain ⟨left, refused⟩ := refused
  rw [run_read]
  -- Either the dispatcher refuses the cut itself, or it calls the reader of the uncut packet.
  rcases peekType_take typed long k with untold | told
  · rw [untold]
  · rw [told]
    dsimp only
    rw [reads, Reader.run_map, Reader.run_atomic, refused]

section Delimited

theorem Long.takes_readWith {T : Type} {tokenReader : Reader T} {x : T} {t : PacketType}
    {header : LongHeader} {token length body : Bytes} {ctx : ParseContext} {decode : FrameDecoder F}
    (long : FirstByte.isLong header.first = true) (typed : header.checkType t = .ok .v1)
    (reserved : FirstByte.checkReserved header.first FirstByte.longReserved = .ok ())
    (tokened : Reader.Takes tokenReader token (pure x)) (encodes : VarInt.Encodes body.length length) :
    Reader.Takes (readWith tokenReader t ctx decode) (header.encode ++ (token ++ (length ++ body))) do
      let (packetNumber, frames) ← Reader.within body (Body.read ctx decode header.first)
      return (x, { version := .v1, dcid := header.dcid, scid := header.scid, packetNumber, frames }) := by
  apply (LongHeader.takes_read long).andThen
  simp only [typed, reserved]
  exact tokened.andThen ((VarInt.takes_readCounted encodes).bind _)

theorem Long.Spelled.refused_take {α T : Type} {tokenReader : Reader T} {x : T} {t : PacketType}
    {ctx : ParseContext} {decode : FrameDecoder F} {token bytes : Bytes} {p : Long F}
    (spelled : p.Spelled t ctx decode token bytes) (delimited : t.isDelimited = true)
    (tokened : Reader.Takes tokenReader token (pure x)) {k : Nat} (short : k < bytes.length)
    {G : Type} {ctx' : ParseContext} {decode' : FrameDecoder G} (f : T × Long G → Reader α) :
    ∃ left, (readWith tokenReader t ctx' decode' >>= f).run (bytes.take k) =
      .error (.refused .violation) left := by
  obtain ⟨first, length, body, announces, -, encodes, -, rfl⟩ := spelled
  obtain ⟨long, fixed, bits, reserved⟩ := (FirstByte.announces_delimited_iff delimited first).mp announces
  simp only [List.append_assoc] at short ⊢
  have takes : Reader.Takes (readWith tokenReader t ctx' decode')
      (LongHeader.encode ⟨first, Version.v1.toWire, p.dcid, p.scid⟩ ++ (token ++ (length ++ body))) _ :=
    takes_readWith long (LongHeader.checkType_eq_ok_iff.mpr ⟨rfl, rfl, fixed, bits⟩)
      ((FirstByte.checkReserved_eq_ok_iff first _ ()).mpr reserved) tokened encodes
  exact (takes.bind f).run_take k short

theorem Spelled.malformed_take {ctx : ParseContext} {decode : FrameDecoder F} {p : Packet F} {bytes : Bytes}
    (spelled : p.Spelled ctx decode bytes) (delimited : p.type.isDelimited = true) {k : Nat}
    (short : k < bytes.length) : Malformed (bytes.take k) := by
  intro G ctx' decode'
  have typed := spelled.peekType_eq
  have nothing : Reader.Takes (pure ()) [] (pure ()) := .refl _
  cases p with
  | initial p =>
    obtain ⟨count, counted, long⟩ := spelled
    exact run_read_take typed rfl rfl (long.refused_take rfl (VarInt.takes_readCounted counted) short _)
  | zeroRtt p => exact run_read_take typed rfl rfl (Long.Spelled.refused_take spelled rfl nothing short _)
  | handshake p => exact run_read_take typed rfl rfl (Long.Spelled.refused_take spelled rfl nothing short _)
  | retry p | versionNegotiation p | oneRtt p => cases delimited

end Delimited

section Undelimited

theorem LongHeader.refused_take {α : Type} {header : LongHeader} {f : LongHeader → Reader α} {back : Bytes}
    {k : Nat} (long : FirstByte.isLong header.first = true)
    (later : header.encode.length ≤ k →
      ∃ left, (f header).run (back.take (k - header.encode.length)) = .error (.refused .violation) left) :
    ∃ left, (read >>= f).run ((header.encode ++ back).take k) = .error (.refused .violation) left := by
  rcases (takes_read long).run_take_append back k with ⟨-, refused⟩ | ⟨beyond, same⟩
  · exact Reader.refused_bind refused
  · obtain ⟨left, refused⟩ := later beyond
    exact ⟨left, by rw [EStateM.run_bind, same]; exact refused⟩

theorem Retry.run_readToken_short {b : Bytes} (short : b.length < IntegrityTag.length) :
    readToken.run b = .error (.refused .violation) b := by
  rw [readToken, EStateM.run_bind, Reader.run_need, if_neg (Nat.not_le_of_lt short)]

theorem Retry.Spelled.malformed_take {p : Retry} {b : Bytes} (spelled : p.Spelled b) {k : Nat}
    (short : k < 7 + p.dcid.length + p.scid.length + IntegrityTag.length) : Malformed (b.take k) := by
  intro G ctx decode
  have packet : (retry p : Packet G).Spelled ctx decode b := spelled
  have typed := packet.peekType_eq
  refine run_read_take typed rfl rfl ?_
  obtain ⟨first, announces, -, rfl⟩ := spelled
  obtain ⟨long, fixed, bits⟩ := (FirstByte.announces_retry_iff first).mp announces
  rw [List.append_assoc]
  apply LongHeader.refused_take long
  intro beyond
  have known : LongHeader.checkType ⟨first, Version.v1.toWire, p.dcid, p.scid⟩ .retry = .ok .v1 :=
    LongHeader.checkType_eq_ok_iff.mpr ⟨rfl, rfl, fixed, bits⟩
  rw [LongHeader.length_encode] at beyond ⊢
  dsimp only at beyond
  simp only [known]
  refine Reader.refused_bind (r := Retry.readToken) ⟨_, Retry.run_readToken_short ?_⟩
  rw [List.length_take]
  omega

theorem Retry.Spelled.take {p : Retry} {b : Bytes} (spelled : p.Spelled b) {h k : Nat}
    (width : h = 7 + p.dcid.length + p.scid.length) (long : h + IntegrityTag.length ≤ k) {tag : IntegrityTag}
    (tagged : tag.bytes = (b.take k).drop (k - IntegrityTag.length)) :
    Retry.Spelled { p with token := (b.take (k - IntegrityTag.length)).drop h, tag } (b.take k) := by
  obtain ⟨first, announces, version, bytes⟩ := spelled
  refine ⟨first, announces, version, ?_⟩
  let header : LongHeader := ⟨first, Version.v1.toWire, p.dcid, p.scid⟩
  have front : b.take h = header.encode := by
    rw [bytes, List.append_assoc, width, ← header.length_encode, List.take_left]
  -- The last sixteen bytes of the cut are its tag, and what they were before does not matter.
  calc b.take k
    _ = (b.take k).take (k - IntegrityTag.length) ++ (b.take k).drop (k - IntegrityTag.length) :=
      (List.take_append_drop _ _).symm
    _ = b.take (k - IntegrityTag.length) ++ tag.bytes := by
      rw [List.take_take, Nat.min_eq_left (Nat.sub_le _ _), tagged]
    _ = (b.take (k - IntegrityTag.length)).take h ++ (b.take (k - IntegrityTag.length)).drop h ++ tag.bytes := by
      rw [List.take_append_drop]
    _ = header.encode ++ (b.take (k - IntegrityTag.length)).drop h ++ tag.bytes := by
      rw [List.take_take, Nat.min_eq_left (by omega), front]

theorem VersionNegotiation.words_take (offered : List UInt32) (m : Nat) :
    words (offered.take m) = (words offered).take (4 * m) := by
  induction offered generalizing m with
  | nil => simp [words]
  | cons word more ih =>
    cases m with
    | zero => rfl
    | succ m =>
      have step : 4 * (m + 1) = (beBytes 4 word.toNat).length + 4 * m := by
        rw [length_beBytes]
        omega
      rw [List.take_succ_cons, words_cons, words_cons, ih, step, List.take_length_add_append]

theorem VersionNegotiation.Spelled.take {p : VersionNegotiation} {b : Bytes} (spelled : p.Spelled b)
    {h k : Nat} (width : h = 7 + p.dcid.length + p.scid.length) (long : h < k) (whole : (k - h) % 4 = 0) :
    VersionNegotiation.Spelled { p with offered := p.offered.take ((k - h) / 4) } (b.take k) := by
  obtain ⟨first, announces, some, rfl⟩ := spelled
  refine ⟨first, announces, ?_, ?_⟩
  · have positive := List.length_pos_iff.mpr some
    rw [← List.length_pos_iff, List.length_take]
    omega
  · have room : 4 * ((k - h) / 4) = k - h := by omega
    rw [words_take, room, List.take_append, LongHeader.length_encode, ← width,
      List.take_of_length_le (by rw [LongHeader.length_encode]; dsimp only; omega)]

theorem VersionNegotiation.checkRoom_error {room : Nat} (broken : ¬ (0 < room ∧ room % 4 = 0)) :
    checkRoom room = .error .violation :=
  if_neg fun ⟨nonzero, whole⟩ => broken ⟨Nat.pos_of_ne_zero nonzero, whole⟩

theorem VersionNegotiation.Spelled.malformed_take {p : VersionNegotiation} {b : Bytes} (spelled : p.Spelled b)
    {h k : Nat} (width : h = 7 + p.dcid.length + p.scid.length) (short : k < b.length)
    (broken : ¬ (h < k ∧ (k - h) % 4 = 0)) : Malformed (b.take k) := by
  intro G ctx decode
  have packet : (versionNegotiation p : Packet G).Spelled ctx decode b := spelled
  have typed := packet.peekType_eq
  refine run_read_take typed rfl rfl ?_
  obtain ⟨first, announces, -, rfl⟩ := spelled
  have long := (FirstByte.announces_versionNegotiation_iff first).mp announces
  apply LongHeader.refused_take long
  intro beyond
  rw [List.length_append] at short
  rw [LongHeader.length_encode] at short beyond ⊢
  dsimp only at short beyond
  -- The header is whole, and what is left behind it is not a number of words.
  let cut := (words p.offered).take (k - (7 + p.dcid.length + p.scid.length))
  have refused : checkRoom cut.length = .error .violation := by
    apply checkRoom_error
    rw [List.length_take]
    omega
  exact Reader.refused_bind (r := Reader.check (checkRoom cut.length)) ⟨cut, by rw [refused]; rfl⟩

theorem Retry.Spelled.run_read_take {q : Retry} {b : Bytes} (spelled : q.Spelled b) {h k : Nat}
    (width : h = 7 + q.dcid.length + q.scid.length) (short : k < b.length) :
    if k < h + 16 then Malformed (b.take k)
    else ∃ tag : IntegrityTag, tag.bytes = (b.take k).drop (k - 16) ∧
      ∀ (G : Type) (ctx : ParseContext) (decode : FrameDecoder G), (Packet.read ctx decode).run (b.take k) =
        .ok (.retry { q with token := (b.take (k - 16)).drop h, tag }) [] := by
  split
  next inside =>
    rw [width] at inside
    exact spelled.malformed_take inside
  next outside =>
    let tag : IntegrityTag := ⟨(b.take k).drop (k - 16), by
      rw [List.length_drop, List.length_take]
      omega⟩
    refine ⟨tag, rfl, fun G ctx decode => ?_⟩
    have cut := spelled.take width (Nat.le_of_not_lt outside) (show tag.bytes = _ from rfl)
    have packet : (retry { q with token := (b.take (k - 16)).drop h, tag } : Packet G).Spelled ctx decode
      (b.take k) := cut
    have success := run_read_of_spelled packet (fun _ => rfl) nofun
    rwa [List.append_nil] at success

theorem VersionNegotiation.Spelled.run_read_take {q : VersionNegotiation} {b : Bytes} (spelled : q.Spelled b)
    {h k : Nat} (width : h = 7 + q.dcid.length + q.scid.length) (short : k < b.length) :
    if h < k ∧ (k - h) % 4 = 0 then
      ∀ (G : Type) (ctx : ParseContext) (decode : FrameDecoder G), (Packet.read ctx decode).run (b.take k) =
        .ok (.versionNegotiation { q with offered := q.offered.take ((k - h) / 4) }) []
    else Malformed (b.take k) := by
  split
  next whole =>
    intro G ctx decode
    have packet : (versionNegotiation { q with offered := q.offered.take ((k - h) / 4) } : Packet G).Spelled
      ctx decode (b.take k) := spelled.take width whole.1 whole.2
    have success := run_read_of_spelled packet (fun _ => rfl) nofun
    rwa [List.append_nil] at success
  next broken => exact spelled.malformed_take width short broken

end Undelimited

theorem Spelled.run_read_append {ctx : ParseContext} {decode : FrameDecoder F} {p : Packet F} {bytes : Bytes}
    (spelled : p.Spelled ctx decode bytes) (delimited : p.type.isDelimited = true) (rest : Bytes) :
    (read ctx decode).run (bytes ++ rest) = .ok p rest := by
  apply run_read_of_spelled spelled
  · intro undelimited
    rw [delimited] at undelimited
    cases undelimited
  · intro short
    rw [short] at delimited
    cases delimited

theorem run_read_take_of_success {ctx : ParseContext} {decode : FrameDecoder F} {b rest : Bytes} {p : Packet F}
    (success : (read ctx decode).run b = .ok p rest) :
    let n := b.length - rest.length
    (p.type.isDelimited = true →
      (∀ k < n, Malformed (b.take k)) ∧ ∀ s, (read ctx decode).run (b.take n ++ s) = .ok p s) ∧
    (∀ q, p = .retry q → ∀ k < n, let h := 7 + q.dcid.length + q.scid.length
      if k < h + 16 then Malformed (b.take k)
      else ∃ tag : IntegrityTag, tag.bytes = (b.take k).drop (k - 16) ∧
        ∀ (G : Type) (ctx : ParseContext) (decode : FrameDecoder G), (read ctx decode).run (b.take k) =
          .ok (.retry { q with token := (b.take (k - 16)).drop h, tag }) []) ∧
    (∀ q, p = .versionNegotiation q → ∀ k < n, let h := 7 + q.dcid.length + q.scid.length
      if h < k ∧ (k - h) % 4 = 0 then
        ∀ (G : Type) (ctx : ParseContext) (decode : FrameDecoder G), (read ctx decode).run (b.take k) =
          .ok (.versionNegotiation { q with offered := q.offered.take ((k - h) / 4) }) []
      else Malformed (b.take k)) := by
  obtain ⟨bytes, spelled, rfl, last⟩ := spelled_of_run_read success
  intro n
  have n_eq : n = bytes.length := by simp [n]
  refine ⟨?_, ?_, ?_⟩
  · intro delimited
    rw [n_eq, List.take_left]
    refine ⟨fun k short => ?_, spelled.run_read_append delimited⟩
    rw [List.take_append_of_le_length (Nat.le_of_lt short)]
    exact spelled.malformed_take delimited short
  · rintro q rfl k short
    obtain rfl := last rfl
    rw [n_eq] at short
    rw [List.append_nil]
    exact Retry.Spelled.run_read_take spelled rfl short
  · rintro q rfl k short
    obtain rfl := last rfl
    rw [n_eq] at short
    rw [List.append_nil]
    exact VersionNegotiation.Spelled.run_read_take spelled rfl short

theorem run_read_take_of_success_words :
    let p : List UInt32 → Packet RawPayload := fun offered =>
      .versionNegotiation { dcid := ⟨[5], by decide⟩, scid := ⟨[6], by decide⟩, offered }
    let b : Bytes := [0xc0, 0, 0, 0, 0, 1, 5, 1, 6, 0, 0, 0, 1, 0x1a, 0x2a, 0x3a, 0x4a]
    (read {} RawPayload.decoder).run b = .ok (p [1, 0x1a2a3a4a]) [] ∧
      (read {} RawPayload.decoder).run (b.take 13) = .ok (p [1]) [] ∧ Malformed (b.take 15) := by
  intro p b
  have success : (read {} RawPayload.decoder).run b = .ok (p [1, 0x1a2a3a4a]) [] := rfl
  have cut := (run_read_take_of_success success).2.2 _ rfl
  exact ⟨success, cut 13 (by decide) RawPayload {} RawPayload.decoder, cut 15 (by decide)⟩

end QuicWire.Packet

import QuicWire.Proofs.Peeking

set_option autoImplicit false

namespace QuicWire

def FirstByte.masked (m first : UInt8) : UInt8 :=
  first ^^^ (m &&& if isLong first then 0x0f else 0x1f)

namespace Packet.Body.Spelled

variable {F : Type} {ctx : ParseContext} {decode : FrameDecoder F} {first : UInt8} {pn : Nat} {frames : List F}
  {body : Bytes}

theorem eval_number (h : Body.Spelled ctx decode first pn frames body) (rest : Bytes) :
    (PacketNumber.read (FirstByte.pnLength first) ctx.largest).eval (body ++ rest) = .ok pn := by
  obtain ⟨number, payload, tag, rfl, width, -, rebuilt, -⟩ := h
  rw [width] at rebuilt
  rw [Reader.eval_eq_ok_iff]
  refine ⟨payload ++ tag ++ rest, PacketNumber.run_read_eq_ok_iff.mpr ⟨number, width, rebuilt, ?_⟩⟩
  simp only [List.append_assoc]

theorem decodeAll_payload (h : Body.Spelled ctx decode first pn frames body) :
    decode.decodeAll ((body.take (body.length - ctx.tagLen)).drop (FirstByte.pnLength first)) = .ok frames := by
  obtain ⟨number, payload, tag, rfl, width, tagged, -, decoded⟩ := h
  have untagged : (number ++ payload ++ tag).take ((number ++ payload ++ tag).length - ctx.tagLen) =
      number ++ payload := by
    rw [List.length_append, tagged, Nat.add_sub_cancel, List.take_left]
  rw [untagged, ← width, List.drop_left]
  exact decoded

end Packet.Body.Spelled

namespace ProtectedHeader

section Unmasking

variable {bits : UInt8} {version : Option Version} {dcid : ConnectionId} {scid : Option ConnectionId}
  {token : Option Bytes} {offset rest : Nat}

def atNumber (bits : UInt8) (version : Option Version) (dcid : ConnectionId) (scid : Option ConnectionId)
    (token : Option Bytes) (offset rest : Nat) : ProtectedHeader :=
  { beforeNumber bits version dcid scid token offset rest with
    length := offset + FirstByte.pnLength bits, unprotected := true }

theorem removeProtection_beforeNumber (m : UInt8) :
    (beforeNumber bits version dcid scid token offset rest).removeProtection m =
      atNumber (FirstByte.masked m bits) version dcid scid token offset rest := by
  have longest : FirstByte.pnLength (FirstByte.masked m bits) ≤ PacketNumber.maxLength :=
    FirstByte.pnLength_le _
  have shorter : offset + PacketNumber.maxLength -
      (PacketNumber.maxLength - FirstByte.pnLength (FirstByte.masked m bits)) =
      offset + FirstByte.pnLength (FirstByte.masked m bits) := by
    omega
  have unmasked : bits ^^^ (m &&& FirstByte.protectedBits bits) = FirstByte.masked m bits := rfl
  simp only [removeProtection, unprotect, excess, maskOf, beforeNumber, atNumber, unmasked, shorter,
    Bool.false_eq_true, if_false]

theorem removeProtection_zero :
    (beforeNumber bits version dcid scid token offset rest).removeProtection 0 =
      atNumber bits version dcid scid token offset rest := by
  rw [removeProtection_beforeNumber, FirstByte.masked, UInt8.zero_and, UInt8.xor_zero]

end Unmasking

variable {F : Type}

structure Uncovers (ctx : ParseContext) (decode : FrameDecoder F) (b : Bytes) (n pn : Nat) (frames : List F)
    (info : ProtectedHeader) (offset pnLen : Nat) : Prop where
  hidden : info.unprotected = false
  pnOffset_eq : info.pnOffset = some offset
  sampleOffset_eq : info.sampleOffset = some (offset + 4)
  head?_eq : b.head? = some (info.removeProtection 0).bits
  pnLength_eq : (info.removeProtection 0).pnLength = some pnLen
  length_eq : (info.removeProtection 0).length = offset + pnLen
  number : (PacketNumber.read pnLen ctx.largest).eval (b.drop offset) = .ok pn
  room : offset + pnLen + ctx.tagLen ≤ n
  payload : decode.decodeAll ((b.take (n - ctx.tagLen)).drop (offset + pnLen)) = .ok frames

structure Describes (ctx : ParseContext) (decode : FrameDecoder F) (b : Bytes) (n : Nat) (p : Packet F)
    (info : ProtectedHeader) : Prop where
  type_eq : info.type = p.type
  version_eq : info.version = p.version
  dcid_eq : info.dcid = p.dcid
  scid_eq : info.scid = p.scid
  token_eq : info.token = p.token
  packetLen_eq : info.packetLen = some n
  numbered : ∀ pn, p.packetNumber = some pn →
    ∃ offset pnLen, Uncovers ctx decode b n pn p.frames info offset pnLen
  bare : p.packetNumber = none →
    info.unprotected = true ∧ info.pnOffset = none ∧ info.pnLength = none ∧ info.length = b.length

variable {ctx : ParseContext} {decode : FrameDecoder F}

theorem uncovers_beforeNumber {bits : UInt8} {version : Option Version} {dcid : ConnectionId}
    {scid : Option ConnectionId} {token : Option Bytes} {b front more body rest : Bytes} {pn : Nat}
    {frames : List F} (head : front = bits :: more)
    (spelled : Packet.Body.Spelled ctx decode bits pn frames body) (split : b = front ++ body ++ rest) :
    Uncovers ctx decode b (front ++ body).length pn frames
      (beforeNumber bits version dcid scid token front.length body.length) front.length
      (FirstByte.pnLength bits) := by
  have room := spelled.room_for_tag
  have untagged : (front ++ body).length - ctx.tagLen = front.length + (body.length - ctx.tagLen) := by
    rw [List.length_append]
    omega
  have payload : (b.take ((front ++ body).length - ctx.tagLen)).drop (front.length + FirstByte.pnLength bits) =
      (body.take (body.length - ctx.tagLen)).drop (FirstByte.pnLength bits) := by
    rw [untagged, split, List.append_assoc, List.take_length_add_append, List.drop_length_add_append,
      List.take_append_of_le_length (Nat.sub_le _ _)]
  refine ⟨rfl, rfl, rfl, ?_, ?_, ?_, ?_, ?_, ?_⟩
  · rw [removeProtection_zero, split, head]
    rfl
  · rw [removeProtection_zero]
    rfl
  · rw [removeProtection_zero]
    rfl
  · rw [split, List.append_assoc, List.drop_left]
    exact spelled.eval_number rest
  · rw [List.length_append]
    omega
  · rw [payload]
    exact spelled.decodeAll_payload

theorem peek_of_long {t : PacketType} {token : Option Bytes} {field bytes : Bytes} {q : Packet.Long F}
    (delimited : t.isDelimited = true) (tokened : TokenField t token field)
    (spelled : q.Spelled t ctx decode field bytes) {rest : Bytes}
    (fits : (bytes ++ rest).length + PacketNumber.maxLength < Word.size) {p : Packet F} (typed : p.type = t)
    (version : p.version = some q.version) (dcid : p.dcid = q.dcid) (scid : p.scid = some q.scid)
    (token_eq : p.token = token) (number : p.packetNumber = some q.packetNumber)
    (frames : p.frames = q.frames) :
    ∃ info, peek (bytes ++ rest) ctx.dcidLen = .ok info ∧
      Describes ctx decode (bytes ++ rest) bytes.length p info := by
  obtain ⟨first, length, body, announces, known, encodes, spelled, rfl⟩ := spelled
  obtain ⟨form, fixed, bits, -⟩ := (FirstByte.announces_delimited_iff delimited first).mp announces
  subst bits
  generalize front_eq :
    Packet.LongHeader.encode ⟨first, Version.v1.toWire, q.dcid, q.scid⟩ ++ field ++ length = front at *
  simp only [List.length_append] at fits
  have enough : body.length ≤ (body ++ rest).length := by
    rw [List.length_append]
    exact Nat.le_add_right _ _
  have clear : Clear ctx.dcidLen front (body ++ rest).length
      (beforeNumber first (some .v1) q.dcid (some q.scid) token front.length body.length) :=
    .long form fixed delimited tokened encodes enough (by omega) (by omega) front_eq.symm
  refine ⟨_, peek_eq_ok_iff.mpr (.inl ⟨front, body ++ rest, List.append_assoc _ _ _, clear⟩), ?_⟩
  refine ⟨typed.symm, ?_, dcid.symm, scid.symm, token_eq.symm, ?_, ?_, ?_⟩
  · rw [version, known]
    rfl
  · rw [List.length_append]
    rfl
  · intro pn numbered
    rw [number] at numbered
    cases numbered
    rw [frames]
    exact ⟨front.length, FirstByte.pnLength first, uncovers_beforeNumber front_eq.symm spelled rfl⟩
  · intro unnumbered
    rw [number] at unnumbered
    cases unnumbered

theorem peek_of_short {b : Bytes} {p : Packet.Short F} (spelled : p.Spelled ctx decode b)
    (fits : b.length + PacketNumber.maxLength < Word.size) :
    ∃ info, peek b ctx.dcidLen = .ok info ∧ Describes ctx decode b b.length (.oneRtt p) info := by
  obtain ⟨first, body, announces, -, -, width, spelled, rfl⟩ := spelled
  obtain ⟨form, fixed, -⟩ := (FirstByte.announces_oneRtt_iff first).mp announces
  rw [List.length_append] at fits
  have clear : Clear ctx.dcidLen (first :: p.dcid.bytes) body.length
      (beforeNumber first none p.dcid none none (first :: p.dcid.bytes).length body.length) :=
    .short form fixed width (by omega) rfl
  refine ⟨_, peek_eq_ok_iff.mpr (.inl ⟨_, body, rfl, clear⟩), rfl, rfl, rfl, rfl, rfl, ?_, ?_, nofun⟩
  · rw [List.length_append]
    rfl
  · rintro _ ⟨⟩
    exact ⟨_, _, uncovers_beforeNumber rfl spelled (List.append_nil _).symm⟩

theorem peek_of_bare {b : Bytes} {p : Packet F} {info : ProtectedHeader} (bare : Bare b info)
    (typed : info.type = p.type) (version : info.version = p.version) (dcid : info.dcid = p.dcid)
    (scid : info.scid = p.scid) (token : info.token = p.token) (unnumbered : p.packetNumber = none) :
    peek b ctx.dcidLen = .ok info ∧ Describes ctx decode b b.length p info := by
  refine ⟨peek_eq_ok_iff.mpr (.inr bare), typed, version, dcid, scid, token, ?_, ?_, ?_⟩
  · cases bare <;> rfl
  · intro pn numbered
    rw [unnumbered] at numbered
    cases numbered
  · intro _
    cases bare <;> exact ⟨rfl, rfl, rfl, rfl⟩

theorem peek_of_run_read {b rest : Bytes} {p : Packet F} (success : (Packet.read ctx decode).run b = .ok p rest)
    (fits : b.length + PacketNumber.maxLength < Word.size) :
    ∃ info, peek b ctx.dcidLen = .ok info ∧ Describes ctx decode b (b.length - rest.length) p info := by
  obtain ⟨bytes, spelled, rfl, last⟩ := Packet.spelled_of_run_read success
  have taken : (bytes ++ rest).length - rest.length = bytes.length := by
    rw [List.length_append, Nat.add_sub_cancel]
  rw [taken]
  cases p with
  | initial p =>
    obtain ⟨count, counted, long⟩ := spelled
    have tokened : TokenField .initial (some p.token) (count ++ p.token) :=
      ⟨iff_of_true rfl rfl, count, counted, rfl⟩
    exact peek_of_long rfl tokened long fits rfl rfl rfl rfl rfl rfl rfl
  | zeroRtt p =>
    have untokened : TokenField .zeroRtt none [] := ⟨by decide, rfl⟩
    exact peek_of_long rfl untokened spelled fits rfl rfl rfl rfl rfl rfl rfl
  | handshake p =>
    have untokened : TokenField .handshake none [] := ⟨by decide, rfl⟩
    exact peek_of_long rfl untokened spelled fits rfl rfl rfl rfl rfl rfl rfl
  | retry p =>
    obtain rfl := last rfl
    obtain ⟨first, announces, known, spelled⟩ := spelled
    obtain ⟨form, fixed, typed⟩ := (FirstByte.announces_retry_iff first).mp announces
    rw [List.append_nil] at fits ⊢
    exact ⟨_, peek_of_bare (.retry form fixed typed p.tag.length_eq spelled) typed (congrArg some known.symm)
      rfl rfl rfl rfl⟩
  | versionNegotiation p =>
    obtain rfl := last rfl
    obtain ⟨first, announces, -, spelled⟩ := spelled
    have form := (FirstByte.announces_versionNegotiation_iff first).mp announces
    rw [List.append_nil] at fits ⊢
    exact ⟨_, peek_of_bare (.versionNegotiation form spelled) rfl rfl rfl rfl rfl rfl⟩
  | oneRtt p =>
    obtain rfl := last rfl
    rw [List.append_nil] at fits ⊢
    exact peek_of_short spelled fits

theorem peek_of_run_read_initial :
    let ctx : ParseContext := { dcidLen := 2, tagLen := 1 }
    let p : Packet.Initial RawPayload :=
      { version := .v1, dcid := ⟨[7, 8], by decide⟩, scid := ⟨[], by decide⟩, packetNumber := 5,
        frames := [⟨[6]⟩], token := [9] }
    let b : Bytes := [0xc0, 0, 0, 0, 1, 2, 7, 8, 0, 1, 9, 3, 5, 6, 0, 0x40]
    (Packet.read ctx RawPayload.decoder).run b = .ok (.initial p) [0x40] ∧
      b.length + PacketNumber.maxLength < Word.size ∧
      ∃ info, peek b ctx.dcidLen = .ok info ∧ Describes ctx RawPayload.decoder b 15 (.initial p) info := by
  intro ctx p b
  have body : Packet.Body.Spelled ctx RawPayload.decoder 0xc0 5 [⟨[6]⟩] [5, 6, 0] :=
    ⟨[5], [6], [0], rfl, rfl, rfl, rfl, RawPayload.decodeAll_decoder (by decide)⟩
  have spelled : Packet.Spelled ctx RawPayload.decoder (.initial p) (b.take 15) :=
    ⟨[1], ⟨1, by decide, by decide, rfl⟩, 0xc0, [3], [5, 6, 0], by decide, rfl,
      ⟨1, by decide, by decide, rfl⟩, body, by decide⟩
  have success : (Packet.read ctx RawPayload.decoder).run b = .ok (.initial p) [0x40] :=
    Packet.run_read_of_spelled spelled nofun nofun
  exact ⟨success, by decide, peek_of_run_read success (by decide)⟩

end ProtectedHeader

end QuicWire

import QuicWire.Proofs.Building
import QuicWire.Proofs.Lengths
import QuicWire.Proofs.RoundTrip

set_option autoImplicit false

namespace QuicWire

namespace VarInt

def Minimal (v : Nat) (code : Bytes) : Prop :=
  Encodes v code ∧ ∀ other, Encodes v other → code.length ≤ other.length

theorem size_le_of_encodes {v n : Nat} {code : Bytes} (h : Encodes v code) (sized : size v = .ok n) :
    n ≤ code.length ∧ (n = code.length → code = shortest v) := by
  simp only [shortest, sized]
  obtain ⟨m, member, bound, rfl⟩ := h
  rw [length_beBytes]
  constructor
  · simp only [List.mem_cons, List.not_mem_nil, or_false] at member
    rcases member with rfl | rfl | rfl | rfl <;> grind [size]
  · rintro rfl
    rfl

theorem minimal_iff {v : Nat} {code : Bytes} : Minimal v code ↔ v < limit ∧ code = shortest v := by
  constructor
  · intro minimal
    obtain ⟨encodes, least⟩ := minimal
    obtain ⟨n, sized⟩ := size_eq_ok_of_lt encodes.lt
    obtain ⟨low, same⟩ := size_le_of_encodes encodes sized
    have high := least _ (encodes_shortest sized)
    rw [length_shortest sized] at high
    exact ⟨encodes.lt, same (Nat.le_antisymm low high)⟩
  · intro given
    obtain ⟨inside, rfl⟩ := given
    obtain ⟨n, sized⟩ := size_eq_ok_of_lt inside
    refine ⟨encodes_shortest sized, ?_⟩
    intro other encodes
    rw [length_shortest sized]
    exact (size_le_of_encodes encodes sized).1

end VarInt

namespace FrameDecoder

variable {F : Type} [Frame F]

/-- The frames of a payload are written as that payload, and counted as its length. -/
def Restores (decode : FrameDecoder F) : Prop :=
  ∀ payload frames out, decode.decodeAll payload = .ok frames →
    (Frame.writeAll frames).run out = .ok payload.length (out ++ payload)

theorem Restores.flatMap_encode {decode : FrameDecoder F} (restores : Restores decode) {payload : Bytes}
    {frames : List F} (decoded : decode.decodeAll payload = .ok frames) :
    frames.flatMap Frame.encode = payload ∧ Frame.totalLen frames = payload.length := by
  have wrote := restores payload frames [] decoded
  rw [Frame.run_writeAll] at wrote
  simp only [List.nil_append, EStateM.Result.ok.injEq] at wrote
  exact wrote.symm

theorem restores_of_lawful [LawfulFrame F] {decode : FrameDecoder F}
    (restored : ∀ payload frames, decode.decodeAll payload = .ok frames → frames.flatMap Frame.encode = payload) :
    Restores decode := by
  intro payload frames out decoded
  rw [Frame.run_writeAll, ← Frame.length_flatMap_encode, restored payload frames decoded]

end FrameDecoder

theorem RawPayload.restores_decoder : FrameDecoder.Restores RawPayload.decoder := by
  apply FrameDecoder.restores_of_lawful
  intro payload frames decoded
  have some : payload ≠ [] := by
    rintro rfl
    cases decoded
  rw [decodeAll_decoder some] at decoded
  cases decoded
  exact List.append_nil payload

namespace Packet

variable {F : Type}

namespace Long

def TightToken : Option Bytes → Bytes → Prop
  | none, field => field = []
  | some token, field => ∃ count, VarInt.Minimal token.length count ∧ field = count ++ token

def Tight (p : Long F) (token : Option Bytes) (bytes : Bytes) : Prop :=
  ∃ first field length body, TightToken token field ∧ VarInt.Minimal body.length length ∧
    bytes = LongHeader.encode ⟨first, Version.v1.toWire, p.dcid, p.scid⟩ ++ field ++ length ++ body

theorem Tokened.eq_of_append_eq {token : Option Bytes} {field other front back : Bytes}
    (h : Tokened token field) (h' : Tokened token other) (same : field ++ front = other ++ back) :
    field = other ∧ front = back := by
  cases token with
  | none =>
    cases h
    cases h'
    exact ⟨rfl, same⟩
  | some token =>
    obtain ⟨count, encodes, rfl⟩ := h
    obtain ⟨count', encodes', rfl⟩ := h'
    rw [List.append_assoc, List.append_assoc] at same
    obtain ⟨rfl, behind⟩ := encodes.eq_of_append_eq encodes' same
    exact ⟨rfl, List.append_cancel_left behind⟩

theorem Tokened.tokenLen_eq_ok {token : Option Bytes} {field : Bytes} (h : Tokened token field) :
    ∃ n, tokenLen token = .ok n := by
  cases token with
  | none => exact ⟨0, rfl⟩
  | some token =>
    obtain ⟨count, encodes, -⟩ := h
    obtain ⟨n, sized⟩ := VarInt.size_eq_ok_of_lt encodes.lt
    exact ⟨n + token.length, by simp [tokenLen, sized, bind, Except.bind, pure, Except.pure]⟩

theorem TightToken.tokened {token : Option Bytes} {field : Bytes} (h : TightToken token field) :
    Tokened token field := by
  cases token with
  | none => exact h
  | some token =>
    obtain ⟨count, minimal, rfl⟩ := h
    exact ⟨count, minimal.1, rfl⟩

theorem TightToken.eq_tokenWire {token : Option Bytes} {field : Bytes} (h : TightToken token field) :
    field = tokenWire token := by
  cases token with
  | none => exact h
  | some token =>
    obtain ⟨count, minimal, rfl⟩ := h
    rw [tokenWire, (VarInt.minimal_iff.mp minimal).2]

theorem tightToken_tokenWire {token : Option Bytes} {n : Nat} (counted : tokenLen token = .ok n) :
    TightToken token (tokenWire token) := by
  cases token with
  | none => rfl
  | some token =>
    obtain ⟨k, sized⟩ := size_of_tokenLen counted
    exact ⟨_, VarInt.minimal_iff.mpr ⟨VarInt.lt_limit_of_size sized, rfl⟩, rfl⟩

end Long

/-- None of the freedoms of a type is used: the counts are short, and the unused bits are those of a writer. -/
def Tight : Packet F → Bytes → Prop
  | initial p, bytes => p.toLong.Tight (some p.token) bytes
  | zeroRtt p, bytes => p.Tight none bytes
  | handshake p, bytes => p.Tight none bytes
  | retry _, bytes => ∃ first ∈ bytes.head?, first &&& 0x0f = 0
  | versionNegotiation _, bytes => bytes.head? = some 0xc0
  | oneRtt _, _ => True

structure Canonical (p : Packet F) (largest : Option Nat) (bytes : Bytes) : Prop where
  number : ∀ pn ∈ p.packetNumber, ∃ first ∈ bytes.head?,
    PacketNumber.encodedLen pn largest = .ok (FirstByte.pnLength first)
  tight : p.Tight bytes

variable {ctx : ParseContext} {decode : FrameDecoder F}

theorem Body.Spelled.reference_lt {first : UInt8} {pn : Nat} {frames : List F} {body : Bytes}
    (spelled : Body.Spelled ctx decode first pn frames body) :
    ∀ known ∈ ctx.largest, known < PacketNumber.limit := by
  obtain ⟨number, payload, tag, -, -, -, rebuilt, -⟩ := spelled
  exact PacketNumber.checkReference_eq_ok_iff.mp (PacketNumber.checks_of_rebuild rebuilt).2

theorem Spelled.exists_body {p : Packet F} {bytes : Bytes} (spelled : p.Spelled ctx decode bytes)
    (numbered : p.type.isNumbered = true) :
    ∃ first pn front body, p.packetNumber = some pn ∧ bytes = front ++ body ∧
      Body.Spelled ctx decode first pn p.frames body := by
  cases p with
  | initial p =>
    obtain ⟨_, -, first, _, body, -, -, -, spelled, rfl⟩ := spelled
    exact ⟨first, _, _, body, rfl, rfl, spelled⟩
  | zeroRtt p | handshake p =>
    obtain ⟨first, _, body, -, -, -, spelled, rfl⟩ := spelled
    exact ⟨first, _, _, body, rfl, rfl, spelled⟩
  | oneRtt p =>
    obtain ⟨first, body, -, -, -, -, spelled, rfl⟩ := spelled
    exact ⟨first, _, _, body, rfl, rfl, spelled⟩
  | retry | versionNegotiation => cases numbered

theorem Spelled.tagFor_le {p : Packet F} {bytes : Bytes} (spelled : p.Spelled ctx decode bytes) :
    DatagramBuilder.tagFor p.type ctx.tagLen ≤ bytes.length := by
  unfold DatagramBuilder.tagFor
  split
  next numbered =>
    obtain ⟨first, pn, front, body, -, rfl, inner⟩ := spelled.exists_body numbered
    have room := inner.room_for_tag
    rw [List.length_append]
    omega
  next => exact Nat.zero_le _

theorem Spelled.suits {p : Packet F} {bytes : Bytes} (spelled : p.Spelled ctx decode bytes) :
    p.Suits ctx.largest ctx.tagLen ctx := by
  refine ⟨rfl, ?_, ?_⟩
  · intro short
    cases p <;> cases short
    obtain ⟨_, _, -, -, -, width, -⟩ := spelled
    exact width.symm
  · intro pn numbered length encoded
    obtain ⟨_, _, _, _, -, -, body⟩ := spelled.exists_body (isNumbered_of_packetNumber numbered)
    exact PacketNumber.inReach_self encoded body.reference_lt

variable [Frame F]

theorem Body.Spelled.eq_written (restores : decode.Restores) {first : UInt8} {pn : Nat} {frames : List F}
    {body : Bytes} (spelled : Body.Spelled ctx decode first pn frames body) :
    ∃ tag, tag.length = ctx.tagLen ∧
      body = beBytes (FirstByte.pnLength first) pn ++ frames.flatMap Frame.encode ++ tag := by
  obtain ⟨number, payload, tag, rfl, width, tagged, rebuilt, decoded⟩ := spelled
  rw [(restores.flatMap_encode decoded).1, ← width, ← PacketNumber.eq_beBytes_of_rebuild rebuilt]
  exact ⟨tag, tagged, rfl⟩

theorem Body.Spelled.restored (restores : decode.Restores) {first : UInt8} {pn : Nat} {frames : List F}
    {body : Bytes} (spelled : Body.Spelled ctx decode first pn frames body) :
    decode.decodeAll (frames.flatMap Frame.encode) = .ok frames ∧
      (frames.flatMap Frame.encode).length = Frame.totalLen frames := by
  obtain ⟨number, payload, tag, -, -, -, -, decoded⟩ := spelled
  obtain ⟨written, counted⟩ := restores.flatMap_encode decoded
  rw [written, counted]
  exact ⟨decoded, rfl⟩

theorem Body.Spelled.length_eq (restores : decode.Restores) {first : UInt8} {pn : Nat} {frames : List F}
    {body : Bytes} (spelled : Body.Spelled ctx decode first pn frames body) :
    body.length = FirstByte.pnLength first + Frame.totalLen frames + ctx.tagLen := by
  have counted := (spelled.restored restores).2
  obtain ⟨tag, tagged, rfl⟩ := spelled.eq_written restores
  rw [List.length_append, List.length_append, length_beBytes, counted, tagged]

theorem Spelled.decodedBy (restores : decode.Restores) {p : Packet F} {bytes : Bytes}
    (spelled : p.Spelled ctx decode bytes) : p.DecodedBy decode := by
  intro numbered
  obtain ⟨_, _, _, _, -, -, body⟩ := spelled.exists_body numbered
  exact (body.restored restores).1

theorem Spelled.measured (restores : decode.Restores) {p : Packet F} {bytes : Bytes}
    (spelled : p.Spelled ctx decode bytes) : p.payloadWire.1.length = p.payloadWire.2 := by
  have counted (numbered : p.type.isNumbered = true) :
      (p.frames.flatMap Frame.encode).length = Frame.totalLen p.frames := by
    obtain ⟨_, _, _, _, -, -, body⟩ := spelled.exists_body numbered
    exact (body.restored restores).2
  cases p with
  | initial | zeroRtt | handshake | oneRtt => exact counted rfl
  | retry p => exact p.tag.length_eq
  | versionNegotiation p => exact VersionNegotiation.length_words p.offered

section Canonical

theorem Long.headerWire_of_tight (restores : decode.Restores) {p : Long F} {t : PacketType}
    (delimited : t.isDelimited = true) {token : Option Bytes} {field bytes : Bytes} (tokened : Tokened token field)
    (spelled : p.Spelled t ctx decode field bytes) (tight : p.Tight token bytes)
    (number : ∃ first ∈ bytes.head?,
      PacketNumber.encodedLen p.packetNumber ctx.largest = .ok (FirstByte.pnLength first)) :
    ∃ header n tag, p.headerWire t token ctx.largest ctx.tagLen = .ok (header, n) ∧ tag.length = ctx.tagLen ∧
      bytes = header ++ p.frames.flatMap Frame.encode ++ tag := by
  obtain ⟨first, length, body, announces, version, encodes, inner, rfl⟩ := spelled
  obtain ⟨_, head, number⟩ := number
  cases head
  obtain ⟨first', field', length', body', tokened', minimal, same⟩ := tight
  -- The identifiers take as many bytes either way, and behind them every part says where it ends.
  have widths : (LongHeader.encode ⟨first, Version.v1.toWire, p.dcid, p.scid⟩).length =
      (LongHeader.encode ⟨first', Version.v1.toWire, p.dcid, p.scid⟩).length := by
    rw [LongHeader.length_encode, LongHeader.length_encode]
  simp only [List.append_assoc] at same
  obtain ⟨rfl, behind⟩ := tokened.eq_of_append_eq tokened'.tokened (List.append_inj same widths).2
  obtain ⟨rfl, rfl⟩ := encodes.eq_of_append_eq minimal.1 behind
  have counted := inner.length_eq restores
  obtain ⟨inside, shortest⟩ := VarInt.minimal_iff.mp minimal
  obtain ⟨between, measured⟩ := tokened.tokenLen_eq_ok
  obtain ⟨k, sized⟩ := VarInt.size_eq_ok_of_lt inside
  obtain ⟨tag, tagged, written⟩ := inner.eq_written restores
  rw [counted] at sized shortest
  refine ⟨_, _, tag, (headerWire_eq_ok_iff delimited).mpr
    ⟨version, first, announces, number, between, k, measured, sized, rfl, rfl⟩, tagged, ?_⟩
  rw [shortest, tokened'.eq_tokenWire, written]
  simp only [List.append_assoc, payloadLen]

theorem wire_of_canonical (restores : decode.Restores) {p : Packet F} {bytes : Bytes}
    (spelled : p.Spelled ctx decode bytes) (canonical : p.Canonical ctx.largest bytes) :
    ∃ written n tag, p.wire ctx.largest ctx.tagLen = .ok (written, n) ∧
      tag.length = DatagramBuilder.tagFor p.type ctx.tagLen ∧ bytes = written ++ tag := by
  obtain ⟨number, tight⟩ := canonical
  have complete {header tag : Bytes} {n : Nat} (headed : p.headerWire ctx.largest ctx.tagLen = .ok (header, n))
      (tagged : tag.length = DatagramBuilder.tagFor p.type ctx.tagLen)
      (split : bytes = header ++ p.payloadWire.1 ++ tag) :
      ∃ written n tag, p.wire ctx.largest ctx.tagLen = .ok (written, n) ∧
        tag.length = DatagramBuilder.tagFor p.type ctx.tagLen ∧ bytes = written ++ tag :=
    ⟨_, _, tag, wire_eq_ok_iff.mpr ⟨header, n, headed, rfl, rfl⟩, tagged, split⟩
  cases p with
  | initial p =>
    obtain ⟨count, encodes, long⟩ := spelled
    have tokened : Long.Tokened (some p.token) (count ++ p.token) := ⟨count, encodes, rfl⟩
    obtain ⟨header, n, tag, headed, tagged, split⟩ :=
      Long.headerWire_of_tight restores rfl tokened long tight (number _ rfl)
    exact complete headed tagged split
  | zeroRtt p | handshake p =>
    have tokened : Long.Tokened none [] := rfl
    obtain ⟨header, n, tag, headed, tagged, split⟩ :=
      Long.headerWire_of_tight restores rfl tokened spelled tight (number _ rfl)
    exact complete headed tagged split
  | retry p =>
    obtain ⟨first, announces, version, rfl⟩ := spelled
    obtain ⟨_, head, unused⟩ := tight
    cases head
    obtain rfl := FirstByte.eq_of_announces_retry announces unused
    exact complete (headerWire_retry_eq_ok_iff.mpr ⟨version, rfl, rfl⟩) List.length_nil (List.append_nil _).symm
  | versionNegotiation p =>
    obtain ⟨first, announces, some, rfl⟩ := spelled
    cases tight
    exact complete rfl List.length_nil (List.append_nil _).symm
  | oneRtt p =>
    obtain ⟨first, body, announces, spin, keyPhase, width, inner, rfl⟩ := spelled
    obtain ⟨_, head, number⟩ := number _ rfl
    cases head
    obtain ⟨tag, tagged, written⟩ := inner.eq_written restores
    have headed : (oneRtt p).headerWire ctx.largest ctx.tagLen = .ok (_, _) :=
      headerWire_oneRtt_eq_ok_iff.mpr ⟨first, announces, spin, keyPhase, number, rfl, rfl⟩
    refine complete headed tagged ?_
    rw [written]
    simp [payloadWire]

theorem Long.tight_of_headerWire {p : Long F} {t : PacketType} (delimited : t.isDelimited = true)
    {token : Option Bytes} {largest : Option Nat} {tagLen n : Nat} {header tag : Bytes}
    (headed : p.headerWire t token largest tagLen = .ok (header, n))
    (measured : (p.frames.flatMap Frame.encode).length = p.payloadLen) (tagged : tag.length = tagLen) :
    p.Tight token (header ++ p.frames.flatMap Frame.encode ++ tag) ∧
      ∃ first ∈ (header ++ p.frames.flatMap Frame.encode ++ tag).head?,
        PacketNumber.encodedLen p.packetNumber largest = .ok (FirstByte.pnLength first) := by
  obtain ⟨-, first, -, number, between, k, counted, sized, rfl, -⟩ := (headerWire_eq_ok_iff delimited).mp headed
  let body := beBytes (FirstByte.pnLength first) p.packetNumber ++ p.frames.flatMap Frame.encode ++ tag
  have length : body.length = FirstByte.pnLength first + p.payloadLen + tagLen := by
    simp only [body, List.length_append, length_beBytes, measured, tagged]
  have minimal : VarInt.Minimal body.length
      (VarInt.shortest (FirstByte.pnLength first + p.payloadLen + tagLen)) := by
    rw [length, VarInt.minimal_iff]
    exact ⟨VarInt.lt_limit_of_size sized, rfl⟩
  refine ⟨⟨first, _, _, body, tightToken_tokenWire counted, minimal, ?_⟩, first, rfl, number⟩
  simp only [body, List.append_assoc]

theorem canonical_of_wire {p : Packet F} {largest : Option Nat} {tagLen n : Nat} {written tag : Bytes}
    (wrote : p.wire largest tagLen = .ok (written, n)) (measured : p.payloadWire.1.length = p.payloadWire.2)
    (tagged : tag.length = DatagramBuilder.tagFor p.type tagLen) : p.Canonical largest (written ++ tag) := by
  obtain ⟨header, headerLen, headed, rfl, -⟩ := wire_eq_ok_iff.mp wrote
  cases p with
  | initial p | zeroRtt p | handshake p =>
    obtain ⟨tight, number⟩ := Long.tight_of_headerWire rfl headed measured tagged
    refine ⟨?_, tight⟩
    rintro _ ⟨⟩
    exact number
  | retry p =>
    obtain ⟨-, rfl, -⟩ := headerWire_retry_eq_ok_iff.mp headed
    exact ⟨nofun, 0xf0, rfl, by decide⟩
  | versionNegotiation p =>
    cases headed
    exact ⟨nofun, rfl⟩
  | oneRtt p =>
    obtain ⟨first, -, -, -, number, rfl, -⟩ := headerWire_oneRtt_eq_ok_iff.mp headed
    refine ⟨?_, trivial⟩
    rintro _ ⟨⟩
    exact ⟨first, rfl, number⟩

theorem written_eq_take_iff (restores : decode.Restores) {p : Packet F} {bytes written : Bytes} {n : Nat}
    (spelled : p.Spelled ctx decode bytes) (wrote : p.wire ctx.largest ctx.tagLen = .ok (written, n)) :
    written = bytes.take (bytes.length - DatagramBuilder.tagFor p.type ctx.tagLen) ↔
      p.Canonical ctx.largest bytes := by
  constructor
  · intro same
    have tagged : (bytes.drop (bytes.length - DatagramBuilder.tagFor p.type ctx.tagLen)).length =
        DatagramBuilder.tagFor p.type ctx.tagLen := by
      rw [List.length_drop, Nat.sub_sub_self spelled.tagFor_le]
    have canonical := canonical_of_wire wrote (spelled.measured restores) tagged
    rwa [same, List.take_append_drop] at canonical
  · intro canonical
    obtain ⟨_, _, tag, again, tagged, rfl⟩ := wire_of_canonical restores spelled canonical
    cases wrote.symm.trans again
    rw [List.length_append, tagged, Nat.add_sub_cancel, List.take_left]

end Canonical

section Writable

theorem Long.headerWire_of_number {p : Long F} {t : PacketType} (delimited : t.isDelimited = true)
    (version : p.version = .v1) {token : Option Bytes} {between : Nat} (measured : tokenLen token = .ok between)
    {largest : Option Nat} {tagLen k : Nat} (number : PacketNumber.encodedLen p.packetNumber largest = .ok k)
    (inside : k + p.payloadLen + tagLen < VarInt.limit) :
    ∃ header n, p.headerWire t token largest tagLen = .ok (header, n) := by
  obtain ⟨low, high, -⟩ := PacketNumber.encodedLen_bounds number
  obtain ⟨bits, typed⟩ := PacketType.exists_longBits delimited
  obtain ⟨announces, announced⟩ := FirstByte.written_long delimited typed low high
  obtain ⟨j, sized⟩ := VarInt.size_eq_ok_of_lt inside
  rw [← announced] at number sized
  exact ⟨_, _, (headerWire_eq_ok_iff delimited).mpr
    ⟨version, _, announces, number, between, j, measured, sized, rfl, rfl⟩⟩

theorem Long.headerWire_of_spelled (restores : decode.Restores) {p : Long F} {t : PacketType}
    (delimited : t.isDelimited = true) {token : Option Bytes} {field bytes : Bytes} (tokened : Tokened token field)
    (spelled : p.Spelled t ctx decode field bytes) (short : bytes.length < 2 ^ 61) {k : Nat}
    (number : PacketNumber.encodedLen p.packetNumber ctx.largest = .ok k) :
    ∃ header n, p.headerWire t token ctx.largest ctx.tagLen = .ok (header, n) := by
  obtain ⟨first, length, body, -, version, -, inner, rfl⟩ := spelled
  obtain ⟨between, measured⟩ := tokened.tokenLen_eq_ok
  apply headerWire_of_number delimited version measured number
  -- Another length of the number adds at most three bytes to what the Length counts.
  have counted : body.length = FirstByte.pnLength first + p.payloadLen + ctx.tagLen := inner.length_eq restores
  have longest : k ≤ PacketNumber.maxLength := (PacketNumber.encodedLen_bounds number).2.1
  have four : PacketNumber.maxLength = 4 := rfl
  have limit_eq : VarInt.limit = 2 ^ 62 := rfl
  simp only [List.length_append] at short
  omega

theorem wire_of_number (restores : decode.Restores) {p : Packet F} {bytes : Bytes}
    (spelled : p.Spelled ctx decode bytes) (short : bytes.length < 2 ^ 61)
    (number : ∀ pn ∈ p.packetNumber, ∃ k, PacketNumber.encodedLen pn ctx.largest = .ok k) :
    ∃ written n, p.wire ctx.largest ctx.tagLen = .ok (written, n) := by
  suffices headed : ∃ header n, p.headerWire ctx.largest ctx.tagLen = .ok (header, n) by
    obtain ⟨header, n, headed⟩ := headed
    exact ⟨_, _, wire_eq_ok_iff.mpr ⟨header, n, headed, rfl, rfl⟩⟩
  cases p with
  | initial p =>
    obtain ⟨count, encodes, long⟩ := spelled
    obtain ⟨k, number⟩ := number _ rfl
    have tokened : Long.Tokened (some p.token) (count ++ p.token) := ⟨count, encodes, rfl⟩
    exact Long.headerWire_of_spelled restores rfl tokened long short number
  | zeroRtt p | handshake p =>
    obtain ⟨k, number⟩ := number _ rfl
    have tokened : Long.Tokened none [] := rfl
    exact Long.headerWire_of_spelled restores rfl tokened spelled short number
  | retry p =>
    obtain ⟨_, -, version, -⟩ := spelled
    exact ⟨_, _, headerWire_retry_eq_ok_iff.mpr ⟨version, rfl, rfl⟩⟩
  | versionNegotiation p => exact ⟨_, _, rfl⟩
  | oneRtt p =>
    obtain ⟨k, number⟩ := number _ rfl
    exact ⟨_, _, by simp only [headerWire, number]; rfl⟩

theorem number_of_wire {p : Packet F} {largest : Option Nat} {tagLen n : Nat} {written : Bytes}
    (wrote : p.wire largest tagLen = .ok (written, n)) :
    ∀ pn ∈ p.packetNumber, ∃ k, PacketNumber.encodedLen pn largest = .ok k := by
  intro pn numbered
  obtain ⟨header, headerLen, headed, -, -⟩ := wire_eq_ok_iff.mp wrote
  obtain ⟨-, k, number, -⟩ := length_of_headerWire headed
  rw [pnLen, Option.mem_def.mp numbered] at number
  exact ⟨k, number⟩

end Writable

theorem run_read_of_wire (restores : decode.Restores) {p : Packet F} {bytes : Bytes}
    (spelled : p.Spelled ctx decode bytes) (short : bytes.length < 2 ^ 61) {written tag : Bytes} {n : Nat}
    (wrote : p.wire ctx.largest ctx.tagLen = .ok (written, n))
    (tagged : tag.length = DatagramBuilder.tagFor p.type ctx.tagLen) :
    (read ctx decode).run (written ++ tag) = .ok p [] := by
  have again : p.Spelled ctx decode (written ++ tag) :=
    spelled_of_measured_wire wrote (spelled.measured restores) spelled.suits (spelled.decodedBy restores)
      spelled.offers tagged
  have inside : p.type = .oneRtt →
      ∀ first ∈ (written ++ tag).head?, FirstByte.pnLength first + ctx.tagLen < Word.size := by
    intro oneRtt first _
    have room : DatagramBuilder.tagFor p.type ctx.tagLen ≤ bytes.length := spelled.tagFor_le
    have counted : DatagramBuilder.tagFor .oneRtt ctx.tagLen = ctx.tagLen := rfl
    have longest : FirstByte.pnLength first ≤ 4 := FirstByte.pnLength_le first
    have size : Word.size = 2 ^ 64 := rfl
    rw [oneRtt] at room
    omega
  have success := run_read_of_spelled again (fun _ => rfl) inside
  rwa [List.append_nil] at success

theorem rewrite_of_run_read (restores : decode.Restores) {b rest : Bytes} (short : b.length < 2 ^ 61) {p : Packet F}
    (success : (read ctx decode).run b = .ok p rest) :
    let tagLen := DatagramBuilder.tagFor p.type ctx.tagLen
    let bytes := b.take (b.length - rest.length)
    (∀ out, (∃ n left, (p.write ctx.largest tagLen).run out = .ok n left) ↔
      ∀ pn ∈ p.packetNumber, ∃ k, PacketNumber.encodedLen pn ctx.largest = .ok k) ∧
    ∀ out n left, (p.write ctx.largest tagLen).run out = .ok n left → ∃ written, left = out ++ written ∧
      (∀ tag, tag.length = tagLen → (read ctx decode).run (written ++ tag) = .ok p []) ∧
      (written = bytes.take (bytes.length - tagLen) ↔ p.Canonical ctx.largest bytes) := by
  intro tagLen bytes
  obtain ⟨taken, spelled, rfl, -⟩ := spelled_of_run_read success
  have whole : bytes = taken := by
    simp only [bytes, List.length_append, Nat.add_sub_cancel, List.take_left]
  rw [whole]
  rw [List.length_append] at short
  have denotes : Writer.Denotes (p.write ctx.largest tagLen) (p.wire ctx.largest ctx.tagLen) := by
    rw [← p.wire_tagFor]
    exact p.denotes_write ctx.largest tagLen
  constructor
  · intro out
    constructor
    · intro wrote
      obtain ⟨n, left, wrote⟩ := wrote
      obtain ⟨written, wire, -⟩ := denotes.run_ok wrote
      exact number_of_wire wire
    · intro number
      obtain ⟨written, n, wire⟩ := wire_of_number restores spelled (by omega) number
      rw [wire] at denotes
      exact ⟨n, _, denotes out⟩
  · intro out n left wrote
    obtain ⟨written, wire, rfl⟩ := denotes.run_ok wrote
    refine ⟨written, rfl, ?_, written_eq_take_iff restores spelled wire⟩
    intro tag tagged
    exact run_read_of_wire restores spelled (by omega) wire tagged

theorem rewrite_of_run_read_roomy :
    let p : Packet RawPayload := .initial
      { version := .v1, dcid := ⟨[7], by decide⟩, scid := ⟨[], by decide⟩, packetNumber := 5,
        frames := [⟨[6, 6]⟩], token := [9] }
    let ctx : ParseContext := { largest := some 4, tagLen := 1 }
    let bytes : Bytes := [0xc1, 0, 0, 0, 1, 1, 7, 0, 0x40, 1, 9, 0x40, 5, 0, 5, 6, 6, 0]
    let written : Bytes := [0xc0, 0, 0, 0, 1, 1, 7, 0, 1, 9, 4, 5, 6, 6]
    RawPayload.decoder.Restores ∧ (bytes ++ [0x40]).length < 2 ^ 61 ∧
      (read ctx RawPayload.decoder).run (bytes ++ [0x40]) = .ok p [0x40] ∧
      (p.write (some 4) 1).run [] = .ok 14 written ∧
      (read ctx RawPayload.decoder).run (written ++ [0]) = .ok p [] ∧ ¬ p.Canonical (some 4) bytes := by
  intro p ctx bytes written
  have short : (bytes ++ [0x40]).length < 2 ^ 61 := by decide
  have body : Body.Spelled ctx RawPayload.decoder 0xc1 5 [⟨[6, 6]⟩] [0, 5, 6, 6, 0] :=
    ⟨[0, 5], [6, 6], [0], rfl, by decide, rfl, rfl, RawPayload.decodeAll_decoder (by decide)⟩
  have spelled : p.Spelled ctx RawPayload.decoder bytes :=
    ⟨[0x40, 1], ⟨2, by decide, by decide, by decide⟩, 0xc1, [0x40, 5], _, by decide, rfl,
      ⟨2, by decide, by decide, by decide⟩, body, rfl⟩
  have success : (read ctx RawPayload.decoder).run (bytes ++ [0x40]) = .ok p [0x40] :=
    run_read_of_spelled spelled nofun nofun
  have wrote : (p.write (some 4) 1).run [] = .ok 14 written := rfl
  obtain ⟨_, same, again, unchanged_iff⟩ :=
    (rewrite_of_run_read RawPayload.restores_decoder short success).2 [] 14 written wrote
  rw [List.nil_append] at same
  subst same
  refine ⟨RawPayload.restores_decoder, short, success, wrote, again [0] rfl, ?_⟩
  intro canonical
  have unchanged := unchanged_iff.mpr canonical
  revert unchanged
  decide

end Packet

end QuicWire

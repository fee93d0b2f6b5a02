import QuicWire.Proofs.Dispatch
import QuicWire.Proofs.Wire

set_option autoImplicit false

namespace QuicWire

namespace Packet

variable {F : Type}

/-- A receiver that can read what was written with the reference `largest` and for a tag of `tagLen`. -/
structure Suits (p : Packet F) (largest : Option Nat) (tagLen : Nat) (ctx : ParseContext) : Prop where
  tagLen_eq : ctx.tagLen = tagLen
  dcidLen_eq : p.type = .oneRtt → ctx.dcidLen = p.dcid.length
  inReach : ∀ pn ∈ p.packetNumber, ∀ length, PacketNumber.encodedLen pn largest = .ok length →
    PacketNumber.InReach pn length largest ctx.largest

/-- Reading refuses a list without a version, which can be written. -/
def Offers (p : Packet F) : Prop :=
  ∀ q, p = .versionNegotiation q → q.offered ≠ []

theorem Body.spelled_of_written {ctx : ParseContext} {decode : FrameDecoder F} {first : UInt8}
    {pn length : Nat} {largest : Option Nat} {frames : List F} {payload tag : Bytes}
    (number : PacketNumber.encodedLen pn largest = .ok length)
    (reach : PacketNumber.InReach pn length largest ctx.largest)
    (announced : FirstByte.pnLength first = length) (decoded : decode.decodeAll payload = .ok frames)
    (tagged : tag.length = ctx.tagLen) :
    Body.Spelled ctx decode first pn frames (beBytes length pn ++ payload ++ tag) := by
  refine ⟨beBytes length pn, payload, tag, rfl, ?_, tagged, ?_, decoded⟩
  · rw [length_beBytes, announced]
  · rw [beValue_beBytes, length_beBytes, ← PacketNumber.window_eq]
    exact PacketNumber.rebuild_of_inReach number reach

theorem Spelled.fits {ctx : ParseContext} {decode : FrameDecoder F} {p : Packet F} {bytes : Bytes}
    (spelled : p.Spelled ctx decode bytes) (bound : bytes.length < Word.size) (short : p.type = .oneRtt) :
    ∀ first ∈ bytes.head?, FirstByte.pnLength first + ctx.tagLen < Word.size := by
  cases p <;> cases short
  obtain ⟨first, body, -, -, -, -, spelled, rfl⟩ := spelled
  rintro _ ⟨⟩
  refine spelled.fits (Nat.lt_of_le_of_lt ?_ bound)
  simp only [List.length_append, List.length_cons]
  omega

theorem Spelled.offers {ctx : ParseContext} {decode : FrameDecoder F} {p : Packet F} {bytes : Bytes}
    (spelled : p.Spelled ctx decode bytes) : p.Offers := by
  rintro q rfl
  obtain ⟨_, _, some, _⟩ := spelled
  exact some

variable [Frame F]

def DecodedBy (p : Packet F) (decode : FrameDecoder F) : Prop :=
  p.type.isNumbered = true → decode.decodeAll (p.frames.flatMap Frame.encode) = .ok p.frames

theorem Long.spelled_of_headerWire {p : Long F} {t : PacketType}
    (delimited : t.isDelimited = true) {token : Option Bytes} {largest : Option Nat} {tagLen n : Nat}
    {ctx : ParseContext} {decode : FrameDecoder F} {header tag : Bytes}
    (wrote : p.headerWire t token largest tagLen = .ok (header, n))
    (measured : (p.frames.flatMap Frame.encode).length = p.payloadLen)
    (reach : ∀ length, PacketNumber.encodedLen p.packetNumber largest = .ok length →
      PacketNumber.InReach p.packetNumber length largest ctx.largest)
    (decoded : decode.decodeAll (p.frames.flatMap Frame.encode) = .ok p.frames)
    (tagged : tag.length = tagLen) (expected : ctx.tagLen = tagLen) :
    p.Spelled t ctx decode (tokenWire token) (header ++ p.frames.flatMap Frame.encode ++ tag) := by
  obtain ⟨version, first, announces, number, _, k, -, size, rfl, -⟩ :=
    (headerWire_eq_ok_iff delimited).mp wrote
  -- The Length was written before the payload and the tag, from what they were going to take.
  let body := beBytes (FirstByte.pnLength first) p.packetNumber ++ p.frames.flatMap Frame.encode ++ tag
  have counted : body.length = FirstByte.pnLength first + p.payloadLen + tagLen := by
    simp only [body, List.length_append, length_beBytes, measured, tagged]
  refine ⟨first, VarInt.shortest (FirstByte.pnLength first + p.payloadLen + tagLen), body, announces, version, ?_,
    Body.spelled_of_written number (reach _ number) rfl decoded (tagged.trans expected.symm), ?_⟩
  · rw [counted]
    exact VarInt.encodes_shortest size
  · simp only [body, List.append_assoc]

theorem spelled_of_measured_wire {p : Packet F} {largest : Option Nat} {tagLen n : Nat}
    {ctx : ParseContext} {decode : FrameDecoder F} {bytes tag : Bytes}
    (wrote : p.wire largest tagLen = .ok (bytes, n)) (measured : p.payloadWire.1.length = p.payloadWire.2)
    (suits : p.Suits largest tagLen ctx) (decoded : p.DecodedBy decode) (offers : p.Offers)
    (tagged : tag.length = if p.type.isNumbered then tagLen else 0) :
    p.Spelled ctx decode (bytes ++ tag) := by
  obtain ⟨expected, width, reach⟩ := suits
  obtain ⟨header, headerLen, headed, rfl, -⟩ := wire_eq_ok_iff.mp wrote
  cases p with
  | initial p =>
    have long := Long.spelled_of_headerWire rfl headed measured (reach _ rfl) (decoded rfl) tagged expected
    obtain ⟨-, _, -, -, _, _, between, -⟩ := (Long.headerWire_eq_ok_iff rfl).mp headed
    obtain ⟨k, counted⟩ := Long.size_of_tokenLen between
    exact ⟨_, VarInt.encodes_shortest counted, long⟩
  | zeroRtt p => exact Long.spelled_of_headerWire rfl headed measured (reach _ rfl) (decoded rfl) tagged expected
  | handshake p => exact Long.spelled_of_headerWire rfl headed measured (reach _ rfl) (decoded rfl) tagged expected
  | retry p =>
    obtain rfl := List.eq_nil_of_length_eq_zero tagged
    obtain ⟨version, rfl, -⟩ := headerWire_retry_eq_ok_iff.mp headed
    exact ⟨0xf0, by decide, version, List.append_nil _⟩
  | versionNegotiation p =>
    obtain rfl := List.eq_nil_of_length_eq_zero tagged
    cases headed
    exact ⟨_, by decide, offers p rfl, List.append_nil _⟩
  | oneRtt p =>
    obtain ⟨first, announces, spin, keyPhase, number, rfl, -⟩ := headerWire_oneRtt_eq_ok_iff.mp headed
    have body : Body.Spelled ctx decode first p.packetNumber p.frames _ :=
      Body.spelled_of_written number (reach _ rfl _ number) rfl (decoded rfl) (tagged.trans expected.symm)
    exact ⟨first, _, announces, spin, keyPhase, (width rfl).symm, body, by simp [payloadWire, frames]⟩

theorem spelled_of_wire [LawfulFrame F] {p : Packet F} {largest : Option Nat} {tagLen n : Nat}
    {ctx : ParseContext} {decode : FrameDecoder F} {bytes tag : Bytes}
    (wrote : p.wire largest tagLen = .ok (bytes, n)) (suits : p.Suits largest tagLen ctx)
    (decoded : p.DecodedBy decode) (offers : p.Offers)
    (tagged : tag.length = if p.type.isNumbered then tagLen else 0) :
    p.Spelled ctx decode (bytes ++ tag) :=
  spelled_of_measured_wire wrote p.length_payloadWire suits decoded offers tagged

theorem run_write {p : Packet F} {largest : Option Nat} {tagLen n : Nat} {out bytes : Bytes} :
    (p.write largest tagLen).run out = .ok n (out ++ bytes) ↔ p.wire largest tagLen = .ok (bytes, n) := by
  constructor
  · intro wrote
    obtain ⟨_, wire, appended⟩ := (p.denotes_write largest tagLen).run_ok wrote
    rw [List.append_cancel_left appended]
    exact wire
  · intro wire
    have denotes := p.denotes_write largest tagLen
    rw [wire] at denotes
    exact denotes out

theorem read_write_iff_offers [LawfulFrame F] {p : Packet F} {largest : Option Nat} {tagLen n : Nat}
    {ctx : ParseContext} {decode : FrameDecoder F} {out bytes tag rest : Bytes}
    (wrote : (p.write largest tagLen).run out = .ok n (out ++ bytes))
    (tagged : tag.length = if p.type.isNumbered then tagLen else 0)
    (sized : (bytes ++ tag).length < Word.size) (suits : p.Suits largest tagLen ctx)
    (decoded : p.DecodedBy decode) (last : p.type.isDelimited = false → rest = []) :
    (read ctx decode).run (bytes ++ tag ++ rest) = .ok p rest ↔ p.Offers := by
  constructor
  · intro success
    obtain ⟨_, spelled, -⟩ := spelled_of_run_read success
    exact spelled.offers
  · intro offers
    have spelled := spelled_of_wire (run_write.mp wrote) suits decoded offers tagged
    exact run_read_of_spelled spelled last (spelled.fits sized)

theorem read_write_iff_offers_initial :
    let p : Packet RawPayload := .initial
      { version := .v1, dcid := ⟨[1, 2, 3], by decide⟩, scid := ⟨[4], by decide⟩, packetNumber := 300,
        frames := [⟨[6, 0]⟩], token := [9, 9] }
    let ctx : ParseContext := { largest := some 110, tagLen := 2 }
    let bytes : Bytes := [0xc1, 0, 0, 0, 1, 3, 1, 2, 3, 1, 4, 2, 9, 9, 6, 1, 44, 6, 0]
    (p.write (some 100) 2).run [] = .ok 19 bytes ∧ (bytes ++ [7, 7]).length < Word.size ∧
      p.Suits (some 100) 2 ctx ∧ p.DecodedBy RawPayload.decoder ∧
      (read ctx RawPayload.decoder).run (bytes ++ [7, 7] ++ [0x40]) = .ok p [0x40] := by
  intro p ctx bytes
  have wrote : (p.write (some 100) 2).run [] = .ok 19 bytes := rfl
  have sized : (bytes ++ [7, 7]).length < Word.size := by decide
  have suits : p.Suits (some 100) 2 ctx := by
    refine ⟨rfl, nofun, ?_⟩
    rintro _ ⟨⟩ _ ⟨⟩
    exact ⟨by decide, by rintro _ ⟨⟩; decide, by decide⟩
  have decoded : p.DecodedBy RawPayload.decoder := fun _ => RawPayload.decodeAll_decoder (by decide)
  have tagged : ([7, 7] : Bytes).length = if p.type.isNumbered then 2 else 0 := rfl
  exact ⟨wrote, sized, suits, decoded,
    (read_write_iff_offers wrote tagged sized suits decoded nofun).mpr nofun⟩

theorem read_write_without_versions :
    let p : Packet RawPayload := .versionNegotiation
      { dcid := ⟨[1, 2, 3, 4, 5, 6, 7, 8], by decide⟩,
        scid := ⟨[0xf1, 0xf2, 0xf3, 0xf4, 0xf5, 0xf6, 0xf7, 0xf8], by decide⟩, offered := [] }
    let bytes : Bytes := [0xc0, 0, 0, 0, 0, 8, 1, 2, 3, 4, 5, 6, 7, 8,
      8, 0xf1, 0xf2, 0xf3, 0xf4, 0xf5, 0xf6, 0xf7, 0xf8]
    (p.write none 0).run [] = .ok 23 bytes ∧ p.Suits none 0 {} ∧ p.DecodedBy RawPayload.decoder ∧
      (read {} RawPayload.decoder).run bytes = .error (.refused .violation) bytes := by
  intro p bytes
  have suits : p.Suits none 0 {} := ⟨rfl, nofun, nofun⟩
  exact ⟨rfl, suits, nofun, rfl⟩

end Packet

end QuicWire

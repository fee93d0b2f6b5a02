import QuicWire.Datagram.Contexts
import QuicWire.Proofs.Building
import QuicWire.Proofs.RoundTrip

set_option autoImplicit false

namespace QuicWire

namespace Push

variable {F : Type} [Frame F]

theorem spelled_segment [LawfulFrame F] {x : Push F} {room : Nat} (fits : x.Fits room) {ctx : ParseContext}
    {decode : FrameDecoder F} (suits : x.packet.Suits x.largest x.tagLen ctx)
    (decoded : x.packet.DecodedBy decode) (offers : x.packet.Offers) :
    x.packet.Spelled ctx decode x.segment := by
  obtain ⟨⟨bytes, n, written⟩, -⟩ := fits
  have segment : x.segment = bytes ++ x.tag := by simp only [Push.segment, written]
  have tagged : x.tag.length = if x.packet.type.isNumbered then x.tagLen else 0 := List.length_replicate
  rw [Push.wire, Packet.wire_tagFor] at written
  rw [segment]
  exact Packet.spelled_of_wire written suits decoded offers tagged

theorem Fits.room_for_tag {x : Push F} {room : Nat} (fits : x.Fits room) (short : x.packet.type = .oneRtt) :
    x.tagLen + PacketNumber.maxLength ≤ room := by
  obtain ⟨p, largest, tagLen⟩ := x
  obtain ⟨-, n, longest, enough⟩ := fits
  cases p <;> cases short
  cases longest
  dsimp only [Packet.Short.maxEncodedLen, Packet.Short.lenWith] at enough ⊢
  omega

end Push

namespace Splitter

variable {σ F : Type}

structure Visit (σ F : Type) where
  before : Splitter σ
  item : Except Failure (Packet F)
  after : Splitter σ

/-- All calls that answer something, and the splitter from which nothing comes any more. -/
inductive Visits (ask : PacketType → σ → ParseContext × σ) (decode : FrameDecoder F) :
    Splitter σ → List (Visit σ F) → Splitter σ → Prop where
  | done {s : Splitter σ} (ended : s.next ask decode = none) : Visits ask decode s [] s
  | visit {s s' last : Splitter σ} {item : Except Failure (Packet F)} {visits : List (Visit σ F)}
      (next : s.next ask decode = some (item, s')) (rest : Visits ask decode s' visits last) :
      Visits ask decode s (⟨s, item, s'⟩ :: visits) last

def Yields (ask : PacketType → σ → ParseContext × σ) (decode : FrameDecoder F) (s : Splitter σ)
    (items : List (Except Failure (Packet F))) (last : Splitter σ) : Prop :=
  ∃ visits, Visits ask decode s visits last ∧ visits.map Visit.item = items

section Yields

variable {ask : PacketType → σ → ParseContext × σ} {decode : FrameDecoder F} {s s' last : Splitter σ}
  {item : Except Failure (Packet F)} {items : List (Except Failure (Packet F))}

theorem Yields.done (ended : s.next ask decode = none) : Yields ask decode s [] s :=
  ⟨[], .done ended, rfl⟩

theorem Yields.cons (next : s.next ask decode = some (item, s')) (rest : Yields ask decode s' items last) :
    Yields ask decode s (item :: items) last := by
  obtain ⟨visits, run, rfl⟩ := rest
  exact ⟨⟨s, item, s'⟩ :: visits, .visit next run, rfl⟩

end Yields

/-- The same answers, with a record of the types that were asked for. -/
def recording (ask : PacketType → σ → ParseContext × σ) (t : PacketType) :
    List PacketType × σ → ParseContext × List PacketType × σ
  | (asked, contexts) => ((ask t contexts).1, asked ++ [t], (ask t contexts).2)

-- The splitter asks once for each packet that was taken, and what it is told may depend on what it asked before.
def Serves (ask : PacketType → σ → ParseContext × σ) : List (Push F) → σ → Prop
  | [], _ => True
  | x :: xs, contexts =>
    x.packet.Suits x.largest x.tagLen (ask x.packet.type contexts).1 ∧
      Serves ask xs (ask x.packet.type contexts).2

theorem next_of_spelled {ask : PacketType → σ → ParseContext × σ} {decode : FrameDecoder F} {contexts : σ}
    {p : Packet F} {bytes rest : Bytes} (spelled : p.Spelled (ask p.type contexts).1 decode bytes)
    (last : p.type.isDelimited = false → rest = [])
    (fits : p.type = .oneRtt → ∀ first ∈ bytes.head?,
      FirstByte.pnLength first + (ask p.type contexts).1.tagLen < Word.size) :
    next ask decode { datagram := bytes ++ rest, contexts } =
      some (.ok p, { datagram := rest, contexts := (ask p.type contexts).2 }) := by
  have typed := Packet.peekType_of_spelled spelled rest
  have success := Packet.run_read_of_spelled spelled last fits
  have nonempty : (bytes ++ rest).isEmpty = false := by
    generalize bytes ++ rest = b at typed
    cases b with
    | nil => cases typed
    | cons => rfl
  simp [next, nonempty, askFor, typed, success]

variable [Frame F] [LawfulFrame F]

theorem yields_of_built {ask : PacketType → σ → ParseContext × σ} {decode : FrameDecoder F}
    {d last : DatagramBuilder} {taken : List (Push F)} (built : DatagramBuilder.Built d taken last)
    (word : d.maxSize < Word.size) {contexts : σ} (serves : Serves ask taken contexts)
    (decoded : ∀ x ∈ taken, x.packet.DecodedBy decode) (offers : ∀ x ∈ taken, x.packet.Offers)
    (asked : List PacketType) :
    ∃ final, Yields (recording ask) decode
      { datagram := taken.flatMap Push.segment, contexts := (asked, contexts) }
      (taken.map fun x => .ok x.packet)
      { datagram := [], contexts := (asked ++ taken.map fun x => x.packet.type, final) } := by
  induction built generalizing contexts asked with
  | done d =>
    exact ⟨contexts, by simpa using .done rfl⟩
  | @take d _ x xs unsealed fits built ih =>
    obtain ⟨suits, serves⟩ := serves
    rw [List.forall_mem_cons] at decoded offers
    obtain ⟨final, rest⟩ := ih word serves decoded.2 offers.2 (asked ++ [x.packet.type])
    have spelled : x.packet.Spelled (recording ask x.packet.type (asked, contexts)).1 decode x.segment :=
      Push.spelled_segment fits suits decoded.1 offers.1
    have step : next (recording ask) decode
        { datagram := x.segment ++ xs.flatMap Push.segment, contexts := (asked, contexts) } =
      some (.ok x.packet, {
        datagram := xs.flatMap Push.segment
        contexts := (asked ++ [x.packet.type], (ask x.packet.type contexts).2) }) := by
      apply next_of_spelled spelled
      · -- A packet that runs to the end has sealed the builder, and nothing was taken after it.
        intro undelimited
        have closed : (x.addTo d).isSealed = true := by simp [Push.addTo, undelimited]
        rw [built.nil_of_sealed closed]
        rfl
      · -- The builder reserved the longest number and the tag, and what it reserves is inside a word.
        intro short first _
        have room := fits.room_for_tag short
        have tagLen := suits.tagLen_eq
        have longest : FirstByte.pnLength first ≤ PacketNumber.maxLength := FirstByte.pnLength_le first
        have remaining : d.remaining ≤ d.maxSize := Nat.sub_le _ _
        dsimp only [recording]
        omega
    rw [List.append_assoc, List.singleton_append] at rest
    exact ⟨final, .cons step rest⟩

theorem yields_pushAll {maxSize : Nat} (word : maxSize < Word.size) {pushes taken : List (Push F)}
    {d : DatagramBuilder} (built : DatagramBuilder.pushAll { maxSize } pushes = (taken, d))
    {ask : PacketType → σ → ParseContext × σ} {decode : FrameDecoder F} {contexts : σ}
    (serves : Serves ask taken contexts) (decoded : ∀ x ∈ taken, x.packet.DecodedBy decode)
    (offers : ∀ x ∈ taken, x.packet.Offers) :
    ∃ final, Yields (recording ask) decode { datagram := d.bytes, contexts := ([], contexts) }
      (taken.map fun x => .ok x.packet)
      { datagram := [], contexts := (taken.map fun x => x.packet.type, final) } := by
  have run := DatagramBuilder.built_pushAll { maxSize } pushes
  rw [built] at run
  rw [run.bytes_eq]
  exact yields_of_built run word serves decoded offers []

namespace Flight

def dcid : ConnectionId := ⟨[7, 8], by decide⟩

def scid : ConnectionId := ⟨[], by decide⟩

def initial : Push RawPayload where
  packet := .initial { version := .v1, dcid, scid, packetNumber := 0, frames := [⟨[6]⟩], token := [9] }
  largest := none
  tagLen := 1

def stale : Push RawPayload where
  packet := .handshake { version := .v1, dcid, scid, packetNumber := 3, frames := [⟨[6]⟩] }
  largest := some 5
  tagLen := 1

def short : Push RawPayload where
  packet := .oneRtt { spin := true, keyPhase := false, dcid, packetNumber := 9, frames := [⟨[6, 0]⟩] }
  largest := some 4
  tagLen := 2

def contexts : Contexts where
  initial := { tagLen := 1 }
  oneRtt := { largest := some 6, dcidLen := 2, tagLen := 2 }

def datagram : Bytes :=
  [0xc0, 0, 0, 0, 1, 2, 7, 8, 0, 1, 9, 3, 0, 6, 0, 0x60, 7, 8, 9, 6, 0, 0, 0]

end Flight

theorem yields_pushAll_flight :
    let pushes : List (Push RawPayload) := [Flight.initial, Flight.stale, Flight.short, Flight.initial]
    let taken : List (Push RawPayload) := [Flight.initial, Flight.short]
    let d : DatagramBuilder := {
      maxSize := 64, bytes := Flight.datagram, packets := [(0, 15), (15, 23)], isSealed := true }
    64 < Word.size ∧ DatagramBuilder.pushAll { maxSize := 64 } pushes = (taken, d) ∧
      Serves Contexts.ask taken Flight.contexts ∧ (∀ x ∈ taken, x.packet.DecodedBy RawPayload.decoder) ∧
      (∀ x ∈ taken, x.packet.Offers) ∧
      ∃ final, Yields (recording Contexts.ask) RawPayload.decoder
        { datagram := Flight.datagram, contexts := ([], Flight.contexts) }
        [.ok Flight.initial.packet, .ok Flight.short.packet]
        { datagram := [], contexts := ([.initial, .oneRtt], final) } := by
  intro pushes taken d
  have word : 64 < Word.size := by decide
  have built : DatagramBuilder.pushAll { maxSize := 64 } pushes = (taken, d) := rfl
  have serves : Serves Contexts.ask taken Flight.contexts := by
    refine ⟨⟨rfl, nofun, ?_⟩, ⟨rfl, fun _ => rfl, ?_⟩, trivial⟩
    · rintro _ ⟨⟩ _ ⟨⟩
      exact rfl
    · rintro _ ⟨⟩ _ ⟨⟩
      exact ⟨by decide, by rintro _ ⟨⟩; decide, by decide⟩
  have decoded : ∀ x ∈ taken, x.packet.DecodedBy RawPayload.decoder := by
    simp only [taken, List.forall_mem_cons]
    exact ⟨fun _ => RawPayload.decodeAll_decoder (by decide),
      fun _ => RawPayload.decodeAll_decoder (by decide), nofun⟩
  have offers : ∀ x ∈ taken, x.packet.Offers := by
    simp only [taken, List.forall_mem_cons]
    exact ⟨nofun, nofun, nofun⟩
  exact ⟨word, built, serves, decoded, offers, yields_pushAll word built serves decoded offers⟩

end Splitter

end QuicWire

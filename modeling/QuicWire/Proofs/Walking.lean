import Mathlib.Data.List.Forall2
import QuicWire.Proofs.Agreement
import QuicWire.Proofs.Ranges

set_option autoImplicit false

namespace QuicWire

open Packet

namespace DatagramBuilder

def rangesFrom : Nat → List Bytes → List (Nat × Nat)
  | _, [] => []
  | start, part :: rest => (start, start + part.length) :: rangesFrom (start + part.length) rest

theorem rangesFrom_concat (start : Nat) (parts : List Bytes) (last : Bytes) :
    rangesFrom start (parts ++ [last]) = rangesFrom start parts ++
      [(start + parts.flatten.length, start + parts.flatten.length + last.length)] := by
  induction parts generalizing start with
  | nil => simp [rangesFrom]
  | cons part rest ih => simp [rangesFrom, ih, Nat.add_assoc]

structure LaidOut (maxSize : Nat) (calls : List Call) (d : DatagramBuilder) : Prop where
  bytes_eq : d.bytes = (calls.map Call.segment).flatten
  packets_eq : d.packets = rangesFrom 0 (calls.map Call.segment)
  fits : ∀ c ∈ calls, c.push.Fits maxSize

theorem Loaded.laidOut {maxSize : Nat} {calls : List Call} {d : DatagramBuilder}
    (loaded : Loaded maxSize calls d) : LaidOut maxSize calls d := by
  induction loaded with
  | new => exact ⟨rfl, rfl, nofun⟩
  | @taken calls d d' c before answer ih =>
    rcases run_push_cases_of_answer answer with ⟨no, -⟩ | ⟨-, rfl, -, fits⟩
    · cases no
    · have room : d.remaining ≤ maxSize := by
        have same := before.filled.maxSize_eq
        exact same ▸ Nat.sub_le _ _
      constructor
      · simp [Push.addTo, ih.bytes_eq, Call.segment]
      · simp [Push.addTo, ih.packets_eq, rangesFrom_concat, len, ih.bytes_eq, Call.segment]
      · intro c' member
        rcases List.mem_append.mp member with earlier | last
        · exact ih.fits c' earlier
        · cases List.mem_singleton.mp last
          exact fits.mono room
  | refused before answer ih =>
    rcases run_push_cases_of_answer answer with ⟨-, rfl⟩ | ⟨yes, -⟩
    · exact ih
    · cases yes
  | failed before answer ih =>
    rw [eq_of_push_error answer]
    exact ih

end DatagramBuilder

namespace Push

variable {F : Type} [Frame F] {x : Push F} {room : Nat}

theorem Fits.exists_header (fits : x.Fits room) : ∃ header headerLen,
    x.packet.headerWire x.largest x.tagLen = .ok (header, headerLen) ∧
      x.segment = header ++ (x.packet.payloadWire.1 ++ x.tag) := by
  obtain ⟨⟨bytes, n, written⟩, -⟩ := fits
  have segment : x.segment = bytes ++ x.tag := by simp only [Push.segment, written]
  rw [Push.wire, Packet.wire_tagFor] at written
  obtain ⟨header, headerLen, headed, rfl, -⟩ := Packet.wire_eq_ok_iff.mp written
  exact ⟨header, headerLen, headed, by rw [segment, List.append_assoc]⟩

theorem Fits.header_le (fits : x.Fits room) (numbered : x.packet.type.isNumbered = true) {header : Bytes}
    {headerLen k : Nat} (headed : x.packet.headerWire x.largest x.tagLen = .ok (header, headerLen))
    (number : x.packet.pnLen x.largest = .ok k) :
    header.length + x.packet.payloadWire.2 + x.tagLen + PacketNumber.maxLength ≤ room + k := by
  obtain ⟨-, m, longest, enough⟩ := fits
  obtain ⟨length, _, same, total⟩ := Packet.length_of_headerWire headed
  cases number.symm.trans same
  rw [if_pos numbered] at total
  rw [Packet.maxEncodedLen_eq] at longest
  have added := Packet.lenWith_add_le numbered (Packet.pnLen_le number) total longest
  omega

theorem length_behind_header [LawfulFrame F] (numbered : x.packet.type.isNumbered = true) :
    (x.packet.payloadWire.1 ++ x.tag).length = x.packet.payloadWire.2 + x.tagLen := by
  have tagged : x.tag.length = if x.packet.type.isNumbered then x.tagLen else 0 := List.length_replicate
  rw [if_pos numbered] at tagged
  rw [List.length_append, x.packet.length_payloadWire, tagged]

end Push

namespace ProtectedHeader

section Packets

variable {F : Type} [Frame F]

structure Measures (x : Push F) (pn n : Nat) (info : ProtectedHeader) (header : Bytes)
    (offset pnLen payloadLen : Nat) : Prop where
  hidden : info.unprotected = false
  wrote : (x.packet.writeHeader x.largest x.tagLen).run [] = .ok header.length header
  encodedLen_eq : PacketNumber.encodedLen pn x.largest = .ok pnLen
  payloadLen_eq : x.packet.payloadLen = some payloadLen
  length_eq : (info.removeProtection 0).length = header.length
  pnOffset_eq : (info.removeProtection 0).pnOffset = some offset
  pnLength_eq : (info.removeProtection 0).pnLength = some pnLen
  total : offset + pnLen = header.length
  sampleOffset_eq : info.sampleOffset = some (offset + 4)
  -- The sample starts behind the longest number there is, and takes sixteen bytes.
  sampled : offset + 4 + 16 ≤ n ↔ 20 ≤ pnLen + payloadLen + x.tagLen

structure Tells (x : Push F) (n : Nat) (info : ProtectedHeader) : Prop where
  type_eq : info.type = x.packet.type
  version_eq : info.version = x.packet.version
  dcid_eq : info.dcid = x.packet.dcid
  scid_eq : info.scid = x.packet.scid
  token_eq : info.token = x.packet.token
  packetLen_eq : info.packetLen = some n
  numbered : ∀ pn, x.packet.packetNumber = some pn →
    ∃ header offset pnLen payloadLen, Measures x pn n info header offset pnLen payloadLen

theorem measures_beforeNumber {x : Push F} {pn headerLen payloadLen : Nat} {bits : UInt8} {front : Bytes}
    (version : Option Version) (dcid : ConnectionId) (scid : Option ConnectionId) (token : Option Bytes)
    (number : PacketNumber.encodedLen pn x.largest = .ok (FirstByte.pnLength bits))
    (counted : x.packet.payloadLen = some payloadLen)
    (headed : x.packet.headerWire x.largest x.tagLen =
      .ok (front ++ beBytes (FirstByte.pnLength bits) pn, headerLen)) :
    let rest := FirstByte.pnLength bits + payloadLen + x.tagLen
    Measures x pn (front.length + rest) (beforeNumber bits version dcid scid token front.length rest)
      (front ++ beBytes (FirstByte.pnLength bits) pn) front.length (FirstByte.pnLength bits) payloadLen := by
  intro rest
  have wrote := x.packet.denotes_writeHeader x.largest x.tagLen
  have length := (Packet.length_of_headerWire headed).1
  rw [headed, ← length] at wrote
  have split : (front ++ beBytes (FirstByte.pnLength bits) pn).length = front.length + FirstByte.pnLength bits := by
    rw [List.length_append, length_beBytes]
  refine ⟨rfl, wrote [], number, counted, ?_, ?_, ?_, split.symm, rfl, ?_⟩
  · rw [removeProtection_zero, split]
    rfl
  · rw [removeProtection_zero]
    rfl
  · rw [removeProtection_zero]
    rfl
  · dsimp only [rest]
    omega

structure Fronts (x : Push F) (pn : Nat) (bits : UInt8) (front : Bytes) (headerLen rest : Nat) : Prop where
  number : PacketNumber.encodedLen pn x.largest = .ok (FirstByte.pnLength bits)
  headed : x.packet.headerWire x.largest x.tagLen =
    .ok (front ++ beBytes (FirstByte.pnLength bits) pn, headerLen)
  rest_eq : rest = FirstByte.pnLength bits + x.packet.payloadWire.2 + x.tagLen
  type_eq : (beforeNumber bits x.packet.version x.packet.dcid x.packet.scid x.packet.token front.length rest).type =
    x.packet.type
  clear : ∀ more, (x.packet.type.isDelimited = false → more = 0) →
    Clear x.packet.dcid.length front (rest + more)
      (beforeNumber bits x.packet.version x.packet.dcid x.packet.scid x.packet.token front.length rest)

omit [Frame F] in
theorem tokenField_tokenWire {p : Packet F} (delimited : p.type.isDelimited = true) {n : Nat}
    (counted : Packet.Long.tokenLen p.token = .ok n) :
    TokenField p.type p.token (Packet.Long.tokenWire p.token) := by
  cases p with
  | initial p =>
    obtain ⟨k, size⟩ := Packet.Long.size_of_tokenLen counted
    exact ⟨iff_of_true rfl rfl, _, VarInt.encodes_shortest size, rfl⟩
  | zeroRtt | handshake => exact ⟨iff_of_false nofun nofun, rfl⟩
  | retry | versionNegotiation | oneRtt => cases delimited

theorem exists_fronts_of_delimited {x : Push F} {room : Nat} (fits : x.Fits room) (word : room < Word.size)
    (delimited : x.packet.type.isDelimited = true) {pn : Nat} (numbered : x.packet.packetNumber = some pn) :
    ∃ bits front headerLen rest, Fronts x pn bits front headerLen rest := by
  obtain ⟨q, long⟩ := Packet.asLong_of_isDelimited delimited
  cases numbered.symm.trans long.packetNumber_eq
  obtain ⟨header, headerLen, headed, -⟩ := fits.exists_header
  have written := headed
  rw [long.headerWire_eq, Packet.Long.headerWire_eq_ok_iff delimited] at written
  obtain ⟨version, bits, announces, number, between, k, counted, size, rfl, -⟩ := written
  obtain ⟨form, fixed, typed, -⟩ := (FirstByte.announces_delimited_iff delimited bits).mp announces
  have enough := fits.header_le (isNumbered_of_isDelimited delimited) headed
    (by rw [Packet.pnLen, numbered]; exact number)
  generalize front_eq : Packet.LongHeader.encode ⟨bits, Version.v1.toWire, q.dcid, q.scid⟩ ++
    Packet.Long.tokenWire x.packet.token ++
    VarInt.shortest (FirstByte.pnLength bits + q.payloadLen + x.tagLen) = front at *
  rw [List.length_append, length_beBytes, long.payloadWire_eq] at enough
  dsimp only at enough
  have longest : FirstByte.pnLength bits ≤ PacketNumber.maxLength := FirstByte.pnLength_le bits
  have tokened := tokenField_tokenWire delimited counted
  rw [← typed] at tokened delimited
  refine ⟨bits, front, headerLen, FirstByte.pnLength bits + q.payloadLen + x.tagLen, number, headed, ?_, ?_, ?_⟩
  · rw [long.payloadWire_eq]
  · rw [long.version_eq, version]
    exact typed
  · intro more _
    rw [long.version_eq, version, long.dcid_eq, long.scid_eq]
    exact .long form fixed delimited tokened (VarInt.encodes_shortest size) (Nat.le_add_right _ _) (by omega)
      (by omega) front_eq.symm

theorem exists_fronts_of_short {x : Push F} {room : Nat} (fits : x.Fits room) (word : room < Word.size)
    {p : Packet.Short F} (short : x.packet = .oneRtt p) :
    ∃ bits front headerLen rest, Fronts x p.packetNumber bits front headerLen rest := by
  obtain ⟨packet, largest, tagLen⟩ := x
  cases short
  obtain ⟨header, headerLen, headed, -⟩ := fits.exists_header
  have written := headed
  obtain ⟨first, announces, -, -, number, rfl, rfl⟩ := Packet.headerWire_oneRtt_eq_ok_iff.mp written
  obtain ⟨form, fixed, -⟩ := (FirstByte.announces_oneRtt_iff first).mp announces
  have enough := fits.header_le rfl headed number
  rw [← List.cons_append, List.length_append, length_beBytes] at enough
  refine ⟨first, first :: p.dcid.bytes, _, _, number, headed, rfl, rfl, ?_⟩
  intro more last
  rw [last rfl]
  exact .short form fixed rfl (by omega) rfl

theorem tells_of_fronts [LawfulFrame F] {x : Push F} {room pn : Nat} (fits : x.Fits room)
    (numbered : x.packet.packetNumber = some pn) {bits : UInt8} {front : Bytes} {headerLen n : Nat}
    (fronts : Fronts x pn bits front headerLen n) {rest : Bytes}
    (last : x.packet.type.isDelimited = false → rest = []) :
    ∃ info, peek (x.segment ++ rest) x.packet.dcid.length = .ok info ∧ Tells x x.segment.length info := by
  obtain ⟨number, headed, rfl, typed, clear⟩ := fronts
  have isNumbered := Packet.isNumbered_of_packetNumber numbered
  obtain ⟨header, _, same, segment⟩ := fits.exists_header
  cases headed.symm.trans same
  let body := beBytes (FirstByte.pnLength bits) pn ++ (x.packet.payloadWire.1 ++ x.tag)
  have counted : body.length = FirstByte.pnLength bits + x.packet.payloadWire.2 + x.tagLen := by
    rw [List.length_append, length_beBytes, Push.length_behind_header isNumbered, Nat.add_assoc]
  have split : x.segment = front ++ body := by rw [segment, List.append_assoc]
  have seen := clear rest.length (fun undelimited => by rw [last undelimited]; rfl)
  rw [← counted, ← List.length_append] at seen
  have measured := measures_beforeNumber x.packet.version x.packet.dcid x.packet.scid x.packet.token number
    (Packet.payloadLen_of_isNumbered isNumbered) headed
  refine ⟨_, peek_eq_ok_iff.mpr (.inl ⟨front, body ++ rest, by rw [split, List.append_assoc], seen⟩), ?_⟩
  rw [split, List.length_append]
  rw [← counted] at typed measured
  refine ⟨typed, rfl, rfl, rfl, rfl, rfl, ?_⟩
  intro _ hasNumber
  cases numbered.symm.trans hasNumber
  exact ⟨_, _, _, _, measured⟩

theorem tells_of_bare {x : Push F} {room : Nat} (fits : x.Fits room)
    (unnumbered : x.packet.type.isNumbered = false) :
    ∃ info, peek x.segment x.packet.dcid.length = .ok info ∧ Tells x x.segment.length info := by
  obtain ⟨packet, largest, tagLen⟩ := x
  obtain ⟨header, headerLen, headed, segment⟩ := fits.exists_header
  have untagged : Push.tag ⟨packet, largest, tagLen⟩ = [] := by
    simp only [Push.tag, DatagramBuilder.tagFor, unnumbered, Bool.false_eq_true, if_false, List.replicate_zero]
  rw [untagged, List.append_nil] at segment
  cases packet with
  | retry p =>
    obtain ⟨version, rfl, -⟩ := Packet.headerWire_retry_eq_ok_iff.mp headed
    have typed : PacketType.ofLongBits .v1 0xf0 = .retry := by decide
    have bare := Bare.retry (by decide) (by decide) typed p.tag.length_eq segment
    refine ⟨_, peek_eq_ok_iff.mpr (.inr bare), typed, congrArg some version.symm, rfl, rfl, rfl, rfl, ?_⟩
    intro _ numbered
    cases numbered
  | versionNegotiation p =>
    cases headed
    have bare := Bare.versionNegotiation (by decide) segment
    refine ⟨_, peek_eq_ok_iff.mpr (.inr bare), rfl, rfl, rfl, rfl, rfl, rfl, ?_⟩
    intro _ numbered
    cases numbered
  | initial | zeroRtt | handshake | oneRtt => cases unnumbered

theorem tells_segment [LawfulFrame F] {x : Push F} {room : Nat} (fits : x.Fits room) (word : room < Word.size)
    {rest : Bytes} (last : x.packet.type.isDelimited = false → rest = []) :
    ∃ info, peek (x.segment ++ rest) x.packet.dcid.length = .ok info ∧ Tells x x.segment.length info := by
  cases numbered : x.packet.packetNumber with
  | none =>
    have unnumbered : x.packet.type.isNumbered = false := by
      rw [← x.packet.packetNumber_isSome, numbered]
      rfl
    have undelimited : x.packet.type.isDelimited = false := by
      cases delimited : x.packet.type.isDelimited with
      | false => rfl
      | true => exact absurd (isNumbered_of_isDelimited delimited) (by simp [unnumbered])
    rw [last undelimited, List.append_nil]
    exact tells_of_bare fits unnumbered
  | some pn =>
    obtain ⟨bits, front, headerLen, n, fronts⟩ : ∃ bits front headerLen n, Fronts x pn bits front headerLen n := by
      cases packet : x.packet with
      | oneRtt p =>
        rw [packet] at numbered
        cases numbered
        exact exists_fronts_of_short fits word packet
      | initial | zeroRtt | handshake =>
        exact exists_fronts_of_delimited fits word (by rw [packet]; rfl) numbered
      | retry | versionNegotiation =>
        rw [packet] at numbered
        cases numbered
    exact tells_of_fronts fits numbered fronts last

end Packets

section Datagrams

-- A short header does not carry the length of its identifier, so that one is given for each packet.
def walk (b : Bytes) : Nat → List Nat → Except Failure (List (Nat × Nat))
  | _, [] => .ok []
  | start, dcidLen :: more => do
    let info ← peek (b.drop start) dcidLen
    match info.packetLen with
    | none => .error .overrun
    | some n => return (start, start + n) :: (← walk b (start + n) more)

/-- Peeking at the start of a range tells what was pushed, and that it takes the range. -/
def Located (b : Bytes) (c : Call) (range : Nat × Nat) : Prop :=
  ∃ info, peek (b.drop range.1) c.dcidLen = .ok info ∧ Tells c.push (range.2 - range.1) info

theorem walk_of_located {b : Bytes} {calls : List Call} {ranges : List (Nat × Nat)} {start stop : Nat}
    (located : List.Forall₂ (Located b) calls ranges) (tiles : Tiles start ranges stop) :
    walk b start (calls.map Call.dcidLen) = .ok ranges := by
  induction located generalizing start with
  | nil => rfl
  | @cons c range calls ranges first rest ih =>
    obtain ⟨info, peeked, tells⟩ := first
    obtain ⟨rfl, longer, tiles⟩ := tiles
    have next : range.1 + (range.2 - range.1) = range.2 := by omega
    simp only [List.map_cons, walk, peeked, bind, Except.bind, tells.packetLen_eq, next, ih tiles, pure,
      Except.pure]

theorem located_of_fits {maxSize : Nat} (word : maxSize < Word.size) {calls : List Call}
    (fits : ∀ c ∈ calls, c.push.Fits maxSize) (delimited : ∀ c ∈ calls.dropLast, c.type.isDelimited = true)
    (front : Bytes) :
    List.Forall₂ (Located (front ++ (calls.map Call.segment).flatten)) calls
      (DatagramBuilder.rangesFrom front.length (calls.map Call.segment)) := by
  induction calls generalizing front with
  | nil => exact .nil
  | cons c rest ih =>
    rw [List.forall_mem_cons] at fits
    have last : c.type.isDelimited = false → (rest.map Call.segment).flatten = [] := by
      intro undelimited
      cases rest with
      | nil => rfl
      | cons c' rest =>
        have := delimited c List.mem_cons_self
        simp [undelimited] at this
    have first : Located (front ++ ((c :: rest).map Call.segment).flatten) c
        (front.length, front.length + c.segment.length) := by
      have told := tells_segment fits.1 word last
      rw [Located, List.drop_left, Nat.add_sub_cancel_left]
      exact told
    have later := ih fits.2 (fun c' member => delimited c' ?_) (front ++ c.segment)
    · rw [List.append_assoc, List.length_append] at later
      exact .cons first later
    · cases rest with
      | nil => cases member
      | cons => exact List.mem_cons_of_mem _ member

theorem walk_of_loaded {maxSize : Nat} (word : maxSize < Word.size) {calls : List Call} {d : DatagramBuilder}
    (loaded : DatagramBuilder.Loaded maxSize calls d) :
    List.Forall₂ (Located d.bytes) calls d.packets ∧ Tiles 0 d.packets d.len ∧
      walk d.bytes 0 (calls.map Call.dcidLen) = .ok d.packets := by
  have filled := loaded.filled
  obtain ⟨bytes, packets, fits⟩ := loaded.laidOut
  have delimited : ∀ c ∈ calls.dropLast, c.type.isDelimited = true := by
    intro c member
    apply filled.delimited
    rw [← List.map_dropLast]
    exact List.mem_map_of_mem member
  have located := located_of_fits word fits delimited []
  rw [List.nil_append, ← bytes] at located
  rw [List.length_nil, ← packets] at located
  exact ⟨located, filled.tiles, walk_of_located located filled.tiles⟩

namespace Sparse

def cid : ConnectionId := ⟨[5, 0x5a], by decide⟩

def frameless : Push CountedPayload where
  packet := .initial { version := .v1, dcid := cid, scid := cid, packetNumber := 0, frames := [], token := [9] }
  largest := none
  tagLen := 1

def stale : Push RawPayload where
  packet := .handshake { version := .v1, dcid := cid, scid := cid, packetNumber := 3, frames := [⟨[6]⟩] }
  largest := some 5
  tagLen := 1

def versionless : Push RawPayload where
  packet := .versionNegotiation { dcid := cid, scid := cid, offered := [] }
  largest := none
  tagLen := 1

def opened : DatagramBuilder where
  maxSize := 64
  bytes := [0xc0, 0, 0, 0, 1, 2, 5, 0x5a, 2, 5, 0x5a, 1, 9, 2, 0, 0]
  packets := [(0, 16)]

def closed : DatagramBuilder where
  maxSize := 64
  bytes := opened.bytes ++ [0xc0, 0, 0, 0, 0, 2, 5, 0x5a, 2, 5, 0x5a]
  packets := [(0, 16), (16, 27)]
  isSealed := true

end Sparse

theorem walk_of_loaded_sparse :
    let calls : List Call := [⟨Sparse.frameless⟩, ⟨Sparse.versionless⟩]
    64 < Word.size ∧ DatagramBuilder.Loaded 64 calls Sparse.closed ∧
      List.Forall₂ (Located Sparse.closed.bytes) calls [(0, 16), (16, 27)] ∧
      walk Sparse.closed.bytes 0 [2, 2] = .ok [(0, 16), (16, 27)] := by
  intro calls
  have word : 64 < Word.size := by decide
  have first : (DatagramBuilder.push Sparse.frameless).run { maxSize := 64 } = .ok true Sparse.opened := rfl
  have second : (DatagramBuilder.push Sparse.stale).run Sparse.opened =
    .error (.nonMonotonic 3 5) Sparse.opened := rfl
  have third : (DatagramBuilder.push Sparse.versionless).run Sparse.opened = .ok true Sparse.closed := rfl
  have fourth : (DatagramBuilder.push Sparse.frameless).run Sparse.closed = .ok false Sparse.closed := rfl
  have loaded : DatagramBuilder.Loaded 64 calls Sparse.closed :=
    .refused (c := ⟨Sparse.frameless⟩) (.taken (c := ⟨Sparse.versionless⟩)
      (.failed (c := ⟨Sparse.stale⟩) (.taken (c := ⟨Sparse.frameless⟩) .new first) second) third) fourth
  obtain ⟨located, -, walked⟩ := walk_of_loaded word loaded
  exact ⟨word, loaded, located, walked⟩

end Datagrams

end ProtectedHeader

end QuicWire

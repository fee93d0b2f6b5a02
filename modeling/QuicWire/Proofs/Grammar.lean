import QuicWire.Packet.Basic
import QuicWire.Proofs.LongHeader
import QuicWire.Proofs.PacketNumber

set_option autoImplicit false

namespace QuicWire.Packet

variable {F : Type}

def Body.Spelled (ctx : ParseContext) (decode : FrameDecoder F) (first : UInt8) (pn : Nat)
    (frames : List F) (body : Bytes) : Prop :=
  ∃ number payload tag : Bytes, body = number ++ payload ++ tag ∧
    number.length = FirstByte.pnLength first ∧ tag.length = ctx.tagLen ∧
    PacketNumber.rebuild (beValue number) number.length ctx.largest = .ok pn ∧
    decode.decodeAll payload = .ok frames

def Long.Tokened : Option Bytes → Bytes → Prop
  | none, field => field = []
  | some token, field => ∃ count, VarInt.Encodes token.length count ∧ field = count ++ token

/-- `token` stands for the bytes between the identifiers and the Length, which counts the rest. -/
def Long.Spelled (t : PacketType) (ctx : ParseContext) (decode : FrameDecoder F) (token : Bytes)
    (p : Long F) (bytes : Bytes) : Prop :=
  ∃ first length body, FirstByte.Announces first t ∧ p.version = .v1 ∧
    VarInt.Encodes body.length length ∧ Body.Spelled ctx decode first p.packetNumber p.frames body ∧
    bytes = LongHeader.encode ⟨first, Version.v1.toWire, p.dcid, p.scid⟩ ++ token ++ length ++ body

def Initial.Spelled (ctx : ParseContext) (decode : FrameDecoder F) (p : Initial F) (bytes : Bytes) : Prop :=
  ∃ count, VarInt.Encodes p.token.length count ∧
    p.toLong.Spelled .initial ctx decode (count ++ p.token) bytes

def Retry.Spelled (p : Retry) (bytes : Bytes) : Prop :=
  ∃ first, FirstByte.Announces first .retry ∧ p.version = .v1 ∧
    bytes = LongHeader.encode ⟨first, Version.v1.toWire, p.dcid, p.scid⟩ ++ p.token ++ p.tag.bytes

def VersionNegotiation.words (offered : List UInt32) : Bytes :=
  offered.flatMap fun word => beBytes 4 word.toNat

def VersionNegotiation.Spelled (p : VersionNegotiation) (bytes : Bytes) : Prop :=
  ∃ first, FirstByte.Announces first .versionNegotiation ∧ p.offered ≠ [] ∧
    bytes = LongHeader.encode ⟨first, Version.v0.toWire, p.dcid, p.scid⟩ ++ words p.offered

def Short.Spelled (ctx : ParseContext) (decode : FrameDecoder F) (p : Short F) (bytes : Bytes) : Prop :=
  ∃ first body, FirstByte.Announces first .oneRtt ∧ p.spin = decide (first &&& 0x20 ≠ 0) ∧
    p.keyPhase = decide (first &&& 0x04 ≠ 0) ∧ p.dcid.length = ctx.dcidLen ∧
    Body.Spelled ctx decode first p.packetNumber p.frames body ∧ bytes = first :: p.dcid.bytes ++ body

def Spelled (ctx : ParseContext) (decode : FrameDecoder F) : Packet F → Bytes → Prop
  | initial p, bytes => p.Spelled ctx decode bytes
  | zeroRtt p, bytes => p.Spelled .zeroRtt ctx decode [] bytes
  | handshake p, bytes => p.Spelled .handshake ctx decode [] bytes
  | retry p, bytes => p.Spelled bytes
  | versionNegotiation p, bytes => p.Spelled bytes
  | oneRtt p, bytes => p.Spelled ctx decode bytes

theorem Body.run_read_eq_ok_iff {ctx : ParseContext} {decode : FrameDecoder F} {first : UInt8} {pn : Nat}
    {frames : List F} {body rest : Bytes} :
    (Body.read ctx decode first).run body = .ok (pn, frames) rest ↔
      rest = [] ∧ FirstByte.pnLength first + ctx.tagLen < Word.size ∧
        Body.Spelled ctx decode first pn frames body := by
  simp only [Body.read, Reader.run_bind_eq_ok_iff, Reader.run_lift_eq_ok_iff, Reader.run_need_eq_ok_iff,
    PacketNumber.run_read_eq_ok_iff, Reader.run_remaining_eq_ok_iff, Reader.run_take_eq_ok_iff,
    Reader.run_skip_eq_ok_iff, Reader.run_pure_eq_ok_iff, Word.fit_eq_ok_iff, Word.sub_eq_ok_iff,
    Prod.mk.injEq, and_assoc, exists_and_left, exists_eq_left', exists_const]
  constructor
  · intro success
    obtain ⟨fits, _, pn, _, ⟨number, width, rebuilt, rfl⟩, _, payload, counted, _, rfl, frames, decoded, left,
      ⟨tag, tagged, rfl⟩, rfl, rfl, rfl⟩ := success
    rw [List.length_append, List.length_append] at counted
    have nothing : left = [] := List.eq_nil_of_length_eq_zero (by omega)
    subst nothing
    rw [← width] at rebuilt
    exact ⟨rfl, fits, number, payload, tag, by simp, width, tagged, rebuilt, decoded⟩
  · intro spelled
    obtain ⟨rfl, fits, number, payload, tag, rfl, width, tagged, rebuilt, decoded⟩ := spelled
    rw [width] at rebuilt
    have counted : payload.length = (payload ++ tag).length - ctx.tagLen := by
      rw [List.length_append, tagged, Nat.add_sub_cancel]
    have enough : FirstByte.pnLength first + ctx.tagLen ≤ (number ++ payload ++ tag).length := by
      simp only [List.length_append]
      omega
    have room : ctx.tagLen ≤ (payload ++ tag).length := by
      rw [List.length_append, tagged]
      exact Nat.le_add_left _ _
    exact ⟨fits, enough, pn, payload ++ tag, ⟨number, width, rebuilt, List.append_assoc _ _ _⟩, room, payload,
      counted, tag, rfl, frames, decoded, [], ⟨tag, tagged, (List.append_nil _).symm⟩, rfl, rfl, rfl⟩

theorem Body.Spelled.room_for_tag {ctx : ParseContext} {decode : FrameDecoder F} {first : UInt8} {pn : Nat}
    {frames : List F} {body : Bytes} (h : Body.Spelled ctx decode first pn frames body) :
    FirstByte.pnLength first + ctx.tagLen ≤ body.length := by
  obtain ⟨number, payload, tag, rfl, width, tagged, -, -⟩ := h
  simp only [List.length_append]
  omega

theorem Body.Spelled.fits {ctx : ParseContext} {decode : FrameDecoder F} {first : UInt8} {pn : Nat}
    {frames : List F} {body : Bytes} (h : Body.Spelled ctx decode first pn frames body)
    (bound : body.length < Word.size) : FirstByte.pnLength first + ctx.tagLen < Word.size :=
  Nat.lt_of_le_of_lt h.room_for_tag bound

theorem Body.read_of_length {ctx : ParseContext} {decode : FrameDecoder F} {first : UInt8} {pn : Nat}
    {frames : List F} {body : Bytes} (bound : body.length < Word.size) :
    (∃ left, (Body.read ctx decode first).run body = .ok (pn, frames) left) ↔
      Body.Spelled ctx decode first pn frames body := by
  simp only [run_read_eq_ok_iff]
  constructor
  · intro success
    obtain ⟨_, _, _, spelled⟩ := success
    exact spelled
  · intro spelled
    exact ⟨[], rfl, spelled.fits bound, spelled⟩

theorem lt_size_of_encodes {v : Nat} {code : Bytes} (h : VarInt.Encodes v code) : v < Word.size :=
  Nat.lt_trans h.lt (by decide)

theorem Long.run_readWith_eq_ok_iff {T : Type} {token : Reader T} {t : PacketType}
    (delimited : t.isDelimited = true) {ctx : ParseContext} {decode : FrameDecoder F} {b rest : Bytes}
    {x : T} {p : Long F} :
    (readWith token t ctx decode).run b = .ok (x, p) rest ↔
      ∃ first, FirstByte.Announces first t ∧ p.version = .v1 ∧ ∃ mid length body,
        VarInt.Encodes body.length length ∧ Body.Spelled ctx decode first p.packetNumber p.frames body ∧
        token.run mid = .ok x (length ++ body ++ rest) ∧
        b = LongHeader.encode ⟨first, Version.v1.toWire, p.dcid, p.scid⟩ ++ mid := by
  simp only [readWith, Reader.run_bind_eq_ok_iff, LongHeader.run_read_eq_ok_iff, Reader.run_check_eq_ok_iff,
    LongHeader.checkType_eq_ok_iff, FirstByte.checkReserved_eq_ok_iff, VarInt.run_readCounted_eq_ok_iff,
    Reader.run_within_eq_ok_iff, Reader.run_pure_eq_ok_iff, Prod.mk.injEq, and_assoc, exists_and_left,
    exists_eq_left, exists_eq_left', exists_const]
  constructor
  · intro success
    obtain ⟨⟨first, word, dcid, scid⟩, long, _, rfl, known, fixed, typed, reserved, _, _, tokened, body, _,
      ⟨length, encodes, rfl⟩, ⟨pn, frames⟩, read, rfl, rfl, rfl⟩ := success
    dsimp only at known
    subst known
    -- The Length bounds the body, so that the tag length cannot leave the word.
    rw [Body.read_of_length (lt_size_of_encodes encodes)] at read
    have announces := (FirstByte.announces_delimited_iff delimited first).mpr ⟨long, fixed, typed, reserved⟩
    exact ⟨first, announces, rfl, _, length, body, encodes, read, tokened, rfl⟩
  · intro spelled
    obtain ⟨first, announces, version, mid, length, body, encodes, spelled, tokened, rfl⟩ := spelled
    obtain ⟨long, fixed, typed, reserved⟩ := (FirstByte.announces_delimited_iff delimited first).mp announces
    rw [← Body.read_of_length (lt_size_of_encodes encodes)] at spelled
    refine ⟨_, long, mid, rfl, rfl, fixed, typed, reserved, x, _, tokened, body, rest, ⟨length, encodes, rfl⟩,
      (p.packetNumber, p.frames), spelled, rfl, ?_, rfl⟩
    rw [← version]

theorem Long.run_read_eq_ok_iff {t : PacketType} (numbered : t = .zeroRtt ∨ t = .handshake)
    {ctx : ParseContext} {decode : FrameDecoder F} {b rest : Bytes} {p : Long F} :
    (read t ctx decode).run b = .ok p rest ↔
      ∃ bytes, p.Spelled t ctx decode [] bytes ∧ b = bytes ++ rest := by
  have delimited : t.isDelimited = true := by rcases numbered with rfl | rfl <;> rfl
  have allowed : checkType t = .ok () := if_pos numbered
  simp only [read, Reader.run_atomic_eq_ok_iff, Reader.run_bind_eq_ok_iff, Reader.run_check_eq_ok_iff,
    Reader.run_pure_eq_ok_iff, Prod.exists, run_readWith_eq_ok_iff delimited, allowed]
  constructor
  · intro success
    obtain ⟨_, _, ⟨_, rfl⟩, _, _, _, ⟨first, announces, version, _, length, body, encodes, spelled,
      ⟨_, rfl⟩, rfl⟩, rfl, rfl⟩ := success
    exact ⟨_, ⟨first, length, body, announces, version, encodes, spelled, rfl⟩, by simp⟩
  · intro spelled
    obtain ⟨_, ⟨first, length, body, announces, version, encodes, spelled, rfl⟩, rfl⟩ := spelled
    exact ⟨(), _, ⟨trivial, rfl⟩, (), p, rest, ⟨first, announces, version, length ++ body ++ rest, length, body,
      encodes, spelled, ⟨trivial, rfl⟩, by simp⟩, rfl, rfl⟩

theorem Initial.run_read_eq_ok_iff {ctx : ParseContext} {decode : FrameDecoder F} {b rest : Bytes}
    {p : Initial F} :
    (read ctx decode).run b = .ok p rest ↔ ∃ bytes, p.Spelled ctx decode bytes ∧ b = bytes ++ rest := by
  simp only [read, Reader.run_atomic_eq_ok_iff, Reader.run_bind_eq_ok_iff, Reader.run_pure_eq_ok_iff,
    Prod.exists, Long.run_readWith_eq_ok_iff (t := .initial) rfl, VarInt.run_readCounted_eq_ok_iff]
  constructor
  · intro success
    obtain ⟨token, _, _, ⟨first, announces, version, _, length, body, encodes, spelled,
      ⟨count, counted, rfl⟩, rfl⟩, rfl, rfl⟩ := success
    exact ⟨_, ⟨count, counted, first, length, body, announces, version, encodes, spelled, rfl⟩, by simp⟩
  · intro spelled
    obtain ⟨_, ⟨count, counted, first, length, body, announces, version, encodes, spelled, rfl⟩, rfl⟩ := spelled
    exact ⟨p.token, p.toLong, rest, ⟨first, announces, version, count ++ p.token ++ (length ++ body ++ rest),
      length, body, encodes, spelled, ⟨count, counted, rfl⟩, by simp⟩, rfl, rfl⟩

theorem Retry.run_readToken_eq_ok_iff {b token rest : Bytes} :
    readToken.run b = .ok token rest ↔ rest.length = IntegrityTag.length ∧ b = token ++ rest := by
  simp only [readToken, Reader.run_bind_eq_ok_iff, Reader.run_need_eq_ok_iff, Reader.run_remaining_eq_ok_iff,
    Reader.run_lift_eq_ok_iff, Reader.run_take_eq_ok_iff, Word.sub_eq_ok_iff, and_assoc, exists_and_left,
    exists_eq_left', exists_const]
  constructor
  · intro success
    obtain ⟨enough, _, counted, rfl⟩ := success
    rw [List.length_append] at enough counted
    exact ⟨by omega, rfl⟩
  · intro split
    obtain ⟨width, rfl⟩ := split
    have enough : IntegrityTag.length ≤ (token ++ rest).length := by
      rw [List.length_append, width]
      exact Nat.le_add_left _ _
    have counted : token.length = (token ++ rest).length - IntegrityTag.length := by
      rw [List.length_append, width, Nat.add_sub_cancel]
    exact ⟨enough, enough, counted, rfl⟩

theorem IntegrityTag.ofBytes?_eq_some_iff {b : Bytes} {tag : IntegrityTag} : ofBytes? b = some tag ↔ b = tag.bytes :=
  Bytes.checked_eq_some_iff IntegrityTag.mk IntegrityTag.bytes IntegrityTag.length_eq (fun _ => rfl) (fun _ _ => rfl)

theorem Retry.run_read_eq_ok_iff {b rest : Bytes} {p : Retry} :
    read.run b = .ok p rest ↔ rest = [] ∧ p.Spelled b := by
  simp only [read, Reader.run_atomic_eq_ok_iff, Reader.run_bind_eq_ok_iff, LongHeader.run_read_eq_ok_iff,
    Reader.run_check_eq_ok_iff, LongHeader.checkType_eq_ok_iff, run_readToken_eq_ok_iff,
    Reader.run_take_eq_ok_iff, Reader.run_require_eq_ok_iff, IntegrityTag.ofBytes?_eq_some_iff,
    Reader.run_pure_eq_ok_iff, and_assoc, exists_and_left, exists_eq_left, exists_eq_left']
  constructor
  · intro success
    obtain ⟨⟨first, word, dcid, scid⟩, long, _, rfl, known, fixed, typed, token, _, width, rfl, _, taken, left,
      rfl, tag, rfl, rfl, rfl⟩ := success
    dsimp only at known
    subst known
    rw [List.length_append, taken] at width
    have nothing : left = [] := List.eq_nil_of_length_eq_zero (by omega)
    subst nothing
    exact ⟨rfl, first, (FirstByte.announces_retry_iff first).mpr ⟨long, fixed, typed⟩, rfl, by simp⟩
  · intro spelled
    obtain ⟨rfl, first, announces, version, rfl⟩ := spelled
    obtain ⟨long, fixed, typed⟩ := (FirstByte.announces_retry_iff first).mp announces
    have width := p.tag.length_eq
    refine ⟨_, long, p.token ++ p.tag.bytes, List.append_assoc _ _ _, rfl, fixed, typed, p.token, p.tag.bytes,
      width, rfl, p.tag.bytes, width, [], (List.append_nil _).symm, p.tag, rfl, ?_, rfl⟩
    rw [← version]

@[simp] theorem VersionNegotiation.words_cons (word : UInt32) (more : List UInt32) :
    words (word :: more) = beBytes 4 word.toNat ++ words more := rfl

theorem VersionNegotiation.run_readWords_eq_ok_iff {n : Nat} {b rest : Bytes} {offered : List UInt32} :
    (readWords n).run b = .ok offered rest ↔ offered.length = n ∧ b = words offered ++ rest := by
  induction n generalizing b rest offered with
  | zero =>
    rw [readWords, Reader.run_pure_eq_ok_iff, List.length_eq_zero_iff]
    constructor
    · intro ⟨nothing, same⟩
      exact ⟨nothing.symm, by rw [← nothing, same]; rfl⟩
    · intro ⟨nothing, same⟩
      exact ⟨nothing.symm, by rw [same, nothing]; rfl⟩
  | succ n ih =>
    simp only [readWords, Reader.run_bind_eq_ok_iff, Reader.run_word32_eq_ok_iff, ih,
      Reader.run_pure_eq_ok_iff, and_assoc, exists_and_left]
    constructor
    · intro success
      obtain ⟨word, _, rfl, more, rfl, _, rfl, rfl, rfl⟩ := success
      exact ⟨rfl, by simp⟩
    · intro spelled
      obtain ⟨count, rfl⟩ := spelled
      obtain ⟨word, more, rfl⟩ := List.exists_cons_of_length_pos (by omega : 0 < offered.length)
      exact ⟨word, words more ++ rest, by simp, more, Nat.succ.inj count, rest, rfl, rfl, rfl⟩

theorem VersionNegotiation.length_words (offered : List UInt32) :
    (words offered).length = 4 * offered.length := by
  induction offered with
  | nil => rfl
  | cons word more ih =>
    rw [words_cons, List.length_append, length_beBytes, List.length_cons]
    omega

theorem VersionNegotiation.checkVersion_eq_ok_iff (header : LongHeader) (u : Unit) :
    checkVersion header = .ok u ↔ header.version = Version.v0.toWire := by
  by_cases zero : header.version = Version.v0.toWire <;> simp [checkVersion, zero]

theorem VersionNegotiation.checkRoom_eq_ok_iff (room : Nat) (u : Unit) :
    checkRoom room = .ok u ↔ room ≠ 0 ∧ room % 4 = 0 := by
  by_cases whole : room ≠ 0 ∧ room % 4 = 0 <;> simp [checkRoom, whole]

theorem VersionNegotiation.run_read_eq_ok_iff {b rest : Bytes} {p : VersionNegotiation} :
    read.run b = .ok p rest ↔ rest = [] ∧ p.Spelled b := by
  simp only [read, Reader.run_atomic_eq_ok_iff, Reader.run_bind_eq_ok_iff, LongHeader.run_read_eq_ok_iff,
    Reader.run_check_eq_ok_iff, checkVersion_eq_ok_iff, checkRoom_eq_ok_iff, Reader.run_remaining_eq_ok_iff,
    run_readWords_eq_ok_iff, Reader.run_pure_eq_ok_iff, and_assoc, exists_and_left, exists_eq_left',
    exists_const]
  constructor
  · intro success
    obtain ⟨⟨first, word, dcid, scid⟩, long, _, rfl, known, some, whole, offered, count, left, rfl, rfl,
      rfl⟩ := success
    dsimp only at known
    subst known
    -- The words are counted by the room, and no part of a word is left over.
    rw [List.length_append, length_words] at some whole count
    have nothing : left = [] := List.eq_nil_of_length_eq_zero (by omega)
    subst nothing
    refine ⟨rfl, first, (FirstByte.announces_versionNegotiation_iff first).mpr long, ?_, by simp⟩
    intro empty
    dsimp only at empty
    subst empty
    simp at some
  · intro spelled
    obtain ⟨rfl, first, announces, some, rfl⟩ := spelled
    have long := (FirstByte.announces_versionNegotiation_iff first).mp announces
    have positive := List.length_pos_iff.mpr some
    have room : (words p.offered).length = 4 * p.offered.length := length_words _
    exact ⟨_, long, words p.offered, rfl, rfl, by omega, by omega, p.offered, by omega, [],
      (List.append_nil _).symm, rfl, rfl⟩

theorem Short.checkForm_eq_ok_iff (first : UInt8) (u : Unit) :
    checkForm first = .ok u ↔ FirstByte.isLong first = false ∧ FirstByte.isFixed first = true := by
  by_cases short : ¬ FirstByte.isLong first ∧ FirstByte.isFixed first <;> simp_all [checkForm]

theorem Short.run_read_eq_ok_iff {ctx : ParseContext} {decode : FrameDecoder F} {b rest : Bytes}
    {p : Short F} :
    (read ctx decode).run b = .ok p rest ↔
      rest = [] ∧ (∀ first ∈ b.head?, FirstByte.pnLength first + ctx.tagLen < Word.size) ∧
        p.Spelled ctx decode b := by
  simp only [read, Reader.run_atomic_eq_ok_iff, Reader.run_bind_eq_ok_iff, Reader.run_need_eq_ok_iff,
    Reader.run_byte_eq_ok_iff, Reader.run_check_eq_ok_iff, checkForm_eq_ok_iff,
    FirstByte.checkReserved_eq_ok_iff, ConnectionId.run_take_eq_ok_iff, Prod.exists,
    Body.run_read_eq_ok_iff, Reader.run_pure_eq_ok_iff, and_assoc, exists_and_left, exists_eq_left',
    exists_const]
  constructor
  · intro success
    obtain ⟨_, first, _, rfl, short, fixed, reserved, dcid, width, body, rfl, pn, frames, _, rfl, fits, spelled,
      rfl, rfl⟩ := success
    have announces := (FirstByte.announces_oneRtt_iff first).mpr ⟨short, fixed, reserved⟩
    refine ⟨rfl, ?_, first, body, announces, rfl, rfl, width, spelled, rfl⟩
    intro other head
    cases head
    exact fits
  · intro grammar
    obtain ⟨rfl, fits, first, body, announces, spin, keyPhase, width, spelled, rfl⟩ := grammar
    obtain ⟨short, fixed, reserved⟩ := (FirstByte.announces_oneRtt_iff first).mp announces
    have enough : 1 ≤ (first :: p.dcid.bytes ++ body).length := Nat.succ_le_succ (Nat.zero_le _)
    refine ⟨enough, first, p.dcid.bytes ++ body, rfl, short, fixed, reserved, p.dcid, width, body, rfl,
      p.packetNumber, p.frames, [], rfl, fits first rfl, spelled, ?_, rfl⟩
    cases p
    dsimp only at spin keyPhase
    subst spin keyPhase
    rfl

end QuicWire.Packet

import QuicWire.Proofs.Dispatch
import QuicWire.ProtectedHeader

set_option autoImplicit false

namespace QuicWire

namespace ProtectedHeader

/-- A header in front of a packet number that is still hidden, `rest` bytes before the end of its packet. -/
def beforeNumber (bits : UInt8) (version : Option Version) (dcid : ConnectionId) (scid : Option ConnectionId)
    (token : Option Bytes) (offset rest : Nat) : ProtectedHeader where
  bits
  version
  dcid
  scid
  token
  length := offset + PacketNumber.maxLength
  pnOffset := some offset
  packetLen := some (offset + rest)

def TokenField (t : PacketType) (token : Option Bytes) (field : Bytes) : Prop :=
  (token.isSome = true ↔ t = .initial) ∧ Packet.Long.Tokened token field

/-- `front` are the bytes of a header up to its packet number, and `behind` more follow. -/
inductive Clear (dcidLen : Nat) : Bytes → Nat → ProtectedHeader → Prop where
  | short {bits : UInt8} {dcid : ConnectionId} {front : Bytes} {behind : Nat}
      (form : FirstByte.isLong bits = false) (fixed : FirstByte.isFixed bits = true)
      (width : dcid.length = dcidLen) (room : front.length + PacketNumber.maxLength < Word.size)
      (spelled : front = bits :: dcid.bytes) :
      Clear dcidLen front behind (beforeNumber bits none dcid none none front.length behind)
  | long {bits : UInt8} {dcid scid : ConnectionId} {token : Option Bytes} {field code front : Bytes}
      {rest behind : Nat} (form : FirstByte.isLong bits = true) (fixed : FirstByte.isFixed bits = true)
      (delimited : (PacketType.ofLongBits .v1 bits).isDelimited = true)
      (tokened : TokenField (PacketType.ofLongBits .v1 bits) token field) (encodes : VarInt.Encodes rest code)
      (enough : rest ≤ behind) (room : front.length + PacketNumber.maxLength < Word.size)
      (fits : front.length + rest < Word.size)
      (spelled : front = Packet.LongHeader.encode ⟨bits, Version.v1.toWire, dcid, scid⟩ ++ field ++ code) :
      Clear dcidLen front behind (beforeNumber bits (some .v1) dcid (some scid) token front.length rest)

-- Without a packet number there is nothing to remove, so that the latch is set from the start.
def whole (bits : UInt8) (version : Version) (dcid scid : ConnectionId) (token : Option Bytes) (total : Nat) :
    ProtectedHeader where
  bits
  version := some version
  dcid
  scid := some scid
  token
  length := total
  packetLen := some total
  unprotected := true

inductive Bare : Bytes → ProtectedHeader → Prop where
  | retry {bits : UInt8} {dcid scid : ConnectionId} {token tag b : Bytes}
      (form : FirstByte.isLong bits = true) (fixed : FirstByte.isFixed bits = true)
      (typed : PacketType.ofLongBits .v1 bits = .retry) (width : tag.length = Packet.IntegrityTag.length)
      (spelled : b = Packet.LongHeader.encode ⟨bits, Version.v1.toWire, dcid, scid⟩ ++ token ++ tag) :
      Bare b (whole bits .v1 dcid scid (some token) b.length)
  | versionNegotiation {bits : UInt8} {dcid scid : ConnectionId} {words b : Bytes}
      (form : FirstByte.isLong bits = true)
      (spelled : b = Packet.LongHeader.encode ⟨bits, Version.v0.toWire, dcid, scid⟩ ++ words) :
      Bare b (whole bits .v0 dcid scid none b.length)

section Success

variable {b rest : Bytes} {info : ProtectedHeader}

theorem run_consumed_eq_ok_iff {total n : Nat} :
    (consumed total).run b = .ok n rest ↔ b.length ≤ total ∧ total - b.length = n ∧ b = rest := by
  simp only [consumed, Reader.run_bind_eq_ok_iff, Reader.run_remaining_eq_ok_iff, Reader.run_lift_eq_ok_iff,
    Word.sub_eq_ok_iff, and_assoc, exists_and_left, exists_eq_left']

theorem run_consumed_append (front rest : Bytes) :
    (consumed (front ++ rest).length).run rest = .ok front.length rest := by
  rw [run_consumed_eq_ok_iff, List.length_append]
  exact ⟨Nat.le_add_left _ _, Nat.add_sub_cancel _ _, rfl⟩

theorem run_provisionalLength_eq_ok_iff {offset n : Nat} :
    (provisionalLength offset).run b = .ok n rest ↔
      offset + PacketNumber.maxLength < Word.size ∧ offset + PacketNumber.maxLength = n ∧ b = rest := by
  simp only [provisionalLength, Reader.run_lift_eq_ok_iff, Word.fit_eq_ok_iff, and_assoc]

theorem typeOf_eq_ok_iff {header : Packet.LongHeader} {version : Version} {t : PacketType} :
    typeOf header = .ok (version, t) ↔ header.version = version.toWire ∧
      (version = .v0 ∨ FirstByte.isFixed header.first = true) ∧ PacketType.ofLongBits version header.first = t := by
  rw [← Version.ofWire?_eq_some_iff]
  unfold typeOf
  cases Version.ofWire? header.version with
  | none => simp
  | some known =>
    by_cases agrees : known = .v0 ∨ FirstByte.isFixed header.first = true
    · simp only [agrees, if_true, Except.ok.injEq, Prod.mk.injEq, Option.some.injEq]
      constructor
      · rintro ⟨rfl, rfl⟩
        exact ⟨rfl, agrees, rfl⟩
      · rintro ⟨rfl, -, rfl⟩
        exact ⟨rfl, rfl⟩
    · simp only [agrees, if_false, Option.some.injEq]
      constructor
      · nofun
      · rintro ⟨rfl, other, -⟩
        exact absurd other agrees

theorem run_readToken_eq_ok_iff {t : PacketType} (delimited : t.isDelimited = true) {token : Option Bytes} :
    (readToken t).run b = .ok token rest ↔ ∃ field, TokenField t token field ∧ b = field ++ rest := by
  cases t with
  | initial =>
    simp only [readToken, Reader.run_map_eq_ok_iff, VarInt.run_readCounted_eq_ok_iff]
    constructor
    next =>
      intro success
      obtain ⟨content, ⟨count, encodes, rfl⟩, rfl⟩ := success
      exact ⟨count ++ content, ⟨iff_of_true rfl rfl, count, encodes, rfl⟩, rfl⟩
    next =>
      intro spelled
      obtain ⟨field, ⟨isSome_iff, tokened⟩, rfl⟩ := spelled
      obtain ⟨content, rfl⟩ := Option.isSome_iff_exists.mp (isSome_iff.mpr rfl)
      obtain ⟨count, encodes, rfl⟩ := tokened
      exact ⟨content, ⟨count, encodes, rfl⟩, rfl⟩
  | zeroRtt | handshake =>
    simp only [readToken, Reader.run_pure_eq_ok_iff]
    constructor
    next =>
      intro success
      obtain ⟨rfl, rfl⟩ := success
      exact ⟨[], ⟨by decide, rfl⟩, rfl⟩
    next =>
      intro spelled
      obtain ⟨field, ⟨isSome_iff, tokened⟩, rfl⟩ := spelled
      cases token with
      | none =>
        cases tokened
        exact ⟨rfl, rfl⟩
      | some content => cases isSome_iff.mp rfl
  | retry | versionNegotiation | oneRtt => cases delimited

theorem delimited_or_retry (bits : UInt8) :
    (PacketType.ofLongBits .v1 bits).isDelimited = true ∨ PacketType.ofLongBits .v1 bits = .retry := by
  revert bits
  decide +kernel

theorem isNumbered_of_isDelimited {t : PacketType} (delimited : t.isDelimited = true) : t.isNumbered = true := by
  cases t <;> first | rfl | cases delimited

theorem run_readShort_eq_ok_iff {dcidLen : Nat} :
    (∃ rest, (readShort b.length dcidLen).run b = .ok info rest) ↔ ∃ bits dcid front tail,
      b = front ++ tail ∧ FirstByte.isFixed bits = true ∧ dcid.length = dcidLen ∧
      front.length + PacketNumber.maxLength < Word.size ∧ front = bits :: dcid.bytes ∧
      info = beforeNumber bits none dcid none none front.length tail.length := by
  simp only [readShort, Reader.run_bind_eq_ok_iff, Reader.run_byte_eq_ok_iff]
  constructor
  · intro success
    obtain ⟨rest, bits, mid, rfl, success⟩ := success
    split at success
    next fixed =>
      simp only [Reader.run_bind_eq_ok_iff, ConnectionId.run_take_eq_ok_iff, Reader.run_pure_eq_ok_iff] at success
      obtain ⟨dcid, _, ⟨width, rfl⟩, offset, _, counted, _, _, provisional, rfl, rfl⟩ := success
      rw [← List.cons_append, run_consumed_append] at counted
      cases counted
      rw [run_provisionalLength_eq_ok_iff] at provisional
      obtain ⟨room, rfl, rfl⟩ := provisional
      refine ⟨bits, dcid, bits :: dcid.bytes, _, rfl, fixed, width, room, rfl, ?_⟩
      rw [← List.cons_append, List.length_append]
      rfl
    next => cases success
  · intro spelled
    obtain ⟨bits, dcid, front, tail, rfl, fixed, width, room, rfl, rfl⟩ := spelled
    refine ⟨tail, bits, dcid.bytes ++ tail, rfl, ?_⟩
    simp only [fixed, if_true, Reader.run_bind_eq_ok_iff, ConnectionId.run_take_eq_ok_iff,
      Reader.run_pure_eq_ok_iff]
    refine ⟨dcid, tail, ⟨width, rfl⟩, _, tail, run_consumed_append _ _, _, tail,
      run_provisionalLength_eq_ok_iff.mpr ⟨room, rfl, rfl⟩, ?_, rfl⟩
    rw [List.length_append]
    rfl

theorem clear_or_bare_of_run_readLong {dcidLen : Nat} (success : (readLong b.length).run b = .ok info rest) :
    (∃ front tail, b = front ++ tail ∧ Clear dcidLen front tail.length info) ∨ Bare b info := by
  simp only [readLong, Reader.run_bind_eq_ok_iff, Packet.LongHeader.run_read_eq_ok_iff,
    Reader.run_check_eq_ok_iff, Prod.exists, typeOf_eq_ok_iff] at success
  obtain ⟨⟨first, word, dcid, scid⟩, mid, ⟨form, rfl⟩, version, t, _, ⟨⟨known, fixed, rfl⟩, rfl⟩, token, after,
    tokened, success⟩ := success
  dsimp only at known fixed tokened success form
  subst known
  cases version with
  | v0 =>
    obtain ⟨rfl, rfl⟩ := Reader.run_pure_eq_ok_iff.mp tokened
    obtain ⟨rfl, rfl⟩ := Reader.run_pure_eq_ok_iff.mp success
    exact .inr (.versionNegotiation form rfl)
  | v1 =>
    have fixed : FirstByte.isFixed first = true := fixed.resolve_left (by decide)
    rcases delimited_or_retry first with delimited | typed
    · left
      obtain ⟨field, spelled, rfl⟩ := (run_readToken_eq_ok_iff delimited).mp tokened
      simp only [isNumbered_of_isDelimited delimited, if_true, Reader.run_bind_eq_ok_iff,
        Reader.run_need_eq_ok_iff, Reader.run_lift_eq_ok_iff, Reader.run_pure_eq_ok_iff,
        run_provisionalLength_eq_ok_iff, Word.fit_eq_ok_iff] at success
      obtain ⟨n, _, counted, _, tail, ⟨enough, rfl⟩, offset, _, consumed, _, _, ⟨room, rfl, rfl⟩, _, _,
        ⟨⟨fits, rfl⟩, rfl⟩, rfl, rfl⟩ := success
      obtain ⟨code, encodes, rfl⟩ := VarInt.encodes_of_run_read counted
      -- Brackets around all that was read, so that its length is the offset.
      rw [← List.append_assoc, ← List.append_assoc] at consumed ⊢
      rw [run_consumed_append] at consumed
      cases consumed
      exact ⟨_, _, rfl, .long form fixed delimited spelled encodes enough room fits rfl⟩
    · right
      simp only [typed, readToken, Reader.run_map_eq_ok_iff, Packet.Retry.run_readToken_eq_ok_iff] at tokened
      obtain ⟨token, ⟨width, rfl⟩, rfl⟩ := tokened
      rw [typed] at success
      obtain ⟨rfl, rfl⟩ := Reader.run_pure_eq_ok_iff.mp success
      exact .retry form fixed typed width (List.append_assoc _ _ _).symm

theorem run_readLong_of_clear {dcidLen : Nat} {front tail : Bytes} (form : FirstByte.isLong info.bits = true)
    (clear : Clear dcidLen front tail.length info) :
    (readLong (front ++ tail).length).run (front ++ tail) = .ok info tail := by
  cases clear with
  | short other =>
    exact absurd (form.symm.trans other) (by decide)
  | @long bits dcid scid token field code _ n _ _ fixed delimited tokened encodes enough room fits spelled =>
    simp only [readLong, Reader.run_bind_eq_ok_iff, Packet.LongHeader.run_read_eq_ok_iff,
      Reader.run_check_eq_ok_iff, Prod.exists, typeOf_eq_ok_iff]
    have split : front ++ tail =
        Packet.LongHeader.encode ⟨bits, Version.v1.toWire, dcid, scid⟩ ++ (field ++ (code ++ tail)) := by
      simp only [spelled, List.append_assoc]
    refine ⟨⟨bits, Version.v1.toWire, dcid, scid⟩, field ++ (code ++ tail), ⟨form, split⟩, .v1, _, _,
      ⟨⟨rfl, .inr fixed, rfl⟩, rfl⟩, token, code ++ tail,
      (run_readToken_eq_ok_iff delimited).mpr ⟨field, tokened, rfl⟩, ?_⟩
    simp only [isNumbered_of_isDelimited delimited, if_true, Reader.run_bind_eq_ok_iff,
      Reader.run_need_eq_ok_iff, Reader.run_lift_eq_ok_iff, Reader.run_pure_eq_ok_iff,
      run_provisionalLength_eq_ok_iff, Word.fit_eq_ok_iff]
    exact ⟨n, tail, (VarInt.takes_read encodes).run_append tail, (), tail, ⟨enough, rfl⟩, front.length, tail,
      run_consumed_append front tail, _, tail, ⟨room, rfl, rfl⟩, _, tail, ⟨⟨fits, rfl⟩, rfl⟩, rfl, rfl⟩

theorem run_readLong_of_bare (bare : Bare b info) : ∃ rest, (readLong b.length).run b = .ok info rest := by
  simp only [readLong, Reader.run_bind_eq_ok_iff, Packet.LongHeader.run_read_eq_ok_iff,
    Reader.run_check_eq_ok_iff, Prod.exists, typeOf_eq_ok_iff]
  cases bare with
  | @retry bits dcid scid token tag _ form fixed typed width spelled =>
    have tokened : (readToken .retry).run (token ++ tag) = .ok (some token) tag := by
      simp only [readToken, Reader.run_map_eq_ok_iff, Packet.Retry.run_readToken_eq_ok_iff]
      exact ⟨token, ⟨width, rfl⟩, rfl⟩
    exact ⟨tag, ⟨bits, Version.v1.toWire, dcid, scid⟩, token ++ tag,
      ⟨form, spelled.trans (List.append_assoc _ _ _)⟩, .v1, .retry, token ++ tag,
      ⟨⟨rfl, .inr fixed, typed⟩, rfl⟩, some token, tag, tokened, rfl⟩
  | @versionNegotiation bits dcid scid words _ form spelled =>
    exact ⟨words, ⟨bits, Version.v0.toWire, dcid, scid⟩, words, ⟨form, spelled⟩, .v0, .versionNegotiation, words,
      ⟨⟨rfl, .inl rfl, rfl⟩, rfl⟩, none, words, rfl, rfl⟩

theorem Clear.front_eq {dcidLen behind : Nat} {front : Bytes} (h : Clear dcidLen front behind info) :
    ∃ more, front = info.bits :: more := by
  cases h with
  | short _ _ _ _ spelled => exact ⟨_, spelled⟩
  | long _ _ _ _ _ _ _ _ spelled => exact ⟨_, spelled⟩

theorem Bare.bits_eq (h : Bare b info) : FirstByte.isLong info.bits = true ∧ ∃ more, b = info.bits :: more := by
  cases h with
  | retry form _ _ _ spelled => exact ⟨form, _, spelled⟩
  | versionNegotiation form spelled => exact ⟨form, _, spelled⟩

theorem peek_of_head {dcidLen : Nat} {first : UInt8} {more : Bytes} (head : b = first :: more) :
    peek b dcidLen = if FirstByte.isLong first then (readLong b.length).eval b
      else (readShort b.length dcidLen).eval b := by
  subst head
  rfl

theorem peek_eq_ok_iff {dcidLen : Nat} :
    peek b dcidLen = .ok info ↔
      (∃ front tail, b = front ++ tail ∧ Clear dcidLen front tail.length info) ∨ Bare b info := by
  constructor
  · intro peeked
    cases b with
    | nil => cases peeked
    | cons first more =>
      rw [peek_of_head rfl] at peeked
      split at peeked
      next form =>
        obtain ⟨rest, success⟩ := Reader.eval_eq_ok_iff.mp peeked
        exact clear_or_bare_of_run_readLong success
      next form =>
        obtain ⟨bits, dcid, front, tail, split, fixed, width, room, spelled, rfl⟩ :=
          run_readShort_eq_ok_iff.mp (Reader.eval_eq_ok_iff.mp peeked)
        have same : first = bits := by
          rw [spelled] at split
          exact (List.cons.inj split).1
        rw [same, Bool.not_eq_true] at form
        exact .inl ⟨front, tail, split, .short form fixed width room spelled⟩
  · rintro (⟨front, tail, rfl, clear⟩ | bare)
    · obtain ⟨more, head⟩ := clear.front_eq
      rw [peek_of_head (by rw [head, List.cons_append])]
      cases form : FirstByte.isLong info.bits with
      | true => exact Reader.eval_eq_ok_iff.mpr ⟨tail, run_readLong_of_clear form clear⟩
      | false =>
        cases clear with
        | short _ fixed width room spelled =>
          exact Reader.eval_eq_ok_iff.mpr (run_readShort_eq_ok_iff.mpr
            ⟨_, _, front, tail, rfl, fixed, width, room, spelled, rfl⟩)
        | long other => exact absurd (other.symm.trans form) (by decide)
    · obtain ⟨form, more, head⟩ := bare.bits_eq
      rw [peek_of_head head, if_pos form]
      exact Reader.eval_eq_ok_iff.mpr (run_readLong_of_bare bare)

end Success

end ProtectedHeader

end QuicWire

import QuicWire.Packet.LongHeader
import QuicWire.Proofs.FirstByte
import QuicWire.Proofs.VarInt

set_option autoImplicit false

namespace QuicWire

theorem Bytes.checked_eq_some_iff {α : Type} {p : Bytes → Prop} [DecidablePred p] (mk : (b : Bytes) → p b → α)
    (bytes : α → Bytes) (valid : ∀ a, p (bytes a)) (mk_bytes : ∀ a, mk (bytes a) (valid a) = a)
    (bytes_mk : ∀ b h, bytes (mk b h) = b) {b : Bytes} {a : α} :
    (if h : p b then some (mk b h) else none) = some a ↔ b = bytes a := by
  constructor
  next =>
    intro checked
    obtain ⟨h, made⟩ := Option.dite_none_right_eq_some.mp checked
    rw [← Option.some.inj made, bytes_mk]
  next =>
    rintro rfl
    rw [dif_pos (valid a), mk_bytes]

namespace ConnectionId

def encode (cid : ConnectionId) : Bytes :=
  UInt8.ofNat cid.length :: cid.bytes

theorem length_encode (cid : ConnectionId) : cid.encode.length = 1 + cid.length := by
  rw [encode, List.length_cons, length, Nat.add_comm]

theorem toNat_ofNat_length (cid : ConnectionId) : (UInt8.ofNat cid.length).toNat = cid.length := by
  rw [UInt8.toNat_ofNat']
  exact Nat.mod_eq_of_lt (Nat.lt_succ_of_le cid.length_le)

theorem ofBytes?_eq_some_iff {b : Bytes} {cid : ConnectionId} : ofBytes? b = some cid ↔ b = cid.bytes :=
  Bytes.checked_eq_some_iff ConnectionId.mk ConnectionId.bytes ConnectionId.length_le (fun _ => rfl) (fun _ _ => rfl)

theorem run_take_eq_ok_iff {n : Nat} {b rest : Bytes} {cid : ConnectionId} :
    (take n).run b = .ok cid rest ↔ cid.length = n ∧ b = cid.bytes ++ rest := by
  simp only [take, Reader.run_bind_eq_ok_iff, Reader.run_need_eq_ok_iff, Reader.run_take_eq_ok_iff,
    Reader.run_require_eq_ok_iff, ofBytes?_eq_some_iff, and_assoc, exists_and_left, exists_eq_left',
    exists_const]
  constructor
  · intro success
    obtain ⟨_, front, width, _, rfl, rfl, rfl⟩ := success
    exact ⟨width, rfl⟩
  · intro spelled
    obtain ⟨rfl, rfl⟩ := spelled
    have enough : cid.length ≤ (cid.bytes ++ rest).length := by
      rw [List.length_append]
      exact Nat.le_add_right _ _
    exact ⟨enough, cid.bytes, rfl, rest, rfl, rfl, rfl⟩

theorem run_read_eq_ok_iff {b rest : Bytes} {cid : ConnectionId} :
    read.run b = .ok cid rest ↔ b = cid.encode ++ rest := by
  simp only [read, Reader.run_bind_eq_ok_iff, Reader.run_need_eq_ok_iff, Reader.run_byte_eq_ok_iff,
    run_take_eq_ok_iff, and_assoc, exists_and_left, exists_eq_left', exists_const]
  constructor
  · intro success
    obtain ⟨_, count, _, rfl, width, rfl⟩ := success
    rw [encode, width, UInt8.ofNat_toNat, List.cons_append]
  · intro spelled
    subst spelled
    exact ⟨by simp [encode], UInt8.ofNat cid.length, cid.bytes ++ rest, rfl, cid.toNat_ofNat_length.symm, rfl⟩

theorem takes_take (cid : ConnectionId) : Reader.Takes (take cid.length) cid.bytes (pure cid) := by
  apply Reader.Takes.afterNeed rfl
  intro rest
  rw [EStateM.run_bind, Reader.run_take_append (n := cid.length) cid.bytes rest rfl]
  simp only [ofBytes?_bytes]
  rfl

theorem takes_read (cid : ConnectionId) : Reader.Takes read cid.encode (pure cid) := by
  have counted : Reader.Takes (do Reader.need 1; let length ← Reader.byte; take length.toNat)
      [UInt8.ofNat cid.length] (take cid.length) := by
    apply Reader.Takes.afterNeed (List.length_singleton).symm
    intro rest
    rw [List.singleton_append, EStateM.run_bind, Reader.run_byte_cons]
    dsimp only
    rw [toNat_ofNat_length]
  exact counted.trans cid.takes_take

end ConnectionId

namespace VarInt

theorem run_readCounted_eq_ok_iff {b content rest : Bytes} :
    readCounted.run b = .ok content rest ↔
      ∃ code, Encodes content.length code ∧ b = code ++ content ++ rest := by
  simp only [readCounted, Reader.run_bind_eq_ok_iff, Reader.run_need_eq_ok_iff, Reader.run_take_eq_ok_iff,
    and_assoc, exists_and_left, exists_eq_left', exists_const]
  constructor
  · intro success
    obtain ⟨_, _, counted, _, rfl, rfl⟩ := success
    obtain ⟨code, encodes, rfl⟩ := encodes_of_run_read counted
    exact ⟨code, encodes, (List.append_assoc _ _ _).symm⟩
  · intro spelled
    obtain ⟨code, encodes, rfl⟩ := spelled
    rw [List.append_assoc]
    exact ⟨content.length, content ++ rest, (takes_read encodes).run_append _, by simp, rfl, rfl⟩

theorem takes_readCounted {content code : Bytes} (encodes : Encodes content.length code) :
    Reader.Takes readCounted (code ++ content) (pure content) := by
  apply (takes_read encodes).andThen
  apply Reader.Takes.afterNeed rfl
  exact fun rest => Reader.run_take_append content rest rfl

end VarInt

namespace Packet.LongHeader

def encode (header : LongHeader) : Bytes :=
  header.first :: beBytes 4 header.version.toNat ++ (header.dcid.encode ++ header.scid.encode)

theorem length_encode (header : LongHeader) :
    header.encode.length = 7 + header.dcid.length + header.scid.length := by
  simp only [encode, List.length_append, List.length_cons, length_beBytes, ConnectionId.length_encode]
  omega

theorem run_write_encode (header : LongHeader) (out : Bytes) :
    header.write.run out = .ok () (out ++ header.encode) := by
  rw [run_write]
  simp [encode, ConnectionId.encode]

theorem run_read_eq_ok_iff {b rest : Bytes} {header : LongHeader} :
    read.run b = .ok header rest ↔ FirstByte.isLong header.first = true ∧ b = header.encode ++ rest := by
  simp only [read, Reader.run_bind_eq_ok_iff, Reader.run_need_eq_ok_iff, Reader.run_byte_eq_ok_iff,
    and_assoc, exists_and_left, exists_eq_left', exists_const]
  constructor
  · intro success
    obtain ⟨_, first, _, rfl, success⟩ := success
    split at success
    next long =>
      simp only [Reader.run_bind_eq_ok_iff, Reader.run_word32_eq_ok_iff, ConnectionId.run_read_eq_ok_iff,
        Reader.run_pure_eq_ok_iff] at success
      obtain ⟨version, _, rfl, dcid, _, rfl, scid, _, rfl, rfl, rfl⟩ := success
      exact ⟨long, by simp [encode]⟩
    next => cases success
  · intro spelled
    obtain ⟨long, rfl⟩ := spelled
    have enough : 5 ≤ (header.encode ++ rest).length := by
      rw [List.length_append, length_encode]
      omega
    refine ⟨enough, header.first, _, rfl, ?_⟩
    simp only [long, if_true, Reader.run_bind_eq_ok_iff, Reader.run_word32_eq_ok_iff,
      ConnectionId.run_read_eq_ok_iff, Reader.run_pure_eq_ok_iff]
    exact ⟨header.version, _, List.append_assoc _ _ _, header.dcid, _, List.append_assoc _ _ _,
      header.scid, _, rfl, rfl, rfl⟩

theorem takes_read {header : LongHeader} (long : FirstByte.isLong header.first = true) :
    Reader.Takes read header.encode (pure header) := by
  let identifiers : Reader LongHeader := do
    let dcid ← ConnectionId.read
    let scid ← ConnectionId.read
    return { header with dcid, scid }
  have fixed : Reader.Takes read (header.first :: beBytes 4 header.version.toNat) identifiers := by
    apply Reader.Takes.afterNeed (by rw [List.length_cons, length_beBytes])
    intro rest
    have word : Reader.word32.run (beBytes 4 header.version.toNat ++ rest) = .ok header.version rest := by
      rw [Reader.run_word32_eq_ok_iff]
    rw [List.cons_append, EStateM.run_bind, Reader.run_byte_cons]
    simp only [long, if_true]
    rw [EStateM.run_bind, word]
  have both : Reader.Takes identifiers (header.dcid.encode ++ (header.scid.encode ++ [])) (pure header) :=
    header.dcid.takes_read.andThen (header.scid.takes_read.andThen (.refl _))
  rw [List.append_nil] at both
  exact fixed.trans both

theorem checkType_eq_ok_iff {header : LongHeader} {t : PacketType} {version : Version} :
    header.checkType t = .ok version ↔ version = .v1 ∧ header.version = Version.v1.toWire ∧
      FirstByte.isFixed header.first = true ∧ PacketType.ofLongBits .v1 header.first = t := by
  constructor
  · intro h
    unfold checkType at h
    match known : Version.ofWire? header.version with
    | none => simp [known] at h
    | some .v0 => simp [known] at h
    | some .v1 =>
      simp only [known] at h
      split at h
      next agrees =>
        cases h
        exact ⟨rfl, (Version.ofWire?_eq_some_iff _ _).mp known, agrees⟩
      next => cases h
  · intro given
    obtain ⟨rfl, word, agrees⟩ := given
    have known : Version.ofWire? header.version = some .v1 := by rw [word, Version.ofWire?_toWire]
    simp [checkType, known, agrees]

end Packet.LongHeader

end QuicWire

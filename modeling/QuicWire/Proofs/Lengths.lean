import QuicWire.Proofs.Wire

set_option autoImplicit false

namespace QuicWire

namespace VarInt

theorem length_shortest {v n : Nat} (h : size v = .ok n) : (shortest v).length = n := by
  simp only [shortest, h, length_beBytes]

theorem size_mono {v w n m : Nat} (le : v ≤ w) (small : size v = .ok n) (large : size w = .ok m) :
    n ≤ m := by
  grind [size]

end VarInt

namespace Packet

theorem LongHeader.length_encode_eq (header : LongHeader) :
    header.encode.length = encodedLen header.dcid header.scid := by
  rw [length_encode, encodedLen]
  omega

variable {F : Type}

theorem Long.length_tokenWire {token : Option Bytes} {n : Nat} (h : tokenLen token = .ok n) :
    (tokenWire token).length = n := by
  cases token with
  | none => cases h; rfl
  | some token =>
    simp only [tokenLen, bind_eq_ok_iff] at h
    obtain ⟨k, size, total⟩ := h
    cases total
    rw [tokenWire, List.length_append, VarInt.length_shortest size]

variable [Frame F]

theorem Long.lenWith_eq_ok_iff {p : Long F} {token : Option Bytes} {pnLen tagLen n : Nat} :
    p.lenWith token pnLen tagLen = .ok n ↔
      ∃ front, p.fixedLen token = .ok front ∧
        ∃ k, VarInt.size (pnLen + p.payloadLen + tagLen) = .ok k ∧
          front + k + (pnLen + p.payloadLen + tagLen) = n := by
  simp only [lenWith, bind_eq_ok_iff, pure, Except.pure, Except.ok.injEq]

theorem Long.lenWith_add_le {p : Long F} {token : Option Bytes} {short long tagLen n m : Nat}
    (le : short ≤ long) (exact : p.lenWith token short tagLen = .ok n)
    (longest : p.lenWith token long tagLen = .ok m) : n + long ≤ m + short := by
  obtain ⟨front, fixed, k, small, rfl⟩ := lenWith_eq_ok_iff.mp exact
  obtain ⟨_, same, l, large, rfl⟩ := lenWith_eq_ok_iff.mp longest
  cases fixed.symm.trans same
  have sizes : k ≤ l := VarInt.size_mono (by omega) small large
  omega

theorem Long.lenWith_pos {p : Long F} {token : Option Bytes} {pnLen tagLen n : Nat}
    (h : p.lenWith token pnLen tagLen = .ok n) : 0 < n := by
  obtain ⟨front, fixed, k, -, rfl⟩ := lenWith_eq_ok_iff.mp h
  obtain ⟨between, -, rfl⟩ := fixedLen_eq_ok_iff.mp fixed
  rw [LongHeader.encodedLen]
  omega

theorem Long.length_of_headerWire {p : Long F} {t : PacketType} {token : Option Bytes}
    {largest : Option Nat} {tagLen n : Nat} {header : Bytes}
    (wrote : p.headerWire t token largest tagLen = .ok (header, n)) :
    header.length = n ∧ ∃ pnLen, PacketNumber.encodedLen p.packetNumber largest = .ok pnLen ∧
      p.lenWith token pnLen tagLen = .ok (n + p.payloadLen + tagLen) := by
  simp only [headerWire, bind_eq_ok_iff] at wrote
  obtain ⟨pnLen, number, first, -, front, fixed, k, size, wrote⟩ := wrote
  cases wrote
  constructor
  · obtain ⟨between, counted, rfl⟩ := fixedLen_eq_ok_iff.mp fixed
    simp only [List.length_append, LongHeader.length_encode_eq, length_tokenWire counted,
      VarInt.length_shortest size, length_beBytes]
    omega
  · exact ⟨pnLen, number, lenWith_eq_ok_iff.mpr ⟨front, fixed, k, size, by omega⟩⟩

def pnLen (p : Packet F) (largest : Option Nat) : Except Error Nat :=
  match p.packetNumber with
  | none => .ok 0
  | some pn => PacketNumber.encodedLen pn largest

def lenWith (p : Packet F) (pnLen tagLen : Nat) : Except Error Nat :=
  match p with
  | initial p => p.lenWith (some p.token) pnLen tagLen
  | zeroRtt p | handshake p => p.lenWith none pnLen tagLen
  | retry p => .ok p.encodedLen
  | versionNegotiation p => .ok p.encodedLen
  | oneRtt p => .ok (p.lenWith pnLen tagLen)

theorem encodedLen_eq (p : Packet F) (largest : Option Nat) (tagLen : Nat) :
    p.encodedLen largest tagLen = p.pnLen largest >>= (p.lenWith · tagLen) := by
  cases p <;> rfl

theorem maxEncodedLen_eq (p : Packet F) (tagLen : Nat) :
    p.maxEncodedLen tagLen = p.lenWith PacketNumber.maxLength tagLen := by
  cases p <;> rfl

theorem encodedLen_eq_ok_iff {p : Packet F} {largest : Option Nat} {tagLen n : Nat} :
    p.encodedLen largest tagLen = .ok n ↔
      ∃ pnLen, p.pnLen largest = .ok pnLen ∧ p.lenWith pnLen tagLen = .ok n := by
  rw [encodedLen_eq, bind_eq_ok_iff]

omit [Frame F] in
theorem pnLen_le {p : Packet F} {largest : Option Nat} {n : Nat} (h : p.pnLen largest = .ok n) :
    n ≤ PacketNumber.maxLength := by
  unfold pnLen at h
  split at h
  next => cases h; exact Nat.zero_le _
  next => exact (PacketNumber.encodedLen_bounds h).2.1

theorem lenWith_add_le {p : Packet F} {short long tagLen n m : Nat} (numbered : p.type.isNumbered = true)
    (le : short ≤ long) (exact : p.lenWith short tagLen = .ok n) (longest : p.lenWith long tagLen = .ok m) :
    n + long ≤ m + short := by
  cases p with
  | initial p => exact Long.lenWith_add_le le exact longest
  | zeroRtt p | handshake p => exact Long.lenWith_add_le le exact longest
  | retry p | versionNegotiation p => cases numbered
  | oneRtt p =>
    cases exact
    cases longest
    simp only [Short.lenWith]
    omega

theorem lenWith_mono {p : Packet F} {short long tagLen n m : Nat} (le : short ≤ long)
    (exact : p.lenWith short tagLen = .ok n) (longest : p.lenWith long tagLen = .ok m) : n ≤ m := by
  cases numbered : p.type.isNumbered with
  | true =>
    have added := lenWith_add_le numbered le exact longest
    omega
  | false =>
    cases p with
    | retry p | versionNegotiation p =>
      cases exact
      cases longest
      exact Nat.le_refl _
    | initial | zeroRtt | handshake | oneRtt => cases numbered

theorem lenWith_pos {p : Packet F} {pnLen tagLen n : Nat} (h : p.lenWith pnLen tagLen = .ok n) : 0 < n := by
  cases p with
  | initial p => exact Long.lenWith_pos h
  | zeroRtt p | handshake p => exact Long.lenWith_pos h
  | retry p =>
    cases h
    rw [Retry.encodedLen, LongHeader.encodedLen]
    omega
  | versionNegotiation p =>
    cases h
    rw [VersionNegotiation.encodedLen, LongHeader.encodedLen]
    omega
  | oneRtt p =>
    cases h
    rw [Short.lenWith]
    omega

theorem encodedLen_pos {p : Packet F} {largest : Option Nat} {tagLen n : Nat}
    (exact : p.encodedLen largest tagLen = .ok n) : 0 < n := by
  obtain ⟨pnLen, -, total⟩ := encodedLen_eq_ok_iff.mp exact
  exact lenWith_pos total

theorem encodedLen_le_maxEncodedLen {p : Packet F} {largest : Option Nat} {tagLen n m : Nat}
    (exact : p.encodedLen largest tagLen = .ok n) (longest : p.maxEncodedLen tagLen = .ok m) : n ≤ m := by
  obtain ⟨pnLen, number, total⟩ := encodedLen_eq_ok_iff.mp exact
  rw [maxEncodedLen_eq] at longest
  exact lenWith_mono (pnLen_le number) total longest

theorem length_of_headerWire {p : Packet F} {largest : Option Nat} {tagLen n : Nat} {header : Bytes}
    (wrote : p.headerWire largest tagLen = .ok (header, n)) :
    header.length = n ∧ ∃ pnLen, p.pnLen largest = .ok pnLen ∧
      p.lenWith pnLen tagLen = .ok (n + p.payloadWire.2 + if p.type.isNumbered then tagLen else 0) := by
  cases p with
  | initial p => exact Long.length_of_headerWire wrote
  | zeroRtt p | handshake p => exact Long.length_of_headerWire wrote
  | retry p =>
    simp only [headerWire, bind_eq_ok_iff] at wrote
    obtain ⟨first, -, wrote⟩ := wrote
    cases wrote
    -- The count leaves out the integrity tag, which is the payload.
    have front : p.encodedLen - IntegrityTag.length = LongHeader.encodedLen p.dcid p.scid + p.token.length :=
      Nat.add_sub_cancel _ _
    rw [front, List.length_append, LongHeader.length_encode_eq]
    exact ⟨rfl, 0, rfl, rfl⟩
  | versionNegotiation p =>
    cases wrote
    exact ⟨LongHeader.length_encode_eq _, 0, rfl, rfl⟩
  | oneRtt p =>
    simp only [headerWire, bind_eq_ok_iff] at wrote
    obtain ⟨pnLen, number, wrote⟩ := wrote
    cases wrote
    refine ⟨?_, pnLen, number, rfl⟩
    simp only [List.length_cons, List.length_append, length_beBytes, ConnectionId.length]
    omega

theorem length_of_wire [LawfulFrame F] {p : Packet F} {largest : Option Nat} {tagLen n : Nat} {bytes : Bytes}
    (wrote : p.wire largest tagLen = .ok (bytes, n)) :
    bytes.length = n ∧
      p.encodedLen largest tagLen = .ok (n + if p.type.isNumbered then tagLen else 0) := by
  obtain ⟨header, headerLen, headed, rfl, rfl⟩ := wire_eq_ok_iff.mp wrote
  obtain ⟨length, predicted⟩ := length_of_headerWire headed
  exact ⟨by rw [List.length_append, length, p.length_payloadWire], encodedLen_eq_ok_iff.mpr predicted⟩

end Packet

end QuicWire

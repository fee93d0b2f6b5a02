import QuicWire.Frame.Samples
import QuicWire.Proofs.Lengths

set_option autoImplicit false

namespace QuicWire

namespace VarInt

theorem size_le_add {v w n m : Nat} (near : w ≤ v + 3) (small : size v = .ok n) (large : size w = .ok m) :
    m ≤ n + 4 := by
  grind [size]

end VarInt

namespace Packet

variable {F : Type} [Frame F]

theorem Long.lenWith_of_le {p : Long F} {token : Option Bytes} {short long tagLen m : Nat} (le : short ≤ long)
    (longest : p.lenWith token long tagLen = .ok m) : ∃ n, p.lenWith token short tagLen = .ok n := by
  obtain ⟨front, fixed, k, size, -⟩ := lenWith_eq_ok_iff.mp longest
  have inside := VarInt.lt_limit_of_size size
  obtain ⟨j, shorter⟩ : ∃ j, VarInt.size (short + p.payloadLen + tagLen) = .ok j :=
    VarInt.size_eq_ok_of_lt (by omega)
  exact ⟨_, lenWith_eq_ok_iff.mpr ⟨front, fixed, j, shorter, rfl⟩⟩

theorem Long.lenWith_le_add {p : Long F} {token : Option Bytes} {short long tagLen n m : Nat}
    (near : long ≤ short + 3) (exact : p.lenWith token short tagLen = .ok n)
    (longest : p.lenWith token long tagLen = .ok m) : m ≤ n + 7 := by
  obtain ⟨front, fixed, k, small, rfl⟩ := lenWith_eq_ok_iff.mp exact
  obtain ⟨_, same, l, large, rfl⟩ := lenWith_eq_ok_iff.mp longest
  cases fixed.symm.trans same
  have sizes : l ≤ k + 4 := VarInt.size_le_add (by omega) small large
  omega

theorem Long.limit_of_lenWith_error {p : Long F} {token : Option Bytes} {short long tagLen n : Nat}
    {cause : Error} (exact : p.lenWith token short tagLen = .ok n)
    (longest : p.lenWith token long tagLen = .error cause) :
    short + p.payloadLen + tagLen < VarInt.limit ∧ VarInt.limit ≤ long + p.payloadLen + tagLen := by
  obtain ⟨front, fixed, k, small, -⟩ := lenWith_eq_ok_iff.mp exact
  refine ⟨VarInt.lt_limit_of_size small, ?_⟩
  cases large : VarInt.size (long + p.payloadLen + tagLen) with
  | error => exact VarInt.limit_le_of_size_error large
  | ok l =>
    have total := lenWith_eq_ok_iff.mpr ⟨front, fixed, l, large, rfl⟩
    simp [total] at longest

theorem lenWith_of_le {p : Packet F} {short long tagLen m : Nat} (le : short ≤ long)
    (longest : p.lenWith long tagLen = .ok m) : ∃ n, p.lenWith short tagLen = .ok n := by
  cases p with
  | initial p => exact Long.lenWith_of_le le longest
  | zeroRtt p | handshake p => exact Long.lenWith_of_le le longest
  | retry p | versionNegotiation p | oneRtt p => exact ⟨_, rfl⟩

theorem lenWith_le_add {p : Packet F} {short long tagLen n m : Nat}
    (near : p.type.isNumbered = true → long ≤ short + 3) (exact : p.lenWith short tagLen = .ok n)
    (longest : p.lenWith long tagLen = .ok m) : m ≤ n + 7 := by
  cases p with
  | initial p => exact Long.lenWith_le_add (near rfl) exact longest
  | zeroRtt p | handshake p => exact Long.lenWith_le_add (near rfl) exact longest
  | retry p | versionNegotiation p =>
    cases exact
    cases longest
    omega
  | oneRtt p =>
    cases exact
    cases longest
    have := near rfl
    simp only [Short.lenWith]
    omega

theorem limit_of_lenWith_error {p : Packet F} {short long tagLen n : Nat} {cause : Error}
    (exact : p.lenWith short tagLen = .ok n) (longest : p.lenWith long tagLen = .error cause) :
    ∃ pn payloadLen, p.packetNumber = some pn ∧ p.payloadLen = some payloadLen ∧
      short + payloadLen + tagLen < VarInt.limit ∧ VarInt.limit ≤ long + payloadLen + tagLen := by
  cases p with
  | initial p => exact ⟨_, _, rfl, rfl, Long.limit_of_lenWith_error exact longest⟩
  | zeroRtt p | handshake p => exact ⟨_, _, rfl, rfl, Long.limit_of_lenWith_error exact longest⟩
  | retry p | versionNegotiation p | oneRtt p => cases longest

omit [Frame F] in
theorem pnLen_eq_ok {p : Packet F} {largest : Option Nat}
    (number : ∀ pn ∈ p.packetNumber, ∃ k, PacketNumber.encodedLen pn largest = .ok k) :
    ∃ k, p.pnLen largest = .ok k := by
  unfold pnLen
  split
  next => exact ⟨0, rfl⟩
  next pn numbered => exact number pn numbered

omit [Frame F] in
theorem one_le_pnLen {p : Packet F} {largest : Option Nat} {k : Nat} (h : p.pnLen largest = .ok k)
    (numbered : p.type.isNumbered = true) : 1 ≤ k := by
  rw [← p.packetNumber_isSome] at numbered
  unfold pnLen at h
  split at h
  next unnumbered => simp [unnumbered] at numbered
  next => exact (PacketNumber.encodedLen_bounds h).1

structure Wrote (p : Packet F) (largest : Option Nat) (tagLen : Nat) (out left : Bytes) (n : Nat)
    (header payload : Bytes) : Prop where
  header_run : (p.writeHeader largest tagLen).run out = .ok header.length (out ++ header)
  payload_run : p.writePayload.run (out ++ header) = .ok payload.length left
  left_eq : left = out ++ (header ++ payload)
  count_eq : n = header.length + payload.length
  encodedLen_eq : p.encodedLen largest tagLen = .ok (n + if p.type.isNumbered then tagLen else 0)

theorem wrote_of_run_write [LawfulFrame F] {p : Packet F} {largest : Option Nat} {tagLen n : Nat}
    {out left : Bytes} (h : (p.write largest tagLen).run out = .ok n left) :
    ∃ header payload, p.Wrote largest tagLen out left n header payload := by
  obtain ⟨bytes, wrote, rfl⟩ := (p.denotes_write largest tagLen).run_ok h
  have predicted := (length_of_wire wrote).2
  obtain ⟨header, headerLen, headed, rfl, rfl⟩ := wire_eq_ok_iff.mp wrote
  have counted : header.length = headerLen := (length_of_headerWire headed).1
  have header_run := p.denotes_writeHeader largest tagLen
  have payload_run := p.appends_writePayload (out ++ header)
  rw [headed, ← counted] at header_run
  rw [← p.length_payloadWire, List.append_assoc] at payload_run
  rw [← p.length_payloadWire, ← counted] at predicted ⊢
  exact ⟨header, p.payloadWire.1, header_run out, payload_run, rfl, rfl, predicted⟩

theorem encodedLen_near_maxEncodedLen {p : Packet F} {tagLen m : Nat} (longest : p.maxEncodedLen tagLen = .ok m)
    {largest : Option Nat} (number : ∀ pn ∈ p.packetNumber, ∃ k, PacketNumber.encodedLen pn largest = .ok k) :
    ∃ e, p.encodedLen largest tagLen = .ok e ∧ e ≤ m ∧ m ≤ e + 7 := by
  have worst := longest
  rw [maxEncodedLen_eq] at worst
  obtain ⟨k, numbered⟩ := pnLen_eq_ok number
  obtain ⟨e, total⟩ := lenWith_of_le (pnLen_le numbered) worst
  have exact : p.encodedLen largest tagLen = .ok e := encodedLen_eq_ok_iff.mpr ⟨k, numbered, total⟩
  refine ⟨e, exact, encodedLen_le_maxEncodedLen exact longest, lenWith_le_add ?_ total worst⟩
  intro hasNumber
  have low := one_le_pnLen numbered hasNumber
  have : PacketNumber.maxLength = 4 := rfl
  omega

theorem limit_of_maxEncodedLen_error {p : Packet F} {largest : Option Nat} {tagLen e : Nat} {cause : Error}
    (exact : p.encodedLen largest tagLen = .ok e) (longest : p.maxEncodedLen tagLen = .error cause) :
    ∃ pn k payloadLen, p.packetNumber = some pn ∧ PacketNumber.encodedLen pn largest = .ok k ∧
      p.payloadLen = some payloadLen ∧ k + payloadLen + tagLen < VarInt.limit ∧
      VarInt.limit ≤ PacketNumber.maxLength + payloadLen + tagLen := by
  obtain ⟨k, number, total⟩ := encodedLen_eq_ok_iff.mp exact
  rw [maxEncodedLen_eq] at longest
  obtain ⟨pn, payloadLen, numbered, counted, bounds⟩ := limit_of_lenWith_error total longest
  rw [pnLen, numbered] at number
  exact ⟨pn, k, payloadLen, numbered, number, counted, bounds⟩

theorem lengths_predicted [LawfulFrame F] (p : Packet F) (tagLen : Nat) :
    (∀ largest out left n, (p.write largest tagLen).run out = .ok n left →
      ∃ header payload, p.Wrote largest tagLen out left n header payload) ∧
    (∀ m, p.maxEncodedLen tagLen = .ok m → ∀ largest,
      (∀ pn ∈ p.packetNumber, ∃ k, PacketNumber.encodedLen pn largest = .ok k) →
      ∃ e, p.encodedLen largest tagLen = .ok e ∧ e ≤ m ∧ m ≤ e + 7) ∧
    (∀ largest e cause, p.encodedLen largest tagLen = .ok e → p.maxEncodedLen tagLen = .error cause →
      ∃ pn k payloadLen, p.packetNumber = some pn ∧ PacketNumber.encodedLen pn largest = .ok k ∧
        p.payloadLen = some payloadLen ∧ k + payloadLen + tagLen ≤ 2 ^ 62 - 1 ∧
        2 ^ 62 - 1 < 4 + payloadLen + tagLen) := by
  refine ⟨?_, ?_, ?_⟩
  · intro largest out left n wrote
    exact wrote_of_run_write wrote
  · intro m longest largest number
    exact encodedLen_near_maxEncodedLen longest number
  · intro largest e cause exact longest
    obtain ⟨pn, k, payloadLen, numbered, number, counted, inside, outside⟩ :=
      limit_of_maxEncodedLen_error exact longest
    have limit_eq : VarInt.limit = 2 ^ 62 := rfl
    have : PacketNumber.maxLength = 4 := rfl
    exact ⟨pn, k, payloadLen, numbered, number, counted, by omega, by omega⟩

theorem lengths_predicted_initial :
    let p : Packet RawPayload := .initial
      { version := .v1, dcid := ⟨[7, 8], by decide⟩, scid := ⟨[], by decide⟩, packetNumber := 5,
        frames := [⟨List.replicate 60 6⟩], token := [9] }
    let left : Bytes := [1, 0xc0, 0, 0, 0, 1, 2, 7, 8, 0, 1, 9, 63, 5] ++ List.replicate 60 6
    (p.write (some 4) 2).run [1] = .ok 73 left ∧
      (∃ header payload, p.Wrote (some 4) 2 [1] left 73 header payload) ∧
      p.maxEncodedLen 2 = .ok 79 ∧ ∃ e, p.encodedLen (some 4) 2 = .ok e ∧ e ≤ 79 ∧ 79 ≤ e + 7 := by
  intro p left
  have wrote : (p.write (some 4) 2).run [1] = .ok 73 left := rfl
  have longest : p.maxEncodedLen 2 = .ok 79 := rfl
  have number : ∀ pn ∈ p.packetNumber, ∃ k, PacketNumber.encodedLen pn (some 4) = .ok k := by
    rintro _ ⟨⟩
    exact ⟨1, rfl⟩
  obtain ⟨written, near, -⟩ := lengths_predicted p 2
  exact ⟨wrote, written _ _ _ _ wrote, longest, near 79 longest (some 4) number⟩

end Packet

end QuicWire

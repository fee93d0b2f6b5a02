import QuicWire.Proofs.Agreement

set_option autoImplicit false

namespace QuicWire

namespace FirstByte

theorem xor_and_of_disjoint {first m covered kept : UInt8} (disjoint : covered &&& kept = 0) :
    (first ^^^ (m &&& covered)) &&& kept = first &&& kept := by
  have distributed : (first ^^^ (m &&& covered)) &&& kept = (first &&& kept) ^^^ ((m &&& covered) &&& kept) := by
    rw [← UInt8.toNat_inj]
    simp only [UInt8.toNat_and, UInt8.toNat_xor, Nat.and_xor_distrib_right]
  rw [distributed, UInt8.and_assoc, disjoint, UInt8.and_zero, UInt8.xor_zero]

theorem isLong_masked (m first : UInt8) : isLong (masked m first) = isLong first := by
  have disjoint : (if isLong first then 0x0f else 0x1f : UInt8) &&& formBit = 0 := by
    split <;> rfl
  rw [isLong, masked, xor_and_of_disjoint disjoint]
  rfl

theorem isFixed_masked (m first : UInt8) : isFixed (masked m first) = isFixed first := by
  have disjoint : (if isLong first then 0x0f else 0x1f : UInt8) &&& fixedBit = 0 := by
    split <;> rfl
  rw [isFixed, masked, xor_and_of_disjoint disjoint]
  rfl

theorem ofLongBits_masked (m : UInt8) {first : UInt8} (form : isLong first = true) :
    PacketType.ofLongBits .v1 (masked m first) = PacketType.ofLongBits .v1 first := by
  have disjoint : (if isLong first then 0x0f else 0x1f : UInt8) &&& 0x30 = 0 := by
    rw [if_pos form]
    rfl
  simp only [PacketType.ofLongBits, masked, xor_and_of_disjoint disjoint]

theorem masked_masked (m first : UInt8) : masked m (masked m first) = first := by
  have same := isLong_masked m first
  rw [masked, same, masked, UInt8.xor_assoc, UInt8.xor_self, UInt8.xor_zero]

end FirstByte

namespace ProtectedHeader

/-- `b'` is what `b` may be under a mask: from the packet number on, any bytes may stand in it. -/
structure Masked (m : UInt8) (offset : Nat) (b b' : Bytes) : Prop where
  length_eq : b'.length = b.length
  head?_eq : b'.head? = b.head?.map (FirstByte.masked m)
  getElem?_eq : ∀ i, 1 ≤ i → i < offset → b'[i]? = b[i]?

theorem Masked.exists_tail {m first : UInt8} {more tail b' : Bytes}
    (h : Masked m (first :: more).length (first :: more ++ tail) b') :
    ∃ tail', b' = FirstByte.masked m first :: more ++ tail' ∧ tail'.length = tail.length := by
  obtain ⟨length_eq, head?_eq, getElem?_eq⟩ := h
  cases b' with
  | nil => cases head?_eq
  | cons first' rest =>
    cases head?_eq
    simp only [List.length_cons, List.length_append] at length_eq
    have front : rest.take more.length = more := by
      apply List.ext_getElem?
      intro i
      by_cases inside : i < more.length
      · have same := getElem?_eq (i + 1) (Nat.succ_le_succ (Nat.zero_le i)) (Nat.succ_lt_succ inside)
        rw [List.cons_append, List.getElem?_cons_succ, List.getElem?_cons_succ,
          List.getElem?_append_left inside] at same
        rw [List.getElem?_take_of_lt inside, same]
      · rw [List.getElem?_eq_none (Nat.le_of_not_lt inside),
          List.getElem?_eq_none (Nat.le_trans (List.length_take_le _ _) (Nat.le_of_not_lt inside))]
    refine ⟨rest.drop more.length, ?_, ?_⟩
    · have split := List.take_append_drop more.length rest
      rw [front] at split
      rw [List.cons_append, split]
    · rw [List.length_drop]
      omega

theorem Clear.masked {dcidLen behind : Nat} {first : UInt8} {more : Bytes} {info : ProtectedHeader}
    (h : Clear dcidLen (first :: more) behind info) (m : UInt8) :
    Clear dcidLen (FirstByte.masked m first :: more) behind { info with bits := FirstByte.masked m first } := by
  cases h with
  | short form fixed width room spelled =>
    cases spelled
    rw [← FirstByte.isLong_masked m] at form
    rw [← FirstByte.isFixed_masked m] at fixed
    exact .short form fixed width room rfl
  | long form fixed delimited tokened encodes enough room fits spelled =>
    cases spelled
    rw [← FirstByte.isFixed_masked m] at fixed
    rw [← FirstByte.ofLongBits_masked m form] at delimited tokened
    rw [← FirstByte.isLong_masked m] at form
    exact .long form fixed delimited tokened encodes enough room fits rfl

theorem isNumbered_of_bare {b : Bytes} {info : ProtectedHeader} (h : Bare b info) :
    info.type.isNumbered = false := by
  cases h with
  | retry _ _ typed =>
    dsimp only [type, whole]
    rw [typed]
    rfl
  | versionNegotiation => rfl

theorem Clear.eq_beforeNumber {dcidLen behind : Nat} {front : Bytes} {info : ProtectedHeader}
    (h : Clear dcidLen front behind info) :
    ∃ bits version dcid scid token rest, info = beforeNumber bits version dcid scid token front.length rest := by
  cases h <;> exact ⟨_, _, _, _, _, _, rfl⟩

theorem peek_masked {b : Bytes} {dcidLen : Nat} {info : ProtectedHeader} (peeked : peek b dcidLen = .ok info)
    (numbered : info.type.isNumbered = true) :
    ∃ first offset, b.head? = some first ∧ info.pnOffset = some offset ∧ ∀ m b', Masked m offset b b' →
      ∃ info', peek b' dcidLen = .ok info' ∧ info' = { info with bits := info'.bits } ∧
        info'.removeProtection m = info.removeProtection 0 ∧ (info.removeProtection 0).bits = first ∧
        (info.removeProtection 0).length = offset + (first &&& 3).toNat + 1 := by
  rcases peek_eq_ok_iff.mp peeked with ⟨front, tail, rfl, clear⟩ | bare
  · obtain ⟨first, version, dcid, scid, token, rest, rfl⟩ := clear.eq_beforeNumber
    obtain ⟨more, head⟩ : ∃ more, front = first :: more := clear.front_eq
    subst head
    refine ⟨first, (first :: more).length, rfl, rfl, ?_⟩
    intro m b' hidden
    -- The other input is spelled by the same fields behind the masked first byte.
    obtain ⟨tail', rfl, width⟩ := hidden.exists_tail
    have masked := clear.masked m
    rw [← width] at masked
    refine ⟨_, peek_eq_ok_iff.mpr (.inl ⟨_, tail', rfl, masked⟩), rfl, ?_, ?_, ?_⟩
    · show (beforeNumber (FirstByte.masked m first) version dcid scid token _ rest).removeProtection m = _
      rw [removeProtection_beforeNumber, FirstByte.masked_masked, removeProtection_zero]
    · rw [removeProtection_zero]
      rfl
    · rw [removeProtection_zero]
      rfl
  · rw [isNumbered_of_bare bare] at numbered
    cases numbered

theorem peek_masked_initial :
    let b : Bytes := [0xc1, 0, 0, 0, 1, 2, 7, 8, 0, 1, 9, 3, 5, 6, 0]
    let b' : Bytes := [0xcb, 0, 0, 0, 1, 2, 7, 8, 0, 1, 9, 3, 0xf0, 0xf1, 0xf2]
    let info : ProtectedHeader :=
      beforeNumber 0xc1 (some .v1) ⟨[7, 8], by decide⟩ (some ⟨[], by decide⟩) (some [9]) 12 3
    peek b 2 = .ok info ∧ info.type.isNumbered = true ∧ Masked 0x5a 12 b b' ∧
      ∃ info', peek b' 2 = .ok info' ∧ info' = { info with bits := info'.bits } ∧
        info'.removeProtection 0x5a = info.removeProtection 0 ∧ (info.removeProtection 0).bits = 0xc1 ∧
        (info.removeProtection 0).length = 14 := by
  intro b b' info
  have peeked : peek b 2 = .ok info := by rfl
  have numbered : info.type.isNumbered = true := by decide
  have clear : ∀ i < 12, 1 ≤ i → b'[i]? = b[i]? := by decide
  have hidden : Masked 0x5a 12 b b' := ⟨rfl, rfl, fun i low high => clear i high low⟩
  obtain ⟨first, offset, head, offset_eq, unmasks⟩ := peek_masked peeked numbered
  cases head
  cases offset_eq
  exact ⟨peeked, numbered, hidden, unmasks _ _ hidden⟩

end ProtectedHeader

end QuicWire

import QuicWire.Proofs.Overrun

set_option autoImplicit false

namespace QuicWire

namespace Reader

variable {α β : Type} {b : Bytes} {P : Error → Prop}

/-- Every cause for which the reader refuses this input is one of `P`. -/
def Refuses (r : Reader α) (b : Bytes) (P : Error → Prop) : Prop :=
  ∀ cause left, r.run b = .error (.refused cause) left → P cause

theorem refuses_bind_iff {r : Reader α} {f : α → Reader β} :
    Refuses (r >>= f) b P ↔ Refuses r b P ∧ ∀ a mid, r.run b = .ok a mid → Refuses (f a) mid P := by
  unfold Refuses
  rw [EStateM.run_bind]
  cases r.run b <;> simp

theorem refuses_pure (a : α) : Refuses (pure a) b P := nofun

theorem refuses_remaining : Refuses remaining b P := nofun

theorem refuses_lift_iff {x : Except Failure α} :
    Refuses (lift x) b P ↔ ∀ cause, x = .error (.refused cause) → P cause := by
  unfold Refuses
  cases x <;> simp

theorem refuses_check_iff {x : Except Error α} : Refuses (check x) b P ↔ ∀ cause, x = .error cause → P cause := by
  unfold Refuses
  cases x <;> simp

theorem refuses_byte : Refuses byte b P := by
  cases b <;> nofun

theorem refuses_take (n : Nat) : Refuses (take n) b P := by
  intro cause left
  rw [run_take]
  split <;> nofun

theorem refuses_skip (n : Nat) : Refuses (skip n) b P := by
  intro cause left
  rw [run_skip]
  split <;> nofun

theorem refuses_word32 : Refuses word32 b P :=
  refuses_bind_iff.mpr ⟨refuses_take 4, fun _ _ _ => refuses_pure _⟩

theorem refuses_map_iff {f : α → β} {r : Reader α} : Refuses (f <$> r) b P ↔ Refuses r b P := by
  unfold Refuses
  rw [run_map]
  cases r.run b <;> simp

theorem refuses_atomic_iff {r : Reader α} : Refuses (atomic r) b P ↔ Refuses r b P := by
  unfold Refuses
  rw [run_atomic]
  cases r.run b <;> simp

theorem refuses_within_iff {inner : Bytes} {r : Reader α} : Refuses (within inner r) b P ↔ Refuses r inner P := by
  unfold Refuses within
  simp only [EStateM.run]
  cases r inner <;> simp

section Violation

variable (violation : P .violation)

include violation

theorem refuses_refuse_violation : Refuses (refuse .violation : Reader α) b P := by
  rintro _ _ ⟨⟩
  exact violation

theorem refused_by_guard {c : Prop} [Decidable c] :
    ∀ cause, (if c then .ok () else .error .violation : Except Error Unit) = .error cause → P cause := by
  intro cause refused
  split at refused <;> cases refused
  exact violation

theorem refuses_require (x : Option α) : Refuses (require x .violation) b P := by
  cases x with
  | none => exact refuses_refuse_violation violation
  | some a => exact refuses_pure a

theorem refuses_need (n : Nat) : Refuses (need n) b P := by
  intro cause left refused
  rw [run_need] at refused
  split at refused <;> cases refused
  exact violation

end Violation

end Reader

open Reader

namespace Word

theorem fit_ne_refused (n : Nat) (cause : Error) : fit n ≠ .error (.refused cause) := by
  unfold fit
  split <;> nofun

theorem sub_ne_refused (a b : Nat) (cause : Error) : sub a b ≠ .error (.refused cause) := by
  unfold sub
  split <;> nofun

end Word

section Fields

variable {P : Error → Prop} (violation : P .violation)

include violation

theorem VarInt.refuses_read (b : Bytes) : Refuses read b P := by
  cases b with
  | nil =>
    rintro _ _ ⟨⟩
    exact violation
  | cons first rest =>
    intro cause left refused
    rw [run_read_cons] at refused
    dsimp only at refused
    split at refused <;> cases refused
    exact violation

theorem VarInt.refuses_readCounted (b : Bytes) : Refuses readCounted b P := by
  simp only [readCounted, refuses_bind_iff]
  exact ⟨refuses_read violation b, fun n _ _ => ⟨refuses_need violation n, fun _ _ _ => refuses_take n⟩⟩

theorem ConnectionId.refuses_take (n : Nat) (b : Bytes) : Refuses (take n) b P := by
  simp only [take, refuses_bind_iff]
  exact ⟨refuses_need violation n, fun _ _ _ => ⟨Reader.refuses_take n, fun _ _ _ => refuses_require violation _⟩⟩

theorem ConnectionId.refuses_read (b : Bytes) : Refuses read b P := by
  simp only [read, refuses_bind_iff]
  exact ⟨refuses_need violation 1, fun _ _ _ => ⟨refuses_byte, fun length mid _ => refuses_take violation _ mid⟩⟩

theorem Packet.LongHeader.refuses_read (b : Bytes) : Refuses read b P := by
  simp only [read, refuses_bind_iff]
  refine ⟨refuses_need violation 5, fun _ _ _ => ⟨refuses_byte, fun first _ _ => ?_⟩⟩
  split
  · simp only [refuses_bind_iff]
    exact ⟨refuses_word32, fun _ mid _ => ⟨ConnectionId.refuses_read violation mid, fun _ mid _ =>
      ⟨ConnectionId.refuses_read violation mid, fun _ _ _ => refuses_pure _⟩⟩⟩
  · exact refuses_refuse_violation violation

theorem Packet.Retry.refuses_readToken (b : Bytes) : Refuses readToken b P := by
  simp only [readToken, refuses_bind_iff, refuses_lift_iff]
  refine ⟨refuses_need violation _, fun _ _ _ => ⟨refuses_remaining, fun _ _ _ =>
    ⟨?_, fun n _ _ => refuses_take n⟩⟩⟩
  intro cause outside
  exact absurd outside (Word.sub_ne_refused _ _ cause)

omit violation in
theorem Packet.VersionNegotiation.refuses_readWords (n : Nat) (b : Bytes) : Refuses (readWords n) b P := by
  induction n generalizing b with
  | zero => exact refuses_pure _
  | succ n ih =>
    simp only [readWords, refuses_bind_iff]
    exact ⟨refuses_word32, fun _ mid _ => ⟨ih mid, fun _ _ _ => refuses_pure _⟩⟩

end Fields

namespace PacketNumber

theorem eq_violation_of_rebuild {truncated length : Nat} {largest : Option Nat} {cause : Error}
    (lengths : 1 ≤ length ∧ length ≤ maxLength) (inside : ∀ known ∈ largest, known < limit)
    (refused : rebuild truncated length largest = .error (.refused cause)) : cause = .violation := by
  cases largest with
  | none => simp [rebuild, checkLength, lengths, checkReference, bind, Except.bind, pure, Except.pure] at refused
  | some known =>
    obtain ⟨pn, -, rebuilt⟩ := rebuild_some truncated lengths (inside known rfl)
    rw [rebuilt] at refused
    split at refused <;> cases refused
    rfl

theorem refuses_read {length : Nat} (lengths : 1 ≤ length ∧ length ≤ maxLength) {largest : Option Nat}
    {P : Error → Prop} (violation : P .violation)
    (outside : ∀ known ∈ largest, limit ≤ known → P (.valueTooLarge known)) (b : Bytes) :
    Refuses (read length largest) b P := by
  simp only [read, refuses_bind_iff, refuses_lift_iff, run_lift_eq_ok_iff, checkReference_eq_ok_iff]
  refine ⟨?_, fun _ _ _ => ⟨?_, fun _ _ referenced => ⟨refuses_need violation length, fun _ _ _ =>
    ⟨refuses_take length, fun _ _ _ => ?_⟩⟩⟩⟩
  · intro cause refused
    simp [checkLength, lengths] at refused
  · intro cause refused
    cases largest with
    | none => cases refused
    | some known =>
      by_cases inside : known < limit
      · simp [checkReference, inside] at refused
      · simp only [checkReference, if_neg inside, Except.error.injEq, Failure.refused.injEq] at refused
        rw [← refused]
        exact outside known rfl (Nat.le_of_not_lt inside)
  · intro cause refused
    rw [eq_violation_of_rebuild lengths referenced.1 refused]
    exact violation

end PacketNumber

namespace FrameDecoder

variable {F : Type} {decode : FrameDecoder F}

/-- The decoder refuses what is left of the payload behind some of its frames. -/
def RefusesIn (decode : FrameDecoder F) (payload : Bytes) (cause : Error) : Prop :=
  ∃ suffix, suffix ≠ [] ∧ suffix <:+ payload ∧ decode suffix = .error cause

theorem RefusesIn.of_suffix {payload rest : Bytes} {cause : Error} (h : decode.RefusesIn rest cause)
    (behind : rest <:+ payload) : decode.RefusesIn payload cause := by
  obtain ⟨suffix, some, within, refused⟩ := h
  exact ⟨suffix, some, within.trans behind, refused⟩

theorem RefusesIn.ne_nil {payload : Bytes} {cause : Error} (h : decode.RefusesIn payload cause) : payload ≠ [] := by
  rintro rfl
  obtain ⟨suffix, some, within, -⟩ := h
  exact some (List.suffix_nil.mp within)

theorem next_refused {payload rest : Bytes} {item : Except Failure F}
    (h : next decode payload = some (item, rest)) :
    rest <:+ payload ∧
      ∀ cause, item = .error (.refused cause) → cause = .violation ∨ decode.RefusesIn payload cause := by
  unfold next at h
  split at h
  next => cases h
  next nonempty =>
    have some : payload ≠ [] := by simpa using nonempty
    split at h
    next cause refused =>
      cases h
      refine ⟨List.nil_suffix, ?_⟩
      rintro _ ⟨⟩
      exact .inr ⟨payload, some, List.suffix_rfl, refused⟩
    next =>
      split at h
      next taken =>
        rw [Bytes.covers_iff] at taken
        rw [run_skip, if_pos taken.2] at h
        cases h
        exact ⟨List.drop_suffix _ _, nofun⟩
      next =>
        cases h
        refine ⟨List.nil_suffix, ?_⟩
        rintro _ ⟨⟩
        exact .inl rfl

theorem items_refused {payload : Bytes} {cause : Error} (member : .error (.refused cause) ∈ decode.items payload) :
    cause = .violation ∨ decode.RefusesIn payload cause := by
  induction n : payload.length using Nat.strongRecOn generalizing payload with
  | _ n ih =>
    cases h : next decode payload with
    | none =>
      rw [items_of_next_none h] at member
      cases member
    | some value =>
      obtain ⟨item, rest⟩ := value
      obtain ⟨behind, first⟩ := next_refused h
      rw [items_of_next_some h, List.mem_cons] at member
      rcases member with here | later
      · exact first cause here.symm
      · rcases ih _ (n ▸ next_length_lt h) later rfl with malformed | refused
        · exact .inl malformed
        · exact .inr (refused.of_suffix behind)

theorem decodeAll_refused {payload : Bytes} {cause : Error}
    (refused : decode.decodeAll payload = .error (.refused cause)) :
    cause = .violation ∨ decode.RefusesIn payload cause := by
  unfold decodeAll at refused
  split at refused
  next =>
    cases refused
    exact .inl rfl
  next => exact items_refused (mem_of_mapM_error refused)

end FrameDecoder

namespace Packet

variable {F : Type}

section Versions

structure UnknownVersion (b : Bytes) (word : UInt32) : Prop where
  long : ∃ first ∈ b.head?, FirstByte.isLong first = true
  room : 5 ≤ b.length
  word_eq : beValue ((b.drop 1).take 4) = word.toNat
  unknown : word ≠ 0 ∧ word ≠ 1

theorem LongHeader.version?_eq_some_iff {b : Bytes} {word : UInt32} :
    version? b = some word ↔ (∃ first ∈ b.head?, FirstByte.isLong first = true) ∧ 5 ≤ b.length ∧
      beValue ((b.drop 1).take 4) = word.toNat := by
  match b with
  | [] | [_] | [_, _] | [_, _, _] | [_, _, _, _] => simp [version?]
  | first :: v₀ :: v₁ :: v₂ :: v₃ :: rest =>
    have bound : beValue [v₀, v₁, v₂, v₃] < 2 ^ 32 := beValue_lt _
    have same : UInt32.ofNat (beValue [v₀, v₁, v₂, v₃]) = word ↔ beValue [v₀, v₁, v₂, v₃] = word.toNat := by
      rw [← UInt32.toNat_inj, UInt32.toNat_ofNat', Nat.mod_eq_of_lt bound]
    by_cases long : FirstByte.isLong first = true
    · have room : 5 ≤ (first :: v₀ :: v₁ :: v₂ :: v₃ :: rest).length := Nat.le_add_left 5 rest.length
      rw [version?, if_pos long, Option.some.injEq, same]
      exact ⟨fun word_eq => ⟨⟨first, rfl, long⟩, room, word_eq⟩, fun given => given.2.2⟩
    · simp [version?, long]

theorem ofWire?_eq_none_iff {word : UInt32} : Version.ofWire? word = none ↔ word ≠ 0 ∧ word ≠ 1 := by
  unfold Version.ofWire?
  by_cases zero : word = 0
  · simp [zero]
  · by_cases one : word = 1 <;> simp [zero, one]

theorem unknownVersion_iff {b : Bytes} {word : UInt32} :
    UnknownVersion b word ↔ LongHeader.version? b = some word ∧ Version.ofWire? word = none := by
  rw [LongHeader.version?_eq_some_iff, ofWire?_eq_none_iff]
  constructor
  · intro unknown
    exact ⟨⟨unknown.long, unknown.room, unknown.word_eq⟩, unknown.unknown⟩
  · intro given
    obtain ⟨⟨long, room, word_eq⟩, unknown⟩ := given
    exact ⟨long, room, word_eq, unknown⟩

theorem peekType_eq_none_iff {b : Bytes} : peekType b = .ok none ↔ ∃ word, UnknownVersion b word := by
  simp only [unknownVersion_iff]
  cases b with
  | nil => simp [peekType, LongHeader.version?]
  | cons first rest =>
    by_cases long : FirstByte.isLong first = true
    · cases found : LongHeader.version? (first :: rest) <;> simp [peekType, long, found]
    · have short : LongHeader.version? (first :: rest) = none := by
        unfold LongHeader.version?
        split <;> simp_all
      simp [peekType, long, short]

theorem eq_violation_of_peekType {b : Bytes} {cause : Error} (refused : peekType b = .error cause) :
    cause = .violation := by
  unfold peekType at refused
  split at refused
  next =>
    cases refused
    rfl
  next =>
    split at refused
    · split at refused <;> cases refused
      rfl
    · cases refused

theorem run_read_of_unknownVersion (ctx : ParseContext) (decode : FrameDecoder F) {b : Bytes} {word : UInt32}
    (unknown : UnknownVersion b word) :
    (read ctx decode).run b = .error (.refused (.unsupportedVersion word)) b := by
  rw [run_read, peekType_eq_none_iff.mpr ⟨word, unknown⟩]
  dsimp only
  rw [(unknownVersion_iff.mp unknown).1, Option.getD_some]

end Versions

theorem LongHeader.checkType_refused {header : LongHeader} {t : PacketType} {cause : Error}
    (refused : header.checkType t = .error cause) :
    cause = .violation ∨ Version.ofWire? header.version = none := by
  unfold checkType at refused
  split at refused
  next unknown => exact .inr unknown
  next =>
    cases refused
    exact .inl rfl
  next =>
    split at refused <;> cases refused
    exact .inl rfl

section Causes

variable {ctx : ParseContext} {decode : FrameDecoder F} {b : Bytes} {P : Error → Prop} (violation : P .violation)

section Body

variable (reference : ∀ known ∈ ctx.largest, PacketNumber.limit ≤ known → P (.valueTooLarge known))

include violation reference

theorem Body.refuses_read {first : UInt8} {body : Bytes}
    (frames : ∀ pn payload cause, Body.Spelled ctx RawPayload.decoder first pn [⟨payload⟩] body →
      decode.RefusesIn payload cause → P cause) :
    Refuses (Body.read ctx decode first) body P := by
  simp only [Body.read, refuses_bind_iff, refuses_lift_iff, run_lift_eq_ok_iff, run_need_eq_ok_iff,
    run_remaining_eq_ok_iff, run_take_eq_ok_iff, PacketNumber.run_read_eq_ok_iff, Word.sub_eq_ok_iff]
  refine ⟨fun cause outside => absurd outside (Word.fit_ne_refused _ cause), ?_⟩
  intro _ _ fitted
  obtain ⟨-, rfl⟩ := fitted
  refine ⟨refuses_need violation _, ?_⟩
  intro _ _ enough
  obtain ⟨-, rfl⟩ := enough
  have lengths : 1 ≤ FirstByte.pnLength first ∧ FirstByte.pnLength first ≤ PacketNumber.maxLength :=
    ⟨FirstByte.pnLength_pos first, FirstByte.pnLength_le first⟩
  refine ⟨PacketNumber.refuses_read lengths violation reference _, ?_⟩
  intro pn left number
  obtain ⟨number, width, rebuilt, rfl⟩ := number
  refine ⟨refuses_remaining, ?_⟩
  intro _ _ counted
  obtain ⟨rfl, rfl⟩ := counted
  refine ⟨fun cause outside => absurd outside (Word.sub_ne_refused _ _ cause), ?_⟩
  intro _ _ payloadLen
  obtain ⟨⟨room, rfl⟩, rfl⟩ := payloadLen
  refine ⟨refuses_take _, ?_⟩
  intro payload tag taken
  obtain ⟨length, rfl⟩ := taken
  refine ⟨?_, fun _ _ _ => ⟨refuses_skip _, fun _ _ _ => refuses_pure _⟩⟩
  intro cause undecoded
  rcases FrameDecoder.decodeAll_refused undecoded with rfl | refused
  · exact violation
  · -- Whatever the frames are, number, payload and tag stand where they stand.
    rw [List.length_append] at room length
    rw [← width] at rebuilt
    have whole : Body.Spelled ctx RawPayload.decoder first pn [⟨payload⟩] (number ++ (payload ++ tag)) :=
      ⟨number, payload, tag, (List.append_assoc _ _ _).symm, width, by omega, rebuilt,
        RawPayload.decodeAll_decoder refused.ne_nil⟩
    exact frames pn payload cause whole refused

theorem Short.refuses_read
    (frames : ∀ payload cause, (∃ p : Short RawPayload, p.Spelled ctx RawPayload.decoder b ∧
      p.frames = [⟨payload⟩]) → decode.RefusesIn payload cause → P cause) :
    Refuses (read ctx decode) b P := by
  simp only [read, refuses_atomic_iff, refuses_bind_iff, refuses_check_iff, run_need_eq_ok_iff, run_byte_eq_ok_iff,
    run_check_eq_ok_iff, checkForm_eq_ok_iff, FirstByte.checkReserved_eq_ok_iff, ConnectionId.run_take_eq_ok_iff]
  refine ⟨refuses_need violation 1, fun _ _ enough => ?_⟩
  obtain ⟨-, rfl⟩ := enough
  refine ⟨refuses_byte, fun first _ taken => ?_⟩
  subst taken
  refine ⟨refused_by_guard violation, fun _ _ formed => ?_⟩
  obtain ⟨⟨short, fixed⟩, rfl⟩ := formed
  refine ⟨refused_by_guard violation, fun _ _ unreserved => ?_⟩
  obtain ⟨reserved, rfl⟩ := unreserved
  refine ⟨ConnectionId.refuses_take violation _ _, fun dcid body taken => ?_⟩
  obtain ⟨width, rfl⟩ := taken
  refine ⟨Body.refuses_read violation reference ?_, fun _ _ _ => refuses_pure _⟩
  intro pn payload cause spelled refused
  have announces := (FirstByte.announces_oneRtt_iff first).mpr ⟨short, fixed, reserved⟩
  exact frames payload cause ⟨⟨_, _, dcid, pn, [⟨payload⟩]⟩,
    ⟨first, body, announces, rfl, rfl, width, spelled, rfl⟩, rfl⟩ refused

end Body

section Known

variable (known : ∀ word, ¬ UnknownVersion b word)

include violation known

theorem LongHeader.refuses_checkType {header : LongHeader} {mid : Bytes}
    (headed : LongHeader.read.run b = .ok header mid) (t : PacketType) :
    ∀ cause, header.checkType t = .error cause → P cause := by
  intro cause refused
  obtain ⟨long, rfl⟩ := LongHeader.run_read_eq_ok_iff.mp headed
  rcases checkType_refused refused with rfl | unknown
  · exact violation
  · exact absurd (unknownVersion_iff.mpr ⟨version?_encode long mid, unknown⟩) (known _)

theorem Retry.refuses_read : Refuses read b P := by
  simp only [read, refuses_atomic_iff, refuses_bind_iff, refuses_check_iff]
  exact ⟨LongHeader.refuses_read violation b, fun header mid headed =>
    ⟨LongHeader.refuses_checkType violation known headed .retry, fun _ mid _ =>
      ⟨refuses_readToken violation mid, fun _ _ _ => ⟨refuses_take _, fun _ _ _ =>
        ⟨refuses_require violation _, fun _ _ _ => refuses_pure _⟩⟩⟩⟩⟩

variable (reference : ∀ known ∈ ctx.largest, PacketNumber.limit ≤ known → P (.valueTooLarge known))

include reference

theorem Long.refuses_readWith {T : Type} {token : Reader T} (tokened : ∀ b, Refuses token b P) {t : PacketType}
    (frames : ∀ payload cause, (∃ x p rest, (readWith token t ctx RawPayload.decoder).run b = .ok (x, p) rest ∧
      p.frames = [⟨payload⟩]) → decode.RefusesIn payload cause → P cause) :
    Refuses (readWith token t ctx decode) b P := by
  simp only [readWith, refuses_bind_iff, refuses_check_iff, refuses_within_iff, run_check_eq_ok_iff]
  refine ⟨LongHeader.refuses_read violation b, fun header mid headed =>
    ⟨LongHeader.refuses_checkType violation known headed t, fun version _ typed => ?_⟩⟩
  obtain ⟨typed, rfl⟩ := typed
  refine ⟨refused_by_guard violation, fun _ _ reserved => ?_⟩
  obtain ⟨reserved, rfl⟩ := reserved
  refine ⟨tokened _, fun x behind between => ⟨VarInt.refuses_readCounted violation _, fun body rest counted =>
    ⟨Body.refuses_read violation reference ?_, fun _ _ _ => refuses_pure _⟩⟩⟩
  intro pn payload cause spelled refused
  -- The same steps go through for a decoder that takes the payload as it is.
  obtain ⟨code, encodes, -⟩ := VarInt.run_readCounted_eq_ok_iff.mp counted
  have inner := (Body.read_of_length (lt_size_of_encodes encodes)).mpr spelled
  refine frames payload cause ⟨x, ⟨version, header.dcid, header.scid, pn, [⟨payload⟩]⟩, rest, ?_, rfl⟩ refused
  simp only [readWith, run_bind_eq_ok_iff, run_check_eq_ok_iff, run_within_eq_ok_iff, run_pure_eq_ok_iff]
  exact ⟨header, mid, headed, version, mid, ⟨typed, rfl⟩, _, mid, ⟨reserved, rfl⟩, x, behind, between, body, rest,
    counted, (pn, [⟨payload⟩]), rest, ⟨inner, rfl⟩, rfl, rfl⟩

theorem Initial.refuses_read
    (frames : ∀ payload cause, (∃ p rest, (read ctx RawPayload.decoder).run b = .ok p rest ∧
      p.frames = [⟨payload⟩]) → decode.RefusesIn payload cause → P cause) :
    Refuses (read ctx decode) b P := by
  simp only [read, refuses_atomic_iff, refuses_bind_iff]
  refine ⟨Long.refuses_readWith violation known reference (VarInt.refuses_readCounted violation) ?_,
    fun _ _ _ => refuses_pure _⟩
  intro payload cause carried
  obtain ⟨token, p, rest, success, same⟩ := carried
  refine frames payload cause ⟨⟨p, token⟩, rest, ?_, same⟩
  simp only [read, run_atomic_eq_ok_iff, run_bind_eq_ok_iff, run_pure_eq_ok_iff]
  exact ⟨_, rest, success, rfl, rfl⟩

theorem Long.refuses_read {t : PacketType} (numbered : t = .zeroRtt ∨ t = .handshake)
    (frames : ∀ payload cause, (∃ p rest, (read t ctx RawPayload.decoder).run b = .ok p rest ∧
      p.frames = [⟨payload⟩]) → decode.RefusesIn payload cause → P cause) :
    Refuses (read t ctx decode) b P := by
  have allowed : checkType t = .ok () := if_pos numbered
  simp only [read, refuses_atomic_iff, refuses_bind_iff, refuses_check_iff, run_check_eq_ok_iff, allowed]
  refine ⟨nofun, fun _ _ same => ?_⟩
  obtain ⟨-, rfl⟩ := same
  refine ⟨Long.refuses_readWith violation known reference (fun _ => refuses_pure _) ?_, fun _ _ _ => refuses_pure _⟩
  intro payload cause carried
  obtain ⟨_, p, rest, success, same⟩ := carried
  refine frames payload cause ⟨p, rest, ?_, same⟩
  simp only [read, run_atomic_eq_ok_iff, run_bind_eq_ok_iff, run_check_eq_ok_iff, run_pure_eq_ok_iff]
  exact ⟨_, b, ⟨allowed, rfl⟩, _, rest, success, rfl, rfl⟩

end Known

include violation in
theorem VersionNegotiation.refuses_read : Refuses read b P := by
  simp only [read, refuses_atomic_iff, refuses_bind_iff, refuses_check_iff]
  exact ⟨LongHeader.refuses_read violation b, fun _ _ _ => ⟨refused_by_guard violation, fun _ _ _ =>
    ⟨refuses_remaining, fun _ _ _ => ⟨refused_by_guard violation, fun _ mid _ =>
      ⟨refuses_readWords _ mid, fun _ _ _ => refuses_pure _⟩⟩⟩⟩⟩

include violation in
theorem refuses_readAs (known : ∀ word, ¬ UnknownVersion b word)
    (reference : ∀ known ∈ ctx.largest, PacketNumber.limit ≤ known → P (.valueTooLarge known))
    (fits : ∀ first ∈ b.head?, FirstByte.pnLength first + ctx.tagLen < Word.size) (t : PacketType)
    (frames : ∀ payload cause, (∃ p rest, (readAs t ctx RawPayload.decoder).run b = .ok p rest ∧
      p.frames = [⟨payload⟩]) → decode.RefusesIn payload cause → P cause) :
    Refuses (readAs t ctx decode) b P := by
  cases t <;> simp only [readAs, refuses_map_iff, run_map_eq_ok_iff] at frames ⊢
  case initial =>
    apply Initial.refuses_read violation known reference
    intro payload cause carried
    obtain ⟨p, rest, success, same⟩ := carried
    exact frames payload cause ⟨_, rest, ⟨p, success, rfl⟩, same⟩
  case zeroRtt =>
    apply Long.refuses_read violation known reference (.inl rfl)
    intro payload cause carried
    obtain ⟨p, rest, success, same⟩ := carried
    exact frames payload cause ⟨_, rest, ⟨p, success, rfl⟩, same⟩
  case handshake =>
    apply Long.refuses_read violation known reference (.inr rfl)
    intro payload cause carried
    obtain ⟨p, rest, success, same⟩ := carried
    exact frames payload cause ⟨_, rest, ⟨p, success, rfl⟩, same⟩
  case retry => exact Retry.refuses_read violation known
  case versionNegotiation => exact VersionNegotiation.refuses_read violation
  case oneRtt =>
    apply Short.refuses_read violation reference
    intro payload cause carried
    obtain ⟨p, spelled, same⟩ := carried
    exact frames payload cause ⟨_, [], ⟨p, Short.run_read_eq_ok_iff.mpr ⟨rfl, fits, spelled⟩, rfl⟩, same⟩

end Causes

def Carries (ctx : ParseContext) (b payload : Bytes) : Prop :=
  ∃ p rest, (read ctx RawPayload.decoder).run b = .ok p rest ∧ p.frames = [⟨payload⟩]

inductive Refusal (ctx : ParseContext) (decode : FrameDecoder F) (b : Bytes) : Error → Prop where
  | malformed : Refusal ctx decode b .violation
  | reference {largest : Nat} (given : ctx.largest = some largest) (outside : 2 ^ 62 - 1 < largest) :
    Refusal ctx decode b (.valueTooLarge largest)
  | frames {payload suffix : Bytes} {cause : Error} (carries : Carries ctx b payload) (some : suffix ≠ [])
    (behind : suffix <:+ payload) (refused : decode suffix = .error cause) : Refusal ctx decode b cause

theorem refuses_read {ctx : ParseContext} {decode : FrameDecoder F} {b : Bytes}
    (known : ∀ word, ¬ UnknownVersion b word)
    (fits : ∀ first ∈ b.head?, FirstByte.pnLength first + ctx.tagLen < Word.size) :
    Refuses (read ctx decode) b (Refusal ctx decode b) := by
  intro cause left refused
  rw [run_read] at refused
  split at refused
  next t typed =>
    refine refuses_readAs .malformed known ?_ fits t ?_ cause left refused
    · intro largest given outside
      have limit_eq : PacketNumber.limit = 2 ^ 62 := rfl
      exact .reference given (by omega)
    · intro payload cause carried refused
      obtain ⟨p, rest, success, same⟩ := carried
      obtain ⟨suffix, some, behind, refused⟩ := refused
      have carries : Carries ctx b payload := by
        refine ⟨p, rest, ?_, same⟩
        rw [run_read, typed]
        exact success
      exact .frames carries some behind refused
  next untyped =>
    obtain ⟨word, unknown⟩ := peekType_eq_none_iff.mp untyped
    exact absurd unknown (known word)
  next cause untyped =>
    cases refused
    rw [eq_violation_of_peekType untyped]
    exact .malformed

theorem Refusal.eq_violation {ctx : ParseContext} {decode : FrameDecoder F} {b : Bytes} {cause : Error}
    (h : Refusal ctx decode b cause) (inside : ∀ largest ∈ ctx.largest, largest ≤ 2 ^ 62 - 1)
    (plain : ∀ payload cause, decode payload = .error cause → cause = .violation) : cause = .violation := by
  cases h with
  | malformed => rfl
  | reference given outside => exact absurd (inside _ given) (Nat.not_le_of_lt outside)
  | frames carries some behind refused => exact plain _ _ refused

theorem refusals_of_read (ctx : ParseContext) (decode : FrameDecoder F) (b : Bytes)
    (fits : ∀ first ∈ b.head?, FirstByte.pnLength first + ctx.tagLen < Word.size) :
    (∀ word, UnknownVersion b word →
      (read ctx decode).run b = .error (.refused (.unsupportedVersion word)) b) ∧
    (∀ failure left, (read ctx decode).run b = .error failure left →
      left = b ∧ ∃ cause, failure = .refused cause ∧
        ((∃ word, UnknownVersion b word ∧ cause = .unsupportedVersion word) ∨
          (∀ word, ¬ UnknownVersion b word) ∧ Refusal ctx decode b cause)) ∧
    ((∀ largest ∈ ctx.largest, largest ≤ 2 ^ 62 - 1) →
      (∀ payload cause, decode payload = .error cause → cause = .violation) →
      ∀ cause left, (read ctx decode).run b = .error (.refused cause) left →
        cause ≠ .invalidValue ∧ (∀ length, cause ≠ .invalidLength length) ∧
          (∀ pn largest, cause ≠ .nonMonotonic pn largest) ∧ ∀ value, cause ≠ .valueTooLarge value) := by
  have explained (cause : Error) (left : Bytes) (refused : (read ctx decode).run b = .error (.refused cause) left) :
      (∃ word, UnknownVersion b word ∧ cause = .unsupportedVersion word) ∨
        (∀ word, ¬ UnknownVersion b word) ∧ Refusal ctx decode b cause := by
    by_cases unknown : ∃ word, UnknownVersion b word
    · obtain ⟨word, unknown⟩ := unknown
      rw [run_read_of_unknownVersion ctx decode unknown] at refused
      cases refused
      exact .inl ⟨word, unknown, rfl⟩
    · have known := not_exists.mp unknown
      exact .inr ⟨known, refuses_read known fits cause left refused⟩
  refine ⟨fun word unknown => run_read_of_unknownVersion ctx decode unknown, ?_, ?_⟩
  · intro failure left failed
    refine ⟨eq_of_run_read_eq_error failed, ?_⟩
    cases failure with
    | refused cause => exact ⟨cause, rfl, explained cause left failed⟩
    | overrun => exact absurd failed (safe_read_of_head fits decode left)
  · intro inside plain cause left refused
    rcases explained cause left refused with ⟨word, -, rfl⟩ | ⟨-, refusal⟩
    · exact ⟨nofun, nofun, nofun, nofun⟩
    · rw [refusal.eq_violation inside plain]
      exact ⟨nofun, nofun, nofun, nofun⟩

theorem refusals_of_read_versions :
    let decode := RawPayload.refusingDecoder (.unsupportedVersion 7)
    let b : Bytes := [0x40, 5, 6, 0xff]
    let c : Bytes := [0x80, 0, 0, 0, 2]
    (∀ first ∈ b.head?, FirstByte.pnLength first + 0 < Word.size) ∧
      (read {} decode).run b = .error (.refused (.unsupportedVersion 7)) b ∧
      (∀ word, ¬ UnknownVersion b word) ∧ Refusal {} decode b (.unsupportedVersion 7) ∧
      UnknownVersion c 2 ∧ (read {} decode).run c = .error (.refused (.unsupportedVersion 2)) c := by
  intro decode b c
  have fits : ∀ first ∈ b.head?, FirstByte.pnLength first + 0 < Word.size := by
    rintro _ ⟨⟩
    decide
  have fits_unknown : ∀ first ∈ c.head?, FirstByte.pnLength first + 0 < Word.size := by
    rintro _ ⟨⟩
    decide
  have failed : (read {} decode).run b = .error (.refused (.unsupportedVersion 7)) b := by
    with_unfolding_all rfl
  have known : ∀ word, ¬ UnknownVersion b word := by
    intro word unknown
    exact absurd unknown.room (by decide)
  have unknown : UnknownVersion c 2 := ⟨⟨0x80, rfl, by decide⟩, by decide, by decide, by decide⟩
  have refused := (refusals_of_read {} decode c fits_unknown).1 2 unknown
  obtain ⟨-, cause, same, explained⟩ := (refusals_of_read {} decode b fits).2.1 _ _ failed
  cases same
  rcases explained with ⟨word, versioned, -⟩ | ⟨-, refusal⟩
  · exact absurd versioned (known word)
  · exact ⟨fits, failed, known, refusal, unknown, refused⟩

end Packet

end QuicWire

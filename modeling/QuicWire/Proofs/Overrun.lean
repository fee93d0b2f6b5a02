import QuicWire.Proofs.Dispatch

set_option autoImplicit false

namespace QuicWire

namespace Reader

variable {α β : Type} {b : Bytes}

def Safe (r : Reader α) (b : Bytes) : Prop :=
  ∀ left, r.run b ≠ .error .overrun left

theorem Safe.eval_ne {r : Reader α} (h : Safe r b) : r.eval b ≠ .error .overrun := by
  unfold eval
  split
  next => nofun
  next failure left failed =>
    intro overrun
    cases overrun
    exact h left failed

theorem safe_bind_iff {r : Reader α} {f : α → Reader β} :
    Safe (r >>= f) b ↔ Safe r b ∧ ∀ a mid, r.run b = .ok a mid → Safe (f a) mid := by
  unfold Safe
  rw [EStateM.run_bind]
  cases r.run b <;> simp

theorem safe_pure (a : α) : Safe (pure a) b := nofun

theorem safe_refuse (cause : Error) : Safe (refuse cause : Reader α) b := nofun

theorem safe_check (x : Except Error α) : Safe (check x) b := by
  cases x <;> nofun

theorem safe_require (x : Option α) (cause : Error) : Safe (require x cause) b := by
  cases x <;> nofun

theorem safe_remaining : Safe remaining b := nofun

theorem safe_lift_iff {x : Except Failure α} : Safe (lift x) b ↔ x ≠ .error .overrun := by
  unfold Safe
  cases x <;> simp

theorem safe_need (n : Nat) : Safe (need n) b := by
  intro left
  rw [run_need]
  split <;> nofun

theorem safe_byte (first : UInt8) (rest : Bytes) : Safe byte (first :: rest) := nofun

theorem safe_take {n : Nat} (enough : n ≤ b.length) : Safe (take n) b := by
  intro left
  rw [run_take, if_pos enough]
  nofun

theorem safe_skip {n : Nat} (enough : n ≤ b.length) : Safe (skip n) b := by
  intro left
  rw [run_skip, if_pos enough]
  nofun

theorem safe_word32 (enough : 4 ≤ b.length) : Safe word32 b :=
  safe_bind_iff.mpr ⟨safe_take enough, fun _ _ _ => safe_pure _⟩

theorem safe_map_iff {f : α → β} {r : Reader α} : Safe (f <$> r) b ↔ Safe r b := by
  unfold Safe
  rw [run_map]
  cases r.run b <;> simp

theorem safe_atomic_iff {r : Reader α} : Safe (atomic r) b ↔ Safe r b := by
  unfold Safe
  rw [run_atomic]
  cases r.run b <;> simp

theorem safe_within_iff {inner : Bytes} {r : Reader α} : Safe (within inner r) b ↔ Safe r inner := by
  unfold Safe within
  simp only [EStateM.run]
  cases r inner <;> simp

end Reader

open Reader

theorem VarInt.safe_read (b : Bytes) : Safe read b := by
  cases b with
  | nil => nofun
  | cons first rest =>
    intro left
    rw [run_read_cons]
    dsimp only
    split <;> nofun

theorem VarInt.safe_readCounted (b : Bytes) : Safe readCounted b := by
  simp only [readCounted, safe_bind_iff, run_need_eq_ok_iff]
  refine ⟨safe_read b, fun n mid _ => ⟨safe_need n, ?_⟩⟩
  intro _ _ enough
  obtain ⟨enough, rfl⟩ := enough
  exact safe_take enough

theorem ConnectionId.safe_take (n : Nat) (b : Bytes) : Safe (take n) b := by
  simp only [take, safe_bind_iff, run_need_eq_ok_iff]
  refine ⟨safe_need n, ?_⟩
  intro _ _ enough
  obtain ⟨enough, rfl⟩ := enough
  exact ⟨Reader.safe_take enough, fun _ _ _ => safe_require _ _⟩

theorem ConnectionId.safe_read (b : Bytes) : Safe read b := by
  simp only [read, safe_bind_iff, run_need_eq_ok_iff]
  refine ⟨safe_need 1, ?_⟩
  intro _ _ enough
  obtain ⟨enough, rfl⟩ := enough
  obtain ⟨first, rest, rfl⟩ := List.exists_cons_of_length_pos enough
  exact ⟨safe_byte first rest, fun _ mid _ => safe_take _ mid⟩

theorem Packet.LongHeader.safe_read (b : Bytes) : Safe read b := by
  simp only [read, safe_bind_iff, run_need_eq_ok_iff, run_byte_eq_ok_iff]
  refine ⟨safe_need 5, ?_⟩
  intro _ _ enough
  obtain ⟨enough, rfl⟩ := enough
  obtain ⟨first, rest, rfl⟩ := List.exists_cons_of_length_pos (Nat.lt_of_lt_of_le (by decide) enough)
  refine ⟨safe_byte first rest, ?_⟩
  intro _ mid taken
  cases taken
  split
  · rw [List.length_cons] at enough
    simp only [safe_bind_iff]
    exact ⟨safe_word32 (by omega), fun _ mid _ => ⟨ConnectionId.safe_read mid, fun _ mid _ =>
      ⟨ConnectionId.safe_read mid, fun _ _ _ => safe_pure _⟩⟩⟩
  · exact safe_refuse _

theorem Packet.Retry.safe_readToken (b : Bytes) : Safe readToken b := by
  simp only [readToken, safe_bind_iff, run_need_eq_ok_iff, run_remaining_eq_ok_iff, run_lift_eq_ok_iff]
  refine ⟨safe_need _, ?_⟩
  intro _ _ enough
  obtain ⟨enough, rfl⟩ := enough
  refine ⟨safe_remaining, ?_⟩
  intro _ _ counted
  obtain ⟨rfl, rfl⟩ := counted
  rw [Word.sub_of_le enough]
  refine ⟨safe_lift_iff.mpr (by simp), ?_⟩
  intro _ _ token
  obtain ⟨⟨⟩, rfl⟩ := token
  exact safe_take (Nat.sub_le _ _)

namespace PacketNumber

theorem rebuild_ne_overrun {truncated length : Nat} {largest : Option Nat} :
    rebuild truncated length largest ≠ .error .overrun := by
  by_cases lengths : 1 ≤ length ∧ length ≤ maxLength
  · cases largest with
    | none => simp [rebuild, checkLength, lengths, checkReference, bind, Except.bind, pure, Except.pure]
    | some known =>
      by_cases inside : known < limit
      · obtain ⟨pn, -, rebuilt⟩ := rebuild_some truncated lengths inside
        rw [rebuilt]
        split <;> simp
      · simp [rebuild, checkLength, lengths, checkReference, inside, bind, Except.bind]
  · simp [rebuild, checkLength, lengths, bind, Except.bind]

theorem safe_read (length : Nat) (largest : Option Nat) (b : Bytes) : Safe (read length largest) b := by
  have length_ok : checkLength length ≠ .error .overrun := by
    unfold checkLength
    split <;> nofun
  have reference_ok : checkReference largest ≠ .error .overrun := by
    unfold checkReference
    split
    · nofun
    · split <;> nofun
  simp only [read, safe_bind_iff, safe_lift_iff, run_lift_eq_ok_iff, run_need_eq_ok_iff]
  refine ⟨length_ok, fun _ _ _ => ⟨reference_ok, fun _ _ _ => ⟨safe_need length, ?_⟩⟩⟩
  intro _ _ enough
  obtain ⟨enough, rfl⟩ := enough
  exact ⟨safe_take enough, fun _ _ _ => rebuild_ne_overrun⟩

end PacketNumber

namespace FrameDecoder

variable {F : Type}

theorem next_ne_overrun {decode : FrameDecoder F} {payload rest : Bytes} {item : Except Failure F}
    (h : next decode payload = some (item, rest)) : item ≠ .error .overrun := by
  unfold next at h
  split at h
  next => cases h
  next =>
    split at h
    next => cases h; nofun
    next =>
      split at h
      next taken =>
        rw [Bytes.covers_iff] at taken
        rw [run_skip, if_pos taken.2] at h
        cases h
        nofun
      next => cases h; nofun

theorem items_ne_overrun (decode : FrameDecoder F) (payload : Bytes) :
    ∀ item ∈ decode.items payload, item ≠ .error .overrun := by
  induction n : payload.length using Nat.strongRecOn generalizing payload with
  | _ n ih =>
    cases h : next decode payload with
    | none => simp [items_of_next_none h]
    | some value =>
      obtain ⟨item, rest⟩ := value
      rw [items_of_next_some h, List.forall_mem_cons]
      exact ⟨next_ne_overrun h, ih _ (n ▸ next_length_lt h) rest rfl⟩

theorem mem_of_mapM_error {items : List (Except Failure F)} {failure : Failure}
    (h : items.mapM id = .error failure) : .error failure ∈ items := by
  induction items with
  | nil => cases h
  | cons item rest ih =>
    rw [List.mapM_cons] at h
    cases item with
    | error cause => cases h; exact List.mem_cons_self
    | ok frame =>
      apply List.mem_cons_of_mem
      apply ih
      cases tail : rest.mapM id with
      | error cause => simpa [tail, bind, Except.bind] using h
      | ok frames => simp [tail, bind, Except.bind, pure, Except.pure] at h

theorem decodeAll_ne_overrun (decode : FrameDecoder F) (payload : Bytes) :
    decode.decodeAll payload ≠ .error .overrun := by
  unfold decodeAll
  split
  · nofun
  · intro h
    exact items_ne_overrun decode payload _ (mem_of_mapM_error h) rfl

end FrameDecoder

namespace Packet

variable {F : Type}

theorem Body.safe_read {ctx : ParseContext} {decode : FrameDecoder F} {first : UInt8} {b : Bytes}
    (fits : FirstByte.pnLength first + ctx.tagLen < Word.size) : Safe (Body.read ctx decode first) b := by
  simp only [Body.read, safe_bind_iff, safe_lift_iff, run_lift_eq_ok_iff, run_need_eq_ok_iff,
    run_remaining_eq_ok_iff, run_take_eq_ok_iff, PacketNumber.run_read_eq_ok_iff, Word.fit_of_lt fits,
    Except.ok.injEq]
  refine ⟨by simp, ?_⟩
  intro _ _ fitted
  obtain ⟨rfl, rfl⟩ := fitted
  refine ⟨safe_need _, ?_⟩
  intro _ _ enough
  obtain ⟨enough, rfl⟩ := enough
  refine ⟨PacketNumber.safe_read _ _ _, ?_⟩
  intro pn left number
  obtain ⟨number, width, -, rfl⟩ := number
  refine ⟨safe_remaining, ?_⟩
  intro _ _ counted
  obtain ⟨rfl, rfl⟩ := counted
  have room : ctx.tagLen ≤ left.length := by
    rw [List.length_append] at enough
    omega
  rw [Word.sub_of_le room]
  refine ⟨by simp, ?_⟩
  intro _ _ payloadLen
  obtain ⟨⟨⟩, rfl⟩ := payloadLen
  refine ⟨safe_take (Nat.sub_le _ _), ?_⟩
  intro payload rest taken
  obtain ⟨length, rfl⟩ := taken
  refine ⟨decode.decodeAll_ne_overrun payload, ?_⟩
  intro frames _ decoded
  obtain ⟨-, rfl⟩ := decoded
  refine ⟨safe_skip ?_, fun _ _ _ => safe_pure _⟩
  rw [List.length_append] at length room
  omega

section Types

variable {ctx : ParseContext} {b : Bytes}
  (fits : ∀ first ∈ b.head?, FirstByte.pnLength first + ctx.tagLen < Word.size)

include fits

theorem Long.safe_readWith {T : Type} {token : Reader T} (tokened : ∀ b, Safe token b) (t : PacketType)
    (decode : FrameDecoder F) : Safe (readWith token t ctx decode) b := by
  simp only [readWith, safe_bind_iff, safe_within_iff, LongHeader.run_read_eq_ok_iff]
  refine ⟨LongHeader.safe_read b, ?_⟩
  intro header _ headed
  obtain ⟨-, rfl⟩ := headed
  exact ⟨safe_check _, fun _ _ _ => ⟨safe_check _, fun _ mid _ =>
    ⟨tokened mid, fun _ mid _ => ⟨VarInt.safe_readCounted mid, fun _ _ _ =>
      ⟨Body.safe_read (fits header.first rfl), fun _ _ _ => safe_pure _⟩⟩⟩⟩⟩

theorem Initial.safe_read (decode : FrameDecoder F) : Safe (read ctx decode) b := by
  simp only [read, safe_atomic_iff, safe_bind_iff]
  exact ⟨Long.safe_readWith fits VarInt.safe_readCounted _ decode, fun _ _ _ => safe_pure _⟩

theorem Long.safe_read (t : PacketType) (decode : FrameDecoder F) : Safe (read t ctx decode) b := by
  simp only [read, safe_atomic_iff, safe_bind_iff, run_check_eq_ok_iff]
  refine ⟨safe_check _, ?_⟩
  intro _ _ allowed
  obtain ⟨-, rfl⟩ := allowed
  exact ⟨Long.safe_readWith fits (fun _ => safe_pure _) t decode, fun _ _ _ => safe_pure _⟩

theorem Short.safe_read (decode : FrameDecoder F) : Safe (read ctx decode) b := by
  simp only [read, safe_atomic_iff, safe_bind_iff, run_need_eq_ok_iff, run_byte_eq_ok_iff]
  refine ⟨safe_need 1, ?_⟩
  intro _ _ enough
  obtain ⟨enough, rfl⟩ := enough
  obtain ⟨first, rest, rfl⟩ := List.exists_cons_of_length_pos enough
  refine ⟨safe_byte first rest, ?_⟩
  intro _ _ taken
  cases taken
  exact ⟨safe_check _, fun _ _ _ => ⟨safe_check _, fun _ mid _ => ⟨ConnectionId.safe_take _ mid, fun _ _ _ =>
    ⟨Body.safe_read (fits first rfl), fun _ _ _ => safe_pure _⟩⟩⟩⟩

end Types

theorem Retry.safe_read (b : Bytes) : Safe read b := by
  simp only [read, safe_atomic_iff, safe_bind_iff, run_readToken_eq_ok_iff]
  refine ⟨LongHeader.safe_read b, fun _ _ _ => ⟨safe_check _, fun _ mid _ => ⟨safe_readToken mid, ?_⟩⟩⟩
  intro token rest taken
  exact ⟨safe_take (Nat.le_of_eq taken.1.symm), fun _ _ _ => ⟨safe_require _ _, fun _ _ _ => safe_pure _⟩⟩

theorem VersionNegotiation.safe_readWords {n : Nat} {b : Bytes} (enough : 4 * n ≤ b.length) :
    Safe (readWords n) b := by
  induction n generalizing b with
  | zero => exact safe_pure _
  | succ n ih =>
    simp only [readWords, safe_bind_iff, run_word32_eq_ok_iff]
    refine ⟨safe_word32 (by omega), ?_⟩
    intro word rest taken
    subst taken
    rw [List.length_append, length_beBytes] at enough
    exact ⟨ih (by omega), fun _ _ _ => safe_pure _⟩

theorem VersionNegotiation.safe_read (b : Bytes) : Safe read b := by
  simp only [read, safe_atomic_iff, safe_bind_iff, run_remaining_eq_ok_iff, run_check_eq_ok_iff]
  refine ⟨LongHeader.safe_read b, fun _ _ _ => ⟨safe_check _, fun _ _ _ => ⟨safe_remaining, ?_⟩⟩⟩
  intro _ mid counted
  obtain ⟨rfl, rfl⟩ := counted
  refine ⟨safe_check _, ?_⟩
  intro _ _ room
  obtain ⟨-, rfl⟩ := room
  exact ⟨safe_readWords (by omega), fun _ _ _ => safe_pure _⟩

theorem safe_readAs {ctx : ParseContext} {b : Bytes}
    (fits : ∀ first ∈ b.head?, FirstByte.pnLength first + ctx.tagLen < Word.size) (t : PacketType)
    (decode : FrameDecoder F) : Safe (readAs t ctx decode) b := by
  cases t <;> simp only [readAs, safe_map_iff]
  case initial => exact Initial.safe_read fits decode
  case zeroRtt => exact Long.safe_read fits _ decode
  case handshake => exact Long.safe_read fits _ decode
  case retry => exact Retry.safe_read b
  case versionNegotiation => exact VersionNegotiation.safe_read b
  case oneRtt => exact Short.safe_read fits decode

theorem safe_read_of_head {ctx : ParseContext} {b : Bytes}
    (fits : ∀ first ∈ b.head?, FirstByte.pnLength first + ctx.tagLen < Word.size) (decode : FrameDecoder F) :
    Safe (read ctx decode) b := by
  intro left
  rw [run_read]
  split
  · exact safe_readAs fits _ decode left
  · nofun
  · nofun

theorem safe_read {ctx : ParseContext} (fits : ctx.tagLen + PacketNumber.maxLength < Word.size)
    (decode : FrameDecoder F) (b : Bytes) : Safe (read ctx decode) b := by
  apply safe_read_of_head
  intro first _
  have longest : FirstByte.pnLength first ≤ PacketNumber.maxLength := FirstByte.pnLength_le first
  omega

end Packet

end QuicWire

import QuicWire.Proofs.Conservation
import QuicWire.Proofs.Masking

set_option autoImplicit false

namespace QuicWire

open Reader

theorem Word.fit_ne_overrun {n : Nat} (fits : n < size) : fit n ≠ .error .overrun := by
  rw [fit_of_lt fits]
  nofun

theorem Word.sub_ne_overrun {a b : Nat} (le : b ≤ a) : sub a b ≠ .error .overrun := by
  rw [sub_of_le le]
  nofun

namespace ProtectedHeader

variable {b rest : Bytes}

theorem safe_consumed {total : Nat} (inside : b.length ≤ total) : Safe (consumed total) b := by
  simp only [consumed, safe_bind_iff, safe_lift_iff, run_remaining_eq_ok_iff]
  refine ⟨safe_remaining, ?_⟩
  intro _ _ counted
  obtain ⟨rfl, -⟩ := counted
  exact Word.sub_ne_overrun inside

theorem safe_provisionalLength {offset : Nat} (fits : offset + PacketNumber.maxLength < Word.size) :
    Safe (provisionalLength offset) b := by
  rw [provisionalLength, safe_lift_iff]
  exact Word.fit_ne_overrun fits

theorem safe_readToken (t : PacketType) (b : Bytes) : Safe (readToken t) b := by
  cases t <;> simp only [readToken, safe_map_iff]
  case initial => exact VarInt.safe_readCounted b
  case retry => exact Packet.Retry.safe_readToken b
  all_goals exact safe_pure _

theorem length_le_of_run_readToken {t : PacketType} {token : Option Bytes}
    (success : (readToken t).run b = .ok token rest) : rest.length ≤ b.length := by
  have after {front : Bytes} (split : b = front ++ rest) : rest.length ≤ b.length := by
    rw [split, List.length_append]
    exact Nat.le_add_left _ _
  cases t <;> simp only [readToken, run_map_eq_ok_iff, VarInt.run_readCounted_eq_ok_iff,
    Packet.Retry.run_readToken_eq_ok_iff, run_pure_eq_ok_iff] at success
  case initial =>
    obtain ⟨content, ⟨count, -, split⟩, -⟩ := success
    exact after split
  case retry =>
    obtain ⟨_, ⟨-, split⟩, -⟩ := success
    exact after split
  all_goals exact Nat.le_of_eq (congrArg List.length success.2.symm)

theorem safe_readShort {dcidLen : Nat} {first : UInt8}
    (fits : (first :: b).length + PacketNumber.maxLength < Word.size) :
    Safe (readShort (first :: b).length dcidLen) (first :: b) := by
  simp only [readShort, safe_bind_iff, run_byte_eq_ok_iff]
  refine ⟨safe_byte first b, ?_⟩
  intro _ _ taken
  cases taken
  split
  · simp only [safe_bind_iff, ConnectionId.run_take_eq_ok_iff, run_consumed_eq_ok_iff]
    refine ⟨ConnectionId.safe_take _ _, ?_⟩
    intro dcid mid taken
    obtain ⟨-, rfl⟩ := taken
    rw [List.length_cons, List.length_append] at fits ⊢
    refine ⟨safe_consumed (by omega), ?_⟩
    intro offset _ counted
    obtain ⟨-, rfl, rfl⟩ := counted
    exact ⟨safe_provisionalLength (by omega), fun _ _ _ => safe_pure _⟩
  · exact safe_refuse _

theorem safe_readLong (fits : b.length + PacketNumber.maxLength < Word.size) : Safe (readLong b.length) b := by
  generalize total : b.length = n at fits ⊢
  simp only [readLong, safe_bind_iff, Packet.LongHeader.run_read_eq_ok_iff, run_check_eq_ok_iff]
  refine ⟨Packet.LongHeader.safe_read b, ?_⟩
  intro header mid headed
  obtain ⟨-, rfl⟩ := headed
  rw [List.length_append] at total
  refine ⟨safe_check _, ?_⟩
  intro known _ typed
  obtain ⟨version, t⟩ := known
  obtain ⟨-, rfl⟩ := typed
  refine ⟨safe_readToken t mid, ?_⟩
  intro token after tokened
  have tokened := length_le_of_run_readToken tokened
  split
  · simp only [safe_bind_iff, safe_lift_iff, run_need_eq_ok_iff, run_consumed_eq_ok_iff]
    refine ⟨VarInt.safe_read after, ?_⟩
    intro count tail counted
    obtain ⟨code, -, rfl⟩ := VarInt.encodes_of_run_read counted
    rw [List.length_append] at tokened
    refine ⟨safe_need count, ?_⟩
    intro _ _ enough
    obtain ⟨enough, rfl⟩ := enough
    refine ⟨safe_consumed (by omega), ?_⟩
    intro offset _ consumed
    obtain ⟨-, rfl, rfl⟩ := consumed
    refine ⟨safe_provisionalLength (by omega), fun _ _ _ => ⟨?_, fun _ _ _ => safe_pure _⟩⟩
    -- The Length was held against what is left, so that the packet ends inside the input.
    exact Word.fit_ne_overrun (by omega)
  · exact safe_pure _

theorem peek_ne_overrun (fits : b.length + PacketNumber.maxLength < Word.size) (dcidLen : Nat) :
    peek b dcidLen ≠ .error .overrun := by
  cases b with
  | nil => nofun
  | cons first more =>
    rw [peek_of_head rfl]
    split
    · exact (safe_readLong fits).eval_ne
    · exact (safe_readShort fits).eval_ne

def Roomy (h : ProtectedHeader) : Prop :=
  h.unprotected = false → PacketNumber.maxLength ≤ h.length

/-- Both subtractions of a call stay above zero, and their results are the ones that it works with. -/
structure Inside (h : ProtectedHeader) (m : UInt8) : Prop where
  excess : Word.sub PacketNumber.maxLength (FirstByte.pnLength (h.bits ^^^ h.maskOf m)) = .ok (h.excess m)
  length : h.unprotected = false → Word.sub h.length (h.excess m) = .ok (h.removeProtection m).length

variable {info : ProtectedHeader}

theorem roomy_of_peek {dcidLen : Nat} (peeked : peek b dcidLen = .ok info) : info.Roomy := by
  rcases peek_eq_ok_iff.mp peeked with ⟨front, tail, rfl, clear⟩ | bare
  · obtain ⟨_, _, _, _, _, _, rfl⟩ := clear.eq_beforeNumber
    exact fun _ => Nat.le_add_left _ _
  · cases bare <;> nofun

theorem Roomy.foldl (roomy : info.Roomy) (masks : List UInt8) : (masks.foldl removeProtection info).Roomy := by
  induction masks generalizing info with
  | nil => exact roomy
  | cons m masks ih =>
    apply ih
    -- One call settles the length, and no later call takes anything off it.
    intro hidden
    rw [removeProtection, unprotect_unprotected] at hidden
    cases hidden

theorem Roomy.inside (roomy : info.Roomy) (m : UInt8) : info.Inside m := by
  refine ⟨Word.sub_of_le (FirstByte.pnLength_le _), ?_⟩
  intro hidden
  have short : info.excess m ≤ PacketNumber.maxLength := Nat.sub_le _ _
  rw [Word.sub_of_le (Nat.le_trans short (roomy hidden)), removeProtection, unprotect, hidden]
  rfl

end ProtectedHeader

variable {σ F : Type}

theorem Splitter.next_ne_overrun {ask : PacketType → σ → ParseContext × σ} {decode : FrameDecoder F}
    {s s' : Splitter σ} {item : Except Failure (Packet F)}
    (fits : ∀ t, (ask t s.contexts).1.tagLen + PacketNumber.maxLength < Word.size)
    (next : s.next ask decode = some (item, s')) : item ≠ .error .overrun := by
  intro overrun
  have lawful := lawful_of_next next
  obtain ⟨t, announced, large⟩ := lawful.inside overrun
  simp only [Visit.answer, announced] at large
  exact absurd (fits t) (Nat.not_lt_of_le large)

namespace Packet

structure Contained (ctx : ParseContext) (decode : FrameDecoder F) (b : Bytes) : Prop where
  packet : Safe (read ctx decode) b
  initial : Safe (Initial.read ctx decode) b
  long (t : PacketType) : Safe (Long.read t ctx decode) b
  retry : Safe Retry.read b
  versionNegotiation : Safe VersionNegotiation.read b
  short : Safe (Short.read ctx decode) b

theorem contained {ctx : ParseContext} (fits : ctx.tagLen + PacketNumber.maxLength < Word.size)
    (decode : FrameDecoder F) (b : Bytes) : Contained ctx decode b := by
  have first_fits : ∀ first ∈ b.head?, FirstByte.pnLength first + ctx.tagLen < Word.size := by
    intro first _
    have longest : FirstByte.pnLength first ≤ PacketNumber.maxLength := FirstByte.pnLength_le first
    omega
  constructor
  case packet => exact safe_read fits decode b
  case initial => exact Initial.safe_read first_fits decode
  case long => exact fun t => Long.safe_read first_fits t decode
  case retry => exact Retry.safe_read b
  case versionNegotiation => exact VersionNegotiation.safe_read b
  case short => exact Short.safe_read first_fits decode

end Packet

theorem readers_contained (decode : FrameDecoder F) (b : Bytes) :
    (∀ ctx : ParseContext, ctx.tagLen + PacketNumber.maxLength < Word.size → Packet.Contained ctx decode b) ∧
    (b.length + PacketNumber.maxLength < Word.size → ∀ dcidLen,
      ProtectedHeader.peek b dcidLen ≠ .error .overrun ∧
      ∀ info, ProtectedHeader.peek b dcidLen = .ok info → ∀ (masks : List UInt8) (m : UInt8),
        (masks.foldl ProtectedHeader.removeProtection info).Inside m) ∧
    (∀ (ask : PacketType → σ → ParseContext × σ) (s s' : Splitter σ) (item : Except Failure (Packet F)),
      (∀ t, (ask t s.contexts).1.tagLen + PacketNumber.maxLength < Word.size) →
      s.next ask decode = some (item, s') → item ≠ .error .overrun) ∧
    (∀ item rest, decode.next b = some (item, rest) → item ≠ .error .overrun) := by
  refine ⟨fun ctx fits => Packet.contained fits decode b, ?_, fun _ _ _ _ => Splitter.next_ne_overrun,
    fun _ _ => FrameDecoder.next_ne_overrun⟩
  intro fits dcidLen
  refine ⟨ProtectedHeader.peek_ne_overrun fits dcidLen, ?_⟩
  intro info peeked masks m
  exact ((ProtectedHeader.roomy_of_peek peeked).foldl masks).inside m

theorem readers_contained_short :
    let b : Bytes := [0x60, 7, 8, 5, 1, 2, 9]
    let p : Packet RawPayload := .oneRtt ⟨true, false, ⟨[7, 8], by decide⟩, 5, [⟨[1, 2]⟩]⟩
    let info := ProtectedHeader.beforeNumber 0x60 none ⟨[7, 8], by decide⟩ none none 3 4
    let ctx : ParseContext := { tagLen := Word.size - 5 }
    let ask (_ : PacketType) (tagLen : Nat) : ParseContext × Nat := ({ dcidLen := 2, tagLen }, tagLen + 1)
    let s : Splitter Nat := { datagram := b, contexts := 1 }
    (ctx.tagLen + PacketNumber.maxLength < Word.size ∧ Packet.Contained ctx RawPayload.decoder b) ∧
      (b.length + PacketNumber.maxLength < Word.size ∧ ProtectedHeader.peek b 2 = .ok info ∧
        ([0x5a, 0xff].foldl ProtectedHeader.removeProtection info).Inside 0x0f) ∧
      (s.next ask RawPayload.decoder = some (.ok p, { datagram := [], contexts := 2 }) ∧
        (.ok p : Except Failure (Packet RawPayload)) ≠ .error .overrun) ∧
      (RawPayload.decoder.next b = some (.ok ⟨b⟩, []) ∧
        (.ok ⟨b⟩ : Except Failure RawPayload) ≠ .error .overrun) := by
  intro b p info ctx ask s
  have longest : ctx.tagLen + PacketNumber.maxLength < Word.size := by decide +kernel
  have short : b.length + PacketNumber.maxLength < Word.size := by decide
  have peeked : ProtectedHeader.peek b 2 = .ok info := rfl
  have spelled : p.Spelled (ask p.type 1).1 RawPayload.decoder b :=
    ⟨0x60, [5, 1, 2, 9], by decide, by decide, by decide, by decide,
      ⟨[5], [1, 2], [9], rfl, by decide, rfl, rfl, RawPayload.decodeAll_decoder (by decide)⟩, rfl⟩
  have room : ∀ first ∈ b.head?, FirstByte.pnLength first + 1 < Word.size := by
    intro first head
    cases head
    decide
  have next : s.next ask RawPayload.decoder = some (.ok p, { datagram := [], contexts := 2 }) :=
    Splitter.next_of_spelled spelled (fun _ => rfl) (fun _ => room)
  have frame : RawPayload.decoder.next b = some (.ok ⟨b⟩, []) := rfl
  obtain ⟨packets, headers, datagrams, payloads⟩ := @readers_contained Nat _ RawPayload.decoder b
  exact ⟨⟨longest, packets ctx longest⟩, ⟨short, peeked, (headers short 2).2 info peeked _ _⟩,
    ⟨next, datagrams ask s _ _ (fun _ => by decide) next⟩, ⟨frame, payloads _ _ frame⟩⟩

end QuicWire

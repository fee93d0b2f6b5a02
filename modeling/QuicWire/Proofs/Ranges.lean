import QuicWire.Frame.Samples
import QuicWire.Proofs.Building
import QuicWire.Proofs.Lengths

set_option autoImplicit false

namespace QuicWire

def Tiles : Nat → List (Nat × Nat) → Nat → Prop
  | start, [], stop => start = stop
  | start, (a, b) :: rest, stop => a = start ∧ a < b ∧ Tiles b rest stop

theorem Tiles.concat {start mid stop : Nat} {ranges : List (Nat × Nat)} (tiles : Tiles start ranges mid)
    (more : mid < stop) : Tiles start (ranges ++ [(mid, stop)]) stop := by
  induction ranges generalizing start with
  | nil => exact ⟨tiles.symm, more, rfl⟩
  | cons range rest ih => exact ⟨tiles.1, tiles.2.1, ih tiles.2.2⟩

theorem DatagramBuilder.tagFor_tagFor (t : PacketType) (tagLen : Nat) :
    tagFor t (tagFor t tagLen) = tagFor t tagLen := by
  cases t <;> rfl

-- Each packet of a datagram may have frames of another type.
structure Call where
  {F : Type}
  [frame : Frame F]
  [lawful : LawfulFrame F]
  push : Push F

attribute [instance] Call.frame Call.lawful

namespace Call

def type (c : Call) : PacketType :=
  c.push.packet.type

def dcidLen (c : Call) : Nat :=
  c.push.packet.dcid.length

def segment (c : Call) : Bytes :=
  c.push.segment

end Call

namespace Push

variable {F : Type} [Frame F]

theorem maxEncodedLen_tagFor (x : Push F) :
    x.packet.maxEncodedLen (DatagramBuilder.tagFor x.packet.type x.tagLen) =
      x.packet.maxEncodedLen x.tagLen := by
  obtain ⟨p, largest, tagLen⟩ := x
  cases p <;> rfl

variable [LawfulFrame F]

theorem predicted_of_wire {x : Push F} {bytes : Bytes} {n : Nat} (wrote : x.wire = .ok (bytes, n)) :
    n = bytes.length ∧ x.packet.encodedLen x.largest (DatagramBuilder.tagFor x.packet.type x.tagLen) =
      .ok (n + DatagramBuilder.tagFor x.packet.type x.tagLen) := by
  obtain ⟨length, predicted⟩ := Packet.length_of_wire wrote
  refine ⟨length.symm, predicted.trans ?_⟩
  rw [← DatagramBuilder.tagFor, DatagramBuilder.tagFor_tagFor]

theorem Fits.length_segment {x : Push F} {room : Nat} (fits : x.Fits room) :
    0 < x.segment.length ∧ x.segment.length ≤ room := by
  obtain ⟨⟨bytes, n, written⟩, m, longest, enough⟩ := fits
  obtain ⟨rfl, predicted⟩ := predicted_of_wire written
  have length : x.segment.length = bytes.length + DatagramBuilder.tagFor x.packet.type x.tagLen := by
    simp only [segment, written, List.length_append, tag, List.length_replicate]
  rw [← maxEncodedLen_tagFor] at longest
  have bound := Packet.encodedLen_le_maxEncodedLen predicted longest
  rw [length]
  exact ⟨Packet.encodedLen_pos predicted, Nat.le_trans bound enough⟩

end Push

namespace DatagramBuilder

inductive Loaded (maxSize : Nat) : List Call → DatagramBuilder → Prop where
  | new : Loaded maxSize [] { maxSize }
  | taken {calls : List Call} {d d' : DatagramBuilder} {c : Call} (before : Loaded maxSize calls d)
      (answer : (push c.push).run d = .ok true d') : Loaded maxSize (calls ++ [c]) d'
  -- A call that is refused or fails is not among the calls of the datagram.
  | refused {calls : List Call} {d d' : DatagramBuilder} {c : Call} (before : Loaded maxSize calls d)
      (answer : (push c.push).run d = .ok false d') : Loaded maxSize calls d'
  | failed {calls : List Call} {d d' : DatagramBuilder} {c : Call} {cause : Error}
      (before : Loaded maxSize calls d) (answer : (push c.push).run d = .error cause d') :
      Loaded maxSize calls d'

def Reached (maxSize : Nat) (types : List PacketType) (d : DatagramBuilder) : Prop :=
  ∃ calls, Loaded maxSize calls d ∧ calls.map Call.type = types

structure Filled (maxSize : Nat) (types : List PacketType) (d : DatagramBuilder) : Prop where
  maxSize_eq : d.maxSize = maxSize
  len_le : d.len ≤ maxSize
  tiles : Tiles 0 d.packets d.len
  length_packets : d.packets.length = types.length
  isSealed_iff : d.isSealed = true ↔ ∃ t ∈ types.getLast?, t.isDelimited = false
  delimited : ∀ t ∈ types.dropLast, t.isDelimited = true

def Answered {F : Type} [Frame F] (x : Push F) (d : DatagramBuilder) :
    EStateM.Result Error DatagramBuilder Bool → Prop
  | .error _ d' => d' = d
  | .ok false d' => d' = d
  | .ok true d' => ∃ bytes n,
    let tagLen := if x.packet.type.isNumbered then x.tagLen else 0
    (x.packet.write x.largest tagLen).run [] = .ok n bytes ∧ n = bytes.length ∧
      x.packet.encodedLen x.largest tagLen = .ok (n + tagLen) ∧
      d'.bytes = d.bytes ++ bytes ++ List.replicate tagLen 0 ∧ d'.packets = d.packets ++ [(d.len, d'.len)]

theorem Filled.delimited_of_unsealed {maxSize : Nat} {types : List PacketType} {d : DatagramBuilder}
    (filled : Filled maxSize types d) (unsealed : d.isSealed = false) :
    ∀ t ∈ types, t.isDelimited = true := by
  intro t member
  cases last : types.getLast? with
  | none =>
    rw [List.getLast?_eq_none_iff.mp last] at member
    cases member
  | some u =>
    have earlier := filled.delimited
    obtain ⟨front, rfl⟩ := List.getLast?_eq_some_iff.mp last
    rw [List.dropLast_concat] at earlier
    rw [List.mem_append, List.mem_singleton] at member
    cases member with
    | inl inner => exact earlier t inner
    | inr same =>
      cases kind : t.isDelimited with
      | true => rfl
      | false =>
        rw [filled.isSealed_iff.mpr ⟨t, same ▸ last, kind⟩] at unsealed
        cases unsealed

variable {F : Type} [Frame F] [LawfulFrame F]

theorem Filled.addTo {maxSize : Nat} {types : List PacketType} {d : DatagramBuilder} {x : Push F}
    (filled : Filled maxSize types d) (unsealed : d.isSealed = false) (fits : x.Fits d.remaining) :
    Filled maxSize (types ++ [x.packet.type]) (x.addTo d) := by
  obtain ⟨positive, enough⟩ := fits.length_segment
  have len : (x.addTo d).len = d.len + x.segment.length := List.length_append
  have room : d.remaining = maxSize - d.len := by rw [← filled.maxSize_eq]; rfl
  have inside := filled.len_le
  constructor
  case maxSize_eq => exact filled.maxSize_eq
  case len_le => omega
  case tiles =>
    rw [len]
    exact filled.tiles.concat (by omega)
  case length_packets =>
    rw [List.length_append, ← filled.length_packets]
    exact List.length_append
  case isSealed_iff => simp [Push.addTo]
  case delimited =>
    rw [List.dropLast_concat]
    exact filled.delimited_of_unsealed unsealed

omit [LawfulFrame F] in
theorem run_push_cases_of_answer {x : Push F} {d d' : DatagramBuilder} {answer : Bool} :
    (push x).run d = .ok answer d' → answer = false ∧ d' = d ∨
      answer = true ∧ d' = x.addTo d ∧ d.isSealed = false ∧ x.Fits d.remaining := by
  intro run
  rcases run_push_cases x d with ⟨cause, failed⟩ | refused | ⟨taken, unsealed, fits⟩
  · rw [failed] at run
    cases run
  · rw [refused] at run
    cases run
    exact .inl ⟨rfl, rfl⟩
  · rw [taken] at run
    cases run
    exact .inr ⟨rfl, rfl, unsealed, fits⟩

omit [Frame F] [LawfulFrame F] in
theorem Loaded.filled {maxSize : Nat} {calls : List Call} {d : DatagramBuilder} (loaded : Loaded maxSize calls d) :
    Filled maxSize (calls.map Call.type) d := by
  induction loaded with
  | new => exact ⟨rfl, Nat.zero_le _, rfl, rfl, by simp, by simp⟩
  | taken before answer ih =>
    rcases run_push_cases_of_answer answer with ⟨no, -⟩ | ⟨-, rfl, unsealed, fits⟩
    · cases no
    · rw [List.map_append]
      exact ih.addTo unsealed fits
  | refused before answer ih =>
    rcases run_push_cases_of_answer answer with ⟨-, rfl⟩ | ⟨yes, -⟩
    · exact ih
    · cases yes
  | failed before answer ih =>
    rw [eq_of_push_error answer]
    exact ih

theorem answered_push (x : Push F) (d : DatagramBuilder) : Answered x d ((push x).run d) := by
  rcases run_push_cases x d with ⟨cause, failed⟩ | refused | ⟨taken, -, ⟨bytes, n, written⟩, -⟩
  · rw [failed]
    exact rfl
  · rw [refused]
    exact rfl
  · rw [taken]
    obtain ⟨length, predicted⟩ := Push.predicted_of_wire written
    have denotes : Writer.Denotes (x.packet.write x.largest (tagFor x.packet.type x.tagLen)) x.wire :=
      x.packet.denotes_write _ _
    rw [written] at denotes
    have appended : (x.addTo d).bytes = d.bytes ++ bytes ++ x.tag := by
      simp only [Push.addTo, Push.segment, written, List.append_assoc]
    refine ⟨bytes, n, denotes [], length, predicted, appended, ?_⟩
    simp only [Push.addTo, len, List.length_append]

theorem filled_and_answered_of_reached {maxSize : Nat} {types : List PacketType} {d : DatagramBuilder}
    (reached : Reached maxSize types d) :
    Filled maxSize types d ∧ ∀ {F : Type} [Frame F] [LawfulFrame F] (x : Push F),
      Answered x d ((push x).run d) ∧ (d.isSealed = true → (push x).run d = .ok false d) := by
  obtain ⟨calls, loaded, rfl⟩ := reached
  refine ⟨loaded.filled, fun x => ⟨answered_push x d, fun closed => ?_⟩⟩
  rw [run_push, if_pos closed]

namespace Mixed

def cid : ConnectionId := ⟨[5], by decide⟩

def front : Push CountedPayload where
  packet := .initial {
    version := .v1, dcid := cid, scid := cid, packetNumber := 0, frames := [⟨[6], by decide⟩], token := [9] }
  largest := none
  tagLen := 1

def unwritten : Push RawPayload where
  packet := .handshake { version := .v0, dcid := cid, scid := cid, packetNumber := 3, frames := [⟨[6]⟩] }
  largest := some 2
  tagLen := 1

def last : Push RawPayload where
  packet := .oneRtt { spin := true, keyPhase := false, dcid := cid, packetNumber := 9, frames := [⟨[6, 0]⟩] }
  largest := some 4
  tagLen := 2

def opened : DatagramBuilder where
  maxSize := 64
  bytes := [0xc0, 0, 0, 0, 1, 1, 5, 1, 5, 1, 9, 4, 0, 1, 6, 0]
  packets := [(0, 16)]

def closed : DatagramBuilder where
  maxSize := 64
  bytes := opened.bytes ++ [0x60, 5, 9, 6, 0, 0, 0]
  packets := [(0, 16), (16, 23)]
  isSealed := true

end Mixed

theorem filled_and_answered_of_reached_mixed :
    Reached 64 [.initial, .oneRtt] Mixed.closed ∧ Filled 64 [.initial, .oneRtt] Mixed.closed ∧
      (push Mixed.front).run Mixed.closed = .ok false Mixed.closed := by
  have first : (push Mixed.front).run { maxSize := 64 } = .ok true Mixed.opened := rfl
  have second : (push Mixed.unwritten).run Mixed.opened = .error (.unsupportedVersion 0) Mixed.opened := rfl
  have third : (push Mixed.last).run Mixed.opened = .ok true Mixed.closed := rfl
  have loaded : Loaded 64 [⟨Mixed.front⟩, ⟨Mixed.last⟩] Mixed.closed :=
    .taken (c := ⟨Mixed.last⟩) (.failed (c := ⟨Mixed.unwritten⟩) (.taken (c := ⟨Mixed.front⟩) .new first) second) third
  have reached : Reached 64 [.initial, .oneRtt] Mixed.closed := ⟨_, loaded, rfl⟩
  obtain ⟨filled, answered⟩ := filled_and_answered_of_reached reached
  exact ⟨reached, filled, (answered Mixed.front).2 rfl⟩

end DatagramBuilder

end QuicWire

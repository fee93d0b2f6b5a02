import QuicWire.Proofs.Overrun
import QuicWire.Proofs.Splitting

set_option autoImplicit false

namespace QuicWire

theorem FrameDecoder.ne_nil_of_decodeAll {F : Type} {decode : FrameDecoder F} {payload : Bytes}
    {frames : List F} (h : decode.decodeAll payload = .ok frames) : payload ≠ [] := by
  rintro rfl
  cases h

namespace Packet

variable {F : Type} {ctx : ParseContext} {decode : FrameDecoder F}

theorem Body.Spelled.two_le_length {first : UInt8} {pn : Nat} {frames : List F} {body : Bytes}
    (h : Body.Spelled ctx decode first pn frames body) : 2 ≤ body.length := by
  obtain ⟨number, payload, tag, rfl, width, -, -, decoded⟩ := h
  have some : 0 < payload.length := List.length_pos_iff.mpr (FrameDecoder.ne_nil_of_decodeAll decoded)
  have positive := FirstByte.pnLength_pos first
  simp only [List.length_append]
  omega

theorem Long.Spelled.ten_le_length {t : PacketType} {token bytes : Bytes} {p : Long F}
    (h : p.Spelled t ctx decode token bytes) : 10 ≤ bytes.length := by
  obtain ⟨first, length, body, -, -, encodes, spelled, rfl⟩ := h
  have body_length := spelled.two_le_length
  have code_length := encodes.length_pos
  simp only [List.length_append, LongHeader.length_encode]
  omega

theorem Spelled.ten_le_length {p : Packet F} {bytes : Bytes} (h : p.Spelled ctx decode bytes)
    (delimited : p.type.isDelimited = true) : 10 ≤ bytes.length := by
  cases p with
  | initial p =>
    obtain ⟨_, _, long⟩ := h
    exact long.ten_le_length
  | zeroRtt p => exact Long.Spelled.ten_le_length h
  | handshake p => exact Long.Spelled.ten_le_length h
  | retry | versionNegotiation | oneRtt => cases delimited

theorem Spelled.ne_nil {p : Packet F} {bytes : Bytes} (h : p.Spelled ctx decode bytes) : bytes ≠ [] := by
  rintro rfl
  have announced : peekType [] = .ok (some p.type) := peekType_of_spelled h []
  cases announced

end Packet

namespace Splitter

variable {σ F : Type}

namespace Visit

def front (v : Visit σ F) : Bytes :=
  v.before.datagram.take (v.before.datagram.length - v.after.datagram.length)

def announced (v : Visit σ F) : Option PacketType :=
  match Packet.peekType v.before.datagram with
  | .ok t => t
  | .error _ => none

def answer (ask : PacketType → σ → ParseContext × σ) (v : Visit σ F) : ParseContext × σ :=
  match v.announced with
  | some t => ask t v.before.contexts
  | none => ({}, v.before.contexts)

structure Lawful (ask : PacketType → σ → ParseContext × σ) (decode : FrameDecoder F) (v : Visit σ F) :
    Prop where
  nonempty : v.before.datagram ≠ []
  item_eq : v.item = (Packet.read (v.answer ask).1 decode).eval v.before.datagram
  contexts_eq : v.after.contexts = (v.answer ask).2
  split : v.before.datagram = v.front ++ v.after.datagram
  shrinks : ∀ p, v.item = .ok p → v.after.datagram.length < v.before.datagram.length
  typed : ∀ p, v.item = .ok p → v.announced = some p.type
  keeps : ∀ failure, v.item = .error failure → v.front = [] ∧ v.after.datagram = v.before.datagram
  -- The one way to leave a word is a tag length next to its end.
  inside : v.item = .error .overrun →
    ∃ t, v.announced = some t ∧ Word.size ≤ (v.answer ask).1.tagLen + PacketNumber.maxLength

end Visit

def afterCalls (ask : PacketType → σ → ParseContext × σ) (decode : FrameDecoder F) :
    Nat → Splitter σ → Splitter σ
  | 0, s => s
  | n + 1, s =>
    match s.next ask decode with
    | some (_, s') => afterCalls ask decode n s'
    | none => s

variable {ask : PacketType → σ → ParseContext × σ} {decode : FrameDecoder F} {s s' last : Splitter σ}
  {item : Except Failure (Packet F)} {visits : List (Visit σ F)}

theorem next_eq_none_iff : s.next ask decode = none ↔ s.failed = true ∨ s.datagram = [] := by
  rw [← List.isEmpty_iff]
  unfold next
  by_cases ended : s.failed = true ∨ s.datagram.isEmpty = true
  · simp only [ended, if_true]
  · simp only [ended, if_false, iff_false]
    split <;> nofun

theorem askFor_eq_answer (s s' : Splitter σ) (item : Except Failure (Packet F)) :
    s.askFor ask = Visit.answer ask ⟨s, item, s'⟩ := by
  simp only [askFor, Visit.answer, Visit.announced]
  rcases Packet.peekType s.datagram with _ | _ | _ <;> rfl

theorem next_cases (h : s.next ask decode = some (item, s')) :
    s'.contexts = (s.askFor ask).2 ∧ item = (Packet.read (s.askFor ask).1 decode).eval s.datagram ∧
      ((∃ p bytes, item = .ok p ∧ p.Spelled (s.askFor ask).1 decode bytes ∧
          s.datagram = bytes ++ s'.datagram ∧ (p.type.isDelimited = false → s'.datagram = []) ∧
          s'.failed = false) ∨
        (∃ failure, item = .error failure ∧ s'.datagram = s.datagram ∧ s'.failed = true)) := by
  unfold next at h
  split at h
  next => cases h
  next =>
    dsimp only at h
    split at h
    next p rest success =>
      cases h
      obtain ⟨bytes, spelled, split, last⟩ := Packet.spelled_of_run_read success
      exact ⟨rfl, by simp only [Reader.eval, success], .inl ⟨p, bytes, rfl, spelled, split, last, rfl⟩⟩
    next failure left refused =>
      cases h
      have kept := Packet.eq_of_run_read_eq_error refused
      exact ⟨rfl, by simp only [Reader.eval, refused], .inr ⟨failure, rfl, kept, rfl⟩⟩

theorem Visit.front_eq {v : Visit σ F} {bytes : Bytes} (h : v.before.datagram = bytes ++ v.after.datagram) :
    v.front = bytes := by
  rw [Visit.front, h, List.length_append, Nat.add_sub_cancel, List.take_left]

theorem Visit.announced_of_overrun {v : Visit σ F}
    (read : (Packet.read (v.answer ask).1 decode).eval v.before.datagram = .error .overrun) :
    ∃ t, v.announced = some t ∧ Word.size ≤ (v.answer ask).1.tagLen + PacketNumber.maxLength := by
  have large : Word.size ≤ (v.answer ask).1.tagLen + PacketNumber.maxLength := by
    apply Nat.le_of_not_lt
    intro fits
    exact (Packet.safe_read fits decode _).eval_ne read
  cases announced : v.announced with
  | some t => exact ⟨t, rfl, large⟩
  | none =>
    have unasked : v.answer ask = ({}, v.before.contexts) := by simp only [Visit.answer, announced]
    rw [unasked] at large
    dsimp only at large
    exact absurd large (by decide)

theorem lawful_of_next (h : s.next ask decode = some (item, s')) : Visit.Lawful ask decode ⟨s, item, s'⟩ := by
  have nonempty : s.datagram ≠ [] := by
    intro nothing
    rw [next_eq_none_iff.mpr (.inr nothing)] at h
    cases h
  obtain ⟨contexts, read, outcome⟩ := next_cases h
  rw [askFor_eq_answer s s' item] at contexts read outcome
  have inside (overrun : item = .error .overrun) := Visit.announced_of_overrun (read.symm.trans overrun)
  rcases outcome with ⟨p, bytes, rfl, spelled, split, -, -⟩ | ⟨failure, rfl, same, -⟩
  · have front : Visit.front ⟨s, .ok p, s'⟩ = bytes := Visit.front_eq split
    have announced : Visit.announced ⟨s, .ok p, s'⟩ = some p.type := by
      simp only [Visit.announced, split, Packet.peekType_of_spelled spelled]
    have positive : 0 < bytes.length := List.length_pos_iff.mpr spelled.ne_nil
    have longer := congrArg List.length split
    rw [List.length_append] at longer
    refine ⟨nonempty, read, contexts, by rw [front]; exact split, ?_, ?_, nofun, inside⟩
    · intro _ _
      dsimp only
      omega
    · intro _ taken
      cases taken
      exact announced
  · have front : (⟨s, .error failure, s'⟩ : Visit σ F).front = [] := Visit.front_eq same.symm
    have split : s.datagram = Visit.front (⟨s, .error failure, s'⟩ : Visit σ F) ++ s'.datagram := by
      rw [front, same, List.nil_append]
    exact ⟨nonempty, read, contexts, split, nofun, nofun, fun _ _ => ⟨front, same⟩, inside⟩

theorem Visits.exists (ask : PacketType → σ → ParseContext × σ) (decode : FrameDecoder F) (s : Splitter σ) :
    ∃ visits last, Visits ask decode s visits last := by
  -- A packet shortens the datagram, and after a refusal nothing comes.
  induction n : s.datagram.length using Nat.strongRecOn generalizing s with
  | _ n ih =>
    cases next : s.next ask decode with
    | none => exact ⟨[], s, .done next⟩
    | some value =>
      obtain ⟨item, s'⟩ := value
      have lawful := lawful_of_next next
      cases item with
      | ok p =>
        obtain ⟨visits, last, rest⟩ := ih _ (n ▸ lawful.shrinks p rfl) s' rfl
        exact ⟨_, last, .visit next rest⟩
      | error failure =>
        obtain ⟨-, -, ⟨_, _, ⟨⟩, _⟩ | ⟨-, -, -, failed⟩⟩ := next_cases next
        exact ⟨_, s', .visit next (.done (next_eq_none_iff.mpr (.inl failed)))⟩

theorem followed_of_next (h : s.next ask decode = some (item, s')) (more : s'.next ask decode ≠ none) :
    (∃ p, item = .ok p ∧ p.type.isDelimited = true) ∧ s'.datagram.length + 10 ≤ s.datagram.length := by
  rw [ne_eq, next_eq_none_iff, not_or] at more
  obtain ⟨unfailed, some⟩ := more
  -- A packet that runs to the end leaves nothing to answer from, and a refusal is remembered.
  obtain ⟨-, -, ⟨p, bytes, rfl, spelled, split, last, -⟩ | ⟨-, -, -, failed⟩⟩ := next_cases h
  · have delimited : p.type.isDelimited = true := by
      rw [← Bool.not_eq_false]
      intro undelimited
      exact some (last undelimited)
    have width := spelled.ten_le_length delimited
    rw [split, List.length_append]
    exact ⟨⟨p, rfl, delimited⟩, by omega⟩
  · exact absurd failed unfailed

theorem Visits.next_ne_none {v : Visit σ F} (run : Visits ask decode s (v :: visits) last) :
    s.next ask decode ≠ none := by
  cases run with
  | visit next rest =>
    rw [next]
    nofun

theorem Visits.lawful (run : Visits ask decode s visits last) : ∀ v ∈ visits, v.Lawful ask decode := by
  induction run with
  | done => nofun
  | visit next rest ih =>
    rw [List.forall_mem_cons]
    exact ⟨lawful_of_next next, ih⟩

theorem Visits.next_afterCalls (run : Visits ask decode s visits last) (n : Nat) :
    (afterCalls ask decode n s).next ask decode = visits[n]?.map fun v => (v.item, v.after) := by
  induction run generalizing n with
  | @done s ended =>
    have stays : afterCalls ask decode n s = s := by
      cases n with
      | zero => rfl
      | succ n => simp only [afterCalls, ended]
    rw [stays, ended]
    rfl
  | @visit s s' last item visits next rest ih =>
    cases n with
    | zero => exact next
    | succ n =>
      have moves : afterCalls ask decode (n + 1) s = afterCalls ask decode n s' := by
        simp only [afterCalls, next]
      rw [moves, ih, List.getElem?_cons_succ]

theorem Visits.append (run : Visits ask decode s visits last) :
    s.datagram = visits.flatMap Visit.front ++ last.datagram := by
  induction run with
  | done => rfl
  | @visit s s' last item visits next rest ih =>
    rw [List.flatMap_cons, List.append_assoc, ← ih]
    exact (lawful_of_next next).split

theorem Visits.length_mul_le (run : Visits ask decode s visits last) :
    10 * (visits.length - 1) ≤ s.datagram.length := by
  induction run with
  | done => exact Nat.zero_le _
  | @visit s s' last item visits next rest ih =>
    cases visits with
    | nil => exact Nat.zero_le _
    | cons v visits =>
      have width := (followed_of_next next rest.next_ne_none).2
      simp only [List.length_cons] at ih ⊢
      omega

theorem Visits.delimited (run : Visits ask decode s visits last) :
    ∀ v ∈ visits.dropLast, ∃ p, v.item = .ok p ∧ p.type.isDelimited = true := by
  induction run with
  | done => nofun
  | @visit s s' last item visits next rest ih =>
    cases visits with
    | nil => nofun
    | cons v visits =>
      rw [List.dropLast_cons_cons, List.forall_mem_cons]
      exact ⟨(followed_of_next next rest.next_ne_none).1, ih⟩

theorem Visits.last_of_error (run : Visits ask decode s visits last) :
    ∀ v ∈ visits, ∀ failure, v.item = .error failure → last = v.after := by
  induction run with
  | done => nofun
  | @visit s s' last item visits next rest ih =>
    rw [List.forall_mem_cons]
    refine ⟨?_, ih⟩
    intro failure refused
    dsimp only at refused
    subst refused
    obtain ⟨-, -, ⟨_, _, ⟨⟩, _⟩ | ⟨-, -, -, failed⟩⟩ := next_cases next
    cases rest with
    | done => rfl
    | visit next _ =>
      rw [next_eq_none_iff.mpr (.inl failed)] at next
      cases next

theorem Visits.empty_of_ok (run : Visits ask decode s visits last) (unfailed : s.failed = false)
    (ok : ∀ v ∈ visits, ∃ p, v.item = .ok p) : last.datagram = [] := by
  induction run with
  | done ended =>
    rcases next_eq_none_iff.mp ended with failed | nothing
    · rw [unfailed] at failed
      cases failed
    · exact nothing
  | @visit s s' last item visits next rest ih =>
    rw [List.forall_mem_cons] at ok
    obtain ⟨⟨p, taken⟩, ok⟩ := ok
    dsimp only at taken
    subst taken
    obtain ⟨-, -, ⟨_, _, _, _, _, _, unfailed⟩ | ⟨_, ⟨⟩, _⟩⟩ := next_cases next
    exact ih unfailed ok

theorem Visits.asked_eq {ask : PacketType → σ → ParseContext × σ} {s last : Splitter (List PacketType × σ)}
    {visits : List (Visit (List PacketType × σ) F)} (run : Visits (recording ask) decode s visits last) :
    last.contexts.1 = s.contexts.1 ++ visits.filterMap Visit.announced := by
  induction run with
  | done => exact (List.append_nil _).symm
  | @visit s s' last item visits next rest ih =>
    have contexts := (lawful_of_next next).contexts_eq
    dsimp only [Visit.answer] at contexts
    rw [ih, contexts]
    cases announced : Visit.announced ⟨s, item, s'⟩ with
    | none => rw [List.filterMap_cons_none announced]
    | some t =>
      rw [List.filterMap_cons_some announced]
      exact List.append_assoc s.contexts.1 [t] _

structure Drained (datagram : Bytes) (visits : List (Visit (List PacketType × σ) F))
    (last : Splitter (List PacketType × σ)) : Prop where
  length_le : visits.length ≤ datagram.length / 10 + 1
  append : datagram = visits.flatMap Visit.front ++ last.datagram
  -- A refusal, and a packet that runs to the end of the datagram, can only come last.
  delimited : ∀ v ∈ visits.dropLast, ∃ p, v.item = .ok p ∧ p.type.isDelimited = true
  kept : ∀ v ∈ visits, ∀ failure, v.item = .error failure →
    last.datagram = v.before.datagram ∧ last.datagram ≠ []
  emptied : (∀ v ∈ visits, ∃ p, v.item = .ok p) → last.datagram = []
  asked : last.contexts.1 = visits.filterMap Visit.announced

theorem drained (ask : PacketType → σ → ParseContext × σ) (decode : FrameDecoder F) (contexts : σ)
    (datagram : Bytes) :
    let start : Splitter (List PacketType × σ) := { datagram, contexts := ([], contexts) }
    ∃ visits last, Visits (recording ask) decode start visits last ∧
      (∀ n, (afterCalls (recording ask) decode n start).next (recording ask) decode =
        visits[n]?.map fun v => (v.item, v.after)) ∧
      (∀ v ∈ visits, v.Lawful (recording ask) decode) ∧ Drained datagram visits last := by
  intro start
  obtain ⟨visits, last, run⟩ := Visits.exists (recording ask) decode start
  refine ⟨visits, last, run, run.next_afterCalls, run.lawful, ?_⟩
  have bound : 10 * (visits.length - 1) ≤ datagram.length := run.length_mul_le
  refine ⟨by omega, run.append, run.delimited, ?_, run.empty_of_ok rfl, run.asked_eq⟩
  intro v member failure refused
  have lawful := run.lawful v member
  have kept : last.datagram = v.before.datagram := by
    rw [run.last_of_error v member failure refused]
    exact (lawful.keeps failure refused).2
  exact ⟨kept, kept ▸ lawful.nonempty⟩

end Splitter

end QuicWire

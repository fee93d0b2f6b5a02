import QuicWire.Frame.Samples

set_option autoImplicit false

namespace QuicWire

namespace FrameDecoder

variable {F : Type} {decode : FrameDecoder F} {payload : Bytes}

/-- The frames of a payload, each with its chunk, and the cause for which the rest has no frames. -/
inductive Split (decode : FrameDecoder F) : Bytes → List (F × Bytes) → Option Error → Prop where
  | ended : Split decode [] [] none
  | refused {payload : Bytes} {cause : Error} (nonempty : payload ≠ []) (answer : decode payload = .error cause) :
    Split decode payload [] (some cause)
  | misjudged {payload : Bytes} {frame : F} {consumed : Nat} (nonempty : payload ≠ [])
    (answer : decode payload = .ok (frame, consumed)) (outside : consumed = 0 ∨ payload.length < consumed) :
    Split decode payload [] (some .violation)
  | frame {payload chunk rest : Bytes} {frame : F} {chunks : List (F × Bytes)} {ending : Option Error}
    (cut : payload = chunk ++ rest) (nonempty : chunk ≠ []) (answer : decode payload = .ok (frame, chunk.length))
    (more : Split decode rest chunks ending) : Split decode payload ((frame, chunk) :: chunks) ending

def afterCalls (decode : FrameDecoder F) : Nat → Bytes → Bytes
  | 0, payload => payload
  | n + 1, payload =>
    match next decode payload with
    | some (_, rest) => afterCalls decode n rest
    | none => payload

def call (decode : FrameDecoder F) (n : Nat) (payload : Bytes) : Option (Except Failure F) :=
  (next decode (afterCalls decode n payload)).map Prod.fst

def itemsOf (chunks : List (F × Bytes)) (ending : Option Error) : List (Except Failure F) :=
  chunks.map (fun part => .ok part.1) ++ ending.toList.map fun cause => .error (.refused cause)

def framesOf (chunks : List (F × Bytes)) : Option Error → Except Failure (List F)
  | none => .ok (chunks.map Prod.fst)
  | some cause => .error (.refused cause)

theorem call_eq_getElem? (decode : FrameDecoder F) (n : Nat) (payload : Bytes) :
    call decode n payload = (decode.items payload)[n]? := by
  induction n generalizing payload with
  | zero =>
    cases h : next decode payload with
    | none => simp [call, afterCalls, h, items_of_next_none h]
    | some value => simp [call, afterCalls, h, items_of_next_some h]
  | succ n ih =>
    cases h : next decode payload with
    | none => simp [call, afterCalls, h, items_of_next_none h]
    | some value =>
      have moves : call decode (n + 1) payload = call decode n value.2 := by
        simp only [call, afterCalls, h]
      rw [moves, ih, items_of_next_some h, List.getElem?_cons_succ]

theorem next_of_refused {cause : Error} (nonempty : payload ≠ []) (answer : decode payload = .error cause) :
    next decode payload = some (.error (.refused cause), []) := by
  simp [next, nonempty, answer]

theorem next_of_misjudged {frame : F} {consumed : Nat} (nonempty : payload ≠ [])
    (answer : decode payload = .ok (frame, consumed)) (outside : consumed = 0 ∨ payload.length < consumed) :
    next decode payload = some (.error (.refused .violation), []) := by
  have unfit : ¬ (0 < consumed ∧ consumed ≤ payload.length) := by omega
  simp [next, nonempty, answer, unfit]

theorem next_of_frame {chunk rest : Bytes} {frame : F} (cut : payload = chunk ++ rest) (nonempty : chunk ≠ [])
    (answer : decode payload = .ok (frame, chunk.length)) : next decode payload = some (.ok frame, rest) := by
  subst cut
  have positive : 0 < chunk.length := List.length_pos_iff.mpr nonempty
  simp [next, nonempty, answer, positive, Reader.run_skip]

theorem chunk_fits {chunk rest : Bytes} (cut : payload = chunk ++ rest) (nonempty : chunk ≠ []) :
    ¬ (chunk.length = 0 ∨ payload.length < chunk.length) := by
  have positive := List.length_pos_iff.mpr nonempty
  rw [cut, List.length_append]
  omega

namespace Split

variable {chunks : List (F × Bytes)} {ending : Option Error}

theorem exists_of_payload (decode : FrameDecoder F) (payload : Bytes) :
    ∃ chunks ending, Split decode payload chunks ending := by
  -- Every chunk is taken from a longer payload than the next.
  induction width : payload.length using Nat.strongRecOn generalizing payload with
  | _ n ih =>
    by_cases empty : payload = []
    next => exact ⟨[], none, empty ▸ .ended⟩
    next =>
      cases answer : decode payload with
      | error cause => exact ⟨[], some cause, .refused empty answer⟩
      | ok reported =>
        obtain ⟨frame, consumed⟩ := reported
        by_cases fits : 0 < consumed ∧ consumed ≤ payload.length
        next =>
          have taken : (payload.take consumed).length = consumed := List.length_take_of_le fits.2
          have nonempty : payload.take consumed ≠ [] := by
            rw [← List.length_pos_iff, taken]
            exact fits.1
          have shorter : (payload.drop consumed).length < n := by
            rw [List.length_drop]
            omega
          obtain ⟨chunks, ending, more⟩ := ih _ shorter (payload.drop consumed) rfl
          rw [← taken] at answer
          exact ⟨_, ending, .frame (List.take_append_drop _ _).symm nonempty answer more⟩
        next => exact ⟨[], some .violation, .misjudged empty answer (by omega)⟩

theorem unique {others : List (F × Bytes)} {other : Option Error} (split : Split decode payload chunks ending)
    (again : Split decode payload others other) : others = chunks ∧ other = ending := by
  induction split generalizing others other with
  | ended =>
    cases again with
    | ended => exact ⟨rfl, rfl⟩
    | refused nonempty => exact absurd rfl nonempty
    | misjudged nonempty => exact absurd rfl nonempty
    | frame cut nonempty => exact absurd (List.append_eq_nil_iff.mp cut.symm).1 nonempty
  | refused nonempty answer =>
    cases again with
    | ended => exact absurd rfl nonempty
    | refused _ same => cases answer.symm.trans same; exact ⟨rfl, rfl⟩
    | misjudged _ same => cases answer.symm.trans same
    | frame _ _ same => cases answer.symm.trans same
  | misjudged nonempty answer outside =>
    cases again with
    | ended => exact absurd rfl nonempty
    | refused _ same => cases answer.symm.trans same
    | misjudged => exact ⟨rfl, rfl⟩
    | frame cut some same =>
      cases answer.symm.trans same
      exact absurd outside (chunk_fits cut some)
  | frame cut nonempty answer more ih =>
    cases again with
    | ended => exact absurd (List.append_eq_nil_iff.mp cut.symm).1 nonempty
    | refused _ same => cases answer.symm.trans same
    | misjudged _ same outside =>
      cases answer.symm.trans same
      exact absurd outside (chunk_fits cut nonempty)
    | frame cut' _ same more' =>
      have reported := Prod.mk.inj (Except.ok.inj (answer.symm.trans same))
      obtain ⟨rfl, rfl⟩ := List.append_inj (cut.symm.trans cut') reported.2
      obtain ⟨rfl, rfl⟩ := ih more'
      exact ⟨by rw [reported.1], rfl⟩

theorem append (split : Split decode payload chunks ending) :
    ∃ rest, payload = chunks.flatMap Prod.snd ++ rest ∧ (ending = none → rest = []) := by
  induction split with
  | ended => exact ⟨[], rfl, fun _ => rfl⟩
  | refused => exact ⟨_, rfl, nofun⟩
  | misjudged => exact ⟨_, rfl, nofun⟩
  | frame cut _ _ _ ih =>
    obtain ⟨rest, same, last⟩ := ih
    exact ⟨rest, by rw [cut, same, List.flatMap_cons, List.append_assoc], last⟩

theorem length_le (split : Split decode payload chunks ending) : chunks.length ≤ payload.length := by
  induction split with
  | ended => exact Nat.le_refl 0
  | refused => exact Nat.zero_le _
  | misjudged => exact Nat.zero_le _
  | frame cut nonempty _ _ ih =>
    have positive := List.length_pos_iff.mpr nonempty
    rw [cut, List.length_append, List.length_cons]
    omega

theorem items_eq (split : Split decode payload chunks ending) : decode.items payload = itemsOf chunks ending := by
  have nothing : decode.items [] = [] := items_of_next_none rfl
  induction split with
  | ended => exact nothing
  | refused nonempty answer =>
    rw [items_of_next_some (next_of_refused nonempty answer), nothing]
    rfl
  | misjudged nonempty answer outside =>
    rw [items_of_next_some (next_of_misjudged nonempty answer outside), nothing]
    rfl
  | frame cut nonempty answer _ ih =>
    rw [items_of_next_some (next_of_frame cut nonempty answer), ih]
    rfl

end Split

theorem mapM_itemsOf (chunks : List (F × Bytes)) (ending : Option Error) :
    (itemsOf chunks ending).mapM id = framesOf chunks ending := by
  induction chunks with
  | nil => cases ending <;> rfl
  | cons part chunks ih =>
    have first : itemsOf (part :: chunks) ending = .ok part.1 :: itemsOf chunks ending := rfl
    rw [first, List.mapM_cons, ih]
    cases ending <;> rfl

theorem Split.decodeAll_eq {chunks : List (F × Bytes)} {ending : Option Error}
    (split : Split decode payload chunks ending) (nonempty : payload ≠ []) :
    decode.decodeAll payload = framesOf chunks ending := by
  have unempty : ¬ payload.isEmpty = true := by simp [nonempty]
  rw [decodeAll, if_neg unempty, split.items_eq, mapM_itemsOf]

theorem decodeAll_eq_ok_iff {frames : List F} :
    decode.decodeAll payload = .ok frames ↔
      ∃ chunks, chunks ≠ [] ∧ Split decode payload chunks none ∧ chunks.map Prod.fst = frames := by
  obtain ⟨chunks, ending, split⟩ := Split.exists_of_payload decode payload
  constructor
  next =>
    intro decoded
    have nonempty : payload ≠ [] := by
      rintro rfl
      cases decoded
    rw [split.decodeAll_eq nonempty] at decoded
    cases ending with
    | some cause => cases decoded
    | none =>
      refine ⟨chunks, ?_, split, Except.ok.inj decoded⟩
      rintro rfl
      cases split
      exact nonempty rfl
  next =>
    intro given
    obtain ⟨others, some, whole, same⟩ := given
    have nonempty : payload ≠ [] := by
      rintro rfl
      exact some (List.eq_nil_of_length_eq_zero (Nat.le_zero.mp whole.length_le))
    rw [whole.decodeAll_eq nonempty, framesOf, same]

theorem decodeAll_eq_error_iff {failure : Failure} :
    decode.decodeAll payload = .error failure ↔ payload = [] ∧ failure = .refused .violation ∨
      ∃ chunks cause, Split decode payload chunks (some cause) ∧ failure = .refused cause := by
  obtain ⟨chunks, ending, split⟩ := Split.exists_of_payload decode payload
  by_cases empty : payload = []
  next =>
    subst empty
    have refused : decode.decodeAll [] = .error (.refused .violation) := rfl
    have whole (chunks : List (F × Bytes)) (cause : Error) : ¬ Split decode [] chunks (some cause) := by
      intro other
      cases (other.unique .ended).2
    simp [refused, whole, eq_comm]
  next =>
    rw [split.decodeAll_eq empty]
    constructor
    next =>
      intro refused
      cases ending with
      | none => cases refused
      | some cause => exact .inr ⟨chunks, cause, split, (Except.error.inj refused).symm⟩
    next =>
      intro given
      rcases given with nothing | ⟨others, cause, other, rfl⟩
      · exact absurd nothing.1 empty
      · rw [← (split.unique other).2]
        rfl

section Written

variable [Frame F]

structure Inverts (decode : FrameDecoder F) (frame : F) : Prop where
  positive : 0 < Frame.encodedLen frame
  measured : (Frame.encode frame).length = Frame.encodedLen frame
  answer : ∀ rest, decode (Frame.encode frame ++ rest) = .ok (frame, Frame.encodedLen frame)

theorem split_of_written {frames : List F} (inverts : ∀ frame ∈ frames, Inverts decode frame) :
    Split decode (frames.flatMap Frame.encode) (frames.map fun frame => (frame, Frame.encode frame)) none := by
  induction frames with
  | nil => exact .ended
  | cons frame frames ih =>
    rw [List.forall_mem_cons] at inverts
    have first := inverts.1
    have nonempty : Frame.encode frame ≠ [] := by
      rw [← List.length_pos_iff, first.measured]
      exact first.positive
    exact .frame rfl nonempty (first.measured.symm ▸ first.answer _) (ih inverts.2)

theorem payload_accounted (decode : FrameDecoder F) (payload : Bytes) :
    (∃ chunks ending, Split decode payload chunks ending ∧
      ∀ others other, Split decode payload others other → others = chunks ∧ other = ending) ∧
    (∀ frames, decode.decodeAll payload = .ok frames ↔
      ∃ chunks, chunks ≠ [] ∧ Split decode payload chunks none ∧ chunks.map Prod.fst = frames) ∧
    (∀ failure, decode.decodeAll payload = .error failure ↔ payload = [] ∧ failure = .refused .violation ∨
      ∃ chunks cause, Split decode payload chunks (some cause) ∧ failure = .refused cause) ∧
    (∀ chunks ending, Split decode payload chunks ending →
      (∃ rest, payload = chunks.flatMap Prod.snd ++ rest ∧ (ending = none → rest = [])) ∧
      chunks.length ≤ payload.length ∧ ∀ n, call decode n payload = (itemsOf chunks ending)[n]?) ∧
    (∀ frames, frames ≠ [] → (∀ frame ∈ frames, Inverts decode frame) →
      ∃ n bytes, (Frame.writeAll frames).run [] = .ok n bytes ∧ decode.decodeAll bytes = .ok frames) := by
  refine ⟨?_, fun _ => decodeAll_eq_ok_iff, fun _ => decodeAll_eq_error_iff, ?_, ?_⟩
  · obtain ⟨chunks, ending, split⟩ := Split.exists_of_payload decode payload
    exact ⟨chunks, ending, split, fun _ _ => split.unique⟩
  · intro chunks ending split
    refine ⟨split.append, split.length_le, ?_⟩
    intro n
    rw [call_eq_getElem?, split.items_eq]
  · intro frames some inverts
    refine ⟨_, _, Frame.run_writeAll frames [], ?_⟩
    refine decodeAll_eq_ok_iff.mpr ⟨_, ?_, split_of_written inverts, ?_⟩
    · simpa using some
    · simp [Function.comp_def]

end Written

end FrameDecoder

namespace CountedPayload

theorem inverts_decoder (frame : CountedPayload) : FrameDecoder.Inverts decoder frame where
  positive := Nat.add_pos_left Nat.one_pos _
  measured := LawfulFrame.length_encode frame
  answer rest := by
    have count : (UInt8.ofNat frame.bytes.length).toNat = frame.bytes.length := by
      rw [UInt8.toNat_ofNat']
      exact Nat.mod_eq_of_lt frame.length_lt
    have covered : Bytes.covers frame.bytes.length (frame.bytes ++ rest) = true := by simp
    have known : ofBytes? frame.bytes = some frame := dif_pos frame.length_lt
    show decoder (UInt8.ofNat frame.bytes.length :: (frame.bytes ++ rest)) = _
    simp [decoder, count, covered, known, Frame.encodedLen]

end CountedPayload

namespace FrameDecoder

theorem payload_accounted_cut_short :
    let decode := CountedPayload.decoder
    let frames : List CountedPayload := [⟨[7, 8], by decide⟩, ⟨[], by decide⟩]
    let payload : Bytes := [2, 7, 8, 0, 3, 9]
    Split decode payload (frames.zip [[2, 7, 8], [0]]) (some .violation) ∧
      decode.decodeAll payload = .error (.refused .violation) ∧
      call decode 1 payload = some (.ok ⟨[], by decide⟩) ∧
      call decode 2 payload = some (.error (.refused .violation)) ∧ call decode 3 payload = none ∧
      (∀ frame ∈ frames, Inverts decode frame) ∧
      ∃ n bytes, (Frame.writeAll frames).run [] = .ok n bytes ∧ decode.decodeAll bytes = .ok frames := by
  intro decode frames payload
  have last : Split decode [3, 9] [] (some .violation) := .refused (by decide) rfl
  have empty : Split decode [0, 3, 9] [(⟨[], by decide⟩, [0])] (some .violation) := .frame rfl (by decide) rfl last
  have split : Split decode payload (frames.zip [[2, 7, 8], [0]]) (some .violation) :=
    .frame rfl (by decide) rfl empty
  have inverts : ∀ frame ∈ frames, Inverts decode frame := fun frame _ => frame.inverts_decoder
  obtain ⟨-, -, refused, read, written⟩ := payload_accounted decode payload
  obtain ⟨-, -, calls⟩ := read _ _ split
  exact ⟨split, (refused _).mpr (.inr ⟨_, _, split, rfl⟩), calls 1, calls 2, calls 3, inverts,
    written frames (by decide) inverts⟩

end FrameDecoder

end QuicWire

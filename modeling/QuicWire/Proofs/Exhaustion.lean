import QuicWire.Proofs.Recovery

set_option autoImplicit false

namespace QuicWire.PacketNumber

/-- The input starts with the low bytes of a number behind the last one, which the receiver has seen. -/
def Exhausted (length : Nat) (largest : Option Nat) (b : Bytes) : Prop :=
  (1 ≤ length ∧ length ≤ 4) ∧ largest = some (2 ^ 62 - 1) ∧ length ≤ b.length ∧
    beValue (b.take length) ≤ 2 ^ (8 * length) / 2

instance (length : Nat) (largest : Option Nat) (b : Bytes) : Decidable (Exhausted length largest b) :=
  inferInstanceAs (Decidable (_ ∧ _))

inductive Refused (length : Nat) (largest : Option Nat) (b : Bytes) : Failure → Bytes → Prop where
  | length (outside : ¬ (1 ≤ length ∧ length ≤ 4)) : Refused length largest b (.refused (.invalidLength length)) b
  | reference {known : Nat} (lengths : 1 ≤ length ∧ length ≤ 4) (seen : largest = some known)
      (outside : 2 ^ 62 ≤ known) : Refused length largest b (.refused (.valueTooLarge known)) b
  | short (lengths : 1 ≤ length ∧ length ≤ 4) (inside : ∀ known ∈ largest, known < 2 ^ 62)
      (short : b.length < length) : Refused length largest b (.refused .violation) b
  | exhausted (exhausted : Exhausted length largest b) :
      Refused length largest b (.refused .violation) (b.drop length)

section Left

variable {length : Nat} {largest : Option Nat} {b rest : Bytes} {failure : Failure}

theorem rebuild_eq_error_iff {truncated : Nat} (lengths : 1 ≤ length ∧ length ≤ maxLength)
    (inside : ∀ known ∈ largest, known < limit) (bounded : truncated < window length) :
    rebuild truncated length largest = .error failure ↔
      (largest = some (2 ^ 62 - 1) ∧ truncated ≤ window length / 2) ∧ failure = .refused .violation := by
  cases largest with
  | none => simp [rebuild, checkLength, lengths, checkReference, bind, Except.bind, pure, Except.pure]
  | some known =>
    have limit_eq : limit = 2 ^ 62 := rfl
    have space : known + 1 ≤ limit := inside known rfl
    obtain ⟨pn, found, rebuilt⟩ := rebuild_some truncated lengths space
    rw [Nat.mod_eq_of_lt bounded] at found
    have last : pn < limit ↔ ¬ (known = 2 ^ 62 - 1 ∧ truncated ≤ window length / 2) := by
      rw [lt_limit_iff_of_nearest space (window_le lengths.2) (window_dvd_limit lengths.2) bounded found]
      omega
    rw [rebuilt, Option.some.injEq]
    by_cases fits : pn < limit
    next =>
      have answered := last.mp fits
      rw [if_pos fits]
      constructor
      next =>
        intro refused
        cases refused
      next =>
        intro exhausted
        exact absurd exhausted.1 answered
    next =>
      have exhausted := Classical.not_not.mp (mt last.mpr fits)
      simp [fits, exhausted, eq_comm]

theorem run_read_of_length (outside : ¬ (1 ≤ length ∧ length ≤ maxLength)) :
    (read length largest).run b = .error (.refused (.invalidLength length)) b := by
  simp [read, checkLength, outside]

theorem run_read_of_reference {known : Nat} (lengths : 1 ≤ length ∧ length ≤ maxLength) (outside : limit ≤ known) :
    (read length (some known)).run b = .error (.refused (.valueTooLarge known)) b := by
  simp [read, checkLength, lengths, checkReference, Nat.not_lt_of_le outside]

theorem Exhausted.inside (exhausted : Exhausted length largest b) : ∀ known ∈ largest, known < limit := by
  obtain ⟨-, rfl, -⟩ := exhausted
  rintro _ ⟨⟩
  decide

section Checked

variable (lengths : 1 ≤ length ∧ length ≤ maxLength) (inside : ∀ known ∈ largest, known < limit)

include lengths inside

theorem run_read_of_checked :
    (read length largest).run b =
      if length ≤ b.length then
        (Reader.lift (rebuild (beValue (b.take length)) length largest)).run (b.drop length)
      else .error (.refused .violation) b := by
  have length_ok : checkLength length = .ok () := checkLength_eq_ok_iff.mpr lengths
  have reference_ok : checkReference largest = .ok () := checkReference_eq_ok_iff.mpr inside
  simp only [read, length_ok, reference_ok, EStateM.run_bind, Reader.run_lift_ok, Reader.run_need]
  by_cases enough : length ≤ b.length
  next => simp only [if_pos enough, Reader.run_take]
  next => simp only [if_neg enough]

theorem rebuild_taken_eq_error_iff (enough : length ≤ b.length) :
    rebuild (beValue (b.take length)) length largest = .error failure ↔
      Exhausted length largest b ∧ failure = .refused .violation := by
  have bounded : beValue (b.take length) < window length := by
    have narrow := beValue_lt (b.take length)
    rwa [List.length_take_of_le enough, ← window_eq] at narrow
  rw [rebuild_eq_error_iff lengths inside bounded, window_eq]
  constructor
  next =>
    intro refused
    obtain ⟨⟨last, low⟩, cause⟩ := refused
    exact ⟨⟨lengths, last, enough, low⟩, cause⟩
  next =>
    intro refused
    obtain ⟨⟨-, last, -, low⟩, cause⟩ := refused
    exact ⟨⟨last, low⟩, cause⟩

theorem refused_of_checked (failed : (read length largest).run b = .error failure rest) :
    Refused length largest b failure rest := by
  rw [run_read_of_checked lengths inside] at failed
  by_cases enough : length ≤ b.length
  next =>
    rw [if_pos enough] at failed
    cases rebuilt : rebuild (beValue (b.take length)) length largest with
    | ok pn =>
      rw [rebuilt] at failed
      cases failed
    | error =>
      rw [rebuilt] at failed
      cases failed
      obtain ⟨exhausted, rfl⟩ := (rebuild_taken_eq_error_iff lengths inside enough).mp rebuilt
      exact .exhausted exhausted
  next =>
    rw [if_neg enough] at failed
    cases failed
    exact .short lengths inside (Nat.lt_of_not_le enough)

end Checked

theorem Refused.run_read_eq (refused : Refused length largest b failure rest) :
    (read length largest).run b = .error failure rest := by
  cases refused with
  | length outside => exact run_read_of_length outside
  | reference lengths seen outside =>
    rw [seen]
    exact run_read_of_reference lengths outside
  | short lengths inside short => rw [run_read_of_checked lengths inside, if_neg (Nat.not_le_of_lt short)]
  | exhausted exhausted =>
    have lengths := exhausted.1
    have enough := exhausted.2.2.1
    have refused := (rebuild_taken_eq_error_iff lengths exhausted.inside enough).mpr ⟨exhausted, rfl⟩
    rw [run_read_of_checked lengths exhausted.inside, if_pos enough, refused, Reader.run_lift_error]

theorem refused_of_run_read (failed : (read length largest).run b = .error failure rest) :
    Refused length largest b failure rest := by
  by_cases lengths : 1 ≤ length ∧ length ≤ maxLength
  next =>
    by_cases inside : ∀ known ∈ largest, known < limit
    next => exact refused_of_checked lengths inside failed
    next =>
      obtain ⟨known, seen, outside⟩ : ∃ known, largest = some known ∧ limit ≤ known := by
        simpa only [not_forall, Nat.not_lt, exists_prop, Option.mem_def] using inside
      rw [seen, run_read_of_reference lengths outside] at failed
      cases failed
      exact .reference lengths seen outside
  next =>
    rw [run_read_of_length lengths] at failed
    cases failed
    exact .length lengths

theorem Exhausted.drop_ne (exhausted : Exhausted length largest b) : b.drop length ≠ b := by
  obtain ⟨⟨positive, -⟩, -, enough, -⟩ := exhausted
  intro same
  have shorter := congrArg List.length same
  rw [List.length_drop] at shorter
  omega

end Left

theorem left_by_read (length : Nat) (largest : Option Nat) (b : Bytes) :
    (∀ failure rest, (read length largest).run b = .error failure rest ↔ Refused length largest b failure rest) ∧
    (∀ failure rest, (read length largest).run b = .error failure rest →
      (rest = b ↔ ¬ Exhausted length largest b)) ∧
    ∀ pn rest, (read length largest).run b = .ok pn rest → ∃ number, number.length = length ∧ b = number ++ rest := by
  refine ⟨fun failure rest => ⟨refused_of_run_read, Refused.run_read_eq⟩, ?_, ?_⟩
  next =>
    intro failure rest failed
    constructor
    next =>
      intro kept exhausted
      rw [(Refused.exhausted exhausted).run_read_eq] at failed
      cases failed
      exact exhausted.drop_ne kept
    next =>
      intro answerable
      cases refused_of_run_read failed with
      | length | reference | short => rfl
      | exhausted exhausted => exact absurd exhausted answerable
  next =>
    intro pn rest success
    obtain ⟨number, width, -, split⟩ := run_read_eq_ok_iff.mp success
    exact ⟨number, width, split⟩

theorem left_by_read_exhausted :
    let b : Bytes := [0x80, 0, 7]
    (read 2 (some (2 ^ 62 - 1))).run b = .error (.refused .violation) [7] ∧
      ([7] = b ↔ ¬ Exhausted 2 (some (2 ^ 62 - 1)) b) ∧
      (read 2 (some (2 ^ 62 - 1))).run [0xff, 0xff, 7] = .ok (2 ^ 62 - 1) [7] ∧
      ∃ number : Bytes, number.length = 2 ∧ [0xff, 0xff, 7] = number ++ [7] := by
  intro b
  have exhausted : Exhausted 2 (some (2 ^ 62 - 1)) b := by decide
  have success : (read 2 (some (2 ^ 62 - 1))).run [0xff, 0xff, 7] = .ok (2 ^ 62 - 1) [7] := rfl
  obtain ⟨refused_iff, kept_iff, -⟩ := left_by_read 2 (some (2 ^ 62 - 1)) b
  have failed := (refused_iff _ _).mpr (.exhausted exhausted)
  obtain ⟨-, -, taken⟩ := left_by_read 2 (some (2 ^ 62 - 1)) [0xff, 0xff, 7]
  exact ⟨failed, kept_iff _ _ failed, success, taken _ _ success⟩

theorem not_left_by_read_zero :
    ¬ ∀ (length : Nat) (largest : Option Nat) (b rest : Bytes) (failure : Failure),
      (read length largest).run b = .error failure rest → rest = b := by
  intro untouched
  have failed : (read 1 (some (2 ^ 62 - 1))).run [0] = .error (.refused .violation) [] := rfl
  exact absurd (untouched 1 (some (2 ^ 62 - 1)) [0] [] _ failed) (by decide)

end QuicWire.PacketNumber

import QuicWire.Proofs.PacketNumber

set_option autoImplicit false

namespace QuicWire.PacketNumber

structure Message where
  number : Nat
  length : Nat
  bytes : Bytes
  deriving DecidableEq

structure Delivery where
  message : Message
  outcome : Except Failure Nat

structure Exchange where
  sent : List Message := []
  acknowledged : Option Nat := none
  largest : Option Nat := none
  -- All that the receiver's reference has been, the latest first.
  history : List (Option Nat) := [none]
  deliveries : List Delivery := []

def Behind (known newest : Option Nat) : Prop :=
  ∀ k ∈ known, ∃ n ∈ newest, k ≤ n

theorem Behind.refl (known : Option Nat) : Behind known known :=
  fun k member => ⟨k, member, Nat.le_refl k⟩

theorem Behind.max {known newest : Option Nat} (h : Behind known newest) (pn : Nat) :
    Behind known (max newest (some pn)) := by
  intro k member
  obtain ⟨n, rfl, le⟩ := h k member
  exact ⟨Max.max n pn, rfl, Nat.le_trans le (Nat.le_max_left n pn)⟩

theorem max?_cons_eq_max (pn : Nat) (numbers : List Nat) :
    (pn :: numbers).max? = max numbers.max? (some pn) := by
  rw [List.max?_cons]
  cases numbers.max? with
  | none => rfl
  | some n => exact congrArg some (Nat.max_comm pn n)

theorem encodedLen_error_eq {pn : Nat} {largest : Option Nat} {cause : Error}
    (above : ∀ known ∈ largest, known < pn) (refused : encodedLen pn largest = .error cause) :
    cause = .valueTooLarge pn := by
  have none_fits (fits : Nat → Bool) (long : shortest pn fits = .error cause) : cause = .valueTooLarge pn := by
    unfold shortest at long
    split at long <;> cases long
    rfl
  unfold encodedLen at refused
  split at refused
  next => cases refused; rfl
  next =>
    split at refused
    next => exact none_fits _ refused
    next known =>
      rw [if_neg (Nat.not_le_of_lt (above known rfl))] at refused
      exact none_fits _ refused

namespace Exchange

def delivered (s : Exchange) : List Nat :=
  s.deliveries.map fun d => d.message.number

def deliver (s : Exchange) (m : Message) : Exchange :=
  let outcome := (read m.length s.largest).eval m.bytes
  let largest := max s.largest outcome.toOption
  { s with largest, history := largest :: s.history, deliveries := ⟨m, outcome⟩ :: s.deliveries }

/-- Nothing that was sent is ever taken back, so that it may arrive late, out of order, again, or never. -/
inductive Step : Exchange → Exchange → Prop where
  | send {s : Exchange} {pn length : Nat} {bytes : Bytes} (fresh : ∀ m ∈ s.sent, m.number < pn)
      (written : (write pn s.acknowledged).run [] = .ok length bytes) :
      Step s { s with sent := ⟨pn, length, bytes⟩ :: s.sent }
  | deliver {s : Exchange} {m : Message} (sent : m ∈ s.sent)
      (near : ∀ known ∈ s.largest, known + 1 < m.number + 2 ^ (8 * m.length - 1)) : Step s (s.deliver m)
  | acknowledge {s : Exchange} {known : Option Nat} (seen : known ∈ s.history) :
      Step s { s with acknowledged := known }

inductive Reached : Exchange → Prop where
  | start : Reached {}
  | step {s s' : Exchange} (before : Reached s) (step : Step s s') : Reached s'

def Written (m : Message) (newest : Option Nat) : Prop :=
  ∃ reference, Behind reference newest ∧ encodedLen m.number reference = .ok m.length ∧
    m.bytes = beBytes m.length m.number

structure Sound (s : Exchange) : Prop where
  sent : ∀ m ∈ s.sent, Written m s.largest
  history : ∀ known ∈ s.history, Behind known s.largest
  acknowledged : Behind s.acknowledged s.largest
  deliveries : ∀ d ∈ s.deliveries, d.outcome = .ok d.message.number ∧ d.message ∈ s.sent
  largest : s.largest = s.delivered.max?

variable {s s' : Exchange} {m : Message}

theorem sound_start : Sound {} where
  sent := nofun
  history := by
    intro known member
    rw [List.mem_singleton.mp member]
    exact Behind.refl none
  acknowledged := Behind.refl none
  deliveries := nofun
  largest := rfl

theorem Sound.newest_mem (sound : s.Sound) {newest : Nat} (member : newest ∈ s.largest) :
    ∃ m ∈ s.sent, m.number = newest := by
  rw [sound.largest] at member
  obtain ⟨d, taken, rfl⟩ := List.mem_map.mp (List.max?_mem member)
  exact ⟨d.message, (sound.deliveries d taken).2, rfl⟩

theorem Sound.newest_lt (sound : s.Sound) {newest : Nat} (member : newest ∈ s.largest) : newest < limit := by
  obtain ⟨m, sent, rfl⟩ := sound.newest_mem member
  obtain ⟨_, -, encoded, -⟩ := sound.sent m sent
  exact (encodedLen_bounds encoded).2.2.1

theorem Sound.inReach (sound : s.Sound) {pn length : Nat} {reference : Option Nat}
    (behind : Behind reference s.largest)
    (near : ∀ known ∈ s.largest, known + 1 < pn + 2 ^ (8 * length - 1)) :
    InReach pn length reference s.largest := by
  cases newest : s.largest with
  | none =>
    -- A receiver that has seen nothing has told nothing.
    cases reference with
    | none => rfl
    | some known =>
      rw [newest] at behind
      obtain ⟨_, ⟨⟩, _⟩ := behind known rfl
  | some n =>
    refine ⟨sound.newest_lt newest, ?_, near n newest⟩
    intro known member
    obtain ⟨_, same, le⟩ := behind known member
    rw [newest] at same
    cases same
    exact le

theorem Sound.eval_read (sound : s.Sound) (sent : m ∈ s.sent)
    (near : ∀ known ∈ s.largest, known + 1 < m.number + 2 ^ (8 * m.length - 1)) :
    (read m.length s.largest).eval m.bytes = .ok m.number := by
  obtain ⟨reference, behind, encoded, bytes⟩ := sound.sent m sent
  have recovered := run_read_of_inReach encoded (sound.inReach behind near) []
  rw [List.append_nil, ← bytes] at recovered
  exact Reader.eval_eq_ok_iff.mpr ⟨[], recovered⟩

theorem Sound.send (sound : s.Sound) {pn length : Nat} {bytes : Bytes}
    (written : (write pn s.acknowledged).run [] = .ok length bytes) :
    Sound { s with sent := ⟨pn, length, bytes⟩ :: s.sent } where
  sent := by
    rw [List.forall_mem_cons]
    exact ⟨⟨s.acknowledged, sound.acknowledged, run_write_eq_ok_iff.mp written⟩, sound.sent⟩
  history := sound.history
  acknowledged := sound.acknowledged
  deliveries d taken := ⟨(sound.deliveries d taken).1, List.mem_cons_of_mem _ (sound.deliveries d taken).2⟩
  largest := sound.largest

theorem Sound.deliver (sound : s.Sound) (sent : m ∈ s.sent)
    (near : ∀ known ∈ s.largest, known + 1 < m.number + 2 ^ (8 * m.length - 1)) : (s.deliver m).Sound := by
  have outcome := sound.eval_read sent near
  simp only [Exchange.deliver, outcome, Except.toOption]
  -- The reference only grows, so that all that was behind it still is.
  constructor
  case sent =>
    intro message member
    obtain ⟨reference, behind, written⟩ := sound.sent message member
    exact ⟨reference, behind.max m.number, written⟩
  case history =>
    rw [List.forall_mem_cons]
    exact ⟨Behind.refl _, fun known seen => (sound.history known seen).max m.number⟩
  case acknowledged => exact sound.acknowledged.max m.number
  case deliveries =>
    rw [List.forall_mem_cons]
    exact ⟨⟨rfl, sent⟩, sound.deliveries⟩
  case largest =>
    rw [delivered, List.map_cons, max?_cons_eq_max, sound.largest]
    rfl

theorem Sound.acknowledge (sound : s.Sound) {known : Option Nat} (seen : known ∈ s.history) :
    Sound { s with acknowledged := known } where
  sent := sound.sent
  history := sound.history
  acknowledged := sound.history known seen
  deliveries := sound.deliveries
  largest := sound.largest

theorem Sound.step (sound : s.Sound) (step : Step s s') : s'.Sound := by
  cases step with
  | send _ written => exact sound.send written
  | deliver sent near => exact sound.deliver sent near
  | acknowledge seen => exact sound.acknowledge seen

theorem Reached.sound (reached : Reached s) : s.Sound := by
  induction reached with
  | start => exact sound_start
  | step _ step ih => exact ih.step step

theorem Sound.acknowledged_lt (sound : s.Sound) {pn : Nat} (fresh : ∀ m ∈ s.sent, m.number < pn) :
    ∀ known ∈ s.acknowledged, known < pn := by
  intro known member
  obtain ⟨newest, member, le⟩ := sound.acknowledged known member
  obtain ⟨m, sent, rfl⟩ := sound.newest_mem member
  exact Nat.lt_of_le_of_lt le (fresh m sent)

theorem Sound.run_write_ne (sound : s.Sound) {pn : Nat} (fresh : ∀ m ∈ s.sent, m.number < pn)
    (out left : Bytes) (a b : Nat) : (write pn s.acknowledged).run out ≠ .error (.nonMonotonic a b) left := by
  intro refused
  rw [run_write] at refused
  split at refused
  next => cases refused
  next encoded =>
    rw [encodedLen_error_eq (sound.acknowledged_lt fresh) encoded] at refused
    cases refused

structure Faithful (s : Exchange) : Prop where
  delivered : ∀ d ∈ s.deliveries, d.message ∈ s.sent ∧ d.outcome = .ok d.message.number
  largest : s.largest = s.delivered.max?
  behind : Behind s.acknowledged s.largest
  monotonic : ∀ pn, (∀ m ∈ s.sent, m.number < pn) → ∀ out left a b,
    (write pn s.acknowledged).run out ≠ .error (.nonMonotonic a b) left

theorem faithful_of_reached {s : Exchange} (reached : Reached s) : s.Faithful where
  delivered d taken := (reached.sound.deliveries d taken).symm
  largest := reached.sound.largest
  behind := reached.sound.acknowledged
  monotonic _ fresh := reached.sound.run_write_ne fresh

namespace Reordered

def late : Message := ⟨5, 1, [5]⟩

def early : Message := ⟨100, 1, [100]⟩

def lost : Message := ⟨200, 1, [200]⟩

def again : Message := ⟨300, 2, [1, 44]⟩

def opened : Exchange where
  sent := [early, late]

def met : Exchange where
  sent := [early, late]
  largest := some 100
  history := [some 100, some 100, none]
  deliveries := [⟨late, .ok 5⟩, ⟨early, .ok 100⟩]

def answered : Exchange where
  sent := [again, lost, early, late]
  acknowledged := some 100
  largest := some 100
  history := [some 100, some 100, none]
  deliveries := [⟨late, .ok 5⟩, ⟨early, .ok 100⟩]

def last : Exchange where
  sent := [again, lost, early, late]
  acknowledged := some 100
  largest := some 300
  history := [some 300, some 300, some 100, some 100, none]
  deliveries := [⟨again, .ok 300⟩, ⟨again, .ok 300⟩, ⟨late, .ok 5⟩, ⟨early, .ok 100⟩]

end Reordered

theorem faithful_of_reached_reordered : Reached Reordered.last ∧ Reordered.last.Faithful := by
  open Reordered in
  have reached : Reached opened := (Reached.start.step (.send nofun rfl)).step (.send (by decide) rfl)
  have reached : Reached met :=
    (reached.step (.deliver (m := early) (by decide) nofun)).step
      (.deliver (s := opened.deliver early) (m := late) (by decide) (by decide))
  have reached : Reached answered :=
    ((reached.step (.acknowledge (by decide))).step (.send (by decide) rfl)).step (.send (by decide) rfl)
  have reached : Reached last :=
    (reached.step (.deliver (m := again) (by decide) (by decide))).step
      (.deliver (s := answered.deliver again) (m := again) (by decide) (by decide))
  exact ⟨reached, faithful_of_reached reached⟩

end Exchange

end QuicWire.PacketNumber

import QuicWire.Proofs.Reader
import QuicWire.PacketNumber

set_option autoImplicit false

namespace QuicWire

theorem Word.fit_of_lt {n : Nat} (h : n < size) : fit n = .ok n :=
  (fit_eq_ok_iff n n).mpr ⟨h, rfl⟩

theorem Word.sub_of_le {a b : Nat} (h : b ≤ a) : sub a b = .ok (a - b) :=
  (sub_eq_ok_iff a b (a - b)).mpr ⟨h, rfl⟩

namespace PacketNumber

theorem window_eq (length : Nat) : window length = 2 ^ (8 * length) := by
  rw [window, Nat.one_shiftLeft]

theorem window_le {length : Nat} (h : length ≤ maxLength) : window length ≤ 2 ^ 32 := by
  rw [window_eq]
  have : maxLength = 4 := rfl
  exact Nat.pow_le_pow_right (by decide) (by omega)

theorem nearest_eq {expected window low : Nat} (space : expected ≤ limit) (narrow : window ≤ 2 ^ 32)
    (inside : low < window) :
    nearest expected window low = .ok (
      let candidate := expected / window * window + low
      if candidate + window / 2 ≤ expected ∧ candidate < limit - window then candidate + window
      else if expected + window / 2 < candidate ∧ window ≤ candidate then candidate - window
      else candidate) := by
  have size : Word.size = 2 ^ 64 := rfl
  have limit_eq : limit = 2 ^ 62 := rfl
  -- All candidates are at most one window past the space, and so no step leaves the word.
  have block := Nat.div_mul_le_self expected window
  have within : expected / window * window + low < 2 ^ 62 + 2 ^ 32 := by omega
  simp only [nearest]
  rw [Word.fit_of_lt (by omega)]
  generalize expected / window * window + low = candidate at within
  simp only [bind, Except.bind]
  rw [Word.fit_of_lt (n := candidate + window / 2) (by omega), Word.sub_of_le (a := limit) (by omega)]
  dsimp only
  split
  next => exact Word.fit_of_lt (by omega)
  next =>
    rw [Word.fit_of_lt (n := expected + window / 2) (by omega)]
    dsimp only
    split
    next down => exact Word.sub_of_le down.2
    next => rfl

/-- What a receiver has to have seen, given what the sender knew of it. -/
def InReach (pn length : Nat) (sender receiver : Option Nat) : Prop :=
  match receiver with
  | none => sender = none
  | some largest =>
    largest < limit ∧ (∀ known ∈ sender, known ≤ largest) ∧ largest + 1 < pn + 2 ^ (8 * length - 1)

theorem encodedLen_bounds {pn length : Nat} {largest : Option Nat}
    (h : encodedLen pn largest = .ok length) :
    1 ≤ length ∧ length ≤ maxLength ∧ pn < limit ∧
      match largest with
      | none => pn + 1 < window length
      | some largest => pn < largest + window length / 2 := by
  have short (fits : Nat → Bool) (found : shortest pn fits = .ok length) :
      1 ≤ length ∧ length ≤ maxLength ∧ fits length = true := by
    unfold shortest at found
    split at found
    next chosen =>
      cases found
      have member := List.mem_of_find?_eq_some chosen
      refine ⟨?_, ?_, List.find?_some chosen⟩ <;> revert member <;> simp [maxLength] <;> omega
    next => cases found
  unfold encodedLen at h
  split at h
  next => cases h
  next inside =>
    split at h
    next =>
      obtain ⟨low, high, fits⟩ := short _ h
      rw [decide_eq_true_eq] at fits
      exact ⟨low, high, by omega, by dsimp only; omega⟩
    next =>
      split at h
      next => cases h
      next above =>
        obtain ⟨low, high, fits⟩ := short _ h
        rw [decide_eq_true_eq] at fits
        exact ⟨low, high, by omega, by dsimp only; omega⟩

theorem nearest_of_close {pn expected length : Nat} (low : 1 ≤ length) (high : length ≤ maxLength)
    (space : pn < limit) (reference : expected ≤ limit) (near : expected < pn + window length / 2)
    (close : pn < expected + window length / 2 ∨ pn < window length) :
    nearest expected (window length) (pn % window length) = .ok pn := by
  have positive : 0 < window length := by
    rw [window_eq]
    exact Nat.two_pow_pos _
  rw [nearest_eq reference (window_le high) (Nat.mod_lt _ positive)]
  congr 1
  have limit_eq : limit = 2 ^ 62 := rfl
  have lengths : length = 1 ∨ length = 2 ∨ length = 3 ∨ length = 4 := by
    have : maxLength = 4 := rfl
    omega
  -- The window is a numeral in each of the four cases, so that division by it is linear.
  rcases lengths with rfl | rfl | rfl | rfl <;> rw [window_eq] at * <;> dsimp only <;> split
  all_goals first | omega | (split <;> omega)

theorem half_window {length : Nat} (low : 1 ≤ length) : window length / 2 = 2 ^ (8 * length - 1) := by
  have step : 8 * length = 8 * length - 1 + 1 := by omega
  rw [window_eq, step, Nat.pow_succ, Nat.mul_div_cancel _ (by decide), Nat.add_sub_cancel]

theorem rebuild_of_inReach {pn length : Nat} {sender receiver : Option Nat}
    (encoded : encodedLen pn sender = .ok length) (reach : InReach pn length sender receiver) :
    rebuild (pn % window length) length receiver = .ok pn := by
  obtain ⟨low, high, space, bound⟩ := encodedLen_bounds encoded
  have length_ok : checkLength length = .ok () := if_pos ⟨low, high⟩
  cases receiver with
  | none =>
    subst reach
    simp only [rebuild, length_ok, checkReference, bind, Except.bind, Nat.mod_mod, pure, Except.pure]
    dsimp only at bound
    rw [Nat.mod_eq_of_lt (by omega)]
  | some largest =>
    obtain ⟨inside, known, near⟩ := reach
    have size : Word.size = 2 ^ 64 := rfl
    have limit_eq : limit = 2 ^ 62 := rfl
    have close : pn < largest + 1 + window length / 2 ∨ pn < window length := by
      cases sender with
      | none =>
        dsimp only at bound
        exact .inr (by omega)
      | some acknowledged =>
        have := known acknowledged rfl
        dsimp only at bound
        exact .inl (by omega)
    have found := nearest_of_close low high space (by omega) (by rwa [half_window low]) close
    simp only [rebuild, length_ok, checkReference, if_pos inside, bind, Except.bind, Nat.mod_mod]
    rw [Word.fit_of_lt (by omega)]
    dsimp only
    rw [found]
    exact if_pos space

theorem checks_of_rebuild {truncated length pn : Nat} {largest : Option Nat}
    (rebuilt : rebuild truncated length largest = .ok pn) :
    checkLength length = .ok () ∧ checkReference largest = .ok () := by
  cases length_ok : checkLength length with
  | error => simp [rebuild, length_ok, bind, Except.bind] at rebuilt
  | ok =>
    cases reference_ok : checkReference largest with
    | error => simp [rebuild, length_ok, reference_ok, bind, Except.bind] at rebuilt
    | ok => exact ⟨rfl, rfl⟩

theorem checkReference_eq_ok_iff {largest : Option Nat} {u : Unit} :
    checkReference largest = .ok u ↔ ∀ known ∈ largest, known < limit := by
  cases largest with
  | none => simp [checkReference]
  | some known => by_cases inside : known < limit <;> simp [checkReference, inside]

theorem lt_of_encodedLen {pn known length : Nat} (h : encodedLen pn (some known) = .ok length) : known < pn := by
  grind [encodedLen]

theorem inReach_self {pn length : Nat} {largest : Option Nat} (encoded : encodedLen pn largest = .ok length)
    (inside : ∀ known ∈ largest, known < limit) : InReach pn length largest largest := by
  cases largest with
  | none => rfl
  | some known =>
    have above := lt_of_encodedLen encoded
    have positive : 0 < 2 ^ (8 * length - 1) := Nat.two_pow_pos _
    refine ⟨inside known rfl, ?_, by omega⟩
    rintro _ ⟨⟩
    exact Nat.le_refl known

theorem mod_of_nearest {expected window low pn : Nat} (space : expected ≤ limit) (narrow : window ≤ 2 ^ 32)
    (inside : low < window) (found : nearest expected window low = .ok pn) : pn % window = low := by
  have candidate : (expected / window * window + low) % window = low := by
    rw [Nat.mul_add_mod_self_right, Nat.mod_eq_of_lt inside]
  rw [nearest_eq space narrow inside] at found
  cases found
  -- All three numbers that are considered differ by whole windows.
  dsimp only
  split
  next => rw [Nat.add_mod_right, candidate]
  next =>
    split
    next down => rw [← Nat.mod_eq_sub_mod down.2, candidate]
    next => exact candidate

theorem checkLength_eq_ok_iff {length : Nat} {u : Unit} :
    checkLength length = .ok u ↔ 1 ≤ length ∧ length ≤ maxLength := by
  by_cases lengths : 1 ≤ length ∧ length ≤ maxLength <;> simp [checkLength, lengths]

theorem rebuild_some (truncated : Nat) {length known : Nat} (lengths : 1 ≤ length ∧ length ≤ maxLength)
    (inside : known < limit) :
    ∃ pn, nearest (known + 1) (window length) (truncated % window length) = .ok pn ∧
      rebuild truncated length (some known) = if pn < limit then .ok pn else .error (.refused .violation) := by
  have size : Word.size = 2 ^ 64 := rfl
  have limit_eq : limit = 2 ^ 62 := rfl
  have low : truncated % window length < window length := by
    rw [window_eq]
    exact Nat.mod_lt _ (Nat.two_pow_pos _)
  have found := nearest_eq inside (window_le lengths.2) low
  have fits : Word.fit (known + 1) = .ok (known + 1) := Word.fit_of_lt (by omega)
  refine ⟨_, found, ?_⟩
  simp only [rebuild, checkLength, if_pos lengths, checkReference, if_pos inside, bind, Except.bind, fits, found,
    pure, Except.pure]

theorem mod_of_rebuild {truncated length pn : Nat} {largest : Option Nat}
    (rebuilt : rebuild truncated length largest = .ok pn) : pn % window length = truncated % window length := by
  obtain ⟨length_ok, reference_ok⟩ := checks_of_rebuild rebuilt
  have lengths := checkLength_eq_ok_iff.mp length_ok
  cases largest with
  | none =>
    simp only [rebuild, length_ok, reference_ok, bind, Except.bind] at rebuilt
    cases rebuilt
    exact Nat.mod_mod _ _
  | some known =>
    have inside := checkReference_eq_ok_iff.mp reference_ok known rfl
    have low : truncated % window length < window length := by
      rw [window_eq]
      exact Nat.mod_lt _ (Nat.two_pow_pos _)
    obtain ⟨nearby, found, rebuilt_eq⟩ := rebuild_some truncated lengths inside
    rw [rebuilt_eq] at rebuilt
    split at rebuilt <;> cases rebuilt
    exact mod_of_nearest inside (window_le lengths.2) low found

theorem eq_beBytes_of_rebuild {number : Bytes} {pn : Nat} {largest : Option Nat}
    (rebuilt : rebuild (beValue number) number.length largest = .ok pn) : number = beBytes number.length pn := by
  have low := mod_of_rebuild rebuilt
  rw [window_eq, Nat.mod_eq_of_lt (beValue_lt number)] at low
  rw [← beBytes_mod, low, beBytes_beValue]

theorem run_read_eq_ok_iff {length pn : Nat} {largest : Option Nat} {b rest : Bytes} :
    (read length largest).run b = .ok pn rest ↔
      ∃ number : Bytes, number.length = length ∧ rebuild (beValue number) length largest = .ok pn ∧
        b = number ++ rest := by
  simp only [read, Reader.run_bind_eq_ok_iff, Reader.run_lift_eq_ok_iff, Reader.run_need_eq_ok_iff,
    Reader.run_take_eq_ok_iff, and_assoc, exists_and_left, exists_eq_left', exists_const]
  constructor
  · intro success
    obtain ⟨_, _, _, _, _, number, width, _, rfl, rebuilt, rfl⟩ := success
    exact ⟨number, width, rebuilt, rfl⟩
  · intro spelled
    obtain ⟨number, width, rebuilt, rfl⟩ := spelled
    obtain ⟨length_ok, reference_ok⟩ := checks_of_rebuild rebuilt
    have enough : length ≤ (number ++ rest).length := by
      rw [List.length_append, width]
      exact Nat.le_add_right _ _
    exact ⟨(), length_ok, (), reference_ok, enough, number, width, rest, rfl, rebuilt, rfl⟩

theorem run_read_of_inReach {pn length : Nat} {sender receiver : Option Nat}
    (encoded : encodedLen pn sender = .ok length) (reach : InReach pn length sender receiver) (rest : Bytes) :
    (read length receiver).run (beBytes length pn ++ rest) = .ok pn rest := by
  have rebuilt := rebuild_of_inReach encoded reach
  rw [window_eq, ← beValue_beBytes] at rebuilt
  exact run_read_eq_ok_iff.mpr ⟨_, length_beBytes length pn, rebuilt, rfl⟩

theorem run_write (pn : Nat) (largest : Option Nat) (out : Bytes) :
    (write pn largest).run out = match encodedLen pn largest with
      | .ok length => .ok length (out ++ beBytes length pn)
      | .error cause => .error cause out := by
  cases encoded : encodedLen pn largest <;> simp [write, encoded]

theorem run_write_eq_ok_iff {pn length : Nat} {largest : Option Nat} {out left : Bytes} :
    (write pn largest).run out = .ok length left ↔
      encodedLen pn largest = .ok length ∧ left = out ++ beBytes length pn := by
  rw [run_write]
  constructor
  · intro wrote
    split at wrote
    next encoded =>
      cases wrote
      exact ⟨encoded, rfl⟩
    next => cases wrote
  · intro given
    obtain ⟨encoded, rfl⟩ := given
    rw [encoded]

end PacketNumber

end QuicWire

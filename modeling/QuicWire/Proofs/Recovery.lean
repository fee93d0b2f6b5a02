import Mathlib.Data.Nat.Dist
import QuicWire.Proofs.PacketNumber

set_option autoImplicit false

namespace QuicWire.PacketNumber

/-- Nearer to `expected`, or as near and not lower. -/
def Preferred (expected pn q : Nat) : Prop :=
  Nat.dist pn expected < Nat.dist q expected ∨ Nat.dist pn expected = Nat.dist q expected ∧ q ≤ pn

structure IsNearest (expected window low pn : Nat) : Prop where
  inside : pn < limit
  low_eq : pn % window = low
  preferred : ∀ q < limit, q % window = low → Preferred expected pn q

theorem preferred_of_ahead {expected pn q half : Nat} (ahead : expected ≤ pn)
    (far : pn ≤ q ∨ q + half ≤ expected ∧ pn ≤ expected + half) : Preferred expected pn q := by
  rw [Preferred, Nat.dist_eq_sub_of_le_right ahead]
  rcases far with beyond | ⟨across, near⟩
  · rw [Nat.dist_eq_sub_of_le_right (Nat.le_trans ahead beyond)]
    omega
  · rw [Nat.dist_eq_sub_of_le (Nat.le_of_add_right_le across)]
    omega

theorem preferred_of_behind {expected pn q half : Nat} (behind : pn ≤ expected)
    (far : q ≤ pn ∨ expected + half < q ∧ expected ≤ pn + half) : Preferred expected pn q := by
  rw [Preferred, Nat.dist_eq_sub_of_le behind]
  rcases far with beyond | ⟨across, near⟩
  · rw [Nat.dist_eq_sub_of_le (Nat.le_trans beyond behind)]
    omega
  · rw [Nat.dist_eq_sub_of_le_right (by omega)]
    omega

theorem two_dvd_window {length : Nat} (low : 1 ≤ length) : 2 ∣ window length := by
  rw [window_eq]
  exact Nat.pow_dvd_pow 2 (m := 1) (by omega)

theorem window_dvd_limit {length : Nat} (high : length ≤ maxLength) : window length ∣ limit := by
  rw [window_eq]
  have : maxLength = 4 := rfl
  exact Nat.pow_dvd_pow 2 (n := 62) (by omega)

section Candidates

variable {expected window low pn : Nat}

theorem spaced_of_mod_eq {q : Nat} (ends : q % window = low) (expected : Nat) :
    q + window ≤ expected / window * window + low ∨ q = expected / window * window + low ∨
      expected / window * window + low + window ≤ q := by
  have split : q / window * window + low = q := by
    rw [← ends, Nat.mul_comm]
    exact Nat.div_add_mod q window
  rcases Nat.lt_trichotomy (q / window) (expected / window) with below | same | above
  · have := Nat.mul_le_mul_right window (Nat.succ_le_of_lt below)
    rw [Nat.succ_mul] at this
    omega
  · rw [← same, split]
    omega
  · have := Nat.mul_le_mul_right window (Nat.succ_le_of_lt above)
    rw [Nat.succ_mul] at this
    omega

theorem block_le (divides : window ∣ limit) (inside : expected < limit) :
    expected / window * window + window ≤ limit := by
  have blocks : limit / window * window = limit := Nat.div_mul_cancel divides
  have earlier : expected / window < limit / window :=
    Nat.div_lt_of_lt_mul (by rwa [Nat.mul_comm, blocks])
  have ends := Nat.mul_le_mul_right window (Nat.succ_le_of_lt earlier)
  rwa [Nat.succ_mul, blocks] at ends

theorem lt_limit_iff_of_nearest (space : expected ≤ limit) (narrow : window ≤ 2 ^ 32)
    (divides : window ∣ limit) (inside : low < window) (found : nearest expected window low = .ok pn) :
    pn < limit ↔ ¬ (expected = limit ∧ low ≤ window / 2) := by
  have limit_eq : limit = 2 ^ 62 := rfl
  have start := Nat.div_mul_le_self expected window
  rw [nearest_eq space narrow inside] at found
  have found := Except.ok.inj found
  dsimp only at found
  by_cases last : expected = limit
  · have block : expected / window * window = limit := by rw [last, Nat.div_mul_cancel divides]
    rw [block] at found
    split at found
    · omega
    · split at found <;> omega
  · have block := block_le divides (Nat.lt_of_le_of_ne space last)
    generalize expected / window * window = block at *
    split at found
    · omega
    · split at found <;> omega

theorem isNearest_of_nearest (space : expected ≤ limit) (narrow : window ≤ 2 ^ 32) (even : 2 ∣ window)
    (inside : low < window) (found : nearest expected window low = .ok pn) (fits : pn < limit) :
    IsNearest expected window low pn := by
  refine ⟨fits, mod_of_nearest space narrow inside found, ?_⟩
  intro q bound ends
  have apart := spaced_of_mod_eq ends expected
  have start : expected / window * window + expected % window = expected := Nat.div_add_mod' expected window
  have position : expected % window < window := Nat.mod_lt _ (by omega)
  have half : window / 2 * 2 = window := Nat.div_mul_cancel even
  rw [nearest_eq space narrow inside] at found
  generalize expected / window * window = block at *
  have found := Except.ok.inj found
  dsimp only at found
  split at found
  next up =>
    -- The candidate is half a window behind or more, and so the next one is that far ahead at most.
    have far : pn ≤ q ∨ q + window / 2 ≤ expected ∧ pn ≤ expected + window / 2 := by omega
    exact preferred_of_ahead (by omega) far
  next stay =>
    split at found
    next down =>
      have far : q ≤ pn ∨ expected + window / 2 < q ∧ expected ≤ pn + window / 2 := by omega
      exact preferred_of_behind (by omega) far
    next keep =>
      -- The candidate is near, or the space ends before the number that would be nearer.
      rcases Nat.le_total expected pn with ahead | behind
      · have far : pn ≤ q ∨ q + window / 2 ≤ expected ∧ pn ≤ expected + window / 2 := by omega
        exact preferred_of_ahead ahead far
      · have far : q ≤ pn ∨ expected + window / 2 < q ∧ expected ≤ pn + window / 2 := by omega
        exact preferred_of_behind behind far

end Candidates

theorem rebuild_nearest (truncated : Nat) {length known : Nat} (lengths : 1 ≤ length ∧ length ≤ 4)
    (inside : known ≤ 2 ^ 62 - 1) :
    let modulus := 2 ^ (8 * length)
    let low := truncated % modulus
    rebuild truncated length (some known) ≠ .error .overrun ∧
    (∀ failure, rebuild truncated length (some known) = .error failure ↔
      (known = 2 ^ 62 - 1 ∧ low ≤ modulus / 2) ∧ failure = .refused .violation) ∧
    (¬ (known = 2 ^ 62 - 1 ∧ low ≤ modulus / 2) →
      ∃ pn, rebuild truncated length (some known) = .ok pn ∧ IsNearest (known + 1) modulus low pn) := by
  intro modulus low
  have limit_eq : limit = 2 ^ 62 := rfl
  have space : known + 1 ≤ limit := by omega
  have narrow := window_le lengths.2
  have even := two_dvd_window lengths.1
  have divides := window_dvd_limit lengths.2
  have bounded : low < modulus := Nat.mod_lt _ (Nat.two_pow_pos _)
  obtain ⟨pn, found, rebuilt⟩ := rebuild_some truncated lengths space
  rw [window_eq] at narrow even divides found
  have last : pn < limit ↔ ¬ (known = 2 ^ 62 - 1 ∧ low ≤ modulus / 2) := by
    rw [lt_limit_iff_of_nearest space narrow divides bounded found]
    omega
  rw [rebuilt]
  by_cases fits : pn < limit
  · rw [if_pos fits]
    have answered := last.mp fits
    refine ⟨nofun, fun failure => ⟨nofun, fun exhausted => absurd exhausted.1 answered⟩, fun _ => ?_⟩
    exact ⟨pn, rfl, isNearest_of_nearest space narrow even bounded found fits⟩
  · rw [if_neg fits]
    have exhausted := Classical.not_not.mp (mt last.mpr fits)
    refine ⟨nofun, fun failure => ?_, fun answered => absurd exhausted answered⟩
    simp [exhausted, eq_comm]

theorem rebuild_nearest_tie :
    rebuild 0x3ff 1 (some 382) = .ok 511 ∧ IsNearest 383 (2 ^ 8) 255 511 ∧
      rebuild 0x180 1 (some (2 ^ 62 - 1)) = .error (.refused .violation) := by
  have rebuilt : rebuild 0x3ff 1 (some 382) = .ok 511 := rfl
  have lengths : 1 ≤ 1 ∧ 1 ≤ 4 := by decide
  have seen : 382 ≤ 2 ^ 62 - 1 := by decide
  have last : 2 ^ 62 - 1 ≤ 2 ^ 62 - 1 := Nat.le_refl _
  obtain ⟨-, -, near⟩ := rebuild_nearest 0x3ff lengths seen
  obtain ⟨-, refused, -⟩ := rebuild_nearest 0x180 lengths last
  obtain ⟨pn, found, nearest⟩ := near (by decide)
  cases rebuilt.symm.trans found
  exact ⟨rebuilt, nearest, (refused _).mpr ⟨by decide, rfl⟩⟩

theorem recovered_of_written {pn length : Nat} {sender : Option Nat} {out code : Bytes}
    (wrote : (write pn sender).run out = .ok length (out ++ code)) (rest : Bytes) :
    code.length = length ∧
    (sender = none → (read length none).run (code ++ rest) = .ok pn rest) ∧
    ∀ receiver ≤ 2 ^ 62 - 1, (∀ known ∈ sender, known ≤ receiver) →
      receiver + 1 < pn + 2 ^ (8 * length - 1) → (read length (some receiver)).run (code ++ rest) = .ok pn rest := by
  obtain ⟨encoded, appended⟩ := run_write_eq_ok_iff.mp wrote
  obtain rfl := List.append_cancel_left appended
  refine ⟨length_beBytes length pn, ?_, ?_⟩
  · rintro rfl
    have reach : InReach pn length none none := rfl
    exact run_read_of_inReach encoded reach rest
  · intro receiver inside known near
    have limit_eq : limit = 2 ^ 62 := rfl
    have reach : InReach pn length sender (some receiver) := ⟨by omega, known, near⟩
    exact run_read_of_inReach encoded reach rest

theorem recovered_of_written_late :
    (write 300 (some 280)).run [7] = .ok 1 ([7] ++ [44]) ∧
      (read 1 (some 426)).run ([44] ++ [1, 2]) = .ok 300 [1, 2] := by
  have wrote : (write 300 (some 280)).run [7] = .ok 1 ([7] ++ [44]) := rfl
  obtain ⟨-, -, recovered⟩ := recovered_of_written wrote [1, 2]
  exact ⟨wrote, recovered 426 (by decide) (by rintro _ ⟨⟩; decide) (by decide)⟩

end QuicWire.PacketNumber

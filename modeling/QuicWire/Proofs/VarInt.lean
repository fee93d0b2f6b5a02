import QuicWire.Proofs.Reader
import QuicWire.VarInt

set_option autoImplicit false

namespace QuicWire.VarInt

def Encodes (v : Nat) (code : Bytes) : Prop :=
  ∃ n ∈ [1, 2, 4, 8], v < 2 ^ (8 * n - 2) ∧ code = beBytes n (marker n + v)

theorem toNat_tag (first : UInt8) : (first >>> 6).toNat = first.toNat / 64 := by
  simp [UInt8.toNat_shiftRight, Nat.shiftRight_eq_div_pow]

theorem toNat_low (first : UInt8) : (first &&& 0x3f).toNat = first.toNat % 64 := by
  rw [UInt8.toNat_and]
  exact Nat.and_two_pow_sub_one_eq_mod _ 6

theorem marker_add_lt {n v : Nat} (member : n ∈ [1, 2, 4, 8]) (bound : v < 2 ^ (8 * n - 2)) :
    marker n + v < 2 ^ (8 * n) := by
  simp only [List.mem_cons, List.not_mem_nil, or_false] at member
  rcases member with rfl | rfl | rfl | rfl <;> simp only [marker] at bound ⊢ <;> omega

theorem tag_of_marker {n first tail v : Nat} (member : n ∈ [1, 2, 4, 8]) (bound : v < 2 ^ (8 * n - 2))
    (small : tail < 2 ^ (8 * (n - 1))) (value : first * 2 ^ (8 * (n - 1)) + tail = marker n + v) :
    n = 1 <<< (first / 64) ∧ v = first % 64 * 2 ^ (8 * (n - 1)) + tail := by
  simp only [List.mem_cons, List.not_mem_nil, or_false] at member
  obtain ⟨tag, tagged, width⟩ : ∃ tag, first / 64 = tag ∧ n = 1 <<< tag := by
    rcases member with rfl | rfl | rfl | rfl <;> simp only [marker] at value bound small
    · exact ⟨0, by omega, rfl⟩
    · exact ⟨1, by omega, rfl⟩
    · exact ⟨2, by omega, rfl⟩
    · exact ⟨3, by omega, rfl⟩
  refine ⟨tagged ▸ width, ?_⟩
  rcases member with rfl | rfl | rfl | rfl <;> simp only [marker] at value bound small ⊢ <;> omega

theorem marker_of_tag {n first tail : Nat} (byte : first < 256) (width : n = 1 <<< (first / 64))
    (small : tail < 2 ^ (8 * (n - 1))) :
    n ∈ [1, 2, 4, 8] ∧ first % 64 * 2 ^ (8 * (n - 1)) + tail < 2 ^ (8 * n - 2) ∧
      first * 2 ^ (8 * (n - 1)) + tail = marker n + (first % 64 * 2 ^ (8 * (n - 1)) + tail) := by
  have tags : first / 64 = 0 ∨ first / 64 = 1 ∨ first / 64 = 2 ∨ first / 64 = 3 := by omega
  rcases tags with tag | tag | tag | tag <;> rw [tag] at width <;> subst width <;>
    refine ⟨by decide, ?_⟩ <;> simp only [marker, Nat.one_shiftLeft] at small ⊢ <;> omega

theorem encodes_iff (v : Nat) (code : Bytes) :
    Encodes v code ↔ ∃ first tail, code = first :: tail ∧
      tail.length + 1 = 1 <<< (first >>> 6).toNat ∧ v = beValue ((first &&& 0x3f) :: tail) := by
  constructor
  · intro success
    obtain ⟨n, member, bound, rfl⟩ := success
    have positive : 0 < n := Nat.pos_of_ne_zero fun zero => by subst zero; simp at member
    obtain ⟨first, tail, split⟩ := List.exists_cons_of_length_pos (by rwa [length_beBytes n (marker n + v)])
    have length : n = tail.length + 1 := by
      rw [← List.length_cons, ← split, length_beBytes]
    have fits : marker n + v < 2 ^ (8 * n) := marker_add_lt member bound
    have value : first.toNat * 2 ^ (8 * tail.length) + beValue tail = marker n + v := by
      rw [← beValue_cons, ← split, beValue_beBytes, Nat.mod_eq_of_lt fits]
    subst length
    -- The bound keeps the value below the two bits that the marker sets.
    obtain ⟨width, read⟩ := tag_of_marker member bound (beValue_lt tail) value
    refine ⟨first, tail, split, ?_, ?_⟩
    · rw [toNat_tag, ← width]
    · rw [beValue_cons, toNat_low, read, Nat.add_sub_cancel]
  · intro given
    obtain ⟨first, tail, rfl, width, rfl⟩ := given
    rw [toNat_tag] at width
    rw [beValue_cons, toNat_low]
    obtain ⟨member, bound, value⟩ := marker_of_tag first.toNat_lt width (beValue_lt tail)
    refine ⟨tail.length + 1, member, bound, ?_⟩
    rw [Nat.add_sub_cancel] at value
    rw [← value, ← beValue_cons]
    exact (beBytes_beValue (first :: tail)).symm

theorem Encodes.lt {v : Nat} {code : Bytes} (h : Encodes v code) : v < limit := by
  obtain ⟨n, member, bound, -⟩ := h
  simp only [List.mem_cons, List.not_mem_nil, or_false] at member
  have : limit = 2 ^ 62 := rfl
  rcases member with rfl | rfl | rfl | rfl <;> omega

theorem Encodes.length_pos {v : Nat} {code : Bytes} (h : Encodes v code) : 1 ≤ code.length := by
  obtain ⟨first, tail, rfl, -, -⟩ := (encodes_iff v code).mp h
  exact Nat.succ_le_succ (Nat.zero_le _)

theorem encodes_of_size {v n : Nat} (h : size v = .ok n) : Encodes v (beBytes n (marker n + v)) := by
  have : limit = 2 ^ 62 := rfl
  unfold size at h
  split at h
  · cases h
    exact ⟨1, by decide, by omega, rfl⟩
  · split at h
    · cases h
      exact ⟨2, by decide, by omega, rfl⟩
    · split at h
      · cases h
        exact ⟨4, by decide, by omega, rfl⟩
      · split at h
        · cases h
          exact ⟨8, by decide, by omega, rfl⟩
        · cases h

theorem lt_limit_of_size {v n : Nat} (h : size v = .ok n) : v < limit :=
  (encodes_of_size h).lt

theorem limit_le_of_size_error {v : Nat} {cause : Error} (h : size v = .error cause) : limit ≤ v := by
  grind [size]

theorem size_eq_ok_of_lt {v : Nat} (fits : v < limit) : ∃ n, size v = .ok n := by
  cases sized : size v with
  | ok n => exact ⟨n, rfl⟩
  | error cause => exact absurd (limit_le_of_size_error sized) (Nat.not_le_of_lt fits)

theorem takes_read {v : Nat} {code : Bytes} (h : Encodes v code) : Reader.Takes read code (pure v) := by
  obtain ⟨first, tail, rfl, width, rfl⟩ := (encodes_iff v code).mp h
  constructor
  · intro rest
    rw [List.cons_append, run_read_cons, ← width]
    simp
  · intro k short
    cases k with
    | zero => exact ⟨[], rfl⟩
    | succ k =>
      rw [List.length_cons] at short
      rw [List.take_succ_cons, run_read_cons, ← width]
      have missing : ¬ tail.length + 1 ≤ (tail.take k).length + 1 := by
        rw [List.length_take]
        omega
      exact ⟨_, if_neg missing⟩

theorem Encodes.eq_of_append_eq {v w : Nat} {code other front back : Bytes} (h : Encodes v code)
    (h' : Encodes w other) (same : code ++ front = other ++ back) : code = other ∧ front = back := by
  have first := (takes_read h).run_append front
  have second := (takes_read h').run_append back
  rw [same, second] at first
  cases first
  exact ⟨List.append_cancel_right same, rfl⟩

theorem encodes_of_run_read {v : Nat} {b rest : Bytes} (h : read.run b = .ok v rest) :
    ∃ code, Encodes v code ∧ b = code ++ rest := by
  cases b with
  | nil => simp at h
  | cons first tail =>
    rw [run_read_cons] at h
    dsimp only at h
    split at h
    next enough =>
      cases h
      refine ⟨first :: tail.take (1 <<< (first >>> 6).toNat - 1), ?_, by simp⟩
      refine (encodes_iff _ _).mpr ⟨first, _, rfl, ?_, rfl⟩
      have positive : 0 < 1 <<< (first >>> 6).toNat := by
        rw [Nat.one_shiftLeft]
        exact Nat.two_pow_pos _
      rw [List.length_take]
      omega
    next => cases h

end QuicWire.VarInt

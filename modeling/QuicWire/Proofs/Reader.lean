import QuicWire.Proofs.BigEndian
import QuicWire.Reader

set_option autoImplicit false

namespace QuicWire.Reader

variable {α β : Type}

section Success

variable {b rest : Bytes}

@[simp] theorem run_pure_eq_ok_iff {a a' : α} :
    (pure a : Reader α).run b = .ok a' rest ↔ a = a' ∧ b = rest := by
  rw [EStateM.run_pure]
  simp

@[simp] theorem run_lift_eq_ok_iff {x : Except Failure α} {a : α} :
    (lift x).run b = .ok a rest ↔ x = .ok a ∧ b = rest := by
  cases x <;> simp

@[simp] theorem run_check_eq_ok_iff {x : Except Error α} {a : α} :
    (check x).run b = .ok a rest ↔ x = .ok a ∧ b = rest := by
  cases x <;> simp

@[simp] theorem run_require_eq_ok_iff {x : Option α} {cause : Error} {a : α} :
    (require x cause).run b = .ok a rest ↔ x = some a ∧ b = rest := by
  cases x <;> simp [require]

@[simp] theorem run_remaining_eq_ok_iff {n : Nat} :
    remaining.run b = .ok n rest ↔ b.length = n ∧ b = rest := by
  simp

@[simp] theorem run_need_eq_ok_iff {n : Nat} {u : Unit} :
    (need n).run b = .ok u rest ↔ n ≤ b.length ∧ b = rest := by
  rw [run_need]
  by_cases enough : n ≤ b.length <;> simp [enough]

@[simp] theorem run_byte_eq_ok_iff {first : UInt8} : byte.run b = .ok first rest ↔ b = first :: rest := by
  cases b with
  | nil => simp [byte, EStateM.run]
  | cons head tail => simp

theorem eq_append_iff {n : Nat} {front : Bytes} :
    n ≤ b.length ∧ b.take n = front ∧ b.drop n = rest ↔ front.length = n ∧ b = front ++ rest := by
  constructor
  · intro success
    obtain ⟨enough, rfl, rfl⟩ := success
    exact ⟨List.length_take_of_le enough, (List.take_append_drop n b).symm⟩
  · intro given
    obtain ⟨rfl, rfl⟩ := given
    simp

@[simp] theorem run_take_eq_ok_iff {n : Nat} {front : Bytes} :
    (take n).run b = .ok front rest ↔ front.length = n ∧ b = front ++ rest := by
  rw [← eq_append_iff, run_take]
  by_cases enough : n ≤ b.length <;> simp [enough]

@[simp] theorem run_skip_eq_ok_iff {n : Nat} {u : Unit} :
    (skip n).run b = .ok u rest ↔ ∃ front : Bytes, front.length = n ∧ b = front ++ rest := by
  simp only [← eq_append_iff, run_skip]
  by_cases enough : n ≤ b.length <;> simp [enough]

theorem ofNat_beValue_eq_iff {front : Bytes} {word : UInt32} (four : front.length = 4) :
    UInt32.ofNat (beValue front) = word ↔ front = beBytes 4 word.toNat := by
  constructor
  · rintro rfl
    rw [UInt32.toNat_ofNat', beBytes_mod 4, ← four, beBytes_beValue]
  · rintro rfl
    rw [beValue_beBytes, Nat.mod_eq_of_lt word.toNat_lt, UInt32.ofNat_toNat]

@[simp] theorem run_word32_eq_ok_iff {word : UInt32} :
    word32.run b = .ok word rest ↔ b = beBytes 4 word.toNat ++ rest := by
  simp only [word32, run_bind_eq_ok_iff, run_take_eq_ok_iff, run_pure_eq_ok_iff]
  constructor
  · intro success
    obtain ⟨front, mid, ⟨four, rfl⟩, value, rfl⟩ := success
    rw [(ofNat_beValue_eq_iff four).mp value]
  · rintro rfl
    exact ⟨_, rest, ⟨length_beBytes 4 _, rfl⟩, (ofNat_beValue_eq_iff (length_beBytes 4 _)).mpr rfl, rfl⟩

@[simp] theorem run_map_eq_ok_iff {f : α → β} {r : Reader α} {y : β} :
    (f <$> r).run b = .ok y rest ↔ ∃ a, r.run b = .ok a rest ∧ f a = y := by
  rw [run_map]
  cases r.run b with
  | error => simp
  | ok a left =>
    simp only [EStateM.Result.ok.injEq]
    constructor
    · intro success
      obtain ⟨rfl, rfl⟩ := success
      exact ⟨a, ⟨rfl, rfl⟩, rfl⟩
    · intro given
      obtain ⟨_, ⟨rfl, rfl⟩, rfl⟩ := given
      exact ⟨rfl, rfl⟩

theorem run_atomic (r : Reader α) :
    (atomic r).run b = match r.run b with
      | .ok a rest => .ok a rest
      | .error failure _ => .error failure b := rfl

@[simp] theorem run_atomic_eq_ok_iff {r : Reader α} {a : α} :
    (atomic r).run b = .ok a rest ↔ r.run b = .ok a rest := by
  rw [run_atomic]
  cases r.run b <;> simp

theorem eq_of_run_atomic_eq_error {r : Reader α} {failure : Failure}
    (h : (atomic r).run b = .error failure rest) : rest = b := by
  rw [run_atomic] at h
  split at h <;> cases h
  rfl

theorem run_eq_error_of_run_map {r : Reader α} {f : α → β} {failure : Failure}
    (h : (f <$> r).run b = .error failure rest) : r.run b = .error failure rest := by
  rw [run_map] at h
  split at h <;> cases h
  assumption

theorem eval_eq_ok_iff {r : Reader α} {a : α} : r.eval b = .ok a ↔ ∃ rest, r.run b = .ok a rest := by
  unfold eval
  cases r.run b <;> simp

@[simp] theorem run_within_eq_ok_iff {inner : Bytes} {r : Reader α} {a : α} :
    (within inner r).run b = .ok a rest ↔ (∃ left, r.run inner = .ok a left) ∧ b = rest := by
  unfold within
  show (match r.run inner with | .ok a _ => _ | .error failure _ => _) = _ ↔ _
  cases r.run inner <;> simp

end Success

theorem refused_bind {r : Reader α} {f : α → Reader β} {b : Bytes} {failure : Failure}
    (refused : ∃ left, r.run b = .error failure left) : ∃ left, (r >>= f).run b = .error failure left := by
  obtain ⟨left, refused⟩ := refused
  exact ⟨left, by rw [EStateM.run_bind, refused]⟩

structure Takes (r : Reader α) (front : Bytes) (s : Reader α) : Prop where
  run_append (rest : Bytes) : r.run (front ++ rest) = s.run rest
  run_take (k : Nat) (short : k < front.length) :
    ∃ left, r.run (front.take k) = .error (.refused .violation) left

namespace Takes

theorem refl (r : Reader α) : Takes r [] r where
  run_append _ := rfl
  run_take _ short := absurd short (Nat.not_lt_zero _)

theorem run_take_append {r s : Reader α} {front : Bytes} (h : Takes r front s) (back : Bytes) (k : Nat) :
    k < front.length ∧ (∃ left, r.run ((front ++ back).take k) = .error (.refused .violation) left) ∨
      front.length ≤ k ∧ r.run ((front ++ back).take k) = s.run (back.take (k - front.length)) := by
  by_cases inside : k < front.length
  · left
    rw [List.take_append_of_le_length (Nat.le_of_lt inside)]
    exact ⟨inside, h.run_take k inside⟩
  · right
    have beyond : front.length ≤ k := Nat.le_of_not_lt inside
    rw [List.take_append, List.take_of_length_le beyond, h.run_append]
    exact ⟨beyond, rfl⟩

theorem trans {r s t : Reader α} {front back : Bytes} (first : Takes r front s) (second : Takes s back t) :
    Takes r (front ++ back) t where
  run_append rest := by
    rw [List.append_assoc, first.run_append, second.run_append]
  run_take k short := by
    -- A cut falls into the first part, or the first part is whole and the cut is one of the second.
    rcases first.run_take_append back k with ⟨-, refused⟩ | ⟨beyond, same⟩
    · exact refused
    · rw [List.length_append] at short
      rw [same]
      exact second.run_take _ (by omega)

theorem bind {r s : Reader α} {front : Bytes} (h : Takes r front s) (f : α → Reader β) :
    Takes (r >>= f) front (s >>= f) where
  run_append rest := by
    rw [EStateM.run_bind, EStateM.run_bind, h.run_append]
  run_take k short := refused_bind (h.run_take k short)

theorem andThen {r : Reader α} {a : α} {f : α → Reader β} {s : Reader β} {front back : Bytes}
    (first : Takes r front (pure a)) (second : Takes (f a) back s) :
    Takes (r >>= f) (front ++ back) s :=
  (first.bind f).trans second

theorem afterNeed {n : Nat} {f : Unit → Reader β} {s : Reader β} {front : Bytes}
    (enough : n = front.length) (run_append : ∀ rest, (f ()).run (front ++ rest) = s.run rest) :
    Takes (need n >>= f) front s where
  run_append rest := by
    rw [EStateM.run_bind, run_need, if_pos (by simp [enough])]
    exact run_append rest
  run_take k short := by
    have missing : ¬ n ≤ (front.take k).length := by
      rw [List.length_take]
      omega
    exact ⟨front.take k, by rw [EStateM.run_bind, run_need, if_neg missing]⟩

end Takes

end QuicWire.Reader

import Mathlib.Order.Bounds.Defs
import QuicWire.Proofs.Canonical

set_option autoImplicit false

namespace QuicWire.VarInt

def writeAll : List Nat → Writer Nat
  | [] => return 0
  | v :: vs => do
    let n ← write v
    return n + (← writeAll vs)

def readMany : Nat → Reader (List Nat)
  | 0 => return []
  | n + 1 => do
    let v ← read
    return v :: (← readMany n)

def announced (first : UInt8) : Nat :=
  2 ^ (first >>> 6).toNat

section Writing

theorem isLeast_of_size {v n : Nat} (sized : size v = .ok n) :
    IsLeast {m | m ∈ [1, 2, 4, 8] ∧ v < 2 ^ (8 * m - 2)} n := by
  constructor
  · obtain ⟨m, member, bound, same⟩ := encodes_of_size sized
    have width : n = m := by
      rw [← length_beBytes n (marker n + v), same, length_beBytes]
    rw [width]
    exact ⟨member, bound⟩
  · intro m room
    obtain ⟨member, bound⟩ := room
    have shorter := (size_le_of_encodes ⟨m, member, bound, rfl⟩ sized).1
    rwa [length_beBytes] at shorter

theorem size_eq_error_of_le {v : Nat} (outside : limit ≤ v) : size v = .error (.valueTooLarge v) := by
  have limit_eq : limit = 2 ^ 62 := rfl
  unfold size
  rw [if_neg (by omega), if_neg (by omega), if_neg (by omega), if_neg (by omega)]

theorem run_write_eq_error_iff {v : Nat} {out left : Bytes} {cause : Error} :
    (write v).run out = .error cause left ↔ limit ≤ v ∧ cause = .valueTooLarge v ∧ left = out := by
  by_cases outside : limit ≤ v
  · rw [run_write_error (size_eq_error_of_le outside)]
    simp [outside, eq_comm]
  · obtain ⟨n, sized⟩ := size_eq_ok_of_lt (Nat.lt_of_not_le outside)
    rw [run_write sized]
    simp [outside]

theorem appends_writeAll (vs : List Nat) (inside : ∀ v ∈ vs, v < limit) :
    ∃ n, Writer.Appends (writeAll vs) (vs.flatMap shortest) n := by
  induction vs with
  | nil => exact ⟨0, Writer.Appends.nothing 0⟩
  | cons v vs ih =>
    rw [List.forall_mem_cons] at inside
    obtain ⟨n, sized⟩ := size_eq_ok_of_lt inside.1
    obtain ⟨m, rest⟩ := ih inside.2
    exact ⟨n + m, (appends_write sized).bind (rest.andReturn (n + ·))⟩

end Writing

section Reading

theorem run_readMany (vs : List Nat) (inside : ∀ v ∈ vs, v < limit) (rest : Bytes) :
    (readMany vs.length).run (vs.flatMap shortest ++ rest) = .ok vs rest := by
  induction vs with
  | nil => rfl
  | cons v vs ih =>
    rw [List.forall_mem_cons] at inside
    obtain ⟨n, sized⟩ := size_eq_ok_of_lt inside.1
    have first := (takes_read (encodes_shortest sized)).run_append (vs.flatMap shortest ++ rest)
    rw [List.flatMap_cons, List.append_assoc, List.length_cons, readMany, EStateM.run_bind, first, EStateM.run_pure]
    dsimp only
    rw [EStateM.run_bind, ih inside.2]
    rfl

theorem beValue_low (first : UInt8) (tail : Bytes) :
    beValue ((first &&& 0x3f) :: tail) = beValue (first :: tail) % 2 ^ (8 * (tail.length + 1) - 2) := by
  have width : 2 ^ (8 * (tail.length + 1) - 2) = 2 ^ (8 * tail.length) * 2 ^ 6 := by
    rw [← Nat.pow_add]
    congr 1
  rw [width, Nat.mod_mul, beValue_cons_mod, beValue_cons_div, beValue_cons, toNat_low, Nat.mul_comm, Nat.add_comm]
  rfl

theorem encodes_take_of_run_read {b rest : Bytes} {v : Nat} {first : UInt8} (head : first ∈ b.head?)
    (success : read.run b = .ok v rest) :
    announced first ≤ b.length ∧ Encodes v (b.take (announced first)) ∧ rest = b.drop (announced first) ∧
      v = beValue (b.take (announced first)) % 2 ^ (8 * announced first - 2) := by
  obtain ⟨code, encodes, rfl⟩ := encodes_of_run_read success
  obtain ⟨lead, tail, rfl, width, value⟩ := (encodes_iff v code).mp encodes
  cases head
  have length : announced first = (first :: tail).length := by
    rw [announced, ← Nat.one_shiftLeft, ← width, List.length_cons]
  rw [length, List.take_left, List.drop_left, List.length_append]
  refine ⟨Nat.le_add_right _ _, encodes, rfl, ?_⟩
  rw [value, beValue_low, List.length_cons]

theorem run_read_succeeds_iff (b : Bytes) :
    (∃ v rest, read.run b = .ok v rest) ↔ ∃ first ∈ b.head?, announced first ≤ b.length := by
  constructor
  · intro success
    obtain ⟨v, rest, success⟩ := success
    cases b with
    | nil => simp at success
    | cons first tail => exact ⟨first, rfl, (encodes_take_of_run_read rfl success).1⟩
  · intro given
    obtain ⟨first, head, enough⟩ := given
    cases b with
    | nil => cases head
    | cons first tail =>
      cases head
      rw [run_read_cons, Nat.one_shiftLeft]
      exact ⟨_, _, if_pos enough⟩

theorem eq_of_run_read_eq_error {b left : Bytes} {failure : Failure} (refused : read.run b = .error failure left) :
    failure = .refused .violation ∧ left = b := by
  cases b with
  | nil =>
    cases refused
    exact ⟨rfl, rfl⟩
  | cons first tail =>
    rw [run_read_cons] at refused
    dsimp only at refused
    split at refused <;> cases refused
    exact ⟨rfl, rfl⟩

end Reading

structure Reads (b : Bytes) (n v : Nat) (rest : Bytes) : Prop where
  value_eq : v = beValue (b.take n) % 2 ^ (8 * n - 2)
  inside : v ≤ 2 ^ 62 - 1
  rest_eq : rest = b.drop n
  rewritten : ∀ out, ∃ k code, (write v).run out = .ok k (out ++ code) ∧ code.length ≤ n ∧
    (code = b.take n ↔ size v = .ok n)

theorem reads_of_run_read {b rest : Bytes} {v : Nat} {first : UInt8} (head : first ∈ b.head?)
    (success : read.run b = .ok v rest) : Reads b (announced first) v rest := by
  obtain ⟨enough, encodes, dropped, value⟩ := encodes_take_of_run_read head success
  have inside := encodes.lt
  have limit_eq : limit = 2 ^ 62 := rfl
  refine ⟨value, by omega, dropped, fun out => ?_⟩
  obtain ⟨k, sized⟩ := size_eq_ok_of_lt inside
  obtain ⟨shorter, same⟩ := size_le_of_encodes encodes sized
  rw [List.length_take_of_le enough] at shorter same
  refine ⟨k, shortest v, appends_write sized out, ?_, ?_⟩
  · rwa [length_shortest sized]
  · constructor
    · intro equal
      rw [sized, ← length_shortest sized, equal, List.length_take_of_le enough]
    · intro fits
      rw [sized] at fits
      cases fits
      exact (same rfl).symm

theorem read_write_exact :
    (∀ (vs : List Nat) (out rest : Bytes), (∀ v ∈ vs, v ≤ 2 ^ 62 - 1) →
      ∃ n code, (writeAll vs).run out = .ok n (out ++ code) ∧
        (readMany vs.length).run (code ++ rest) = .ok vs rest) ∧
    (∀ (v : Nat) (out : Bytes),
      (v ≤ 2 ^ 62 - 1 → ∃ n code, IsLeast {m | m ∈ [1, 2, 4, 8] ∧ v < 2 ^ (8 * m - 2)} n ∧ size v = .ok n ∧
        code.length = n ∧ (write v).run out = .ok n (out ++ code)) ∧
      ∀ cause left, (write v).run out = .error cause left ↔
        2 ^ 62 - 1 < v ∧ cause = .valueTooLarge v ∧ left = out) ∧
    ∀ b : Bytes,
      ((∃ v rest, read.run b = .ok v rest) ↔ ∃ first ∈ b.head?, announced first ≤ b.length) ∧
      (∀ v rest, read.run b = .ok v rest → ∃ first ∈ b.head?, Reads b (announced first) v rest) ∧
      ∀ failure left, read.run b = .error failure left → failure = .refused .violation ∧ left = b := by
  have limit_eq : limit = 2 ^ 62 := rfl
  refine ⟨?_, ?_, ?_⟩
  · intro vs out rest inside
    have inside : ∀ v ∈ vs, v < limit := fun v member => by have := inside v member; omega
    obtain ⟨n, appends⟩ := appends_writeAll vs inside
    exact ⟨n, vs.flatMap shortest, appends out, run_readMany vs inside rest⟩
  · intro v out
    constructor
    · intro inside
      obtain ⟨n, sized⟩ := size_eq_ok_of_lt (v := v) (by omega)
      exact ⟨n, shortest v, isLeast_of_size sized, sized, length_shortest sized, appends_write sized out⟩
    · intro cause left
      have edge : limit ≤ v ↔ 2 ^ 62 - 1 < v := by omega
      rw [run_write_eq_error_iff, edge]
  · intro b
    refine ⟨run_read_succeeds_iff b, ?_, fun failure left => eq_of_run_read_eq_error⟩
    intro v rest success
    obtain ⟨first, head, -⟩ := (run_read_succeeds_iff b).mp ⟨v, rest, success⟩
    exact ⟨first, head, reads_of_run_read head success⟩

theorem read_write_exact_lenient :
    (∃ n code, (writeAll [37, 15293]).run [7] = .ok n ([7] ++ code) ∧
      (readMany 2).run (code ++ [9]) = .ok [37, 15293] [9]) ∧
    (write (2 ^ 62)).run [7] = .error (.valueTooLarge (2 ^ 62)) [7] ∧
    read.run [0x40, 37] = .ok 37 [] ∧ Reads [0x40, 37] 2 37 [] ∧ size 37 = .ok 1 ∧
    read.run [0xc0, 37] = .error (.refused .violation) [0xc0, 37] := by
  obtain ⟨many, one, reading⟩ := read_write_exact
  have success : read.run [0x40, 37] = .ok 37 [] := rfl
  obtain ⟨first, head, reads⟩ := (reading [0x40, 37]).2.1 37 [] success
  cases head
  exact ⟨many [37, 15293] [7] [9] (by decide), ((one (2 ^ 62) [7]).2 _ _).mpr ⟨by decide, rfl, rfl⟩, success, reads,
    rfl, rfl⟩

end QuicWire.VarInt

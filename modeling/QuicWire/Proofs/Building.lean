import QuicWire.Datagram.Builder
import QuicWire.Proofs.Wire

set_option autoImplicit false

namespace QuicWire

open Packet

theorem Packet.wire_tagFor {F : Type} [Frame F] (p : Packet F) (largest : Option Nat) (tagLen : Nat) :
    p.wire largest (DatagramBuilder.tagFor p.type tagLen) = p.wire largest tagLen := by
  cases p <;> rfl

structure Push (F : Type) where
  packet : Packet F
  largest : Option Nat
  tagLen : Nat

namespace Push

variable {F : Type} [Frame F]

def tag (x : Push F) : Bytes :=
  List.replicate (DatagramBuilder.tagFor x.packet.type x.tagLen) 0

def wire (x : Push F) : Except Error (Bytes × Nat) :=
  x.packet.wire x.largest (DatagramBuilder.tagFor x.packet.type x.tagLen)

def segment (x : Push F) : Bytes :=
  match x.wire with
  | .ok (bytes, _) => bytes ++ x.tag
  | .error _ => []

structure Fits (x : Push F) (room : Nat) : Prop where
  written : ∃ bytes n, x.wire = .ok (bytes, n)
  reserved : ∃ n, x.packet.maxEncodedLen x.tagLen = .ok n ∧ n ≤ room

theorem Fits.mono {x : Push F} {room more : Nat} (fits : x.Fits room) (le : room ≤ more) : x.Fits more := by
  obtain ⟨written, n, longest, enough⟩ := fits
  exact ⟨written, n, longest, Nat.le_trans enough le⟩

def addTo (x : Push F) (d : DatagramBuilder) : DatagramBuilder where
  maxSize := d.maxSize
  bytes := d.bytes ++ x.segment
  packets := d.packets ++ [(d.len, d.len + x.segment.length)]
  isSealed := !x.packet.type.isDelimited

end Push

namespace DatagramBuilder

variable {F : Type} [Frame F]

def push (x : Push F) : EStateM Error DatagramBuilder Bool :=
  tryPush x.packet x.largest x.tagLen

theorem run_append (x : Push F) (d : DatagramBuilder) :
    (append x.packet x.largest (tagFor x.packet.type x.tagLen)).run d =
      match x.wire with
      | .error cause => .error cause d
      | .ok _ => .ok () (x.addTo d) := by
  have denotes : Writer.Denotes (x.packet.write x.largest (tagFor x.packet.type x.tagLen)) x.wire :=
    x.packet.denotes_write _ _
  cases written : x.wire with
  | error cause =>
    rw [written] at denotes
    have run := denotes d.bytes
    simp only [append, EStateM.run] at run ⊢
    rw [run]
  | ok value =>
    rw [written] at denotes
    have run := denotes d.bytes
    simp only [append, EStateM.run] at run ⊢
    rw [run]
    simp [Push.addTo, Push.segment, written, Push.tag, len]

theorem run_push (x : Push F) (d : DatagramBuilder) :
    (push x).run d =
      if d.isSealed then .ok false d
      else match x.packet.maxEncodedLen x.tagLen with
        | .error cause => .error cause d
        | .ok reserved =>
          if d.remaining < reserved then .ok false d
          else match x.packet.encodedLen x.largest (tagFor x.packet.type x.tagLen) with
            | .error cause => .error cause d
            | .ok _ =>
              match x.wire with
              | .error cause => .error cause d
              | .ok _ => .ok true (x.addTo d) := by
  have appended := run_append x d
  simp only [push, tryPush, EStateM.run_bind, EStateM.run_get]
  split
  next => rfl
  next =>
    cases x.packet.maxEncodedLen x.tagLen with
    | error cause => rfl
    | ok reserved =>
      simp only [tryPush.ofExcept, pure_bind]
      by_cases full : d.remaining < reserved
      · simp only [if_pos full]
        rfl
      · simp only [if_neg full]
        cases x.packet.encodedLen x.largest (tagFor x.packet.type x.tagLen) with
        | error cause => rfl
        | ok length =>
          simp only [pure_bind, EStateM.run_bind, appended]
          cases x.wire with
          | error cause => rfl
          | ok value => rfl

theorem run_push_cases (x : Push F) (d : DatagramBuilder) :
    (∃ cause, (push x).run d = .error cause d) ∨ (push x).run d = .ok false d ∨
      ((push x).run d = .ok true (x.addTo d) ∧ d.isSealed = false ∧ x.Fits d.remaining) := by
  rw [run_push]
  split
  next => exact .inr (.inl rfl)
  next unsealed =>
    split
    next => exact .inl ⟨_, rfl⟩
    next reserved longest =>
      split
      next => exact .inr (.inl rfl)
      next room =>
        split
        next => exact .inl ⟨_, rfl⟩
        next =>
          split
          next => exact .inl ⟨_, rfl⟩
          next written =>
            have fits : x.Fits d.remaining := ⟨⟨_, _, written⟩, _, longest, Nat.le_of_not_lt room⟩
            exact .inr (.inr ⟨rfl, Bool.eq_false_iff.mpr unsealed, fits⟩)

theorem eq_of_push_error {x : Push F} {d d' : DatagramBuilder} {cause : Error}
    (answer : (push x).run d = .error cause d') : d' = d := by
  rcases run_push_cases x d with ⟨_, failed⟩ | refused | ⟨taken, -⟩
  · rw [failed] at answer
    cases answer
    rfl
  · rw [refused] at answer
    cases answer
  · rw [taken] at answer
    cases answer

def pushAll (d : DatagramBuilder) : List (Push F) → List (Push F) × DatagramBuilder
  | [] => ([], d)
  | x :: xs =>
    match (push x).run d with
    | .ok true d =>
      let (taken, last) := pushAll d xs
      (x :: taken, last)
    | .ok false d | .error _ d => pushAll d xs

inductive Built : DatagramBuilder → List (Push F) → DatagramBuilder → Prop where
  | done (d : DatagramBuilder) : Built d [] d
  | take {d last : DatagramBuilder} {x : Push F} {xs : List (Push F)} (unsealed : d.isSealed = false)
      (fits : x.Fits d.remaining) (rest : Built (x.addTo d) xs last) : Built d (x :: xs) last

theorem built_pushAll (d : DatagramBuilder) (xs : List (Push F)) :
    Built d (pushAll d xs).1 (pushAll d xs).2 := by
  induction xs generalizing d with
  | nil => exact .done d
  | cons x xs ih =>
    rw [pushAll]
    -- A push that is refused or fails leaves the builder, and the rest of the run starts from it.
    rcases run_push_cases x d with ⟨cause, failed⟩ | refused | ⟨taken, unsealed, fits⟩
    · rw [failed]
      exact ih d
    · rw [refused]
      exact ih d
    · rw [taken]
      exact .take unsealed fits (ih (x.addTo d))

namespace Built

variable {d last : DatagramBuilder} {xs : List (Push F)}

theorem nil_of_sealed (built : Built d xs last) (closed : d.isSealed = true) : xs = [] := by
  cases built with
  | done => rfl
  | take unsealed =>
    rw [closed] at unsealed
    cases unsealed

theorem bytes_eq (built : Built d xs last) : last.bytes = d.bytes ++ xs.flatMap Push.segment := by
  induction built with
  | done d => simp
  | @take d _ x xs _ _ _ ih =>
    rw [ih, List.flatMap_cons, ← List.append_assoc]
    rfl

end Built

end DatagramBuilder

end QuicWire

import QuicWire.Reader
import QuicWire.Writer

set_option autoImplicit false

namespace QuicWire

class Frame (F : Type) where
  encodedLen : F → Nat
  encode : F → Bytes

class LawfulFrame (F : Type) [Frame F] : Prop where
  length_encode (f : F) : (Frame.encode f).length = Frame.encodedLen f

namespace Frame

variable {F : Type} [Frame F]

def totalLen (fs : List F) : Nat :=
  fs.foldr (fun f n => encodedLen f + n) 0

def writeAll (fs : List F) : Writer Nat := do
  Writer.put (fs.flatMap encode)
  return totalLen fs

@[simp] theorem totalLen_nil : totalLen ([] : List F) = 0 := rfl

@[simp] theorem totalLen_cons (f : F) (fs : List F) :
    totalLen (f :: fs) = encodedLen f + totalLen fs := rfl

@[simp] theorem run_writeAll (fs : List F) (out : Bytes) :
    (writeAll fs).run out = .ok (totalLen fs) (out ++ fs.flatMap encode) := rfl

theorem length_flatMap_encode [LawfulFrame F] (fs : List F) :
    (fs.flatMap encode).length = totalLen fs := by
  induction fs with
  | nil => rfl
  | cons f fs ih => simp [List.flatMap_cons, LawfulFrame.length_encode, ih]

end Frame

abbrev FrameDecoder (F : Type) := Bytes → Except Error (F × Nat)

namespace FrameDecoder

variable {F G : Type}

def map (f : F → G) (decode : FrameDecoder F) : FrameDecoder G := fun payload =>
  match decode payload with
  | .ok (frame, consumed) => .ok (f frame, consumed)
  | .error cause => .error cause

/-- The next frame of a payload and what is left of it; nothing at its end. A refusal drops the rest. -/
def next (decode : FrameDecoder F) (payload : Bytes) : Option (Except Failure F × Bytes) :=
  if payload.isEmpty then none
  else match decode payload with
    | .error cause => some (.error (.refused cause), [])
    | .ok (frame, consumed) =>
      if 0 < consumed ∧ payload.covers consumed then
        match (Reader.skip consumed).run payload with
        | .ok () rest => some (.ok frame, rest)
        | .error failure _ => some (.error failure, [])
      else some (.error (.refused .violation), [])

theorem next_length_lt {decode : FrameDecoder F} {payload rest : Bytes} {item : Except Failure F}
    (h : next decode payload = some (item, rest)) : rest.length < payload.length := by
  cases payload with
  | nil => simp [next] at h
  | cons first tail =>
    simp only [next, List.isEmpty_cons, Bool.false_eq_true, if_false] at h
    split at h
    · cases h; simp
    · split at h
      next taken =>
        rw [Bytes.covers_iff] at taken
        rw [Reader.run_skip, if_pos taken.2] at h
        cases h
        rw [List.length_drop]
        omega
      next => cases h; simp

def items (decode : FrameDecoder F) (payload : Bytes) : List (Except Failure F) :=
  go [] payload
where
  go (done : List (Except Failure F)) (payload : Bytes) : List (Except Failure F) :=
    match h : next decode payload with
    | none => done.reverse
    | some (item, rest) =>
      have := next_length_lt h
      go (item :: done) rest
  termination_by payload.length

def decodeAll (decode : FrameDecoder F) (payload : Bytes) : Except Failure (List F) :=
  if payload.isEmpty then .error (.refused .violation)
  else (decode.items payload).mapM id

theorem items_go (decode : FrameDecoder F) (done : List (Except Failure F)) (payload : Bytes) :
    items.go decode done payload = done.reverse ++ items.go decode [] payload := by
  induction n : payload.length using Nat.strongRecOn generalizing done payload with
  | _ n ih =>
    rw [items.go, items.go]
    split
    · simp
    · next item rest h =>
      have shorter := next_length_lt h
      rw [ih _ (n ▸ shorter) (item :: done) rest rfl, ih _ (n ▸ shorter) [item] rest rfl]
      simp

theorem items_of_next_none {decode : FrameDecoder F} {payload : Bytes} (h : next decode payload = none) :
    items decode payload = [] := by
  rw [items, items.go]
  split <;> simp_all

theorem items_of_next_some {decode : FrameDecoder F} {payload rest : Bytes} {item : Except Failure F}
    (h : next decode payload = some (item, rest)) :
    items decode payload = item :: items decode rest := by
  rw [items, items.go]
  split
  · simp_all
  · next h' =>
    cases h.symm.trans h'
    rw [items_go]
    simp [items]

end FrameDecoder

end QuicWire

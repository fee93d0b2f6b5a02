import QuicWire.Word

set_option autoImplicit false

namespace QuicWire

-- The state is what is left of the bytes, and a reader that fails keeps what it had consumed.
abbrev Reader := EStateM Failure Bytes

namespace Reader

variable {α : Type}

def refuse (cause : Error) : Reader α :=
  throw (.refused cause)

def lift : Except Failure α → Reader α
  | .ok a => pure a
  | .error failure => throw failure

def check : Except Error α → Reader α
  | .ok a => pure a
  | .error cause => refuse cause

def require : Option α → Error → Reader α
  | some a, _ => pure a
  | none, cause => refuse cause

def remaining : Reader Nat := do
  return (← get).length

def need (n : Nat) : Reader Unit := fun b =>
  if b.covers n then .ok () b else .error (.refused .violation) b

def look : Reader UInt8 := fun b =>
  match b with
  | [] => .error .overrun b
  | first :: _ => .ok first b

def byte : Reader UInt8 := fun b =>
  match b with
  | [] => .error .overrun b
  | first :: rest => .ok first rest

def take (n : Nat) : Reader Bytes := fun b =>
  if b.covers n then .ok (b.take n) (b.drop n) else .error .overrun b

def skip (n : Nat) : Reader Unit := fun b =>
  if b.covers n then .ok () (b.drop n) else .error .overrun b

def word32 : Reader UInt32 := do
  return UInt32.ofNat (beValue (← take 4))

def atomic (r : Reader α) : Reader α := fun b =>
  match r.run b with
  | .ok a rest => .ok a rest
  | .error failure _ => .error failure b

/-- Runs a reader on other bytes; what it leaves of them is dropped. -/
def within (inner : Bytes) (r : Reader α) : Reader α := fun b =>
  match r.run inner with
  | .ok a _ => .ok a b
  | .error failure _ => .error failure b

def eval (r : Reader α) (b : Bytes) : Except Failure α :=
  match r.run b with
  | .ok a _ => .ok a
  | .error failure _ => .error failure

section Laws

variable {β : Type}

@[simp] theorem run_refuse (cause : Error) (b : Bytes) :
    (refuse cause : Reader α).run b = .error (.refused cause) b := rfl

@[simp] theorem run_lift_ok (a : α) (b : Bytes) : (lift (.ok a)).run b = .ok a b := rfl

@[simp] theorem run_lift_error (failure : Failure) (b : Bytes) :
    (lift (.error failure) : Reader α).run b = .error failure b := rfl

@[simp] theorem run_check_ok (a : α) (b : Bytes) : (check (.ok a)).run b = .ok a b := rfl

@[simp] theorem run_check_error (cause : Error) (b : Bytes) :
    (check (.error cause) : Reader α).run b = .error (.refused cause) b := rfl

@[simp] theorem run_map (f : α → β) (r : Reader α) (b : Bytes) :
    (f <$> r).run b = match r.run b with
      | .ok a rest => .ok (f a) rest
      | .error failure rest => .error failure rest := by
  rw [map_eq_pure_bind, EStateM.run_bind]
  cases r.run b <;> rfl

theorem run_bind_eq_ok_iff (r : Reader α) (f : α → Reader β) (b rest : Bytes) (y : β) :
    (r >>= f).run b = .ok y rest ↔ ∃ a mid, r.run b = .ok a mid ∧ (f a).run mid = .ok y rest := by
  rw [EStateM.run_bind]
  cases r.run b <;> simp [and_assoc]

@[simp] theorem run_remaining (b : Bytes) : remaining.run b = .ok b.length b := rfl

theorem run_need (n : Nat) (b : Bytes) :
    (need n).run b = if n ≤ b.length then .ok () b else .error (.refused .violation) b := by
  show (if b.covers n then _ else _) = _
  simp

@[simp] theorem run_look_cons (first : UInt8) (rest : Bytes) :
    look.run (first :: rest) = .ok first (first :: rest) := rfl

@[simp] theorem run_byte_cons (first : UInt8) (rest : Bytes) :
    byte.run (first :: rest) = .ok first rest := rfl

theorem run_take (n : Nat) (b : Bytes) :
    (take n).run b = if n ≤ b.length then .ok (b.take n) (b.drop n) else .error .overrun b := by
  show (if b.covers n then _ else _) = _
  simp

theorem run_take_append {n : Nat} (front rest : Bytes) (h : front.length = n) :
    (take n).run (front ++ rest) = .ok front rest := by
  subst h
  simp [run_take]

theorem run_skip (n : Nat) (b : Bytes) :
    (skip n).run b = if n ≤ b.length then .ok () (b.drop n) else .error .overrun b := by
  show (if b.covers n then _ else _) = _
  simp

end Laws

end Reader

end QuicWire

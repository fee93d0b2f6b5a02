set_option autoImplicit false

namespace QuicWire.Toml

abbrev Scanner := StateT (List Char) Option

namespace Scanner

variable {α β : Type}

def satisfy (p : Char → Bool) : Scanner Char := fun input =>
  match input with
  | [] => none
  | c :: rest => if p c then some (c, rest) else none

def char (c : Char) : Scanner Unit :=
  discard <| satisfy (· = c)

def word (s : String) : Scanner Unit :=
  s.toList.forM char

def endOfInput : Scanner Unit := fun input =>
  if input.isEmpty then some ((), input) else none

def ahead (p : Char → Bool) : Scanner Unit := fun input =>
  match input with
  | [] => none
  | c :: _ => if p c then some ((), input) else none

def takeWhile (p : Char → Bool) : Scanner (List Char) := fun input =>
  some (input.span p)

def takeWhile1 (p : Char → Bool) : Scanner (List Char) := do
  let cs ← takeWhile p
  if cs.isEmpty then failure else return cs

def perhaps (s : Scanner α) : Scanner (Option α) :=
  some <$> s <|> pure none

/-- As many as there are. `s` has to consume, so there are no more of them than characters. -/
def many (s : Scanner α) : Scanner (List α) := fun input =>
  some (go input input)
where
  go : List Char → List Char → List α × List Char
    | [], input => ([], input)
    | _ :: bound, input =>
      match s input with
      | none => ([], input)
      | some (a, rest) =>
        let (as, rest) := go bound rest
        (a :: as, rest)

def separated (s : Scanner α) (separator : Scanner β) : Scanner (List α) := do
  let first ← s
  let others ← many (separator *> s)
  return first :: others

def digits (base : Nat) (digit : Scanner Nat) : Nat → Scanner Nat
  | 0 => pure 0
  | n + 1 => do
    let high ← digits base digit n
    let low ← digit
    return high * base + low

def digit (base : Nat) : Scanner Nat := do
  let c ← satisfy fun _ => true
  let value :=
    if '0' ≤ c ∧ c ≤ '9' then c.toNat - '0'.toNat
    else if 'a' ≤ c ∧ c ≤ 'f' then c.toNat - 'a'.toNat + 10
    else if 'A' ≤ c ∧ c ≤ 'F' then c.toNat - 'A'.toNat + 10
    else base
  if value < base then return value else failure

end Scanner

end QuicWire.Toml

import QuicWire.Toml.Scanner

set_option autoImplicit false

namespace QuicWire.Toml

open Scanner

def digitRun (base : Nat) : Scanner (List Nat) := do
  let first ← digit base
  let others ← many (perhaps (char '_') *> digit base)
  return first :: others

def digitValue (base : Nat) (ds : List Nat) : Nat :=
  ds.foldl (fun value d => value * base + d) 0

def sign : Scanner Bool := do
  match ← perhaps (satisfy fun c => c = '+' ∨ c = '-') with
  | some '-' => return true
  | _ => return false

def decimalDigits : Scanner (List Nat) :=
  (do ahead (· ≠ '0'); digitRun 10) <|> (do return [← digit 10])

def based (mark : String) (base : Nat) : Scanner Int := do
  word mark
  return Int.ofNat (digitValue base (← digitRun base))

def decimal : Scanner Int := do
  let negative ← sign
  let n := digitValue 10 (← decimalDigits)
  return if negative then -Int.ofNat n else Int.ofNat n

def integer : Scanner Int := do
  let n ← based "0x" 16 <|> based "0o" 8 <|> based "0b" 2 <|> decimal
  if -0x8000000000000000 ≤ n ∧ n < 0x8000000000000000 then return n else failure

/-- Whether digits times a power of ten round to infinity in binary64. The decimal length settles it
unless it is near the border, so that no great power is computed. -/
def overflows (ds : List Nat) (exponent : Int) : Bool :=
  let ds := ds.dropWhile (· = 0)
  let magnitude := Int.ofNat ds.length + exponent
  if ds.isEmpty ∨ magnitude < 300 then false
  else if 320 < magnitude then true
  else
    let n := digitValue 10 ds
    let border := (1 <<< 54 - 1) <<< 970
    border * Nat.pow 10 (-exponent).toNat ≤ n * Nat.pow 10 exponent.toNat

def fraction : Scanner (List Nat) := do
  char '.'
  digitRun 10

def exponent : Scanner Int := do
  discard <| satisfy fun c => c = 'e' ∨ c = 'E'
  let negative ← sign
  let n := digitValue 10 (← digitRun 10)
  return if negative then -Int.ofNat n else Int.ofNat n

def plainFloat : Scanner Unit := do
  let negative ← sign
  let whole ← decimalDigits
  let fraction? ← perhaps fraction
  let exponent? ← perhaps exponent
  let fractional := fraction?.getD []
  let scale := exponent?.getD 0 - Int.ofNat fractional.length
  if fraction?.isNone ∧ exponent?.isNone then failure
  else if !negative ∧ overflows (whole ++ fractional) scale then failure
  else return ()

def float : Scanner Unit :=
  plainFloat <|> (do discard sign; word "inf" <|> word "nan")

end QuicWire.Toml

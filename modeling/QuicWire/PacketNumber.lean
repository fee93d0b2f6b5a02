import QuicWire.Reader
import QuicWire.Writer

set_option autoImplicit false

namespace QuicWire.PacketNumber

def limit : Nat := 1 <<< 62

def maxLength : Nat := 4

def window (length : Nat) : Nat :=
  1 <<< (8 * length)

def shortest (pn : Nat) (fits : Nat → Bool) : Except Error Nat :=
  match [1, 2, 3, 4].find? fits with
  | some length => .ok length
  | none => .error (.valueTooLarge pn)

def encodedLen (pn : Nat) (largest : Option Nat) : Except Error Nat :=
  if limit ≤ pn then .error (.valueTooLarge pn)
  else match largest with
    -- The last number of each length is left to the next length.
    | none => shortest pn fun length => pn < window length - 1
    | some largest =>
      if pn ≤ largest then .error (.nonMonotonic pn largest)
      else shortest pn fun length => pn - largest < window length / 2

def write (pn : Nat) (largest : Option Nat) : Writer Nat := do
  let length ← Writer.check (encodedLen pn largest)
  Writer.put (beBytes length pn)
  return length

def checkLength (length : Nat) : Except Failure Unit :=
  if 1 ≤ length ∧ length ≤ maxLength then .ok ()
  else .error (.refused (.invalidLength length))

def checkReference : Option Nat → Except Failure Unit
  | none => .ok ()
  | some largest =>
    if largest < limit then .ok () else .error (.refused (.valueTooLarge largest))

def nearest (expected window low : Nat) : Except Failure Nat := do
  let half := window / 2
  -- The number in the window of `expected`; its neighbours are one window away.
  let candidate ← Word.fit (expected / window * window + low)
  let above ← Word.fit (candidate + half)
  let room ← Word.sub limit window
  if above ≤ expected ∧ candidate < room then
    Word.fit (candidate + window)
  else
    let below ← Word.fit (expected + half)
    if below < candidate ∧ window ≤ candidate then
      Word.sub candidate window
    else
      return candidate

def rebuild (truncated length : Nat) (largest : Option Nat) : Except Failure Nat := do
  checkLength length
  checkReference largest
  let low := truncated % window length
  match largest with
  | none => return low
  | some largest =>
    let expected ← Word.fit (largest + 1)
    -- One past the end of the space, if `largest` is its last number.
    let pn ← nearest expected (window length) low
    if pn < limit then return pn else .error (.refused .violation)

/-- Refuses a bad length or reference, and input that is too short, before consuming anything; a number
that cannot be rebuilt is refused with its bytes gone. -/
def read (length : Nat) (largest : Option Nat) : Reader Nat := do
  Reader.lift (checkLength length)
  Reader.lift (checkReference largest)
  Reader.need length
  let truncated ← Reader.take length
  Reader.lift (rebuild (beValue truncated) length largest)

end QuicWire.PacketNumber

import QuicWire.Toml.Scanner

set_option autoImplicit false

namespace QuicWire.Toml

open Scanner

def isLeapYear (year : Nat) : Bool :=
  year % 4 = 0 ∧ (year % 100 ≠ 0 ∨ year % 400 = 0)

def daysIn (year month : Nat) : Nat :=
  if month = 2 then if isLeapYear year then 29 else 28
  else if month = 4 ∨ month = 6 ∨ month = 9 ∨ month = 11 then 30
  else 31

def field (count low high : Nat) : Scanner Nat := do
  let n ← digits 10 (digit 10) count
  if low ≤ n ∧ n ≤ high then return n else failure

def date : Scanner Unit := do
  let year ← field 4 0 9999
  char '-'
  let month ← field 2 1 12
  char '-'
  discard <| field 2 1 (daysIn year month)

def time : Scanner Unit := do
  discard <| field 2 0 23
  char ':'
  discard <| field 2 0 59
  char ':'
  discard <| field 2 0 60
  discard <| perhaps (char '.' *> takeWhile1 Char.isDigit)

def offset : Scanner Unit :=
  discard (satisfy fun c => c = 'Z' ∨ c = 'z') <|> do
    discard <| satisfy fun c => c = '+' ∨ c = '-'
    discard <| field 2 0 23
    char ':'
    discard <| field 2 0 59

def dateTime : Scanner Unit :=
  (do
    date
    discard <| perhaps do
      discard <| satisfy fun c => c = 'T' ∨ c = 't' ∨ c = ' '
      time
      discard <| perhaps offset) <|>
  time

end QuicWire.Toml

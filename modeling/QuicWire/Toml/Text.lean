import QuicWire.Toml.Scanner

set_option autoImplicit false

namespace QuicWire.Toml

open Scanner

def isText (c : Char) : Bool :=
  c = '\t' ∨ ' ' ≤ c ∧ c ≠ '\x7f'

def isBasicText (c : Char) : Bool :=
  isText c ∧ c ≠ '\x22' ∧ c ≠ '\x5c'

def isLiteralText (c : Char) : Bool :=
  isText c ∧ c ≠ '\x27'

def blank : Scanner Unit :=
  discard <| takeWhile fun c => c = ' ' ∨ c = '\t'

def newline : Scanner Unit :=
  char '\n' <|> (char '\r' *> char '\n')

def comment : Scanner Unit := do
  char '#'
  discard <| takeWhile isText

def lineEnd : Scanner Unit :=
  newline <|> endOfInput

def trailing : Scanner Unit := do
  blank
  discard <| perhaps comment
  lineEnd

def gap : Scanner Unit := do
  blank
  discard <| many (perhaps comment *> newline *> blank)

section Strings

def codePoint (count : Nat) : Scanner Char := do
  let n ← digits 16 (digit 16) count
  if n.isValidChar then return Char.ofNat n else failure

def escape : Scanner Char := do
  char '\x5c'
  match ← satisfy fun _ => true with
  | 'b' => return '\x08'
  | 't' => return '\t'
  | 'n' => return '\n'
  | 'f' => return '\x0c'
  | 'r' => return '\r'
  | '\x22' => return '\x22'
  | '\x5c' => return '\x5c'
  | 'u' => codePoint 4
  | 'U' => codePoint 8
  | _ => failure

def basicString : Scanner (List Char) := do
  char '\x22'
  let cs ← many (satisfy isBasicText <|> escape)
  char '\x22'
  return cs

def literalString : Scanner (List Char) := do
  char '\x27'
  let cs ← takeWhile isLiteralText
  char '\x27'
  return cs

def continuation : Scanner Unit := do
  char '\x5c'
  blank
  newline
  blank
  discard <| many (newline *> blank)

def innerQuotes (quote : Char) : Scanner (List Char) :=
  (do char quote; char quote; ahead (· ≠ quote); return [quote, quote]) <|>
  (do char quote; ahead (· ≠ quote); return [quote])

def closingQuotes (quote : Char) : Scanner (List Char) := do
  let run ← takeWhile (· = quote)
  if 3 ≤ run.length ∧ run.length ≤ 5 then return run.drop 3 else failure

def longString (quote : Char) (piece : Scanner (List Char)) : Scanner (List Char) := do
  char quote
  char quote
  char quote
  discard <| perhaps newline
  let pieces ← many (piece <|> (do newline; return ['\n']) <|> innerQuotes quote)
  let last ← closingQuotes quote
  return pieces.flatten ++ last

def longBasicString : Scanner (List Char) :=
  longString '\x22' <|
    (do return [← satisfy isBasicText]) <|> (do continuation; return []) <|> (do return [← escape])

def longLiteralString : Scanner (List Char) :=
  longString '\x27' do return [← satisfy isLiteralText]

def string : Scanner (List Char) :=
  longBasicString <|> basicString <|> longLiteralString <|> literalString

end Strings

section Keys

def isBareKey (c : Char) : Bool :=
  'a' ≤ c ∧ c ≤ 'z' ∨ 'A' ≤ c ∧ c ≤ 'Z' ∨ '0' ≤ c ∧ c ≤ '9' ∨ c = '-' ∨ c = '_'

def keyPart : Scanner String := do
  blank
  let cs ← basicString <|> literalString <|> takeWhile1 isBareKey
  blank
  return String.ofList cs

def depthLimit : Nat := 80

structure Key where
  tables : List String
  last : String
  deriving DecidableEq, Repr

def Key.ofParts? (parts : List String) : Option Key :=
  parts.getLast?.map fun last => { tables := parts.dropLast, last }

def key : Scanner Key := do
  let parts ← separated keyPart (char '.')
  if parts.length < depthLimit then
    match Key.ofParts? parts with
    | some k => return k
    | none => failure
  else failure

end Keys

end QuicWire.Toml

import QuicWire.Toml.DateTime
import QuicWire.Toml.Number
import QuicWire.Toml.Table

set_option autoImplicit false

namespace QuicWire.Toml

open Scanner

section Values

def scalarValue : Scanner Item :=
  (do discard string; return .scalar) <|>
  (do dateTime; return .scalar) <|>
  (do float; return .scalar) <|>
  (do return .integer (← integer)) <|>
  (do word "true" <|> word "false"; return .scalar)

def arrayValue (element : Scanner Item) : Scanner Item := do
  char '['
  let items ← perhaps do
    let items ← separated (gap *> element <* gap) (char ',')
    discard <| perhaps (char ',')
    return items
  gap
  char ']'
  return .array (items.getD [])

def keyValue (value : Scanner Item) : Scanner (Key × Item) := do
  let k ← key
  char '='
  blank
  return (k, ← value)

def inlineTableValue (element : Scanner Item) : Scanner Item := do
  char '{'
  let pairs ← perhaps (separated (keyValue element <* blank) (char ','))
  blank
  char '}'
  -- Inside braces the keys of one table meet as the statements of a document do.
  let t ← StateT.lift ((pairs.getD []).foldlM (fun t (k, item) => t.insert k item) (Table.empty .defined))
  return .inlineTable t

def value : Nat → Scanner Item
  | 0 => scalarValue
  | depth + 1 => scalarValue <|> arrayValue (value depth) <|> inlineTableValue (value depth)

end Values

inductive Statement where
  | nothing
  | entry (k : Key) (item : Item)
  | header (k : Key)
  | elementHeader (k : Key)

def statement : Scanner Statement :=
  (do newline; return .nothing) <|>
  (do comment; lineEnd; return .nothing) <|>
  (do word "[["; let k ← key; word "]]"; trailing; return .elementHeader k) <|>
  (do char '['; let k ← key; char ']'; trailing; return .header k) <|>
  (do let (k, item) ← keyValue (value (depthLimit - 1)); trailing; return .entry k item)

def statements : Scanner (List Statement) := do
  discard <| perhaps (char '\uFEFF')
  blank
  let all ← many (statement <* blank)
  endOfInput
  return all

structure Document where
  root : Table
  path : List String

namespace Document

def empty : Document := { root := Table.empty .defined, path := [] }

def add (d : Document) : Statement → Option Document
  | .nothing => some d
  | .entry k item => do
    return { d with root := ← d.root.modifyAt .impliedByHeader (·.insert k item) d.path }
  | .header k => do
    return { root := ← d.root.openTable k, path := k.tables ++ [k.last] }
  | .elementHeader k => do
    return { root := ← d.root.openElement k, path := k.tables ++ [k.last] }

def parse (text : String) : Option Table := do
  let (all, _) ← statements text.toList
  let d ← all.foldlM add empty
  return d.root

end Document

end QuicWire.Toml

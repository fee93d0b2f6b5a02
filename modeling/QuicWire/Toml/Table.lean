import QuicWire.Toml.Text

set_option autoImplicit false

namespace QuicWire.Toml

inductive Origin where
  | defined
  | impliedByHeader
  | impliedByKey
  deriving DecidableEq, Repr

structure TableOf (Item : Type) where
  origin : Origin
  entries : List (String × Item)
  deriving Repr

inductive Item where
  | integer (n : Int)
  | scalar
  | array (items : List Item)
  | inlineTable (t : TableOf Item)
  | table (t : TableOf Item)
  | tableArray (ts : List (TableOf Item))

abbrev Table := TableOf Item

namespace Table

def empty (origin : Origin) : Table :=
  { origin, entries := [] }

def find? (t : Table) (name : String) : Option Item :=
  t.entries.lookup name

def set (t : Table) (name : String) (item : Item) : Table :=
  { t with entries := (name, item) :: t.entries.filter (·.1 ≠ name) }

/-- Changes the table at the end of a path, and makes the tables that are missing on the way. A dotted
key may not lead through a table that has a header of its own. The last table stands for its array. -/
def modifyAt (made : Origin) (change : Table → Option Table) : List String → Table → Option Table
  | [], t => change t
  | name :: path, t => do
    match t.find? name with
    | none => return t.set name (.table (← modifyAt made change path (empty made)))
    | some (.table sub) =>
      if made = .impliedByKey ∧ sub.origin = .defined then none
      else return t.set name (.table (← modifyAt made change path sub))
    | some (.tableArray subs) =>
      let last ← subs.getLast?
      return t.set name (.tableArray (subs.dropLast ++ [← modifyAt made change path last]))
    | some _ => none

def insert (k : Key) (item : Item) : Table → Option Table :=
  modifyAt .impliedByKey
    (fun t =>
      if k.tables.isEmpty = decide (t.origin = .impliedByKey) then none
      else if (t.find? k.last).isSome then none
      else some (t.set k.last item))
    k.tables

def openTable (k : Key) : Table → Option Table :=
  modifyAt .impliedByHeader
    (fun parent =>
      match parent.find? k.last with
      | none => some (parent.set k.last (.table (empty .defined)))
      | some (.table t) =>
        if t.origin = .impliedByHeader then
          some (parent.set k.last (.table { t with origin := .defined }))
        else none
      | some _ => none)
    k.tables

def openElement (k : Key) : Table → Option Table :=
  modifyAt .impliedByHeader
    (fun parent =>
      match parent.find? k.last with
      | none => some (parent.set k.last (.tableArray [empty .defined]))
      | some (.tableArray ts) => some (parent.set k.last (.tableArray (ts ++ [empty .defined])))
      | some _ => none)
    k.tables

end Table

end QuicWire.Toml

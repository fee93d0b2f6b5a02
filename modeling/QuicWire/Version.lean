import QuicWire.Bytes

set_option autoImplicit false

namespace QuicWire

inductive Version where
  | v0
  | v1
  deriving DecidableEq, Repr

namespace Version

def toWire : Version → UInt32
  | v0 => 0
  | v1 => 1

def ofWire? (word : UInt32) : Option Version :=
  if word = 0 then some v0 else if word = 1 then some v1 else none

def isReserved (word : UInt32) : Bool :=
  word &&& 0x0f0f0f0f = 0x0a0a0a0a

@[simp] theorem ofWire?_toWire (v : Version) : ofWire? v.toWire = some v := by
  cases v <;> rfl

theorem ofWire?_eq_some_iff (word : UInt32) (v : Version) : ofWire? word = some v ↔ word = v.toWire := by
  constructor
  · intro h
    unfold ofWire? at h
    split at h
    · cases h; assumption
    · split at h
      · cases h; assumption
      · cases h
  · rintro rfl
    exact ofWire?_toWire v

end Version

end QuicWire

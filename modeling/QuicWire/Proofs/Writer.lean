import QuicWire.Writer

set_option autoImplicit false

namespace QuicWire.Writer

variable {α β : Type}

def Appends (w : Writer α) (bytes : Bytes) (a : α) : Prop :=
  ∀ out, w.run out = .ok a (out ++ bytes)

def Denotes (w : Writer α) : Except Error (Bytes × α) → Prop
  | .ok (bytes, a) => Appends w bytes a
  | .error cause => ∀ out, w.run out = .error cause out

namespace Appends

theorem nothing (a : α) : Appends (pure a) [] a := fun out => by
  rw [List.append_nil]
  rfl

theorem put (bytes : Bytes) : Appends (Writer.put bytes) bytes () := fun _ => rfl

theorem bind {w : Writer α} {f : α → Writer β} {front back : Bytes} {a : α} {y : β}
    (first : Appends w front a) (second : Appends (f a) back y) :
    Appends (w >>= f) (front ++ back) y := fun out => by
  rw [EStateM.run_bind, first out]
  dsimp only
  rw [second, List.append_assoc]

theorem andReturn {w : Writer α} {bytes : Bytes} {a : α} (h : Appends w bytes a) (f : α → β) :
    Appends (do return f (← w)) bytes (f a) := by
  have both : Appends (do return f (← w)) (bytes ++ []) (f a) := h.bind (nothing (f a))
  rwa [List.append_nil] at both

theorem discarded {w : Writer α} {bytes : Bytes} {a : α} (h : Appends w bytes a) :
    Appends (discard w) bytes () := fun out => by
  show ((fun _ => ()) <$> w : Writer Unit).run out = _
  rw [run_map, h out]

end Appends

namespace Denotes

theorem check_bind {x : Except Error α} {f : α → Writer β} {g : α → Except Error (Bytes × β)}
    (h : ∀ a, x = .ok a → Denotes (f a) (g a)) : Denotes (Writer.check x >>= f) (x >>= g) := by
  cases x with
  | ok a => exact h a rfl
  | error cause => exact fun _ => rfl

theorem andAppend {w : Writer α} {f : α → Writer β} {x : Except Error (Bytes × α)}
    {back : α → Bytes} {y : α → β} (h : Denotes w x) (appends : ∀ a, Appends (f a) (back a) (y a)) :
    Denotes (w >>= f) (x.map fun (front, a) => (front ++ back a, y a)) := by
  cases x with
  | ok value => exact Appends.bind h (appends value.2)
  | error cause => exact fun out => by rw [EStateM.run_bind, h out]

theorem run_ok {w : Writer α} {x : Except Error (Bytes × α)} (h : Denotes w x) {out left : Bytes} {a : α}
    (wrote : w.run out = .ok a left) : ∃ bytes, x = .ok (bytes, a) ∧ left = out ++ bytes := by
  cases x with
  | ok value =>
    rw [h out] at wrote
    cases wrote
    exact ⟨value.1, rfl, rfl⟩
  | error _ =>
    rw [h out] at wrote
    cases wrote

theorem run_error {w : Writer α} {x : Except Error (Bytes × α)} (h : Denotes w x) {out left : Bytes}
    {cause : Error} (failed : w.run out = .error cause left) : x = .error cause ∧ left = out := by
  cases x with
  | ok value =>
    rw [h out] at failed
    cases failed
  | error _ =>
    rw [h out] at failed
    cases failed
    exact ⟨rfl, rfl⟩

theorem exists_run_ok_iff {w : Writer α} {x : Except Error (Bytes × α)} (h : Denotes w x) (out : Bytes) :
    (∃ a left, w.run out = .ok a left) ↔ ∃ value, x = .ok value := by
  constructor
  · intro success
    obtain ⟨a, left, wrote⟩ := success
    obtain ⟨bytes, denoted, -⟩ := h.run_ok wrote
    exact ⟨(bytes, a), denoted⟩
  · intro denoted
    obtain ⟨value, rfl⟩ := denoted
    exact ⟨value.2, out ++ value.1, h out⟩

end Denotes

end QuicWire.Writer

import QuicWire.Proofs.Containment

set_option autoImplicit false

namespace QuicWire.ProtectedHeader

inductive Removal where
  | unprotect (mask : UInt8) (delta : Nat)
  | removeProtection (maskByte : UInt8)
  deriving DecidableEq

namespace Removal

variable {h : ProtectedHeader}

def delta (h : ProtectedHeader) : Removal → Nat
  | unprotect _ delta => delta
  | removeProtection m => h.excess m

def run (h : ProtectedHeader) : Removal → ProtectedHeader
  | unprotect mask delta => h.unprotect mask delta
  | removeProtection m => h.removeProtection m

theorem unprotected_run (c : Removal) : (c.run h).unprotected = true := by
  cases c with
  | unprotect mask delta => exact unprotect_unprotected h mask delta
  | removeProtection m => exact unprotect_unprotected h (h.maskOf m) (h.excess m)

theorem run_of_unprotected (latched : h.unprotected = true) (c : Removal) : c.run h = h := by
  cases c with
  | unprotect mask delta => exact unprotect_of_unprotected latched mask delta
  | removeProtection m => exact unprotect_of_unprotected latched (h.maskOf m) (h.excess m)

end Removal

def runAll (h : ProtectedHeader) (calls : List Removal) : ProtectedHeader :=
  calls.foldl Removal.run h

/-- What is asserted in the calls one after another. A call that the latch turns away does not get as far. -/
def Asserted : ProtectedHeader → List Removal → Prop
  | _, [] => True
  | h, c :: calls => (h.unprotected = false → c.delta h ≤ h.length) ∧ Asserted (c.run h) calls

section Runs

variable {h : ProtectedHeader}

theorem runAll_of_unprotected (latched : h.unprotected = true) (calls : List Removal) : runAll h calls = h := by
  induction calls with
  | nil => rfl
  | cons c calls ih => rwa [runAll, List.foldl_cons, c.run_of_unprotected latched]

theorem runAll_cons (c : Removal) (calls : List Removal) : runAll h (c :: calls) = c.run h :=
  runAll_of_unprotected c.unprotected_run calls

theorem asserted_of_unprotected (latched : h.unprotected = true) (calls : List Removal) : Asserted h calls := by
  induction calls with
  | nil => trivial
  | cons c calls ih =>
    rw [Asserted, c.run_of_unprotected latched]
    exact ⟨fun hidden => absurd (latched.symm.trans hidden) (by decide), ih⟩

theorem asserted_cons {c : Removal} (room : h.unprotected = false → c.delta h ≤ h.length) (calls : List Removal) :
    Asserted h (c :: calls) :=
  ⟨room, asserted_of_unprotected c.unprotected_run calls⟩

theorem Roomy.asserted (roomy : h.Roomy) (masks : List UInt8) : Asserted h (masks.map .removeProtection) := by
  cases masks with
  | nil => trivial
  | cons m masks =>
    apply asserted_cons
    intro hidden
    have short : h.excess m ≤ PacketNumber.maxLength := Nat.sub_le _ _
    exact Nat.le_trans short (roomy hidden)

end Runs

structure Kept (h h' : ProtectedHeader) : Prop where
  type_eq : h'.type = h.type
  version_eq : h'.version = h.version
  dcid_eq : h'.dcid = h.dcid
  scid_eq : h'.scid = h.scid
  token_eq : h'.token = h.token
  pnOffset_eq : h'.pnOffset = h.pnOffset
  packetLen_eq : h'.packetLen = h.packetLen
  -- Protection covers one bit more of a short header than of a long one.
  bits_eq : h'.bits &&& (if h.isLong then 0xf0 else 0xe0) = h.bits &&& (if h.isLong then 0xf0 else 0xe0)

theorem Kept.refl (h : ProtectedHeader) : Kept h h :=
  ⟨rfl, rfl, rfl, rfl, rfl, rfl, rfl, rfl⟩

theorem masked_and_unprotected (m bits : UInt8) :
    FirstByte.masked m bits &&& (if FirstByte.isLong bits then 0xf0 else 0xe0) =
      bits &&& (if FirstByte.isLong bits then 0xf0 else 0xe0) := by
  rw [FirstByte.masked]
  cases FirstByte.isLong bits with
  | true => exact FirstByte.xor_and_of_disjoint rfl
  | false => exact FirstByte.xor_and_of_disjoint rfl

section Peeked

variable {dcidLen behind : Nat} {front b : Bytes} {info : ProtectedHeader}

theorem Clear.kept_removeProtection (clear : Clear dcidLen front behind info) (m : UInt8) :
    Kept info (info.removeProtection m) := by
  cases clear with
  | short =>
    rw [removeProtection_beforeNumber]
    exact ⟨rfl, rfl, rfl, rfl, rfl, rfl, rfl, masked_and_unprotected m _⟩
  | long form =>
    rw [removeProtection_beforeNumber]
    exact ⟨FirstByte.ofLongBits_masked m form, rfl, rfl, rfl, rfl, rfl, rfl, masked_and_unprotected m _⟩

theorem Clear.isNumbered (clear : Clear dcidLen front behind info) : info.type.isNumbered = true := by
  cases clear with
  | short => rfl
  | long _ _ delimited => exact isNumbered_of_isDelimited delimited

theorem Bare.unprotected_eq (bare : Bare b info) : info.unprotected = true := by
  cases bare <;> rfl

theorem Bare.length_eq (bare : Bare b info) : info.length = b.length := by
  cases bare <;> rfl

theorem kept_of_peek (peeked : peek b dcidLen = .ok info) (m : UInt8) : Kept info (info.removeProtection m) := by
  rcases peek_eq_ok_iff.mp peeked with ⟨_, _, -, clear⟩ | bare
  next => exact clear.kept_removeProtection m
  next =>
    rw [removeProtection, unprotect_of_unprotected bare.unprotected_eq]
    exact .refl info

structure Settles (info : ProtectedHeader) (offset : Nat) : Prop where
  pnOffset_eq : info.pnOffset = some offset
  length_eq : info.length = offset + 4
  pnLength_eq : info.pnLength = none
  settled (m : UInt8) (masks : List UInt8) :
    ∃ k, 1 ≤ k ∧ k ≤ 4 ∧
      (runAll info ((m :: masks).map .removeProtection)).pnLength = some k ∧
      (runAll info ((m :: masks).map .removeProtection)).length = offset + k

theorem Clear.settles (clear : Clear dcidLen front behind info) : Settles info front.length := by
  obtain ⟨bits, version, dcid, scid, token, rest, rfl⟩ := clear.eq_beforeNumber
  refine ⟨rfl, rfl, rfl, ?_⟩
  intro m masks
  have first : runAll (beforeNumber bits version dcid scid token front.length rest)
      ((m :: masks).map .removeProtection) =
      atNumber (FirstByte.masked m bits) version dcid scid token front.length rest := by
    rw [List.map_cons, runAll_cons]
    exact removeProtection_beforeNumber m
  rw [first]
  exact ⟨FirstByte.pnLength (FirstByte.masked m bits), FirstByte.pnLength_pos _, FirstByte.pnLength_le _, rfl, rfl⟩

structure Steady (packet : Bytes) (info : ProtectedHeader) : Prop where
  kept (masks : List UInt8) : Kept info (runAll info (masks.map .removeProtection))
  asserted (masks : List UInt8) : Asserted info (masks.map .removeProtection)
  numbered : info.type.isNumbered = true → ∃ offset, Settles info offset
  bare : info.type.isNumbered = false → info.length = packet.length ∧ ∀ calls, runAll info calls = info

theorem steady_of_peek (peeked : peek b dcidLen = .ok info) : Steady b info := by
  constructor
  case kept =>
    intro masks
    cases masks with
    | nil => exact .refl info
    | cons m masks =>
      rw [List.map_cons, runAll_cons]
      exact kept_of_peek peeked m
  case asserted => exact (roomy_of_peek peeked).asserted
  case numbered =>
    intro numbered
    rcases peek_eq_ok_iff.mp peeked with ⟨front, _, -, clear⟩ | bare
    next => exact ⟨front.length, clear.settles⟩
    next => exact absurd (numbered.symm.trans (isNumbered_of_bare bare)) (by decide)
  case bare =>
    intro unnumbered
    rcases peek_eq_ok_iff.mp peeked with ⟨_, _, -, clear⟩ | bare
    next => exact absurd (clear.isNumbered.symm.trans unnumbered) (by decide)
    next => exact ⟨bare.length_eq, runAll_of_unprotected bare.unprotected_eq⟩

theorem latched_runs (info : ProtectedHeader) :
    (∀ first more, runAll info (first :: more) = first.run info ∧
      (first.delta info ≤ info.length → Asserted info (first :: more))) ∧
    ∀ packet dcidLen, peek packet dcidLen = .ok info → Steady packet info := by
  constructor
  next =>
    intro first more
    exact ⟨runAll_cons first more, fun room => asserted_cons (fun _ => room) more⟩
  next =>
    intro packet dcidLen peeked
    exact steady_of_peek peeked

theorem latched_runs_initial :
    let packet : Bytes := [0xc3, 0, 0, 0, 1, 2, 1, 2, 1, 3, 1, 0xee, 5, 0, 0, 0, 0, 0]
    let info : ProtectedHeader :=
      beforeNumber 0xc3 (some .v1) ⟨[1, 2], by decide⟩ (some ⟨[3], by decide⟩) (some [0xee]) 13 5
    let calls : List Removal := [.removeProtection 0xf2, .unprotect 0xff 5, .removeProtection 0x01]
    (peek packet 0 = .ok info ∧ Steady packet info) ∧
      (info.excess 0xf2 ≤ info.length ∧ Asserted info calls ∧ runAll info calls = info.removeProtection 0xf2) := by
  intro packet info calls
  have peeked : peek packet 0 = .ok info := rfl
  have room : info.excess 0xf2 ≤ info.length := by decide
  obtain ⟨latched, steady⟩ := latched_runs info
  obtain ⟨same, asserted⟩ := latched (.removeProtection 0xf2) [.unprotect 0xff 5, .removeProtection 0x01]
  exact ⟨⟨peeked, steady packet 0 peeked⟩, room, asserted room, same⟩

end Peeked

end QuicWire.ProtectedHeader

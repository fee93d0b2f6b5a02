import QuicWire.Datagram.Builder
import QuicWire.Packet.Body
import QuicWire.Toml.Document

set_option autoImplicit false

namespace QuicWire

structure Config where
  maxDatagramSize : Nat := 1200
  dcidLen : Nat := 8
  tagLen : Nat := 16
  versions : List UInt32 := [Version.v1.toWire]
  deriving DecidableEq, Repr

namespace Config

def minDatagramSize : Nat := 1200

def largestDatagramSize : Nat := 65527

def parseContext (c : Config) (largest : Option Nat) : ParseContext :=
  { largest, dcidLen := c.dcidLen, tagLen := c.tagLen }

def datagramBuilder (c : Config) : DatagramBuilder :=
  { maxSize := c.maxDatagramSize }

inductive Problem where
  | datagramSize (size : Nat)
  | dcidLen (length : Nat)
  | noVersions
  | versionZero
  deriving DecidableEq, Repr

def Problem.message : Problem → String
  | datagramSize size =>
    "max_datagram_size (" ++ size.repr ++ ") must be between " ++ minDatagramSize.repr ++ " and "
      ++ largestDatagramSize.repr
  | dcidLen length =>
    "short_header_dcid_len (" ++ length.repr ++ ") exceeds the QUIC v1 limit of "
      ++ ConnectionId.maxLengthV1.repr
  | noVersions => "supported_versions must not be empty"
  | versionZero => "supported_versions must not contain 0x00000000"

def problems (c : Config) : List Problem :=
  (if minDatagramSize ≤ c.maxDatagramSize ∧ c.maxDatagramSize ≤ largestDatagramSize then []
    else [.datagramSize c.maxDatagramSize]) ++
  (if c.dcidLen ≤ ConnectionId.maxLengthV1 then [] else [.dcidLen c.dcidLen]) ++
  (if c.versions.isEmpty then [.noVersions] else []) ++
  (if Version.v0.toWire ∈ c.versions then [.versionZero] else [])

section Loading

open Toml

def number (t : Table) (name : String) (bound default : Nat) : Option Nat :=
  match t.find? name with
  | none => some default
  | some (.integer n) => if 0 ≤ n ∧ n < bound then some n.toNat else none
  | some _ => none

def versionWord : Item → Option UInt32
  | .integer n => if 0 ≤ n ∧ n < 0x100000000 then some (UInt32.ofNat n.toNat) else none
  | _ => none

def versionList (t : Table) (default : List UInt32) : Option (List UInt32) :=
  match t.find? "supported_versions" with
  | none => some default
  | some (.array items) => items.mapM versionWord
  | some _ => none

def ofTable? (t : Table) : Option Config := do
  let base : Config := {}
  let maxDatagramSize ← number t "max_datagram_size" Word.size base.maxDatagramSize
  let dcidLen ← number t "short_header_dcid_len" 256 base.dcidLen
  let tagLen ← number t "aead_tag_len" Word.size base.tagLen
  let versions ← versionList t base.versions
  return { maxDatagramSize, dcidLen, tagLen, versions }

inductive Source where
  | missing
  | directory
  | file (content : Bytes)

inductive LoadError where
  | unreadable
  | malformed
  | invalid (problems : List Problem)
  deriving DecidableEq, Repr

def LoadError.message (path : String) : LoadError → String
  | unreadable => "Failed to read config file: " ++ path
  | malformed => "Failed to parse TOML config: " ++ path
  | invalid problems =>
    "Configuration validation failed:\n" ++ "\n".intercalate (problems.map Problem.message)

def readSource : Source → Except LoadError Config
  | .missing => .ok {}
  | .directory => .error .unreadable
  | .file content =>
    match String.fromUTF8? content.toByteArray with
    | none => .error .unreadable
    | some text =>
      match (Document.parse text).bind ofTable? with
      | none => .error .malformed
      | some c => .ok c

def load (source : Source) : Except LoadError Config := do
  let c ← readSource source
  if c.problems.isEmpty then return c else throw (.invalid c.problems)

theorem problems_eq_nil_of_load {source : Source} {c : Config} (h : load source = .ok c) :
    c.problems = [] := by
  unfold load at h
  cases r : readSource source with
  | error e => simp [r, bind, Except.bind] at h
  | ok d =>
    simp only [r, bind, Except.bind] at h
    split at h
    · next empty =>
      cases h
      simpa using empty
    · simp [throw, throwThe, MonadExceptOf.throw] at h

end Loading

end Config

end QuicWire

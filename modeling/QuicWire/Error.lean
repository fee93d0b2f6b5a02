import QuicWire.Hex

set_option autoImplicit false

namespace QuicWire

inductive TransportError where
  | noError
  | internalError
  | frameEncodingError
  | protocolViolation
  deriving DecidableEq, Repr

namespace TransportError

def code : TransportError → Nat
  | noError => 0x00
  | internalError => 0x01
  | frameEncodingError => 0x07
  | protocolViolation => 0x0a

def name : TransportError → String
  | noError => "NO_ERROR"
  | internalError => "INTERNAL_ERROR"
  | frameEncodingError => "FRAME_ENCODING_ERROR"
  | protocolViolation => "PROTOCOL_VIOLATION"

def message (e : TransportError) : String :=
  e.name ++ " (0x" ++ String.ofList (Hex.padded 2 e.code) ++ ")"

end TransportError

inductive Error where
  | transport (cause : TransportError)
  | invalidValue
  | valueTooLarge (value : Nat)
  | nonMonotonic (packetNumber largest : Nat)
  | invalidLength (length : Nat)
  | unsupportedVersion (version : UInt32)
  deriving DecidableEq, Repr

namespace Error

abbrev violation : Error := transport .protocolViolation

def isViolation (e : Error) : Bool :=
  e = violation

def message : Error → String
  | transport cause => "transport error: " ++ cause.message
  | invalidValue => "invalid value"
  | valueTooLarge value => "value " ++ value.repr ++ " too large to encode"
  | nonMonotonic packetNumber largest =>
    "packet number " ++ packetNumber.repr ++ " is not greater than largest " ++ largest.repr
  | invalidLength length => "invalid packet number length " ++ length.repr
  | unsupportedVersion version =>
    "unsupported version 0x" ++ String.ofList (Hex.padded 8 version.toNat)

end Error

end QuicWire

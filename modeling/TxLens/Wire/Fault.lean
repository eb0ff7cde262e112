import TxLens.Text.Decimal
/-!
# Decoding faults

A fault is a cause and the fields inside which it was met, innermost first.
-/

namespace TxLens.Wire

/-- How a field's content is delimited. -/
inductive WireType where
  | varint
  | sixtyFourBit
  | lengthDelimited
  | startGroup
  | endGroup
  | thirtyTwoBit
  deriving DecidableEq

def WireType.ofCode? : Nat → Option WireType
  | 0 => some .varint
  | 1 => some .sixtyFourBit
  | 2 => some .lengthDelimited
  | 3 => some .startGroup
  | 4 => some .endGroup
  | 5 => some .thirtyTwoBit
  | _ => none

def WireType.name : WireType → String
  | .varint => "Varint"
  | .sixtyFourBit => "SixtyFourBit"
  | .lengthDelimited => "LengthDelimited"
  | .startGroup => "StartGroup"
  | .endGroup => "EndGroup"
  | .thirtyTwoBit => "ThirtyTwoBit"

inductive Cause where
  | invalidVarint
  | invalidKey (value : Nat)
  | invalidWireType (code : Nat)
  | invalidNumber
  | wireTypeMismatch (found expected : WireType)
  | underflow
  | lengthExceeded
  | notUtf8
  | unexpectedEndGroup
  | recursionLimit

def Cause.message : Cause → String
  | .invalidVarint => "invalid varint"
  | .invalidKey value => "invalid key value: " ++ Text.numeralText value
  | .invalidWireType code => "invalid wire type value: " ++ Text.numeralText code
  | .invalidNumber => "invalid tag value: 0"
  | .wireTypeMismatch found expected =>
    "invalid wire type: " ++ found.name ++ " (expected " ++ expected.name ++ ")"
  | .underflow => "buffer underflow"
  | .lengthExceeded => "delimited length exceeded"
  | .notUtf8 => "invalid string value: data is not UTF-8 encoded"
  | .unexpectedEndGroup => "unexpected end group tag"
  | .recursionLimit => "recursion limit reached"

/-- The type and the name of an enclosing field. -/
structure Place where
  type : String
  field : String

structure Fault where
  places : List Place
  cause : Cause

/-- A fault that is not yet inside any field. -/
def Cause.bare (c : Cause) : Fault := ⟨[], c⟩

/-- The same fault seen from inside one more field. -/
def Fault.inside (f : Fault) (type field : String) : Fault := ⟨f.places ++ [⟨type, field⟩], f.cause⟩

def Fault.message (f : Fault) : String :=
  "failed to decode Protobuf message: " ++
    String.join (f.places.map fun p => p.type ++ "." ++ p.field ++ ": ") ++ f.cause.message

end TxLens.Wire

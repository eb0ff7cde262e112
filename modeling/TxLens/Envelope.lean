import TxLens.Wire.Object
/-!
# Envelopes

A message of any type travels in an envelope: its bytes under a type URL. The type name is what
follows the last slash of the URL.
-/

namespace TxLens

structure Envelope where
  typeUrl : String
  value : Bytes
  deriving DecidableEq

namespace Envelope

open Wire

instance : Object Envelope where
  type := .envelope
  ofMessage m := ⟨m.text 1, m.byteString 2⟩
  toMessage e := .ofText 1 e.typeUrl ++ .ofByteString 2 e.value

/-- Puts an object into an envelope. -/
def pack {α : Type} [Object α] (typeUrl : String) (a : α) : Envelope := ⟨typeUrl, Object.encode a⟩

/-- Reads the content as an object. -/
def unpack (α : Type) [Object α] (e : Envelope) : Except Fault α := Object.decode α e.value

/-- What follows the last slash, or all of it where there is none. -/
def afterSlash : List Char → List Char
  | [] => []
  | c :: cs => if '/' ∈ c :: cs then afterSlash cs else c :: cs

def typeName (e : Envelope) : String := String.ofList (afterSlash e.typeUrl.toList)

end Envelope

end TxLens

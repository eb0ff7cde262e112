import TxLens.Wire.Parser
import TxLens.Wire.Printer
/-!
# Objects with a wire form

An object type is a view of the messages of one layout: every message is read as an object, and every
object is written as a message. Decoding and encoding go through that message.
-/

namespace TxLens.Wire

class Object (α : Type) where
  type : ObjectType
  ofMessage : Message → α
  toMessage : α → Message

namespace Object

variable {α : Type} [Object α]

/-- Reads an object from all the bytes. -/
def decode (α : Type) [Object α] (bs : Bytes) : Except Fault α :=
  ((type α).layout.decode bs).map ofMessage

def encode (a : α) : Bytes := Message.print (toMessage a)

/-- The sub-object of a field, absent when the field is. -/
def sub? (n : Nat) (m : Message) : Option α := (Message.submessage? n m).map ofMessage

/-- The objects of a repeated field. -/
def subs (n : Nat) (m : Message) : List α := (Message.messages n m).map ofMessage

def ofSub? (n : Nat) (a : Option α) : Message := Message.ofMessage? n (a.map toMessage)

def ofSubs (n : Nat) (as : List α) : Message := Message.ofMessages n (as.map toMessage)

end Object

end TxLens.Wire

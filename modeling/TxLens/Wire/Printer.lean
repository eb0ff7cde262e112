import TxLens.Wire.Message
import TxLens.Wire.Varint
/-!
# Writing messages

A field record is a key, which joins the field number and how the content is delimited, and the
content. Texts, byte strings and messages are preceded by their length.
-/

namespace TxLens.Wire

/-- Content whose key says that a length precedes it. -/
def delimited (number : Nat) (content : Bytes) : Bytes :=
  Varint.write (8 * number + 2) ++ Varint.write content.length ++ content

mutual

def Record.print : Record → Bytes
  | .word n v => Varint.write (8 * n) ++ Varint.write v.toNat
  | .text n s => delimited n (Bytes.ofText s)
  | .bytes n b => delimited n b
  | .message n rs => delimited n (Message.print rs)

def Message.print : List Record → Bytes
  | [] => []
  | r :: rs => r.print ++ Message.print rs

end

end TxLens.Wire

/-!
# Message layouts

A layout gives a message type its name and its declared fields: number, name and type of each. The
objects of a transaction refer to one another by `ObjectType`, one of them to itself; the payloads
of operations are trees and carry their layout inline. Whether a field may be repeated is not part
of a layout: it is decided where the field is looked at.
-/

namespace TxLens.Wire

/-- The message types that make up a transaction, its result and its keys. -/
inductive ObjectType where
  | getTxResponse
  | tx
  | txBody
  | authInfo
  | signerInfo
  | modeInfo
  | singleMode
  | multiMode
  | fee
  | coin
  | txResponse
  | messageLog
  | event
  | attribute
  | envelope
  | publicKey
  | multisigKey
  | bitArray
  deriving DecidableEq

/-- A declared field. -/
structure Field (τ : Type) where
  number : Nat
  name : String
  type : τ

inductive FieldType where
  | bool
  | uint32
  | uint64
  | int32
  | int64
  | text
  | bytes
  | object (type : ObjectType)
  | payload (name : String) (fields : List (Field FieldType))

structure Layout where
  name : String
  fields : List (Field FieldType)

/-- The declared field of a number. -/
def Layout.field? (l : Layout) (number : Nat) : Option (Field FieldType) :=
  l.fields.find? fun f => f.number == number

/-! ## The objects of a transaction -/

open FieldType in
/-- The layout of each object. -/
def ObjectType.layout : ObjectType → Layout
  | .getTxResponse => ⟨"GetTxResponse", [⟨1, "tx", object .tx⟩, ⟨2, "tx_response", object .txResponse⟩]⟩
  | .tx => ⟨"Tx", [⟨1, "body", object .txBody⟩, ⟨2, "auth_info", object .authInfo⟩,
      ⟨3, "signatures", bytes⟩]⟩
  | .txBody => ⟨"TxBody", [⟨1, "messages", object .envelope⟩, ⟨2, "memo", text⟩,
      ⟨3, "timeout_height", uint64⟩]⟩
  | .authInfo => ⟨"AuthInfo", [⟨1, "signer_infos", object .signerInfo⟩, ⟨2, "fee", object .fee⟩]⟩
  | .signerInfo => ⟨"SignerInfo", [⟨1, "public_key", object .envelope⟩,
      ⟨2, "mode_info", object .modeInfo⟩, ⟨3, "sequence", uint64⟩]⟩
  | .modeInfo => ⟨"ModeInfo", [⟨1, "sum", object .singleMode⟩, ⟨2, "sum", object .multiMode⟩]⟩
  | .singleMode => ⟨"Single", [⟨1, "mode", int32⟩]⟩
  | .multiMode => ⟨"Multi", [⟨1, "bitarray", object .bitArray⟩, ⟨2, "mode_infos", object .modeInfo⟩]⟩
  | .fee => ⟨"Fee", [⟨1, "amount", object .coin⟩, ⟨2, "gas_limit", uint64⟩, ⟨3, "payer", text⟩,
      ⟨4, "granter", text⟩]⟩
  | .coin => ⟨"Coin", [⟨1, "denom", text⟩, ⟨2, "amount", text⟩]⟩
  | .txResponse => ⟨"TxResponse", [⟨1, "height", int64⟩, ⟨2, "txhash", text⟩, ⟨3, "codespace", text⟩,
      ⟨4, "code", uint32⟩, ⟨6, "raw_log", text⟩, ⟨7, "logs", object .messageLog⟩,
      ⟨9, "gas_wanted", int64⟩, ⟨10, "gas_used", int64⟩, ⟨11, "tx", object .envelope⟩,
      ⟨12, "timestamp", text⟩, ⟨13, "events", object .event⟩]⟩
  | .messageLog => ⟨"AbciMessageLog", [⟨1, "msg_index", uint32⟩, ⟨2, "log", text⟩,
      ⟨3, "events", object .event⟩]⟩
  | .event => ⟨"Event", [⟨1, "r#type", text⟩, ⟨2, "attributes", object .attribute⟩]⟩
  | .attribute => ⟨"EventAttribute", [⟨1, "key", text⟩, ⟨2, "value", text⟩, ⟨3, "index", bool⟩]⟩
  | .envelope => ⟨"MessageEnvelope", [⟨1, "type_url", text⟩, ⟨2, "value", bytes⟩]⟩
  | .publicKey => ⟨"PubKey", [⟨1, "key", bytes⟩]⟩
  | .multisigKey => ⟨"LegacyAminoPubKey", [⟨1, "threshold", uint32⟩,
      ⟨2, "public_keys", object .envelope⟩]⟩
  | .bitArray => ⟨"CompactBitArray", [⟨1, "extra_bits_stored", uint32⟩, ⟨2, "elems", bytes⟩]⟩

end TxLens.Wire

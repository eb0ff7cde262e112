import TxLens.Event.Lookup
import TxLens.Money
/-!
# Outcomes

An outcome is a transaction with the result of its execution, as a node reported it. When the node
leaves out the transaction, the packed copy inside the result is read instead.
-/

namespace TxLens

open Wire

structure Outcome where
  response : TxResponse
  tx : Tx

namespace Outcome

inductive Fault where
  | missingResponse
  | missingTx
  | packedTx (fault : Wire.Fault)
  | report (fault : Wire.Fault)

def Fault.message : Fault → String
  | .missingResponse => "Transaction response is missing"
  | .missingTx => "Transaction body is missing and the response carries no packed transaction"
  | .packedTx fault => "Failed to decode packed transaction: " ++ fault.message
  | .report fault => "Failed to decode GetTxResponse: " ++ fault.message

/-! ## Reading reports -/

def ofReport (report : GetTxResponse) : Except Fault Outcome :=
  match report.txResponse with
  | none => .error .missingResponse
  | some response =>
    match report.tx, response.tx with
    | some tx, _ => .ok ⟨response, tx⟩
    | none, none => .error .missingTx
    | none, some packed =>
      match packed.unpack Tx with
      | .error f => .error (.packedTx f)
      | .ok tx => .ok ⟨response, tx⟩

def ofBytes (bs : Bytes) : Except Fault Outcome :=
  match Object.decode GetTxResponse bs with
  | .error f => .error (.report f)
  | .ok report => ofReport report

/-! ## The result -/

/-- The block height; a negative one reads as zero. -/
def height (o : Outcome) : Nat := o.response.height.toInt.toNat

/-- The gas asked for; a negative amount reads as zero. -/
def gasWanted (o : Outcome) : Nat := o.response.gasWanted.toInt.toNat

def isSuccess (o : Outcome) : Bool := o.response.code == 0

/-- The codespaces and codes of rejections that come before any fee is charged. -/
def noChargeRejections : List (String × UInt32) := [("sdk", 8), ("sdk", 32)]

def isNoChargeRejection (o : Outcome) : Bool :=
  noChargeRejections.contains (o.response.codespace, o.response.code)

def events (o : Outcome) : List Event := o.response.events

/-! ## The transaction -/

def messages (o : Outcome) : List Envelope := (o.tx.body.map TxBody.messages).getD []

def memo (o : Outcome) : String := (o.tx.body.map TxBody.memo).getD ""

def signerInfos (o : Outcome) : List SignerInfo := (o.tx.authInfo.map AuthInfo.signerInfos).getD []

/-- The coins that the payer offered as a fee. -/
def declaredFee (o : Outcome) : List Coin :=
  ((o.tx.authInfo.bind AuthInfo.fee).map FeeOffer.amount).getD []

/-- The sum of the declared coins of one denomination; an amount that cannot be read counts as
zero. -/
def declaredTotal (o : Outcome) (denom : String) : Nat :=
  ((o.declaredFee.filter fun c => c.denom == denom).map fun c =>
    (Amount.ofText? c.amount).getD 0).foldl Amount.add 0

/-! ## Transaction-level events -/

/-- The type of the events that concern the transaction as a whole. -/
def txEvent : String := "tx"

/-- The address of the first signer with its sequence number, separated by a slash. -/
def accountSequenceKey : String := "acc_seq"

/-- The address before the slash, unless it is empty. -/
def accountSequenceAddress? (o : Outcome) : Option String :=
  ((Events.find? o.events txEvent accountSequenceKey none).map fun v =>
    String.ofList (v.toList.takeWhile (· != '/'))).filter (· != "")

end Outcome

end TxLens

import TxLens.Event.Accounts
import TxLens.Fee.Memo
import TxLens.Fee.Resolution
import TxLens.Fee.Surcharge
import TxLens.Signature
import TxLens.Signer.Catalog
/-!
# Summaries

A summary is all that is said about one transaction: who signed which message, which accounts were
touched, which surcharges were charged and what was paid. Those of a batch share one memory of the
fee schedule; a transaction that cannot be summarised disturbs no other.
-/

namespace TxLens

structure Summary where
  height : Nat
  txhash : String
  success : Bool
  messageTypes : List MessageType
  /-- The signers of each message, in message order. -/
  messageSigners : List (List String)
  addresses : List String
  firstSigner : Option String
  signatures : List SignatureRecord
  surcharges : List Surcharge
  resolution : Resolution
  deriving DecidableEq

namespace Summary

/-- Why a transaction cannot be summarised. -/
inductive Fault where
  | signer (fault : SignerFault)
  | surcharge (fault : Surcharge.Fault)

/-! ## One transaction -/

/-- The signers of each message, or the fault of the first one at fault. -/
def signersOfMessages (r : Registry SignerRule) (o : Outcome) :
    Except SignerFault (List (List String)) :=
  o.messages.mapM r.signersOf

/-- What is left to say once signers, surcharges and the fee are known. -/
def assemble (c : Config) (o : Outcome) (signers : List (List String)) (surcharges : List Surcharge)
    (resolution : Resolution) : Summary :=
  { height := o.height
    txhash := o.response.txhash
    success := o.isSuccess
    messageTypes := o.messages.map fun e => MessageType.ofTypeUrl e.typeUrl
    messageSigners := signers
    addresses := Events.touched signers.flatten o.events
    firstSigner := o.firstSigner? c.labels.account
    signatures := o.signatures c.labels.account
    surcharges
    resolution }

/-- Summarises a transaction. Signers are found first, so a fault in a message hides one in the list
of surcharges. -/
def ofOutcome {m : Type → Type} [Monad m] (r : Registry SignerRule) (c : Config)
    (lookup : FeeLookup m) (o : Outcome) : m (Except Fault Summary) :=
  match signersOfMessages r o with
  | .error f => pure (.error (.signer f))
  | .ok signers => do
    match ← Surcharge.identify lookup o o.height with
    | .error f => pure (.error (.surcharge f))
    | .ok surcharges =>
      let resolution ← resolveFee c.fees lookup o !surcharges.isEmpty
      pure (.ok (assemble c o signers surcharges resolution))

/-! ## Batches -/

/-- Summarises every transaction of a batch, in order, remembering what the schedule says. -/
def ofBatch (r : Registry SignerRule) (c : Config) (s : FeeSchedule) (os : List Outcome) :
    List (Except Fault Summary) :=
  (Id.run ((os.mapM (ofOutcome r c (Memo.lookup s.lookup))).run Memo.empty)).1

/-! ## JSON -/

def messageTypeToJson (t : MessageType) : Json :=
  .ofMembers [("type_url", .ofText t.typeUrl), ("module", .ofText t.moduleName),
    ("action", .ofText t.action)]

def textsToJson (texts : List String) : Json := .list (texts.map .ofText)

def textToJson? (s : Option String) : Json := .ofOption (s.map .ofText)

def memberToJson (member : MultisigMember) : Json :=
  .ofMembers [("index", .natural member.index), ("key_type", .ofText member.keyType),
    ("address", textToJson? member.address), ("signed", .bool member.signed)]

def breakdownToJson (b : MultisigBreakdown) : Json :=
  .ofMembers [("threshold", .natural b.threshold.toNat),
    ("composite_address", .ofText b.compositeAddress),
    ("members", .list (b.members.map memberToJson))]

def signatureToJson (s : SignatureRecord) : Json :=
  .ofMembers [("index", .natural s.index), ("key_type", .ofText s.keyType),
    ("address", textToJson? s.address), ("base64_key", textToJson? s.base64Key),
    ("sequence", .natural s.sequence.toNat),
    ("multisig", .ofOption (s.multisig.map breakdownToJson))]

def customFeeToJson (f : CustomFee) : Json :=
  .ofMembers [("name", .ofText f.name), ("amount", .natural f.amount), ("denom", .ofText f.denom),
    ("recipient", .ofText f.recipient)]

def surchargeToJson (s : Surcharge) : Json :=
  .ofMembers [("msg_type_url", .ofText s.typeUrl), ("msg_type", .ofText s.typeName),
    ("amount", .natural s.amount), ("denom", .ofText s.denom),
    ("recipient", textToJson? s.recipient),
    ("custom_fees", .list (s.customFees.map customFeeToJson))]

def moneyToJson (money : Money) : Json :=
  .ofMembers [("amount", .natural money.amount), ("denom", .ofText money.denom)]

def toJson (s : Summary) : Json :=
  .ofMembers [("height", .natural s.height),
    ("txhash", .ofText s.txhash),
    ("success", .bool s.success),
    ("message_types", .list (s.messageTypes.map messageTypeToJson)),
    ("message_signers", .list (s.messageSigners.map textsToJson)),
    ("addresses", textsToJson s.addresses),
    ("first_signer", textToJson? s.firstSigner),
    ("signatures", .list (s.signatures.map signatureToJson)),
    ("msg_based_fees", .list (s.surcharges.map surchargeToJson)),
    ("fee", moneyToJson s.resolution.fee),
    ("fee_source", .ofText s.resolution.source.name)]

end Summary

end TxLens

import TxLens.Proofs.Json.Record
import TxLens.Summary
/-!
# Reading summaries

Whatever a summary says stands in its JSON under a name. Here it is read by these names, wherever they
stand, and what is read is the summary that was written (`ofJson?_toJson`). So nothing that a summary
says is lost, neither in its JSON nor in the text of a list of them (`listOfText?_of_parse`).
-/

namespace TxLens

namespace Json

/-! ## Values -/

def natural? : Json → Option Nat
  | .natural n => some n
  | _ => none

def bool? : Json → Option Bool
  | .bool b => some b
  | _ => none

/-- What stands under a name in an object in which it stands once. -/
def under? {α : Type} (name : String) (read : Json → Option α) : Json → Option α
  | .object ms =>
    match ms.filter fun m => m.1 == some name with
    | [m] => read m.2
    | _ => none
  | _ => none

theorem nullable?_ofOption_map {α : Type} {read : Json → Option α} {toJson : α → Json}
    (hnull : ∀ a, toJson a ≠ .null) (hread : ∀ a, read (toJson a) = some a) (a : Option α) :
    nullable? read (.ofOption (a.map toJson)) = some a := by
  cases a with
  | none => rfl
  | some a =>
    rw [Option.map_some, ofOption, nullable?, hread]
    · rfl
    · exact hnull a

theorem list?_map {α : Type} {read : Json → Option α} {toJson : α → Json}
    (hread : ∀ a, read (toJson a) = some a) (as : List α) :
    list? read (.list (as.map toJson)) = some as := by
  have hwrites : WritesList (fun a j => toJson a = j) as (.list (as.map toJson)) :=
    @writesList_map _ (fun a j => toJson a = j) toJson (fun _ => rfl) as
  exact list?_of_writesList (fun a _ j (hj : toJson a = j) => hj ▸ hread a) hwrites

end Json

namespace Summary

open Json

/-! ## Parts of a summary -/

def textsOfJson? (j : Json) : Option (List String) := list? text? j

theorem textsOfJson?_textsToJson (texts : List String) :
    textsOfJson? (textsToJson texts) = some texts :=
  list?_map text?_ofText texts

theorem nullable?_textToJson? (s : Option String) : nullable? text? (textToJson? s) = some s :=
  nullable?_ofOption_map nofun text?_ofText s

def messageTypeOfJson? (j : Json) : Option MessageType := do
  let typeUrl ← under? "type_url" text? j
  let moduleName ← under? "module" text? j
  let action ← under? "action" text? j
  pure ⟨typeUrl, moduleName, action⟩

theorem messageTypeOfJson?_messageTypeToJson (t : MessageType) :
    messageTypeOfJson? (messageTypeToJson t) = some t := rfl

def memberOfJson? (j : Json) : Option MultisigMember := do
  let index ← under? "index" natural? j
  let keyType ← under? "key_type" text? j
  let address ← under? "address" (nullable? text?) j
  let signed ← under? "signed" bool? j
  pure ⟨index, keyType, address, signed⟩

theorem memberOfJson?_memberToJson (m : MultisigMember) :
    memberOfJson? (memberToJson m) = some m := by
  simp [memberOfJson?, memberToJson, ofMembers, under?, natural?, bool?, text?_ofText,
    nullable?_textToJson?]

def breakdownOfJson? (j : Json) : Option MultisigBreakdown := do
  let threshold ← under? "threshold" natural? j
  let compositeAddress ← under? "composite_address" text? j
  let members ← under? "members" (list? memberOfJson?) j
  pure ⟨.ofNat threshold, compositeAddress, members⟩

theorem breakdownOfJson?_breakdownToJson (b : MultisigBreakdown) :
    breakdownOfJson? (breakdownToJson b) = some b := by
  simp [breakdownOfJson?, breakdownToJson, ofMembers, under?, natural?, text?_ofText,
    list?_map memberOfJson?_memberToJson]

def signatureOfJson? (j : Json) : Option SignatureRecord := do
  let index ← under? "index" natural? j
  let keyType ← under? "key_type" text? j
  let address ← under? "address" (nullable? text?) j
  let base64Key ← under? "base64_key" (nullable? text?) j
  let sequence ← under? "sequence" natural? j
  let multisig ← under? "multisig" (nullable? breakdownOfJson?) j
  pure ⟨index, keyType, address, base64Key, .ofNat sequence, multisig⟩

theorem signatureOfJson?_signatureToJson (s : SignatureRecord) :
    signatureOfJson? (signatureToJson s) = some s := by
  have hmultisig := nullable?_ofOption_map nofun breakdownOfJson?_breakdownToJson s.multisig
  simp [signatureOfJson?, signatureToJson, ofMembers, under?, natural?, text?_ofText,
    nullable?_textToJson?, hmultisig]

def customFeeOfJson? (j : Json) : Option CustomFee := do
  let name ← under? "name" text? j
  let amount ← under? "amount" natural? j
  let denom ← under? "denom" text? j
  let recipient ← under? "recipient" text? j
  pure ⟨name, amount, denom, recipient⟩

theorem customFeeOfJson?_customFeeToJson (f : CustomFee) :
    customFeeOfJson? (customFeeToJson f) = some f := rfl

def surchargeOfJson? (j : Json) : Option Surcharge := do
  let typeUrl ← under? "msg_type_url" text? j
  let typeName ← under? "msg_type" text? j
  let amount ← under? "amount" natural? j
  let denom ← under? "denom" text? j
  let recipient ← under? "recipient" (nullable? text?) j
  let customFees ← under? "custom_fees" (list? customFeeOfJson?) j
  pure ⟨typeUrl, typeName, amount, denom, recipient, customFees⟩

theorem surchargeOfJson?_surchargeToJson (s : Surcharge) :
    surchargeOfJson? (surchargeToJson s) = some s := by
  simp [surchargeOfJson?, surchargeToJson, ofMembers, under?, natural?, text?_ofText,
    nullable?_textToJson?, list?_map customFeeOfJson?_customFeeToJson]

def moneyOfJson? (j : Json) : Option Money := do
  let amount ← under? "amount" natural? j
  let denom ← under? "denom" text? j
  pure ⟨amount, denom⟩

theorem moneyOfJson?_moneyToJson (m : Money) : moneyOfJson? (moneyToJson m) = some m := rfl

/-- The source of a fee that has this name. -/
def sourceOfName? (name : String) : Option FeeSource :=
  [.bugWindowDefault, .baseFeeEvent, .feeEvent, .declaredFee, .minFeeChargedEvent, .coinSpentEvent,
    .noChargeRejection, .cappedDefault].find? fun source => source.name == name

theorem sourceOfName?_name (source : FeeSource) : sourceOfName? source.name = some source := by
  cases source <;> rfl

/-! ## The whole summary -/

def ofJson? (j : Json) : Option Summary := do
  let height ← under? "height" natural? j
  let txhash ← under? "txhash" text? j
  let success ← under? "success" bool? j
  let messageTypes ← under? "message_types" (list? messageTypeOfJson?) j
  let messageSigners ← under? "message_signers" (list? textsOfJson?) j
  let addresses ← under? "addresses" textsOfJson? j
  let firstSigner ← under? "first_signer" (nullable? text?) j
  let signatures ← under? "signatures" (list? signatureOfJson?) j
  let surcharges ← under? "msg_based_fees" (list? surchargeOfJson?) j
  let fee ← under? "fee" moneyOfJson? j
  let source ← (under? "fee_source" text? j).bind sourceOfName?
  pure ⟨height, txhash, success, messageTypes, messageSigners, addresses, firstSigner, signatures,
    surcharges, ⟨fee, source⟩⟩

/-- A summary is read back from its JSON. -/
theorem ofJson?_toJson (x : Summary) : ofJson? x.toJson = some x := by
  simp [ofJson?, toJson, ofMembers, under?, natural?, bool?, text?_ofText,
    list?_map messageTypeOfJson?_messageTypeToJson, list?_map textsOfJson?_textsToJson,
    textsOfJson?_textsToJson, nullable?_textToJson?, list?_map signatureOfJson?_signatureToJson,
    list?_map surchargeOfJson?_surchargeToJson, moneyOfJson?_moneyToJson, sourceOfName?_name]

/-- The summaries that a text lists. -/
def listOfText? (s : String) : Option (List Summary) := (parse? s.toList).bind (list? ofJson?)

/-- Summaries are read back from the text of their list. -/
theorem listOfText?_of_parse {s : String} {xs : List Summary}
    (h : parse? s.toList = some (.list (xs.map toJson))) : listOfText? s = some xs := by
  rw [listOfText?, h, Option.bind_some, list?_map ofJson?_toJson]

end Summary

end TxLens

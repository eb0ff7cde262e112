import TxLens.Fee.Schedule
import TxLens.Json.Parser
import TxLens.MessageType
import TxLens.Outcome
/-!
# Surcharges on messages

Newer chain versions list the surcharges of a transaction in an event. For older transactions they
are worked out from the schedule: every action that a message type is charged for leaves one
attribute on an event of its own type.
-/

namespace TxLens

/-- A fee that a caller set, with its name. -/
structure CustomFee where
  name : String
  amount : Nat
  denom : String
  recipient : String
  deriving DecidableEq

/-- What one message type was charged. -/
structure Surcharge where
  typeUrl : String
  typeName : String
  amount : Nat
  denom : String
  recipient : Option String
  customFees : List CustomFee
  deriving DecidableEq

/-! ## Fees set by callers -/

namespace CustomFee

/-- The event that each such fee leaves. -/
def event : String := "assess_custom_msg_fee"

/-- The fees on one event. Names, amounts and recipients belong together by position; one without
its partners or with an unreadable amount is left out. -/
def ofEvent (e : Event) : List CustomFee :=
  let triples := (e.attributeValues "name").zip
    ((e.attributeValues "amount").zip (e.attributeValues "recipient"))
  triples.filterMap fun (name, amount, recipient) =>
    (Money.ofText? amount).map fun money => ⟨name, money.amount, money.denom, recipient⟩

def ofEvents (es : List Event) : List CustomFee :=
  (Events.ofTypes es [event]).flatMap ofEvent

/-- The fees set by callers for one recipient. -/
def forRecipient (es : List Event) (recipient : String) : List CustomFee :=
  (ofEvents es).filter fun f => f.recipient == recipient

end CustomFee

namespace Surcharge

inductive Fault where
  | malformedList

/-! ## Names of events and types -/

/-- The event that lists the surcharges, and its attribute that holds the list. -/
def listEvent : String := "provenance.msgfees.v1.EventMsgFees"

def listKey : String := "msg_fees"

/-- The message that charges a fee set by the caller. -/
def customTypeUrl : String := "/provenance.msgfees.v1.MsgAssessCustomMsgFeeRequest"

def customTypeName : String := "custom_fee"

/-- A message type that is charged for, the event that its actions leave, and the key of which the
event carries one attribute for each action. -/
structure ChargedType where
  typeUrl : String
  event : String
  key : String

def chargedTypes : List ChargedType :=
  [⟨"/provenance.attribute.v1.MsgAddAttributeRequest", "provenance.attribute.v1.EventAttributeAdd",
     "account"⟩,
   ⟨"/provenance.metadata.v1.MsgWriteScopeRequest", "provenance.metadata.v1.EventScopeCreated",
     "scope_addr"⟩,
   ⟨"/provenance.name.v1.MsgBindNameRequest", "provenance.name.v1.EventNameBound", "address"⟩,
   ⟨"/cosmos.gov.v1beta1.MsgSubmitProposal", "submit_proposal", "proposal_id"⟩,
   ⟨"/provenance.marker.v1.MsgAddMarkerRequest", "provenance.marker.v1.EventMarkerAdd", "denom"⟩]

/-- The action of a message type; fees set by callers and those of no type share a name. -/
def typeNameOf (typeUrl : String) : String :=
  if typeUrl = customTypeUrl ∨ typeUrl = "" then customTypeName
  else (MessageType.ofTypeUrl typeUrl).action

/-! ## From the event that lists them -/

/-- One element of the list. -/
structure Listed where
  typeUrl : String
  total : String
  recipient : String
  deriving DecidableEq

open Json in
def Listed.ofJson? (j : Json) : Option Listed := do
  let r ← record? ["msg_type", "total", "recipient"] j
  let typeUrl ← defaulted r "msg_type" text? ""
  let total ← defaulted r "total" text? ""
  let recipient ← defaulted r "recipient" text? ""
  pure ⟨typeUrl, total, recipient⟩

/-- The surcharge that an element of the list reports; an unreadable total is nothing of no
denomination. -/
def ofListed (es : List Event) (l : Listed) : Surcharge :=
  let money := (Money.ofText? l.total).getD ⟨0, ""⟩
  { typeUrl := l.typeUrl
    typeName := typeNameOf l.typeUrl
    amount := money.amount
    denom := money.denom
    recipient := if l.recipient = "" then none else some l.recipient
    customFees := if l.typeUrl = customTypeUrl then CustomFee.forRecipient es l.recipient else [] }

/-- The surcharges that a list in JSON reports. -/
def ofList (es : List Event) (list : String) : Except Fault (List Surcharge) :=
  match (Json.parse? list.toList).bind (Json.list? Listed.ofJson?) with
  | none => .error .malformedList
  | some ls => .ok (ls.map (ofListed es))

/-! ## From the schedule -/

/-- What one event adds: the type it charges for, the scheduled fee, and how many actions it
records. -/
def chargeOf? (fees : List ScheduledFee) (e : Event) : Option (ScheduledFee × Nat) :=
  match chargedTypes.find? fun t => t.event == e.type with
  | none => none
  | some t =>
    match fees.find? fun f => f.typeUrl == t.typeUrl with
    | none => none
    | some fee => some (fee, (e.attributes.filter fun a => a.key == t.key).length)

/-- Adds an amount to the surcharge of a type, or begins one at the end. -/
def addTo : List Surcharge → ScheduledFee → Nat → List Surcharge
  | [], fee, amount => [⟨fee.typeUrl, typeNameOf fee.typeUrl, amount, fee.denom, none, []⟩]
  | s :: ss, fee, amount =>
    if s.typeUrl = fee.typeUrl then { s with amount := Amount.add s.amount amount } :: ss
    else s :: addTo ss fee amount

/-- The scheduled fees times the actions recorded, by type in the order of the first event. -/
def ofSchedule (es : List Event) (fees : List ScheduledFee) : List Surcharge :=
  (es.filterMap (chargeOf? fees)).foldl (fun ss (fee, n) => addTo ss fee (Amount.mul fee.amount n)) []

/-! ## Either way -/

/-- The list that the first event with one carries, without quotes. -/
def list? (o : Outcome) : Option String := Events.find? o.events listEvent listKey none

/-- The surcharges of a transaction. The schedule is asked only if no event lists them. -/
def identify {m : Type → Type} [Monad m] (lookup : FeeLookup m) (o : Outcome) (height : Nat) :
    m (Except Fault (List Surcharge)) :=
  match list? o with
  | some list => pure (ofList o.events list)
  | none => do
    let fees ← lookup.fees height
    pure (.ok (ofSchedule o.events fees))

end Surcharge

end TxLens

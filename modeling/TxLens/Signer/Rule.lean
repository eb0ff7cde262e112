import TxLens.Signer.Registry
/-!
# Who signs a message

A rule says where a message of some type names the addresses that signed or authorised it, and which
fields hold further messages whose signers count as well. Messages inside messages are followed to a
fixed depth. The signers come in the order of the rule, with repetitions.
-/

namespace TxLens

open Wire

/-! ## Where addresses stand -/

/-- Where in a message addresses stand. A sub-message that is absent reads as an empty one. -/
inductive AddressSource where
  | one (field : Nat)
  | each (field : Nat)
  | inside (field : Nat) (source : AddressSource)
  | insideEach (field : Nat) (source : AddressSource)

/-- The addresses at a source, in the order in which they were written. -/
def AddressSource.read : AddressSource → Message → List String
  | .one n, m => [m.text n]
  | .each n, m => m.texts n
  | .inside n source, m => source.read (m.submessage n)
  | .insideEach n source, m => (m.messages n).flatMap source.read

/-- One part of a rule: addresses of the message itself, or the signers of messages embedded in it. -/
inductive RulePart where
  | addresses (source : AddressSource)
  | embedded (field : Nat)

/-- The circumstances under which a message is looked at: how many messages it is embedded in, and
how many types are registered. -/
structure Visit where
  depth : Nat
  registered : Nat

/-- How the signers of a message are found. A custom rule does not look at the content. -/
inductive SignerRule where
  | payload (layout : Layout) (parts : List RulePart)
  | custom (signers : Visit → List String)

inductive SignerFault where
  | decode (typeUrl : String) (fault : Wire.Fault)
  | nestingTooDeep (typeUrl : String)

/-- The deepest level of embedded messages that is followed. -/
def depthLimit : Nat := 100

def SignerFault.message : SignerFault → String
  | .decode typeUrl fault => "Failed to decode " ++ typeUrl ++ ": " ++ fault.message
  | .nestingTooDeep typeUrl =>
    typeUrl ++ " is embedded more than " ++ Text.numeralText depthLimit ++ " messages deep"

/-! ## Following embedded messages -/

/-- All results in order, or the first fault. -/
def collect {ε α β : Type} (f : α → Except ε (List β)) : List α → Except ε (List β)
  | [] => .ok []
  | a :: as =>
    match f a with
    | .error e => .error e
    | .ok bs =>
      match collect f as with
      | .error e => .error e
      | .ok cs => .ok (bs ++ cs)

/-- The messages that a field holds. -/
def embeddedIn (field : Nat) (m : Message) : List Envelope := Object.subs field m

/-- The contribution of one part, where `inner` gives the signers of an embedded message. -/
def RulePart.signers (inner : Envelope → Except SignerFault (List String)) (m : Message) :
    RulePart → Except SignerFault (List String)
  | .addresses source => .ok (source.read m)
  | .embedded field => collect inner (embeddedIn field m)

def SignerRule.signers (rule : SignerRule) (visit : Visit)
    (inner : Envelope → Except SignerFault (List String)) (e : Envelope) :
    Except SignerFault (List String) :=
  match rule with
  | .custom signers => .ok (signers visit)
  | .payload layout parts =>
    match layout.decode e.value with
    | .error f => .error (.decode e.typeUrl f)
    | .ok m => collect (RulePart.signers inner m) parts

namespace Registry

/-- The signers of a message that may have `levels - 1` levels of messages below it. Types without a
rule have no signers. -/
def signersAt (r : Registry SignerRule) : (levels : Nat) → Envelope → Except SignerFault (List String)
  | 0, e => .error (.nestingTooDeep e.typeUrl)
  | levels + 1, e =>
    match r.lookup? e.typeUrl with
    | none => .ok []
    | some rule => rule.signers ⟨depthLimit - levels, r.size⟩ (signersAt r levels) e

/-- The signers of a transaction's own message. -/
def signersOf (r : Registry SignerRule) (e : Envelope) : Except SignerFault (List String) :=
  r.signersAt (depthLimit + 1) e

/-- The signers of messages that are embedded in a transaction's own message. -/
def signersOfEmbedded (r : Registry SignerRule) (es : List Envelope) :
    Except SignerFault (List String) :=
  collect (r.signersAt depthLimit) es

end Registry

end TxLens

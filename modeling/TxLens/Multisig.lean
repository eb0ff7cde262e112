import TxLens.Key
/-!
# Who signed for a multisig account

A multisig key is broken down into its members, with the address of each and whether its slot in the
bit array is set. A member whose key cannot be used has no address; it does not spoil the others.
-/

namespace TxLens

structure MultisigMember where
  index : Nat
  keyType : String
  address : Option String
  signed : Bool
  deriving DecidableEq

structure MultisigBreakdown where
  threshold : UInt32
  compositeAddress : String
  members : List MultisigMember
  deriving DecidableEq

namespace MultisigBreakdown

/-- The addresses of the members that signed, in order. -/
def signingAddresses (b : MultisigBreakdown) : List String :=
  (b.members.filter MultisigMember.signed).filterMap MultisigMember.address

def signatureCount (b : MultisigBreakdown) : Nat := (b.members.filter MultisigMember.signed).length

def thresholdMet (b : MultisigBreakdown) : Bool := b.threshold.toNat ≤ b.signatureCount

end MultisigBreakdown

/-- The account address of the key in an envelope, if it holds a usable key. -/
def PublicKey.addressOf? (e : Envelope) (hrp : String) : Option String :=
  match PublicKey.ofEnvelope? e with
  | .ok (some k) => (k.accountAddress hrp).toOption
  | _ => none

namespace MultisigKey

/-- One member slot. -/
def member (hrp : String) (bits : Option BitArray) (index : Nat) (e : Envelope) : MultisigMember :=
  { index
    keyType := ((KeyFamily.ofTypeUrl? e.typeUrl).map KeyFamily.label).getD e.typeUrl
    address := PublicKey.addressOf? e hrp
    signed := bits.any fun a => a.get index }

/-- The members and who of them signed; without bits nobody did. -/
def breakdown (k : MultisigKey) (hrp : String) (bits : Option BitArray) :
    Except Address.Fault MultisigBreakdown :=
  (k.compositeAddress hrp).render.map fun address =>
    { threshold := k.threshold
      compositeAddress := address
      members := k.members.zipIdx.map fun (e, i) => member hrp bits i e }

end MultisigKey

end TxLens

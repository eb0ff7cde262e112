import TxLens.Multisig
import TxLens.Outcome
/-!
# Signatures

Every signer of a transaction whose key is given and usable leaves a record: the address of its
account and, for a multisig account, which members signed.
-/

namespace TxLens

structure SignatureRecord where
  index : Nat
  keyType : String
  address : Option String
  base64Key : Option String
  sequence : UInt64
  multisig : Option MultisigBreakdown
  deriving DecidableEq

namespace SignerInfo

/-- The signer's key, if it is given, supported and readable. -/
def key? (s : SignerInfo) : Option PublicKey :=
  match s.publicKey with
  | none => none
  | some e =>
    match PublicKey.ofEnvelope? e with
    | .ok k => k
    | .error _ => none

/-- Who signed for a multisig account. -/
def breakdown? (s : SignerInfo) (hrp : String) : PublicKey → Option MultisigBreakdown
  | .multisig k => (k.breakdown hrp s.signedBits?).toOption
  | _ => none

end SignerInfo

namespace SignatureRecord

def ofKey (hrp : String) (index : Nat) (s : SignerInfo) (k : PublicKey) : SignatureRecord :=
  { index
    keyType := k.family.label
    address := (k.accountAddress hrp).toOption
    base64Key := k.base64?
    sequence := s.sequence
    multisig := s.breakdown? hrp k }

/-- The record of one signer. -/
def ofSigner? (hrp : String) (index : Nat) (s : SignerInfo) : Option SignatureRecord :=
  s.key?.map (ofKey hrp index s)

end SignatureRecord

namespace Outcome

/-- The records of all signers that leave one. -/
def signatures (o : Outcome) (hrp : String) : List SignatureRecord :=
  o.signerInfos.zipIdx.filterMap fun (s, i) => SignatureRecord.ofSigner? hrp i s

/-- The account address of the first signer, or the one that the transaction's events name. -/
def firstSigner? (o : Outcome) (hrp : String) : Option String :=
  let own := (o.signerInfos.head?.bind SignerInfo.key?).bind fun k => (k.accountAddress hrp).toOption
  match own with
  | some a => some a
  | none => o.accountSequenceAddress?

/-- The addresses that signed for one signer: the members of a multisig key that did, or its own. -/
def addressesOf (hrp : String) (s : SignerInfo) : List String :=
  match s.key? with
  | none => []
  | some (.multisig k) =>
    match k.breakdown hrp s.signedBits? with
    | .ok b => b.signingAddresses
    | .error _ => []
  | some k => (k.signerAddress hrp).toOption.toList

/-- The addresses that actually signed. -/
def signerAddresses (o : Outcome) (hrp : String) : List String :=
  o.signerInfos.flatMap (addressesOf hrp)

end Outcome

end TxLens

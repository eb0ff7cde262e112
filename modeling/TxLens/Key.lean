import TxLens.Address
import TxLens.BitArray
import TxLens.Bytes.Base64
import TxLens.Digest
import TxLens.Envelope
import TxLens.Text.Split
/-!
# Public keys

Each family of keys has its own way to an identifier: RIPEMD-160 of SHA-256 for `secp256k1`, SHA-256
over the hashed type and the key for `secp256r1`, a truncated SHA-256 for `ed25519`. A multisig key
signs for no address of its own, but the account it controls has one: a truncated SHA-256 of the
encoded key.
-/

namespace TxLens

open Wire

/-! ## Families -/

inductive KeyFamily where
  | secp256k1
  | secp256r1
  | ed25519
  | multisig
  deriving DecidableEq

namespace KeyFamily

def label : KeyFamily → String
  | .secp256k1 => "secp256k1"
  | .secp256r1 => "secp256r1"
  | .ed25519 => "ed25519"
  | .multisig => "LegacyAminoPubKey"

def all : List KeyFamily := [.secp256k1, .secp256r1, .ed25519, .multisig]

/-- The first family whose label stands in the type URL. -/
def ofTypeUrl? (typeUrl : String) : Option KeyFamily :=
  all.find? fun f => Text.contains f.label.toList typeUrl.toList

end KeyFamily

/-! ## Encoded keys -/

/-- The encoding that the single-key families share. -/
structure KeyBytes where
  key : Bytes

instance : Object KeyBytes where
  type := .publicKey
  ofMessage m := ⟨m.byteString 1⟩
  toMessage k := .ofByteString 1 k.key

/-- Several keys of which a number must sign. -/
structure MultisigKey where
  threshold : UInt32
  members : List Envelope
  deriving DecidableEq

instance : Object MultisigKey where
  type := .multisigKey
  ofMessage m := ⟨(m.word 1).toUInt32, Object.subs 2 m⟩
  toMessage k := .ofWord 1 k.threshold.toUInt64 ++ Object.ofSubs 2 k.members

/-- A `secp256r1` key comes with its declared type, which goes into its identifier as it stands. -/
inductive PublicKey where
  | secp256k1 (key : Bytes)
  | secp256r1 (key : Bytes) (typeId : String)
  | ed25519 (key : Bytes)
  | multisig (key : MultisigKey)
  deriving DecidableEq

/-! ## Faults -/

/-- What is wrong with the bytes of a key. -/
inductive KeyDefect where
  | length (expected found : Nat)
  | firstByte (found : Nat)

def KeyDefect.message : KeyDefect → String
  | .length expected found =>
    "length must be " ++ Text.numeralText expected ++ " not " ++ Text.numeralText found
  | .firstByte found => "first byte must be 2 or 3 not " ++ Text.numeralText found

inductive KeyFault where
  | invalidEncoding (family : KeyFamily) (defect : KeyDefect)
  | composite
  | decode (typeUrl : String) (fault : Wire.Fault)
  | address (fault : Address.Fault)

def KeyFault.message : KeyFault → String
  | .invalidEncoding family defect =>
    "Invalid " ++ family.label ++ " key encoding: " ++ defect.message
  | .composite => "Composite multisig key has no single signer address"
  | .decode typeUrl fault => "Failed to decode public key " ++ typeUrl ++ ": " ++ fault.message
  | .address fault => fault.message

/-! ## Multisig accounts -/

/-- The address of the account that a multisig key controls. -/
def MultisigKey.compositeAddress (k : MultisigKey) (hrp : String) : Address :=
  ⟨hrp, Digest.truncated (Object.encode k)⟩

namespace PublicKey

/-! ## Reading keys -/

/-- The type that an envelope declares, without its leading slash. -/
def typeIdOf (typeUrl : String) : String :=
  match typeUrl.toList with
  | '/' :: cs => String.ofList cs
  | _ => typeUrl

/-- The key in an envelope; none if its type is of no supported family. -/
def ofEnvelope? (e : Envelope) : Except KeyFault (Option PublicKey) :=
  match KeyFamily.ofTypeUrl? e.typeUrl with
  | none => .ok none
  | some .multisig =>
    match e.unpack MultisigKey with
    | .error f => .error (.decode e.typeUrl f)
    | .ok k => .ok (some (.multisig k))
  | some family =>
    match e.unpack KeyBytes with
    | .error f => .error (.decode e.typeUrl f)
    | .ok k => .ok (some (match family with
        | .secp256r1 => .secp256r1 k.key (typeIdOf e.typeUrl)
        | .ed25519 => .ed25519 k.key
        | _ => .secp256k1 k.key))

def family : PublicKey → KeyFamily
  | .secp256k1 _ => .secp256k1
  | .secp256r1 _ _ => .secp256r1
  | .ed25519 _ => .ed25519
  | .multisig _ => .multisig

/-- The bytes of a single key. -/
def bytes? : PublicKey → Option Bytes
  | .secp256k1 key | .secp256r1 key _ | .ed25519 key => some key
  | .multisig _ => none

def base64? (k : PublicKey) : Option String := k.bytes?.map Bytes.toBase64

/-! ## Identifiers and addresses -/

/-- The identifier that a single key signs for. -/
def identifier : PublicKey → Except KeyFault Bytes
  | .secp256k1 key =>
    if key.length ≠ 33 then .error (.invalidEncoding .secp256k1 (.length 33 key.length))
    else if key.headD 0 = 2 ∨ key.headD 0 = 3 then .ok (Digest.hash160 key)
    else .error (.invalidEncoding .secp256k1 (.firstByte (key.headD 0).toNat))
  | .secp256r1 key typeId => .ok (Digest.sha256 (Digest.sha256 (Bytes.ofText typeId) ++ key))
  | .ed25519 key =>
    if key.length ≠ 32 then .error (.invalidEncoding .ed25519 (.length 32 key.length))
    else .ok (Digest.truncated key)
  | .multisig _ => .error .composite

/-- The address that a single key signs for. -/
def derive (k : PublicKey) (hrp : String) : Except KeyFault Address :=
  k.identifier.map fun raw => ⟨hrp, raw⟩

def renderAddress (a : Address) : Except KeyFault String := a.render.mapError .address

/-- The text of the address that a single key signs for. -/
def signerAddress (k : PublicKey) (hrp : String) : Except KeyFault String :=
  match k.derive hrp with
  | .error e => .error e
  | .ok a => renderAddress a

/-- The text of the address of the account that holds this key. -/
def accountAddress (k : PublicKey) (hrp : String) : Except KeyFault String :=
  match k with
  | .multisig key => renderAddress (key.compositeAddress hrp)
  | single => single.signerAddress hrp

end PublicKey

end TxLens

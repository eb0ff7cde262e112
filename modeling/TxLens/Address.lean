import TxLens.Bech32
import TxLens.Text.Decimal
import TxLens.Text.Quoted
/-!
# Addresses

An address is a raw identifier of 20 or 32 bytes under a human-readable label. One identifier has
three renderings on a network, an account's, a validator operator's and a validator consensus key's,
which differ in the label only.
-/

namespace TxLens

/-- A raw identifier and the label it is rendered under. -/
structure Address where
  hrp : String
  raw : Bytes
  deriving DecidableEq

namespace Address

/-- Why a text is no address. -/
inductive Malformation where
  | encoding (fault : Bech32.Fault)
  | otherChecksum
  | payloadLength (bytes : Nat)

def Malformation.message : Malformation → String
  | .encoding fault => fault.message
  | .otherChecksum => "bech32m checksum"
  | .payloadLength n => Text.numeralText n ++ " byte payload"

inductive Fault where
  | malformed (address : String) (reason : Malformation)
  | invalidLength (bytes : Nat)
  | invalidLabel (hrp : String)

def Fault.message : Fault → String
  | .malformed address reason => "Malformed address " ++ address ++ ": " ++ reason.message
  | .invalidLength n => "Invalid address length: " ++ Text.numeralText n ++ " bytes"
  | .invalidLabel hrp => "Invalid human readable prefix: " ++ Text.quote hrp

/-- The lengths that a raw identifier may have. -/
def IsLength (n : Nat) : Prop := n = 20 ∨ n = 32

instance (n : Nat) : Decidable (IsLength n) := inferInstanceAs (Decidable (n = 20 ∨ n = 32))

/-- The text of an address; the length is looked at before the label. -/
def render (a : Address) : Except Fault String :=
  if IsLength a.raw.length then
    match Bech32.encode a.hrp.toList (Bech32.toSymbols a.raw) with
    | .error _ => .error (.invalidLabel a.hrp)
    | .ok cs => .ok (String.ofList cs)
  else .error (.invalidLength a.raw.length)

/-- Reads an address of either letter case; the label comes back in lower case. -/
def parse (s : String) : Except Fault Address :=
  match Bech32.decode s.toList with
  | .error e => .error (.malformed s (.encoding e))
  | .ok (_, _, .bech32m) => .error (.malformed s .otherChecksum)
  | .ok (hrp, vs, .bech32) =>
    match Bech32.toBytes? vs with
    | none => .error (.malformed s (.encoding .invalidPadding))
    | some raw =>
      if IsLength raw.length then .ok ⟨String.ofList hrp, raw⟩
      else .error (.malformed s (.payloadLength raw.length))

/-- The same identifier under another label. -/
def relabel (a : Address) (hrp : String) : Address := ⟨hrp, a.raw⟩

/-! ## Classes -/

/-- What an identifier is used as. -/
inductive Class where
  | account
  | validatorOperator
  | validatorConsensus
  deriving DecidableEq

def Class.all : List Class := [.account, .validatorOperator, .validatorConsensus]

/-- The labels of one network. -/
structure Labels where
  account : String
  validatorOperator : String
  validatorConsensus : String
  deriving DecidableEq

namespace Labels

def mainnet : Labels := ⟨"pb", "pbvaloper", "pbvalcons"⟩

def testnet : Labels := ⟨"tp", "tpvaloper", "tpvalcons"⟩

def ofClass (ls : Labels) : Class → String
  | .account => ls.account
  | .validatorOperator => ls.validatorOperator
  | .validatorConsensus => ls.validatorConsensus

/-- The first class whose label is exactly this one. -/
def classOf? (ls : Labels) (hrp : String) : Option Class :=
  Class.all.find? fun c => ls.ofClass c == hrp

/-- The rendering of a raw identifier as a member of a class. -/
def encodeAs (ls : Labels) (c : Class) (raw : Bytes) : Except Fault String :=
  render ⟨ls.ofClass c, raw⟩

/-- The class of an address on this network, if it has one. -/
def classify? (ls : Labels) (s : String) : Option Class :=
  match parse s with
  | .error _ => none
  | .ok a => ls.classOf? a.hrp

def isValidatorOperator (ls : Labels) (s : String) : Bool :=
  ls.classify? s == some .validatorOperator

/-- The rendering, as a member of a class, of the identifier that an address carries. -/
def convert (ls : Labels) (s : String) (c : Class) : Except Fault String :=
  match parse s with
  | .error e => .error e
  | .ok a => ls.encodeAs c a.raw

end Labels

end Address

end TxLens

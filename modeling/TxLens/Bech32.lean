import TxLens.Bech32.Regroup
/-!
# Labelled symbol strings

A string is a human-readable label, the separator `1` and symbols of which the last six are a
checksum. The separator is the last `1`, so a label may hold others. Letters are all lower or all
upper case, and the label means the same in either.
-/

namespace TxLens.Bech32

/-- Why a text is no labelled symbol string. -/
inductive Fault where
  | missingSeparator
  | invalidLength
  | invalidCharacter (c : Char)
  | mixedCase
  | invalidChecksum
  | invalidPadding

def Fault.message : Fault → String
  | .missingSeparator => "missing human-readable separator, \"1\""
  | .invalidLength => "invalid length"
  | .invalidCharacter c => "invalid character (code=" ++ c.toString ++ ")"
  | .mixedCase => "mixed-case strings not allowed"
  | .invalidChecksum => "invalid checksum"
  | .invalidPadding => "invalid padding"

/-! ## Letter case -/

/-- The case of the letters met so far. -/
inductive Case where
  | unset
  | lower
  | upper
  deriving DecidableEq

/-- The case after one more character; two letters of different case are a fault. -/
def Case.meet (seen : Case) (c : Char) : Except Fault Case :=
  if c.isLower then
    if seen = .upper then .error .mixedCase else .ok .lower
  else if c.isUpper then
    if seen = .lower then .error .mixedCase else .ok .upper
  else .ok seen

/-! ## The label -/

def maxLabelLength : Nat := 83

/-- Whether a character may stand in a label: printing ASCII other than the space. -/
def isLabelChar (c : Char) : Bool := 33 ≤ c.toNat && c.toNat ≤ 126

/-- The first byte of a character's UTF-8 form, as a character. -/
def leadByte (c : Char) : Char := Char.ofNat ((String.utf8EncodeChar c).headD 0).toNat

def labelCase : Case → List Char → Except Fault Case
  | seen, [] => .ok seen
  | seen, c :: cs =>
    if isLabelChar c then
      match seen.meet c with
      | .error e => .error e
      | .ok seen => labelCase seen cs
    else .error (.invalidCharacter (leadByte c))

/-- The case of an acceptable label; its length is counted in bytes. -/
def checkLabel (hrp : List Char) : Except Fault Case :=
  let size := hrp.foldr (fun c n => c.utf8Size + n) 0
  if size = 0 ∨ maxLabelLength < size then .error .invalidLength else labelCase .unset hrp

/-! ## Symbols as characters -/

/-- The symbols' characters in order of value. -/
def alphabet : List Char := "qpzry9x8gf2tvdw0s3jn54khce6mua7l".toList

def charOf (v : Symbol) : Char := alphabet.getD v.toNat 'q'

def symbolOf? (c : Char) : Option Symbol := (alphabet.idxOf? c.toLower).map (BitVec.ofNat 5)

/-- Reads symbols, given the case of the letters before them. -/
def readSymbols : Case → List Char → Except Fault (List Symbol)
  | _, [] => .ok []
  | seen, c :: cs =>
    if 128 ≤ c.toNat then .error (.invalidCharacter c)
    else match seen.meet c with
      | .error e => .error e
      | .ok seen =>
        match symbolOf? c with
        | none => .error (.invalidCharacter c)
        | some v =>
          match readSymbols seen cs with
          | .error e => .error e
          | .ok vs => .ok (v :: vs)

/-! ## Whole strings -/

def separator : Char := '1'

/-- What stands before and after the last separator. -/
def splitLast : List Char → Option (List Char × List Char)
  | [] => none
  | c :: cs =>
    match splitLast cs with
    | some (before, after) => some (c :: before, after)
    | none => if c = separator then some ([], cs) else none

def checksumLength : Nat := 6

/-- The label in lower case, the symbols without their checksum, and which checksum it was. -/
def decode (s : List Char) : Except Fault (List Char × List Symbol × Variant) :=
  match splitLast s with
  | none => .error .missingSeparator
  | some (hrp, data) =>
    match checkLabel hrp with
    | .error e => .error e
    | .ok case =>
      match readSymbols case data with
      | .error e => .error e
      | .ok vs =>
        if vs.length < checksumLength then .error .invalidLength
        else match variant? (hrp.map Char.toLower) vs with
          | none => .error .invalidChecksum
          | some v => .ok (hrp.map Char.toLower, vs.take (vs.length - checksumLength), v)

/-- The label in lower case, the separator, the symbols and their checksum. -/
def encode (hrp : List Char) (vs : List Symbol) : Except Fault (List Char) :=
  match checkLabel hrp with
  | .error e => .error e
  | .ok _ =>
    let label := hrp.map Char.toLower
    .ok (label ++ separator :: (vs ++ checksum label vs).map charOf)

end TxLens.Bech32

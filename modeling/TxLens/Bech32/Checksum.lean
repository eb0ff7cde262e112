/-!
# The checksum of a labelled symbol string

A symbol is five bits. The residue of a symbol string is the remainder of its polynomial over the
field of 32 elements by a fixed generator of degree six; one more symbol multiplies by the variable
and adds. A checksum is six symbols that bring the residue to an agreed constant.
-/

namespace TxLens.Bech32

abbrev Symbol := BitVec 5

abbrev Residue := BitVec 30

/-- What the five bits that a shift pushes out contribute. -/
def feedback (r : Residue) : Residue :=
  (if r.getLsbD 25 then 0x3b6a57b2#30 else 0) ^^^
  (if r.getLsbD 26 then 0x26508e6d#30 else 0) ^^^
  (if r.getLsbD 27 then 0x1ea119fa#30 else 0) ^^^
  (if r.getLsbD 28 then 0x3d4233dd#30 else 0) ^^^
  (if r.getLsbD 29 then 0x2a1462b3#30 else 0)

/-- The residue after one more symbol. -/
def Residue.step (r : Residue) (v : Symbol) : Residue :=
  (r <<< 5) ^^^ v.setWidth 30 ^^^ feedback r

def residue (vs : List Symbol) : Residue := vs.foldl Residue.step 1

/-- The label as symbols: the high bits of every character, a zero, and the low five bits of every
character. -/
def expandLabel (hrp : List Char) : List Symbol :=
  hrp.map (fun c => BitVec.ofNat 5 (c.toNat / 32)) ++ 0 :: hrp.map (fun c => BitVec.ofNat 5 c.toNat)

/-- The two checksum constants in use. -/
inductive Variant where
  | bech32
  | bech32m
  deriving DecidableEq

def Variant.target : Variant → Residue
  | .bech32 => 1
  | .bech32m => 0x2bc830a3

/-- Which checksum the symbols carry under this label, if any. -/
def variant? (hrp : List Char) (vs : List Symbol) : Option Variant :=
  let r := residue (expandLabel hrp ++ vs)
  if r = Variant.target .bech32 then some .bech32
  else if r = Variant.target .bech32m then some .bech32m
  else none

/-- The six symbols of a residue, the highest first. -/
def Residue.symbols (r : Residue) : List Symbol :=
  [r.extractLsb' 25 5, r.extractLsb' 20 5, r.extractLsb' 15 5, r.extractLsb' 10 5,
   r.extractLsb' 5 5, r.extractLsb' 0 5]

/-- The checksum of the symbols under a label. -/
def checksum (hrp : List Char) (vs : List Symbol) : List Symbol :=
  Residue.symbols (residue (expandLabel hrp ++ vs ++ List.replicate 6 0) ^^^ Variant.target .bech32)

end TxLens.Bech32

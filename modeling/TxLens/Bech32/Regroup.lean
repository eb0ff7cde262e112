import TxLens.Bytes
import TxLens.Bech32.Checksum
/-!
# Bytes as symbols

Both bytes and symbols stand for their bits, most significant first. Bytes are cut into symbols with
zeros filling up the last one; symbols are joined to bytes when what is left over is such a filling.
-/

namespace TxLens.Bech32

/-- The bits of a word, most significant first. -/
def bitsOf {w : Nat} (v : BitVec w) : List Bool := (List.range w).map v.getMsbD

/-- The word whose bits these are, most significant first. -/
def ofBits (w : Nat) (bs : List Bool) : BitVec w :=
  BitVec.ofNat w (bs.foldl (fun n b => 2 * n + b.toNat) 0)

/-- The first `n` groups of `w` bits as words. -/
def groups (w : Nat) : Nat → List Bool → List (BitVec w)
  | 0, _ => []
  | n + 1, bs => ofBits w (bs.take w) :: groups w n (bs.drop w)

def byteBits (raw : Bytes) : List Bool := raw.flatMap fun b => bitsOf b.toBitVec

def symbolBits (vs : List Symbol) : List Bool := vs.flatMap bitsOf

/-- As many symbols as cover the bytes. -/
def toSymbols (raw : Bytes) : List Symbol :=
  let n := (8 * raw.length + 4) / 5
  groups 5 n (byteBits raw ++ List.replicate (5 * n - 8 * raw.length) false)

/-- The bytes that the symbols spell, unless five or more bits are left over or one of them is set. -/
def toBytes? (vs : List Symbol) : Option Bytes :=
  let bits := symbolBits vs
  let n := bits.length / 8
  let left := bits.drop (8 * n)
  if 5 ≤ left.length ∨ true ∈ left then none
  else some ((groups 8 n bits).map UInt8.ofBitVec)

end TxLens.Bech32

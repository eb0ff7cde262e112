import TxLens.Wire.Object
/-!
# Compact bit arrays

Bits are packed into bytes, most significant first; the array also says how many bits of the last
byte are in use, where zero means all of them. An array that claims more than its bytes hold has as
many bits as they do.
-/

namespace TxLens

structure BitArray where
  extra : UInt32
  elems : Bytes
  deriving DecidableEq

namespace BitArray

open Wire

instance : Object BitArray where
  type := .bitArray
  ofMessage m := ⟨(m.word 1).toUInt32, m.byteString 2⟩
  toMessage a := .ofWord 1 a.extra.toUInt64 ++ .ofByteString 2 a.elems

/-- The byte whose bits, most significant first, are these eight; missing ones are unset. -/
def packByte (bits : List Bool) : UInt8 :=
  UInt8.ofNat ((List.range 8).foldl (fun n i => 2 * n + (bits.getD i false).toNat) 0)

/-- The first `n` bytes of packed bits. -/
def packBytes : Nat → List Bool → Bytes
  | 0, _ => []
  | n + 1, bits => packByte (bits.take 8) :: packBytes n (bits.drop 8)

def ofBits (bits : List Bool) : BitArray :=
  ⟨UInt32.ofNat (bits.length % 8), packBytes ((bits.length + 7) / 8) bits⟩

/-- The number of bits, never more than the bytes hold. -/
def count (a : BitArray) : Nat :=
  if a.elems = [] then 0
  else if a.extra = 0 then 8 * a.elems.length
  else min (8 * (a.elems.length - 1) + a.extra.toNat) (8 * a.elems.length)

/-- Bit `i`; one out of range is unset. -/
def get (a : BitArray) (i : Nat) : Bool :=
  i < a.count && (a.elems.getD (i / 8) 0).toNat.testBit (7 - i % 8)

def toList (a : BitArray) : List Bool := (List.range a.count).map a.get

end BitArray

end TxLens

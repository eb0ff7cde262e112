import TxLens.Bytes
/-!
# RIPEMD-160

Two lines of eighty rounds run side by side over each block of sixteen little-endian words; their
results and the state before the block are added crosswise.
-/

namespace TxLens.Ripemd160

/-- The five words carried from block to block. -/
structure State where
  a : UInt32
  b : UInt32
  c : UInt32
  d : UInt32
  e : UInt32

def State.start : State := ⟨0x67452301, 0xefcdab89, 0x98badcfe, 0x10325476, 0xc3d2e1f0⟩

/-! ## The two lines of rounds -/

/-- One round of a line: which word it takes, how far it rotates, its function of three words and
its constant. -/
structure Round where
  word : Nat
  rotation : UInt32
  mix : UInt32 → UInt32 → UInt32 → UInt32
  constant : UInt32

def mix₁ (x y z : UInt32) : UInt32 := x ^^^ y ^^^ z
def mix₂ (x y z : UInt32) : UInt32 := (x &&& y) ||| (~~~x &&& z)
def mix₃ (x y z : UInt32) : UInt32 := (x ||| ~~~y) ^^^ z
def mix₄ (x y z : UInt32) : UInt32 := (x &&& z) ||| (y &&& ~~~z)
def mix₅ (x y z : UInt32) : UInt32 := x ^^^ (y ||| ~~~z)

/-- Sixteen rounds that share a function and a constant. -/
def rounds (mix : UInt32 → UInt32 → UInt32 → UInt32) (constant : UInt32) (words : List Nat)
    (rotations : List UInt32) : List Round :=
  (words.zip rotations).map fun (w, r) => ⟨w, r, mix, constant⟩

def leftLine : List Round :=
  rounds mix₁ 0x00000000 [0, 1, 2, 3, 4, 5, 6, 7, 8, 9, 10, 11, 12, 13, 14, 15]
    [11, 14, 15, 12, 5, 8, 7, 9, 11, 13, 14, 15, 6, 7, 9, 8] ++
  rounds mix₂ 0x5a827999 [7, 4, 13, 1, 10, 6, 15, 3, 12, 0, 9, 5, 2, 14, 11, 8]
    [7, 6, 8, 13, 11, 9, 7, 15, 7, 12, 15, 9, 11, 7, 13, 12] ++
  rounds mix₃ 0x6ed9eba1 [3, 10, 14, 4, 9, 15, 8, 1, 2, 7, 0, 6, 13, 11, 5, 12]
    [11, 13, 6, 7, 14, 9, 13, 15, 14, 8, 13, 6, 5, 12, 7, 5] ++
  rounds mix₄ 0x8f1bbcdc [1, 9, 11, 10, 0, 8, 12, 4, 13, 3, 7, 15, 14, 5, 6, 2]
    [11, 12, 14, 15, 14, 15, 9, 8, 9, 14, 5, 6, 8, 6, 5, 12] ++
  rounds mix₅ 0xa953fd4e [4, 0, 5, 9, 7, 12, 2, 10, 14, 1, 3, 8, 11, 6, 15, 13]
    [9, 15, 5, 11, 6, 8, 13, 12, 5, 12, 13, 14, 11, 8, 5, 6]

def rightLine : List Round :=
  rounds mix₅ 0x50a28be6 [5, 14, 7, 0, 9, 2, 11, 4, 13, 6, 15, 8, 1, 10, 3, 12]
    [8, 9, 9, 11, 13, 15, 15, 5, 7, 7, 8, 11, 14, 14, 12, 6] ++
  rounds mix₄ 0x5c4dd124 [6, 11, 3, 7, 0, 13, 5, 10, 14, 15, 8, 12, 4, 9, 1, 2]
    [9, 13, 15, 7, 12, 8, 9, 11, 7, 7, 12, 7, 6, 15, 13, 11] ++
  rounds mix₃ 0x6d703ef3 [15, 5, 1, 3, 7, 14, 6, 9, 11, 8, 12, 2, 10, 0, 4, 13]
    [9, 7, 15, 11, 8, 6, 6, 14, 12, 13, 5, 14, 13, 13, 7, 5] ++
  rounds mix₂ 0x7a6d76e9 [8, 6, 4, 1, 3, 11, 15, 0, 5, 12, 2, 13, 9, 7, 10, 14]
    [15, 5, 8, 11, 14, 14, 6, 14, 6, 9, 12, 9, 12, 5, 15, 8] ++
  rounds mix₁ 0x00000000 [12, 15, 10, 4, 1, 5, 8, 7, 6, 2, 13, 14, 0, 3, 9, 11]
    [8, 5, 12, 9, 12, 5, 14, 6, 8, 13, 6, 5, 15, 13, 11, 11]

def rotateLeft (x n : UInt32) : UInt32 := (x <<< n) ||| (x >>> (32 - n))

def step (block : List UInt32) (s : State) (r : Round) : State :=
  let t := rotateLeft (s.a + r.mix s.b s.c s.d + block.getD r.word 0 + r.constant) r.rotation + s.e
  ⟨s.e, t, s.b, rotateLeft s.c 10, s.d⟩

def compress (s : State) (block : List UInt32) : State :=
  let l := leftLine.foldl (step block) s
  let r := rightLine.foldl (step block) s
  ⟨s.b + l.c + r.d, s.c + l.d + r.e, s.d + l.e + r.a, s.e + l.a + r.b, s.a + l.b + r.c⟩

/-! ## Padding and words -/

/-- The eight bytes of a number, least significant first. -/
def littleEndian64 (n : Nat) : Bytes :=
  [0, 8, 16, 24, 32, 40, 48, 56].map fun i => UInt8.ofNat (n >>> i)

/-- The message, a one bit, zeros up to eight bytes before the end of a block, and its bit length. -/
def pad (bs : Bytes) : Bytes :=
  bs ++ 0x80 :: List.replicate ((119 - bs.length % 64) % 64) 0 ++ littleEndian64 (8 * bs.length)

/-- Groups of four bytes as words, least significant byte first. -/
def words : Bytes → List UInt32
  | a :: b :: c :: d :: rest =>
    (a.toUInt32 ||| b.toUInt32 <<< 8 ||| c.toUInt32 <<< 16 ||| d.toUInt32 <<< 24) :: words rest
  | _ => []

/-- Folds `n` blocks of sixteen words into the state. -/
def compressAll : Nat → State → List UInt32 → State
  | 0, s, _ => s
  | n + 1, s, ws => compressAll n (compress s (ws.take 16)) (ws.drop 16)

/-- The four bytes of a word, least significant first. -/
def wordBytes (w : UInt32) : Bytes :=
  [w.toUInt8, (w >>> 8).toUInt8, (w >>> 16).toUInt8, (w >>> 24).toUInt8]

def State.bytes (s : State) : Bytes := [s.a, s.b, s.c, s.d, s.e].flatMap wordBytes

/-- The 20-byte digest of a byte string. -/
def digest (bs : Bytes) : Bytes :=
  let padded := pad bs
  (compressAll (padded.length / 64) .start (words padded)).bytes

@[simp] theorem length_digest (bs : Bytes) : (digest bs).length = 20 := rfl

end TxLens.Ripemd160

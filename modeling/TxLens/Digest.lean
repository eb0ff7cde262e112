import TxLens.Digest.Sha256
import TxLens.Digest.Ripemd160
/-!
# Digests of keys

The three ways in which key material is shortened to an identifier.
-/

namespace TxLens.Digest

def sha256 (bs : Bytes) : Bytes := Sha256.digest bs

def ripemd160 (bs : Bytes) : Bytes := Ripemd160.digest bs

/-- The first 20 bytes of SHA-256. -/
def truncated (bs : Bytes) : Bytes := (sha256 bs).take 20

/-- RIPEMD-160 of SHA-256. -/
def hash160 (bs : Bytes) : Bytes := ripemd160 (sha256 bs)

@[simp] theorem length_sha256 (bs : Bytes) : (sha256 bs).length = 32 := Sha256.length_digest bs

@[simp] theorem length_truncated (bs : Bytes) : (truncated bs).length = 20 := by simp [truncated]

@[simp] theorem length_hash160 (bs : Bytes) : (hash160 bs).length = 20 := Ripemd160.length_digest _

end TxLens.Digest

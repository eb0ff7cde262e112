import Mathlib.Algebra.Group.Nat.Defs
import TxLens.Wire.Parser
/-!
# Numbers, keys and lengths are read as written

Each reader of the first layer takes off exactly what the writer put there, whatever follows. The ten
places of a number hold 64 bits: the last place has one bit, every place before it seven.
-/

namespace TxLens.Wire

namespace Varint

theorem length_write_pos (n : Nat) : 0 < (write n).length := by
  unfold write
  split <;> simp

/-- A byte that ends a number; at the last place it may only be zero or one. -/
theorem read?_last {places n : Nat} (hn : n < 128) (hp : places = 0 → n < 2) (rest : Bytes) :
    read? (places + 1) (UInt8.ofNat n :: rest) = some (n, rest) := by
  have hb : (UInt8.ofNat n).toNat = n := by
    rw [UInt8.toNat_ofNat']
    omega
  have hlt : UInt8.ofNat n < 128 := by
    rw [UInt8.lt_iff_toNat_lt, hb]
    exact hn
  have hone : ¬ (places = 0 ∧ 2 ≤ UInt8.ofNat n) := by
    rintro ⟨h, htwo⟩
    rw [UInt8.le_iff_toNat_le, hb] at htwo
    exact Nat.not_le.2 (hp h) htwo
  rw [read?, if_pos hlt, if_neg hone, hb]

/-- The last place holds one bit, each of the others seven. -/
theorem read?_write (places : Nat) {n : Nat} (hn : n < 2 * 128 ^ places) (rest : Bytes) :
    read? (places + 1) (write n ++ rest) = some (n, rest) := by
  induction places generalizing n with
  | zero =>
    rw [write, if_pos (by omega)]
    exact read?_last (by omega) (fun _ => by simpa using hn) rest
  | succ places ih =>
    by_cases hs : n < 128
    · rw [write, if_pos hs]
      exact read?_last hs (by simp) rest
    · have hb : (UInt8.ofNat (n % 128 + 128)).toNat = n % 128 + 128 := by
        rw [UInt8.toNat_ofNat']
        omega
      have hge : ¬ UInt8.ofNat (n % 128 + 128) < 128 := by
        rw [UInt8.lt_iff_toNat_lt, hb]
        simp
      have hdiv : n / 128 < 2 * 128 ^ places := by
        rw [Nat.pow_succ] at hn
        omega
      rw [write, if_neg hs, List.cons_append, read?, if_neg hge, ih hdiv]
      simp only [hb, Option.some.injEq, Prod.mk.injEq, and_true]
      omega

end Varint

/-- The reader of a value returned it, and left the rest. -/
def Reads {ε α : Type} {s : Bytes} (x : Except ε (Read α s)) (a : α) (rest : Bytes) : Prop :=
  ∃ h, x = .ok ⟨a, rest, h⟩

theorem readVarint_write {n : Nat} (hn : n < 2 ^ 64) (rest : Bytes) :
    Reads (readVarint (Varint.write n ++ rest)) n rest := by
  have h := Varint.read?_write 9 (Nat.lt_of_lt_of_eq hn (by decide)) rest
  unfold readVarint
  split
  · rename_i hnone
    rw [Varint.maxLength, h] at hnone
    cases hnone
  · rename_i m rest' hsome
    rw [Varint.maxLength, h] at hsome
    cases hsome
    exact ⟨by simp, rfl⟩

/-- A key joins a number of at most 29 bits and the three bits of a wire type. -/
theorem readKey_write {number code : Nat} {w : WireType} (hw : WireType.ofCode? code = some w)
    (hcode : code < 8) (hpos : 0 < number) (hlt : number < 2 ^ 29) (rest : Bytes) :
    Reads (readKey (Varint.write (8 * number + code) ++ rest)) ⟨number, w⟩ rest := by
  obtain ⟨hle, hread⟩ := readVarint_write (n := 8 * number + code) (by omega) rest
  have hmod : (8 * number + code) % 8 = code := by omega
  have hdiv : (8 * number + code) / 8 = number := by omega
  have hkey : Key.ofNat (8 * number + code) = .ok ⟨number, w⟩ := by
    rw [Key.ofNat, if_neg (by omega), hmod, hw, hdiv]
    exact if_neg (by omega)
  refine ⟨hle, ?_⟩
  simp only [readKey, hread, hkey, Read.map]

theorem readDelimited_write (content : Bytes) (hc : content.length < 2 ^ 64) (rest : Bytes) :
    Reads (readDelimited (Varint.write content.length ++ content ++ rest)) content rest := by
  rw [List.append_assoc]
  obtain ⟨hle, hread⟩ := readVarint_write hc (content ++ rest)
  refine ⟨by simp; omega, ?_⟩
  simp [readDelimited, hread, readBytes, Read.widen]

end TxLens.Wire

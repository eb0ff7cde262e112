import Mathlib.Algebra.Group.Nat.Defs
import TxLens.Bech32.Regroup
/-!
# Regrouping loses nothing

Cutting bits into words and joining words to bits undo each other. So bytes come back from their
symbols, and symbols that join to bytes are the symbols of those bytes: zeros are the one filling that
is accepted, and there is never room for another symbol (`toBytes?_eq_some_iff`).
-/

namespace TxLens.Bech32

variable {w : Nat}

/-! ## Words and their bits -/

theorem foldl_bits (bs : List Bool) (n : Nat) :
    bs.foldl (fun n b => 2 * n + b.toNat) n =
      n * 2 ^ bs.length + (BitVec.ofBoolListBE bs).toNat := by
  induction bs generalizing n with
  | nil => simp [BitVec.ofBoolListBE]
  | cons b bs ih =>
    have hcons : (BitVec.ofBoolListBE (b :: bs)).toNat =
        b.toNat * 2 ^ bs.length + (BitVec.ofBoolListBE bs).toNat := by
      rw [BitVec.ofBoolListBE, BitVec.toNat_cons', Nat.shiftLeft_eq]
    rw [List.foldl_cons, ih, hcons, List.length_cons, Nat.pow_succ, Nat.add_mul, Nat.add_assoc,
      Nat.mul_comm 2 n, Nat.mul_assoc, Nat.mul_comm 2]

theorem getMsbD_ofBits {bs : List Bool} (h : bs.length = w) (i : Nat) :
    (ofBits w bs).getMsbD i = bs.getD i false := by
  subst h
  have hb : ofBits bs.length bs = BitVec.ofBoolListBE bs := by
    rw [ofBits, foldl_bits, Nat.zero_mul, Nat.zero_add, BitVec.ofNat_toNat, BitVec.setWidth_eq]
  rw [hb, BitVec.getMsbD_ofBoolListBE]

@[simp] theorem length_bitsOf (v : BitVec w) : (bitsOf v).length = w := by
  simp [bitsOf]

theorem ofBits_bitsOf (v : BitVec w) : ofBits w (bitsOf v) = v := by
  apply BitVec.eq_of_getMsbD_eq
  intro i hi
  rw [getMsbD_ofBits (length_bitsOf v)]
  simp [bitsOf, hi]

theorem bitsOf_ofBits {bs : List Bool} (h : bs.length = w) : bitsOf (ofBits w bs) = bs := by
  apply List.ext_getElem
  · rw [length_bitsOf, h]
  · intro i hi hi'
    rw [length_bitsOf] at hi
    simp [bitsOf, getMsbD_ofBits h, hi']

/-! ## Groups -/

@[simp] theorem length_groups (n : Nat) (bs : List Bool) : (groups w n bs).length = n := by
  induction n generalizing bs with
  | zero => rfl
  | succ n ih => rw [groups, List.length_cons, ih]

/-- The groups of the bits of words are these words. -/
theorem groups_flatMap_bitsOf (vs : List (BitVec w)) (rest : List Bool) :
    groups w vs.length (vs.flatMap bitsOf ++ rest) = vs := by
  induction vs with
  | nil => rfl
  | cons v vs ih =>
    rw [List.length_cons, groups, List.flatMap_cons, List.append_assoc,
      List.take_left' (length_bitsOf v), List.drop_left' (length_bitsOf v), ih, ofBits_bitsOf]

/-- The bits of groups are those that were grouped. -/
theorem flatMap_bitsOf_groups (n : Nat) {bs : List Bool} (h : w * n ≤ bs.length) :
    (groups w n bs).flatMap bitsOf = bs.take (w * n) := by
  induction n generalizing bs with
  | zero => simp [groups]
  | succ n ih =>
    rw [Nat.mul_succ] at h ⊢
    have htake : (bs.take w).length = w := by
      rw [List.length_take]
      omega
    have hdrop : w * n ≤ (bs.drop w).length := by
      rw [List.length_drop]
      omega
    rw [groups, List.flatMap_cons, bitsOf_ofBits htake, ih hdrop, Nat.add_comm, List.take_add]

theorem length_flatMap_bitsOf (vs : List (BitVec w)) : (vs.flatMap bitsOf).length = w * vs.length := by
  induction vs with
  | nil => rfl
  | cons v vs ih =>
    rw [List.flatMap_cons, List.length_append, length_bitsOf, ih, List.length_cons, Nat.mul_succ,
      Nat.add_comm]

/-! ## Bytes and symbols -/

theorem byteBits_eq (raw : Bytes) : byteBits raw = (raw.map UInt8.toBitVec).flatMap bitsOf := by
  rw [byteBits, List.flatMap_map]

theorem length_byteBits (raw : Bytes) : (byteBits raw).length = 8 * raw.length := by
  rw [byteBits_eq, length_flatMap_bitsOf, List.length_map]

theorem length_symbolBits (vs : List Symbol) : (symbolBits vs).length = 5 * vs.length :=
  length_flatMap_bitsOf vs

@[simp] theorem length_toSymbols (raw : Bytes) :
    (toSymbols raw).length = (8 * raw.length + 4) / 5 := by
  simp [toSymbols]

theorem symbolBits_toSymbols (raw : Bytes) : symbolBits (toSymbols raw) =
    byteBits raw ++ List.replicate (5 * ((8 * raw.length + 4) / 5) - 8 * raw.length) false := by
  rw [symbolBits, toSymbols, flatMap_bitsOf_groups]
  · rw [List.take_of_length_le]
    simp only [List.length_append, length_byteBits, List.length_replicate]
    omega
  · simp only [List.length_append, length_byteBits, List.length_replicate]
    omega

theorem groups_byteBits (raw : Bytes) (rest : List Bool) :
    (groups 8 raw.length (byteBits raw ++ rest)).map UInt8.ofBitVec = raw := by
  have h := groups_flatMap_bitsOf (raw.map UInt8.toBitVec) rest
  rw [List.length_map] at h
  rw [byteBits_eq, h, List.map_map]
  exact List.map_id raw

/-- Bytes come back from their symbols. -/
theorem toBytes?_toSymbols (raw : Bytes) : toBytes? (toSymbols raw) = some raw := by
  have hlen : (symbolBits (toSymbols raw)).length / 8 = raw.length := by
    rw [length_symbolBits, length_toSymbols]
    omega
  have hleft : (symbolBits (toSymbols raw)).drop (8 * raw.length) =
      List.replicate (5 * ((8 * raw.length + 4) / 5) - 8 * raw.length) false := by
    rw [symbolBits_toSymbols, List.drop_left' (length_byteBits raw)]
  simp only [toBytes?, hlen, hleft]
  rw [if_neg, symbolBits_toSymbols, groups_byteBits]
  rintro (h | h)
  · rw [List.length_replicate] at h
    omega
  · have := List.eq_of_mem_replicate h
    cases this

/-- Symbols that join to bytes are the symbols of those bytes. -/
theorem toSymbols_of_toBytes? {vs : List Symbol} {raw : Bytes} (h : toBytes? vs = some raw) :
    toSymbols raw = vs := by
  simp only [toBytes?] at h
  split at h
  · cases h
  rename_i hleft
  rw [not_or] at hleft
  obtain ⟨hshort, hfalse⟩ := hleft
  have hlen := length_symbolBits vs
  rw [List.length_drop] at hshort
  -- what is left over is the filling
  have hdrop : (symbolBits vs).drop (8 * ((symbolBits vs).length / 8)) =
      List.replicate (5 * vs.length - 8 * ((symbolBits vs).length / 8)) false := by
    refine List.eq_replicate_iff.2 ⟨by rw [List.length_drop, hlen], fun b hb => ?_⟩
    cases b with
    | false => rfl
    | true => exact absurd hb hfalse
  have hraw : raw.map UInt8.toBitVec = groups 8 ((symbolBits vs).length / 8) (symbolBits vs) := by
    rw [← Option.some.inj h, List.map_map]
    exact List.map_id _
  have hn : raw.length = (symbolBits vs).length / 8 := by
    rw [← List.length_map (f := UInt8.toBitVec), hraw, length_groups]
  have hm : (8 * ((symbolBits vs).length / 8) + 4) / 5 = vs.length := by omega
  have hbits : byteBits raw = (symbolBits vs).take (8 * ((symbolBits vs).length / 8)) := by
    rw [byteBits_eq, hraw, flatMap_bitsOf_groups _ (Nat.mul_div_le _ _)]
  have hall : byteBits raw ++ List.replicate (5 * vs.length - 8 * raw.length) false =
      symbolBits vs := by
    rw [hbits, hn, ← hdrop, List.take_append_drop]
  rw [toSymbols, hn, hm, ← hn, hall]
  have := groups_flatMap_bitsOf vs []
  rwa [List.append_nil] at this

theorem toBytes?_eq_some_iff {vs : List Symbol} {raw : Bytes} :
    toBytes? vs = some raw ↔ vs = toSymbols raw :=
  ⟨fun h => (toSymbols_of_toBytes? h).symm, fun h => h ▸ toBytes?_toSymbols raw⟩

end TxLens.Bech32

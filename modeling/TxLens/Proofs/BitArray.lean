import TxLens.BitArray
/-!
# Setting a bit

An array may claim any number of bits for any bytes; its count never exceeds what the bytes hold
(`count_le`), and no more bits than that are set (`countP_get_le`). A bit within the count has a byte,
and setting it there changes this bit and no other; one beyond the count cannot be set (`get_setBit`).
-/

namespace TxLens.BitArray

/-- The bit that the bytes hold at a position, whether or not it counts. -/
def stored (a : BitArray) (i : Nat) : Bool := (a.elems.getD (i / 8) 0).toNat.testBit (7 - i % 8)

theorem get_eq (a : BitArray) (i : Nat) : a.get i = (decide (i < a.count) && a.stored i) := rfl

theorem count_le (a : BitArray) : a.count ≤ 8 * a.elems.length := by
  rw [count]
  split
  · exact Nat.zero_le _
  · split
    · exact Nat.le_refl _
    · exact Nat.min_le_right _ _

theorem countP_get_le (a : BitArray) (n : Nat) :
    (List.range n).countP a.get ≤ min n a.count := by
  induction n with
  | zero => exact Nat.zero_le _
  | succ n ih =>
    rw [List.range_succ, List.countP_append, List.countP_singleton]
    split
    · rename_i hget
      -- a set bit stands within the count, so there is room for one more
      have hn : n < a.count := of_decide_eq_true (Bool.and_eq_true_iff.1 hget).1
      omega
    · omega

/-- The array with a bit set in its byte. -/
def setBit (a : BitArray) (i : Nat) : BitArray :=
  { a with elems := a.elems.modify (i / 8) (· ||| UInt8.ofNat (1 <<< (7 - i % 8))) }

theorem length_setBit (a : BitArray) (i : Nat) : (a.setBit i).elems.length = a.elems.length :=
  List.length_modify _ _ _

theorem count_setBit (a : BitArray) (i : Nat) : (a.setBit i).count = a.count := by
  simp only [count, setBit, ← List.length_eq_zero_iff, List.length_modify]

theorem testBit_or_mask (b : UInt8) (i j : Nat) :
    (b ||| UInt8.ofNat (1 <<< (7 - i % 8))).toNat.testBit (7 - j % 8) =
      (b.toNat.testBit (7 - j % 8) || decide (i % 8 = j % 8)) := by
  have hlt : 1 <<< (7 - i % 8) < UInt8.size := by
    rw [Nat.one_shiftLeft]
    exact Nat.pow_lt_pow_right (by decide) (by omega : 7 - i % 8 < 8)
  have hplace : 7 - i % 8 = 7 - j % 8 ↔ i % 8 = j % 8 := by omega
  rw [UInt8.toNat_or, Nat.testBit_or, UInt8.toNat_ofNat_of_lt' hlt, Nat.one_shiftLeft,
    Nat.testBit_two_pow]
  simp only [hplace]

/-- Of the bits that have a byte, setting one changes that one alone. -/
theorem stored_setBit {a : BitArray} {j : Nat} (hj : j < 8 * a.elems.length) (i : Nat) :
    (a.setBit i).stored j = (a.stored j || decide (i = j)) := by
  have hbyte : j / 8 < a.elems.length := by omega
  have hsame : i = j ↔ i / 8 = j / 8 ∧ i % 8 = j % 8 := by omega
  simp only [stored, setBit, List.getD_eq_getElem?_getD, List.getElem?_modify,
    List.getElem?_eq_getElem hbyte, Option.map_eq_map, Option.map_some, Option.getD_some]
  split
  · rename_i hi
    rw [testBit_or_mask]
    simp only [hsame, hi, true_and]
  · rename_i hi
    simp [hsame, hi]

theorem get_setBit (a : BitArray) (i j : Nat) :
    (a.setBit i).get j = (a.get j || decide (i = j ∧ j < a.count)) := by
  by_cases hj : j < a.count
  · have hbyte : j < 8 * a.elems.length := Nat.lt_of_lt_of_le hj a.count_le
    simp only [get_eq, count_setBit, stored_setBit hbyte, hj, decide_true, Bool.true_and, and_true]
  · simp only [get_eq, count_setBit, hj, decide_false, Bool.false_and, and_false, Bool.or_self]

end TxLens.BitArray

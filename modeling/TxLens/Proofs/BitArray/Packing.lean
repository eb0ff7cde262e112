import Mathlib.Algebra.Order.Floor.Div
import Mathlib.Data.List.GetD
import Mathlib.GroupTheory.GroupAction.Ring
import TxLens.Proofs.BitArray
/-!
# Packed bits

Packing keeps a list of bits as it is: the array has as many bits, each at its place, and no byte too
many. An array may come from anywhere and need not be packed so, but packing the bits that count in it
gives an array that reads the same, and the very same array exactly where nothing is stored that does
not count (`ofBits_represents`). Packing is also what a loop does that sets the bits one after the other
(`ofBits_eq_setBits`).
-/

namespace TxLens.BitArray

/-! ## Bits of bytes -/

/-- A number put together from the top holds its bits from the top. -/
theorem testBit_foldl_range (f : Nat → Bool) {n i : Nat} (hi : i < n) :
    ((List.range n).foldl (fun v j => 2 * v + (f j).toNat) 0).testBit (n - 1 - i) = f i := by
  induction n with
  | zero => exact absurd hi (Nat.not_lt_zero i)
  | succ n ih =>
    rw [List.range_succ, List.foldl_append, List.foldl_cons, List.foldl_nil]
    rcases Nat.lt_succ_iff_lt_or_eq.1 hi with hlt | rfl
    · rw [show n + 1 - 1 - i = n - 1 - i + 1 by omega, Nat.testBit_succ, ← ih hlt]
      congr 1
      have := Bool.toNat_le (f n)
      omega
    · rw [Nat.add_sub_cancel, Nat.sub_self, Nat.testBit_zero]
      cases f i <;> simp [Nat.add_mod]

theorem testBit_packByte (bits : List Bool) {i : Nat} (hi : i < 8) :
    (packByte bits).toNat.testBit (7 - i) = bits.getD i false := by
  have hplace : 7 - i < 8 := by omega
  rw [packByte, UInt8.toNat_ofNat', Nat.testBit_mod_two_pow, decide_eq_true hplace, Bool.true_and]
  exact testBit_foldl_range (fun j => bits.getD j false) hi

theorem length_packBytes (n : Nat) (bits : List Bool) : (packBytes n bits).length = n := by
  induction n generalizing bits with
  | zero => rfl
  | succ n ih => rw [packBytes, List.length_cons, ih]

theorem getD_packBytes {n k : Nat} (hk : k < n) (bits : List Bool) :
    (packBytes n bits).getD k 0 = packByte ((bits.drop (8 * k)).take 8) := by
  induction n generalizing k bits with
  | zero => exact absurd hk (Nat.not_lt_zero k)
  | succ n ih =>
    cases k with
    | zero => rfl
    | succ k =>
      rw [packBytes, List.getD_cons_succ, ih (Nat.lt_of_succ_lt_succ hk), List.drop_drop,
        Nat.mul_succ, Nat.add_comm]

theorem eq_of_testBit {b c : UInt8} (h : ∀ i < 8, b.toNat.testBit (7 - i) = c.toNat.testBit (7 - i)) :
    b = c := by
  refine UInt8.toNat_inj.1 (Nat.eq_of_testBit_eq fun i => ?_)
  by_cases hi : i < 8
  · have := h (7 - i) (by omega)
    rwa [show 7 - (7 - i) = i by omega] at this
  · have hsmall : ∀ d : UInt8, d.toNat < 2 ^ i := fun d =>
      Nat.lt_of_lt_of_le d.toNat_lt (Nat.pow_le_pow_right (by decide) (Nat.le_of_not_lt hi))
    rw [Nat.testBit_lt_two_pow (hsmall b), Nat.testBit_lt_two_pow (hsmall c)]

/-! ## What is stored -/

/-- An array is its number of extra bits and the bits of its bytes. -/
theorem eq_of_stored {a b : BitArray} (hextra : a.extra = b.extra)
    (hlength : a.elems.length = b.elems.length)
    (hstored : ∀ i < 8 * a.elems.length, a.stored i = b.stored i) : a = b := by
  obtain ⟨extra, elems⟩ := a
  obtain ⟨extra', elems'⟩ := b
  obtain rfl : extra = extra' := hextra
  congr 1
  refine List.ext_getElem hlength fun k hk hk' => eq_of_testBit fun i hi => ?_
  have hbyte : (8 * k + i) / 8 = k := by omega
  have hbit : (8 * k + i) % 8 = i := by omega
  have := hstored (8 * k + i) (by simp only; omega)
  rwa [stored, stored, hbyte, hbit, List.getD_eq_getElem _ _ hk, List.getD_eq_getElem _ _ hk'] at this

theorem stored_ofBits (bits : List Bool) (i : Nat) : (ofBits bits).stored i = bits.getD i false := by
  by_cases hi : i / 8 < (bits.length + 7) / 8
  · rw [stored, ofBits, getD_packBytes hi, testBit_packByte _ (Nat.mod_lt i (by decide))]
    simp only [List.getD_eq_getElem?_getD]
    rw [List.getElem?_take_of_lt (Nat.mod_lt i (by decide)), List.getElem?_drop, Nat.div_add_mod]
  · -- past the last byte both are unset
    have hbyte : (ofBits bits).elems.length ≤ i / 8 := by
      rw [ofBits, length_packBytes]
      exact Nat.le_of_not_lt hi
    have hbit : bits.length ≤ i := by omega
    rw [stored, List.getD_eq_default _ _ hbyte, List.getD_eq_default _ _ hbit]
    exact Nat.zero_testBit _

theorem length_ofBits (bits : List Bool) : (ofBits bits).elems.length = (bits.length + 7) / 8 :=
  length_packBytes _ _

theorem toNat_extra_ofBits (bits : List Bool) : (ofBits bits).extra.toNat = bits.length % 8 := by
  rw [ofBits, UInt32.toNat_ofNat']
  omega

theorem count_ofBits (bits : List Bool) : (ofBits bits).count = bits.length := by
  have hextra := toNat_extra_ofBits bits
  have hzero : (ofBits bits).extra = 0 ↔ bits.length % 8 = 0 := by
    rw [← UInt32.toNat_inj, hextra]
    rfl
  rw [count]
  simp only [← List.length_eq_zero_iff, length_ofBits, hzero, hextra]
  split
  · omega
  · split <;> omega

theorem get_ofBits (bits : List Bool) (i : Nat) : (ofBits bits).get i = bits.getD i false := by
  rw [get_eq, stored_ofBits, count_ofBits]
  by_cases hi : i < bits.length
  · rw [decide_eq_true hi, Bool.true_and]
  · rw [decide_eq_false hi, Bool.false_and, List.getD_eq_default _ _ (Nat.le_of_not_lt hi)]

/-! ## Packing bit by bit -/

/-- Goes through a list of bits, the first of which has place `i`, and sets those that are set. -/
def setBits (a : BitArray) (i : Nat) : List Bool → BitArray
  | [] => a
  | b :: bits => setBits (if b then a.setBit i else a) (i + 1) bits

theorem shape_setBits (a : BitArray) (i : Nat) (bits : List Bool) :
    (a.setBits i bits).extra = a.extra ∧ (a.setBits i bits).elems.length = a.elems.length := by
  induction bits generalizing a i with
  | nil => exact ⟨rfl, rfl⟩
  | cons b bits ih =>
    obtain ⟨hextra, hlength⟩ := ih (if b then a.setBit i else a) (i + 1)
    rw [setBits, hextra, hlength]
    cases b
    · exact ⟨rfl, rfl⟩
    · exact ⟨rfl, a.length_setBit i⟩

theorem stored_setBits {a : BitArray} {j : Nat} (hj : j < 8 * a.elems.length) (i : Nat)
    (bits : List Bool) :
    (a.setBits i bits).stored j = (a.stored j || (decide (i ≤ j) && bits.getD (j - i) false)) := by
  induction bits generalizing a i with
  | nil => simp [setBits]
  | cons b bits ih =>
    have hset : (if b then a.setBit i else a).stored j = (a.stored j || (b && decide (i = j))) := by
      cases b
      · simp
      · rw [if_pos rfl, stored_setBit hj, Bool.true_and]
    have hj' : j < 8 * (if b then a.setBit i else a).elems.length := by
      cases b
      · exact hj
      · rwa [if_pos rfl, length_setBit]
    rw [setBits, ih hj', hset]
    -- the place is one that was passed, the one at hand or one still to come
    rcases Nat.lt_trichotomy i j with hlt | rfl | hlt
    · rw [show j - i = j - (i + 1) + 1 by omega, List.getD_cons_succ]
      simp [Nat.ne_of_lt hlt, Nat.le_of_lt hlt, Nat.succ_le_of_lt hlt]
    · simp
    · simp [Nat.ne_of_gt hlt, Nat.not_le_of_lt hlt, Nat.not_le_of_lt (Nat.lt_succ_of_lt hlt)]

/-- Packing starts from zero bytes and sets one bit after the other in its byte. -/
theorem ofBits_eq_setBits (bits : List Bool) :
    ofBits bits =
      setBits ⟨UInt32.ofNat (bits.length % 8), List.replicate ((bits.length + 7) / 8) 0⟩ 0 bits := by
  obtain ⟨hextra, hlength⟩ := shape_setBits
    ⟨UInt32.ofNat (bits.length % 8), List.replicate ((bits.length + 7) / 8) 0⟩ 0 bits
  rw [List.length_replicate] at hlength
  refine eq_of_stored hextra.symm ?_ fun i hi => ?_
  · rw [length_ofBits, hlength]
  · rw [length_ofBits] at hi
    rw [stored_ofBits, stored_setBits (by rwa [List.length_replicate])]
    -- a zero byte has no bit that is set
    have hzero : (List.replicate ((bits.length + 7) / 8) (0 : UInt8)).getD (i / 8) 0 = 0 := by
      rw [List.getD_eq_getElem?_getD, List.getElem?_replicate]
      split <;> rfl
    rw [stored, hzero, UInt8.toNat_zero, Nat.zero_testBit, Bool.false_or,
      decide_eq_true (Nat.zero_le i), Bool.true_and, Nat.sub_zero]

/-! ## Packing anew -/

theorem get_eq_false {a : BitArray} {i : Nat} (hi : a.count ≤ i) : a.get i = false := by
  rw [get_eq, decide_eq_false (Nat.not_lt.2 hi), Bool.false_and]

theorem length_toList (a : BitArray) : a.toList.length = a.count := by
  rw [toList, List.length_map, List.length_range]

theorem getD_toList (a : BitArray) (i : Nat) : a.toList.getD i false = a.get i := by
  by_cases hi : i < a.count
  · simp [toList, hi]
  · have hle := Nat.le_of_not_lt hi
    rw [get_eq_false hle, List.getD_eq_default _ _ (by rwa [length_toList])]

/-- An array as packing makes it: its extra bits are fewer than eight, and none without bytes, and
nothing is stored beyond the bits that count. -/
structure IsPacked (a : BitArray) : Prop where
  extra_lt : a.extra.toNat < 8
  extra_eq : a.elems = [] → a.extra = 0
  unset : ∀ i, a.count ≤ i → i < 8 * a.elems.length → a.stored i = false

theorem isPacked_ofBits (bits : List Bool) : (ofBits bits).IsPacked where
  extra_lt := by
    rw [toNat_extra_ofBits]
    exact Nat.mod_lt _ (by decide)
  extra_eq h := by
    have hlength := length_ofBits bits
    rw [h, List.length_nil] at hlength
    rw [← UInt32.toNat_inj, toNat_extra_ofBits]
    change bits.length % 8 = 0
    omega
  unset i hi _ := by
    rw [count_ofBits] at hi
    rw [stored_ofBits, List.getD_eq_default _ _ hi]

/-- The bits that count fill all bytes but the last, and of that one as many as are extra. -/
theorem IsPacked.count_eq {a : BitArray} (h : a.IsPacked) :
    a.count % 8 = a.extra.toNat ∧ (a.count + 7) / 8 = a.elems.length := by
  have hlt := h.extra_lt
  rw [count]
  split
  · rename_i hnil
    rw [h.extra_eq hnil, hnil]
    exact ⟨rfl, rfl⟩
  · rename_i hne
    have hpos := List.length_pos_iff.2 hne
    split
    · rename_i hzero
      rw [hzero, UInt32.toNat_zero]
      omega
    · rename_i hextra
      have : a.extra.toNat ≠ 0 := fun h0 => hextra (UInt32.toNat_inj.1 h0)
      omega

theorem IsPacked.ofBits_toList {a : BitArray} (h : a.IsPacked) : ofBits a.toList = a := by
  obtain ⟨hextra, hbytes⟩ := h.count_eq
  have hlength : (ofBits a.toList).elems.length = a.elems.length := by
    rw [length_ofBits, length_toList, hbytes]
  refine eq_of_stored ?_ hlength fun i hi => ?_
  · rw [← UInt32.toNat_inj, toNat_extra_ofBits, length_toList, hextra]
  · rw [stored_ofBits, getD_toList, get_eq]
    by_cases hcount : i < a.count
    · rw [decide_eq_true hcount, Bool.true_and]
    · rw [h.unset i (Nat.le_of_not_lt hcount) (hlength ▸ hi), Bool.and_false]

/-- **Bits are kept faithfully.** A list of bits becomes an array of as many bits, the same at every
place and unset from there on, with the fewest bytes that hold them. Of any array at all the bits that
count are no more than its bytes hold; packed anew they read the same, and give the array itself
exactly when it is packed. -/
theorem ofBits_represents :
    (∀ bits : List Bool, (ofBits bits).count = bits.length ∧
      (∀ (i : Nat) (hi : i < bits.length), (ofBits bits).get i = bits[i]) ∧
      (∀ i, bits.length ≤ i → (ofBits bits).get i = false) ∧
      (ofBits bits).elems.length = bits.length ⌈/⌉ 8) ∧
    (∀ a : BitArray, a.count ≤ 8 * a.elems.length ∧ (∀ i, a.count ≤ i → a.get i = false) ∧
      (ofBits ((List.range a.count).map a.get)).count = a.count ∧
      (∀ i, (ofBits ((List.range a.count).map a.get)).get i = a.get i) ∧
      (ofBits ((List.range a.count).map a.get) = a ↔ a.IsPacked)) := by
  refine ⟨fun bits => ⟨count_ofBits bits, fun i hi => ?_, fun i hi => ?_, ?_⟩,
    fun a => ⟨a.count_le, fun i hi => get_eq_false hi, ?_, fun i => ?_, fun h => ?_, fun h => ?_⟩⟩
  · rw [get_ofBits, List.getD_eq_getElem _ _ hi]
  · rw [get_ofBits, List.getD_eq_default _ _ hi]
  · rw [length_ofBits, Nat.ceilDiv_eq_add_pred_div]
    rfl
  · exact (count_ofBits _).trans a.length_toList
  · exact (get_ofBits _ i).trans (a.getD_toList i)
  · rw [← h]
    exact isPacked_ofBits _
  · exact h.ofBits_toList

/-- Three bits in a byte; an array that claims more bits than its byte holds is packed anew as another
one that reads the same. -/
theorem ofBits_of_oversized :
    (ofBits [true, false, true]).get 2 = true ∧ (ofBits [true, false, true]).get 3 = false ∧
      let a : BitArray := ⟨9, [0xA0]⟩
      a.count ≤ 8 ∧ a.get 8 = false ∧ (ofBits ((List.range a.count).map a.get)).get 2 = a.get 2 ∧
        ofBits ((List.range a.count).map a.get) ≠ a := by
  obtain ⟨hlist, harray⟩ := ofBits_represents
  obtain ⟨-, hget, hunset, -⟩ := hlist [true, false, true]
  obtain ⟨hcount, hpast, -, hsame, hpacked⟩ := harray ⟨9, [0xA0]⟩
  refine ⟨hget 2 (by decide), hunset 3 (by decide), hcount, hpast 8 (by decide), hsame 2, fun h => ?_⟩
  exact absurd (hpacked.1 h).extra_lt (by decide)

end TxLens.BitArray

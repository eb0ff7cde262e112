import Mathlib.Algebra.Group.Nat.Defs
import TxLens.Bech32.Checksum
/-!
# The checksum is determined by what it protects

One more symbol acts linearly on the residue and the symbol together. So the residue of a string and
six more symbols is the residue with six zeros in their place, plus the six symbols as they stand:
they fill the thirty bits and no more, which no feedback reaches. For each agreed constant there is
therefore exactly one checksum (`variant?_append_iff`).
-/

namespace TxLens.Bech32

/-! ## Linearity -/

theorem ite_xor (p q : Bool) (c : Residue) :
    (if (p ^^ q) = true then c else 0) =
      (if p = true then c else 0) ^^^ (if q = true then c else 0) := by
  cases p <;> cases q <;> simp

theorem feedback_xor (a b : Residue) : feedback (a ^^^ b) = feedback a ^^^ feedback b := by
  simp only [feedback, BitVec.getLsbD_xor, ite_xor]
  ac_rfl

theorem step_xor (a b : Residue) (u v : Symbol) :
    (a ^^^ b).step (u ^^^ v) = a.step u ^^^ b.step v := by
  simp only [Residue.step, feedback_xor, BitVec.shiftLeft_xor_distrib, BitVec.setWidth_xor]
  ac_rfl

/-- What symbols do to a residue is what as many zeros do, plus what they do to nothing. -/
theorem foldl_step_xor (vs : List Symbol) (a b : Residue) :
    vs.foldl Residue.step (a ^^^ b) =
      (List.replicate vs.length 0).foldl Residue.step a ^^^ vs.foldl Residue.step b := by
  induction vs generalizing a b with
  | nil => rfl
  | cons v vs ih =>
    have hstep : (a ^^^ b).step v = a.step 0 ^^^ b.step v := by
      have h := step_xor a b 0#5 v
      rw [BitVec.zero_xor] at h
      exact h
    rw [List.length_cons, List.replicate_succ, List.foldl_cons, List.foldl_cons, List.foldl_cons,
      hstep, ih]

theorem residue_append (us vs : List Symbol) :
    residue (us ++ vs) =
      residue (us ++ List.replicate vs.length 0) ^^^ vs.foldl Residue.step 0#30 := by
  rw [residue, residue, List.foldl_append, List.foldl_append, ← foldl_step_xor, BitVec.xor_zero]

/-! ## Six symbols fill a residue -/

/-- Where the five highest bits are clear, one more symbol is one more digit. -/
theorem toNat_step {r : Residue} (hr : r.toNat < 2 ^ 25) (v : Symbol) :
    (r.step v).toNat = 32 * r.toNat + v.toNat := by
  have hclear : ∀ i, 25 ≤ i → r.getLsbD i = false := by
    intro i hi
    exact Nat.testBit_lt_two_pow
      (Nat.lt_of_lt_of_le hr (Nat.pow_le_pow_right (by decide) hi))
  have hfeedback : feedback r = 0#30 := by
    rw [feedback, hclear 25 (by decide), hclear 26 (by decide), hclear 27 (by decide),
      hclear 28 (by decide), hclear 29 (by decide)]
    rfl
  have hand : (r <<< 5) &&& v.setWidth 30 = 0 := by
    apply BitVec.eq_of_getLsbD_eq
    intro i hi
    by_cases h5 : i < 5
    · simp [h5]
    · simp [BitVec.getLsbD_of_ge v i (by omega)]
  have hxor : (r <<< 5) ^^^ v.setWidth 30 = (r <<< 5) + v.setWidth 30 := by
    rw [BitVec.add_eq_or_of_and_eq_zero _ _ hand]
    apply BitVec.eq_of_getLsbD_eq
    intro i hi
    have hbit := congrArg (BitVec.getLsbD · i) hand
    rw [BitVec.getLsbD_xor, BitVec.getLsbD_or]
    simp only [BitVec.getLsbD_and] at hbit
    revert hbit
    cases (r <<< 5).getLsbD i <;> cases (v.setWidth 30).getLsbD i <;> simp
  have hv := v.isLt
  rw [Residue.step, hfeedback, BitVec.xor_zero, hxor, BitVec.toNat_add_of_and_eq_zero hand,
    BitVec.toNat_shiftLeft, BitVec.toNat_setWidth, Nat.shiftLeft_eq]
  omega

theorem toNat_foldl_step (a b c d e f : Symbol) :
    ([a, b, c, d, e, f].foldl Residue.step 0#30).toNat =
      32 * (32 * (32 * (32 * (32 * a.toNat + b.toNat) + c.toNat) + d.toNat) + e.toNat) + f.toNat := by
  have ha := a.isLt
  have hb := b.isLt
  have hc := c.isLt
  have hd := d.isLt
  have he := e.isLt
  have h1 : (Residue.step 0#30 a).toNat = a.toNat := by
    rw [toNat_step (by decide)]
    simp
  have h2 := toNat_step (r := Residue.step 0#30 a) (by omega) b
  have h3 := toNat_step (r := (Residue.step 0#30 a).step b) (by omega) c
  have h4 := toNat_step (r := ((Residue.step 0#30 a).step b).step c) (by omega) d
  have h5 := toNat_step (r := (((Residue.step 0#30 a).step b).step c).step d) (by omega) e
  have h6 := toNat_step (r := ((((Residue.step 0#30 a).step b).step c).step d).step e) (by omega) f
  simp only [List.foldl_cons, List.foldl_nil]
  omega

theorem symbols_foldl_step {cs : List Symbol} (h : cs.length = 6) :
    (cs.foldl Residue.step 0#30).symbols = cs := by
  match cs, h with
  | [a, b, c, d, e, f], _ =>
    have hsum := toNat_foldl_step a b c d e f
    have ha := a.isLt
    have hb := b.isLt
    have hc := c.isLt
    have hd := d.isLt
    have he := e.isLt
    have hf := f.isLt
    have digit : ∀ (start : Nat) (v : Symbol),
        ([a, b, c, d, e, f].foldl Residue.step 0#30).toNat / 2 ^ start % 32 = v.toNat →
          ([a, b, c, d, e, f].foldl Residue.step 0#30).extractLsb' start 5 = v := by
      intro start v hv
      apply BitVec.eq_of_toNat_eq
      rw [BitVec.extractLsb'_toNat, Nat.shiftRight_eq_div_pow]
      exact hv
    rw [Residue.symbols, digit 25 a (by omega), digit 20 b (by omega), digit 15 c (by omega),
      digit 10 d (by omega), digit 5 e (by omega), digit 0 f (by omega)]

theorem foldl_step_symbols (r : Residue) : r.symbols.foldl Residue.step 0#30 = r := by
  apply BitVec.eq_of_toNat_eq
  have hr := r.isLt
  rw [Residue.symbols, toNat_foldl_step]
  simp only [BitVec.extractLsb'_toNat, Nat.shiftRight_eq_div_pow]
  omega

/-! ## Checksums -/

/-- The six symbols that bring the residue to the constant of a variant. -/
def Variant.checksum (v : Variant) (hrp : List Char) (vs : List Symbol) : List Symbol :=
  Residue.symbols (residue (expandLabel hrp ++ vs ++ List.replicate 6 0) ^^^ v.target)

/-- The checksum that is written is the first variant's. -/
theorem checksum_eq (hrp : List Char) (vs : List Symbol) :
    checksum hrp vs = Variant.bech32.checksum hrp vs := rfl

@[simp] theorem Variant.length_checksum (v : Variant) (hrp : List Char) (vs : List Symbol) :
    (v.checksum hrp vs).length = 6 := rfl

theorem variant?_eq_some_iff {hrp : List Char} {vs : List Symbol} {v : Variant} :
    variant? hrp vs = some v ↔ residue (expandLabel hrp ++ vs) = v.target := by
  unfold variant?
  cases v with
  | bech32 =>
    by_cases h : residue (expandLabel hrp ++ vs) = Variant.target .bech32
    · simp only [h, if_true]
    · simp only [h, if_false]
      split <;> simp
  | bech32m =>
    by_cases h : residue (expandLabel hrp ++ vs) = Variant.target .bech32
    · simp only [h, if_true, Option.some.injEq, reduceCtorEq, false_iff]
      decide
    · simp only [h, if_false]
      split <;> simp_all

/-- Six symbols after others are a checksum in exactly one way. -/
theorem variant?_append_iff {hrp : List Char} {vs cs : List Symbol} {v : Variant}
    (h : cs.length = 6) : variant? hrp (vs ++ cs) = some v ↔ cs = v.checksum hrp vs := by
  rw [variant?_eq_some_iff, ← List.append_assoc, residue_append, h, Variant.checksum]
  constructor
  · intro hr
    rw [← hr, ← BitVec.xor_assoc, BitVec.xor_self, BitVec.zero_xor, symbols_foldl_step h]
  · intro hcs
    rw [hcs, foldl_step_symbols, ← BitVec.xor_assoc, BitVec.xor_self, BitVec.zero_xor]

end TxLens.Bech32

import TxLens.Proofs.Bech32.Checksum
/-!
# Bursts of changed symbols

Nothing that a residue knows is lost when more symbols are read: the five bits that a step pushes out
are fed back, and the five lowest bits of what is fed back tell them apart (`step_injective`). Six
symbols fill a residue, so two strings that differ in no more than six symbols in a row have different
residues behind them, and so they have at the end (`residue_ne_of_window`).
-/

namespace TxLens.Bech32

/-! ## One step loses nothing -/

/-- The generator's constants are independent in their five lowest bits. -/
theorem feedback_independent (p q r s t : Bool)
    (h : BitVec.setWidth 5 ((if p then 0x3b6a57b2#30 else 0) ^^^ (if q then 0x26508e6d#30 else 0) ^^^
      (if r then 0x1ea119fa#30 else 0) ^^^ (if s then 0x3d4233dd#30 else 0) ^^^
      (if t then 0x2a1462b3#30 else 0)) = 0) :
    p = false ∧ q = false ∧ r = false ∧ s = false ∧ t = false := by
  revert p q r s t
  decide

theorem lt_of_setWidth_feedback {r : Residue} (h : (feedback r).setWidth 5 = 0) :
    r.toNat < 2 ^ 25 := by
  obtain ⟨h25, h26, h27, h28, h29⟩ := feedback_independent _ _ _ _ _ h
  refine Nat.lt_pow_two_of_testBit r.toNat fun i hi => ?_
  show r.getLsbD i = false
  by_cases hlt : i < 30
  · obtain rfl | rfl | rfl | rfl | rfl : i = 25 ∨ i = 26 ∨ i = 27 ∨ i = 28 ∨ i = 29 := by omega
    · exact h25
    · exact h26
    · exact h27
    · exact h28
    · exact h29
  · exact BitVec.getLsbD_of_ge r i (Nat.le_of_not_lt hlt)

theorem setWidth_step_zero (r : Residue) : (r.step 0).setWidth 5 = (feedback r).setWidth 5 := by
  apply BitVec.eq_of_getLsbD_eq
  intro i hi
  simp [Residue.step, hi]

/-- Only the residue zero is followed by zero. -/
theorem eq_zero_of_step_zero {r : Residue} (h : r.step 0 = 0) : r = 0 := by
  have hlow : (feedback r).setWidth 5 = 0 := by
    rw [← setWidth_step_zero, h]
    rfl
  have hsum : 0 = 32 * r.toNat + 0 :=
    (congrArg BitVec.toNat h).symm.trans (toNat_step (lt_of_setWidth_feedback hlow) 0)
  apply BitVec.eq_of_toNat_eq
  show r.toNat = 0
  omega

theorem step_injective {a b : Residue} {v : Symbol} (h : a.step v = b.step v) : a = b := by
  have hzero : (a ^^^ b).step 0 = 0 := by
    have hxor := step_xor a b v v
    rw [h, BitVec.xor_self, BitVec.xor_self] at hxor
    exact hxor
  exact BitVec.xor_eq_zero_iff.1 (eq_zero_of_step_zero hzero)

theorem foldl_step_injective {vs : List Symbol} {a b : Residue}
    (h : vs.foldl Residue.step a = vs.foldl Residue.step b) : a = b := by
  induction vs generalizing a b with
  | nil => exact h
  | cons v vs ih => exact step_injective (ih h)

/-! ## Six symbols in a row -/

/-- Six symbols between the same others are determined by the residue of the whole. -/
theorem eq_of_residue_eq {us ws ws' vs : List Symbol} (hlen : ws.length = 6) (hlen' : ws'.length = 6)
    (h : residue (us ++ ws ++ vs) = residue (us ++ ws' ++ vs)) : ws = ws' := by
  have hmid : residue (us ++ ws) = residue (us ++ ws') := by
    simp only [residue, List.foldl_append] at h ⊢
    exact foldl_step_injective h
  rw [residue_append, residue_append us ws', hlen, hlen'] at hmid
  have hown : ws.foldl Residue.step 0#30 = ws'.foldl Residue.step 0#30 := by
    simpa using hmid
  rw [← symbols_foldl_step hlen, hown, symbols_foldl_step hlen']

/-- A list is what stands before six places of it, in them and behind them. -/
theorem window_split {α : Type} (l : List α) (k : Nat) :
    l = l.take k ++ (l.drop k).take 6 ++ l.drop (k + 6) := by
  rw [← List.drop_drop, List.append_assoc, List.take_append_drop, List.take_append_drop]

/-- **Bursts change the residue**: strings of the same length, of which all differences lie within six
places, have different residues behind the same symbols. -/
theorem residue_ne_of_window {us vs vs' : List Symbol} {k : Nat} (hlen : vs'.length = vs.length)
    (hsix : 6 ≤ vs.length) (hwindow : ∀ i, vs'[i]? ≠ vs[i]? → k ≤ i ∧ i < k + 6) (hne : vs' ≠ vs) :
    residue (us ++ vs') ≠ residue (us ++ vs) := by
  -- a window that overhangs is moved to the front until it does not
  obtain ⟨m, hm, hsame⟩ : ∃ m, m + 6 ≤ vs.length ∧
      ∀ i, i < m ∨ m + 6 ≤ i → vs'[i]? = vs[i]? := by
    refine ⟨min k (vs.length - 6), by omega, fun i hi => ?_⟩
    by_cases hlt : i < vs.length
    · refine Decidable.byContradiction fun hdiff => ?_
      have := hwindow i hdiff
      omega
    · rw [List.getElem?_eq_none (by omega), List.getElem?_eq_none (by omega)]
  have hfront : vs'.take m = vs.take m := by
    apply List.ext_getElem?
    intro i
    rw [List.getElem?_take, List.getElem?_take]
    split
    · exact hsame i (.inl ‹_›)
    · rfl
  have hback : vs'.drop (m + 6) = vs.drop (m + 6) := by
    apply List.ext_getElem?
    intro i
    rw [List.getElem?_drop, List.getElem?_drop]
    exact hsame _ (.inr (Nat.le_add_right _ _))
  intro h
  apply hne
  have hmid : (vs'.drop m).take 6 = (vs.drop m).take 6 := by
    rw [window_split vs m, window_split vs' m, hfront, hback, ← List.append_assoc,
      ← List.append_assoc, ← List.append_assoc, ← List.append_assoc] at h
    exact eq_of_residue_eq (by simp; omega) (by simp; omega) h
  rw [window_split vs' m, window_split vs m, hfront, hmid, hback]

end TxLens.Bech32

import TxLens.Config
import TxLens.Proofs.Address.Classes
/-!
# What validation accepts

A configuration is accepted with any labels that are not empty. That is not enough for its address
classes to work: an accepted one has classes that all work exactly when its labels are acceptable and
pairwise different (`accepted_classes_work_iff`), and one with a label in upper case is accepted though
no address is recognised under it (`unrecognised_under_upperCase`).
-/

namespace TxLens.Config

open Address

/-- What is asked of a configuration's fees: a denomination, and a window that does not end before it
begins unless it is disabled. -/
structure FeesAcceptable (f : FeeConfig) : Prop where
  denom : f.utilityDenom ≠ ""
  window : ∀ w, f.bugWindow = some w → w.start ≠ 0 → w.start ≤ w.last

theorem defect?_eq_none_iff {c : Config} :
    c.defect? = none ↔ (∀ cls, c.labels.ofClass cls ≠ "") ∧ FeesAcceptable c.fees := by
  have hlabels : (∀ cls, c.labels.ofClass cls ≠ "") ↔ ¬ (c.labels.account = "" ∨
      c.labels.validatorOperator = "" ∨ c.labels.validatorConsensus = "") := by
    rw [not_or, not_or]
    constructor
    · exact fun h => ⟨h .account, h .validatorOperator, h .validatorConsensus⟩
    · rintro ⟨ha, ho, hc⟩ cls
      cases cls with
      | account => exact ha
      | validatorOperator => exact ho
      | validatorConsensus => exact hc
  rw [defect?, hlabels]
  by_cases hl : c.labels.account = "" ∨ c.labels.validatorOperator = "" ∨
      c.labels.validatorConsensus = ""
  · simp [hl]
  · rw [if_neg hl]
    by_cases hd : c.fees.utilityDenom = ""
    · rw [if_pos hd]
      exact ⟨fun h => (by cases h), fun h => absurd hd h.2.denom⟩
    · rw [if_neg hd]
      have hwindow : FeesAcceptable c.fees ↔
          ∀ w, c.fees.bugWindow = some w → w.start ≠ 0 → w.start ≤ w.last :=
        ⟨fun h => h.window, fun h => ⟨hd, h⟩⟩
      rw [hwindow]
      cases hw : c.fees.bugWindow with
      | none => simp [hl]
      | some w => simp [hl, HeightRange.isEnabled]

theorem validate_eq_ok_iff {c : Config} : c.validate = .ok c ↔ c.defect? = none := by
  rw [validate]
  cases c.defect? <;> simp

/-- **Which configurations have working classes.** A class works exactly when its label is acceptable
as it stands and no class before it has the same one. So all classes of an accepted configuration work
exactly when all its labels are acceptable and no two are the same. Validation does not see to that: of
the labels it asks no more than that none is empty. -/
theorem accepted_classes_work_iff (c : Config) :
    (∀ cls, c.labels.Works cls ↔
      Bech32.IsLabel (c.labels.ofClass cls).toList ∧ c.labels.IsFirst cls) ∧
    (c.validate = .ok c → ((∀ cls, c.labels.Works cls) ↔ c.labels.Proper)) ∧
    (c.validate = .ok c ∧ (∀ cls, c.labels.Works cls) ↔
      c.labels.Proper ∧ FeesAcceptable c.fees) ∧
    (c.validate = .ok c ↔ (∀ cls, c.labels.ofClass cls ≠ "") ∧ FeesAcceptable c.fees) := by
  have haccepted := validate_eq_ok_iff.trans (defect?_eq_none_iff (c := c))
  refine ⟨fun cls => Labels.works_iff, fun _ => Labels.forall_works_iff, ?_, haccepted⟩
  rw [haccepted, Labels.forall_works_iff]
  constructor
  · rintro ⟨⟨-, hfees⟩, hproper⟩
    exact ⟨hproper, hfees⟩
  · rintro ⟨hproper, hfees⟩
    exact ⟨⟨hproper.ofClass_ne_empty, hfees⟩, hproper⟩

/-- A label in upper case is accepted, and what is rendered under it is in lower case. -/
theorem unrecognised_under_upperCase :
    let c : Config := ⟨⟨"PB", "pbvaloper", "pbvalcons"⟩, .standard⟩
    c.validate = .ok c ∧
    c.labels.encodeAs .account (List.replicate 20 0) =
      .ok "pb1qqqqqqqqqqqqqqqqqqqqqqqqqqqqqqqq6dt62p" ∧
    c.labels.classify? "pb1qqqqqqqqqqqqqqqqqqqqqqqqqqqqqqqq6dt62p" = none ∧
    ¬ ∀ cls, c.labels.Works cls := by
  intro c
  have hrender : c.labels.encodeAs .account (List.replicate 20 0) =
      .ok "pb1qqqqqqqqqqqqqqqqqqqqqqqqqqqqqqqq6dt62p" := by
    rw [← toOption_eq_some_iff]
    decide +kernel
  have hnone : c.labels.classify? "pb1qqqqqqqqqqqqqqqqqqqqqqqqqqqqqqqq6dt62p" = none := by
    rw [Labels.classify?_of_encodeAs hrender]
    decide +kernel
  refine ⟨rfl, hrender, hnone, fun h => ?_⟩
  obtain ⟨t, ht, hclass⟩ := h .account (List.replicate 20 0) (.inl rfl)
  rw [hrender] at ht
  cases ht
  rw [hnone] at hclass
  cases hclass

end TxLens.Config

import Mathlib.Data.List.Forall2
import TxLens.Proofs.Event.Accounts
import TxLens.Proofs.Fee.Surcharge
import TxLens.Summary
/-!
# When a transaction is summarised

A transaction is summarised when all its messages have signers and its list of surcharges, if an event
carries one, can be read. The first message at fault is reported before anything is said about the
list. A summary then holds what its parts say, each asked on its own (`ofOutcome_verdict`).
-/

namespace TxLens

/-! ## All results or the first fault -/

theorem mapM_eq_ok_iff {ε α β : Type} {f : α → Except ε β} {as : List α} {bs : List β} :
    as.mapM f = .ok bs ↔ List.Forall₂ (fun a b => f a = .ok b) as bs := by
  induction as generalizing bs with
  | nil =>
    rw [List.mapM_nil, List.forall₂_nil_left_iff]
    exact ⟨fun h => (Except.ok.inj h).symm, fun h => h ▸ rfl⟩
  | cons a as ih =>
    rw [List.mapM_cons, List.forall₂_cons_left_iff]
    cases ha : f a with
    | error e =>
      refine ⟨fun h => (by cases h), ?_⟩
      rintro ⟨b, bs, h, -, -⟩
      cases h
    | ok b =>
      cases hr : as.mapM f with
      | error e =>
        refine ⟨fun h => (by cases h), ?_⟩
        rintro ⟨b, bs, -, h, -⟩
        rw [ih.2 h] at hr
        cases hr
      | ok cs =>
        constructor
        · intro h
          cases h
          exact ⟨b, cs, rfl, ih.1 hr, rfl⟩
        · rintro ⟨b, bs, hb, h, rfl⟩
          cases hb
          rw [ih.2 h] at hr
          cases hr
          rfl

def fault? {ε β : Type} : Except ε β → Option ε
  | .error e => some e
  | .ok _ => none

theorem fault?_eq_some_iff {ε β : Type} {x : Except ε β} {e : ε} :
    fault? x = some e ↔ x = .error e := by
  cases x <;> simp [fault?]

theorem fault?_eq_none_iff {ε β : Type} {x : Except ε β} : fault? x = none ↔ ∃ b, x = .ok b := by
  cases x <;> simp [fault?]

theorem fault?_mapM {ε α β : Type} (f : α → Except ε β) (as : List α) :
    fault? (as.mapM f) = as.findSome? fun a => fault? (f a) := by
  induction as with
  | nil => rfl
  | cons a as ih =>
    rw [List.mapM_cons, List.findSome?_cons, ← ih]
    cases f a with
    | error e => rfl
    | ok b => cases as.mapM f <;> rfl

theorem mapM_eq_error_iff {ε α β : Type} {f : α → Except ε β} {as : List α} {e : ε} :
    as.mapM f = .error e ↔ ∃ before a after, as = before ++ a :: after ∧
      (∀ b ∈ before, ∃ c, f b = .ok c) ∧ f a = .error e := by
  rw [← fault?_eq_some_iff, fault?_mapM, List.findSome?_eq_some_iff]
  simp only [fault?_eq_some_iff, fault?_eq_none_iff]
  constructor
  · rintro ⟨before, a, after, h, ha, hbefore⟩
    exact ⟨before, a, after, h, hbefore, ha⟩
  · rintro ⟨before, a, after, h, hbefore, ha⟩
    exact ⟨before, a, after, h, ha, hbefore⟩

theorem exists_mapM_eq_ok_iff {ε α β : Type} {f : α → Except ε β} {as : List α} :
    (∃ bs, as.mapM f = .ok bs) ↔ ∀ a ∈ as, ∃ b, f a = .ok b := by
  rw [← fault?_eq_none_iff, fault?_mapM, List.findSome?_eq_none_iff]
  simp only [fault?_eq_none_iff]

/-! ## The fee's source -/

/-- The default formula decides for a success inside the bug window without surcharges, and never
else. -/
theorem resolveFee_source_eq_bugWindowDefault_iff {c : FeeConfig} {lookup : FeeLookup Id} {o : Outcome}
    {hasSurcharges : Bool} :
    (resolveFee c lookup o hasSurcharges).run.source = .bugWindowDefault ↔
      o.response.code = 0 ∧ Tier.InBugWindow c o.height ∧ hasSurcharges = false := by
  constructor
  · intro h
    obtain ⟨t, ht, hg, hs⟩ := (firstTier_resolveFee c lookup o hasSurcharges).exists_tier
    rw [h] at hs
    by_cases hcode : o.response.code = 0
    · rw [Tier.all, if_pos hcode] at ht
      simp only [Tier.ofSuccess, List.mem_cons, List.not_mem_nil, or_false] at ht
      rcases ht with rfl | rfl | rfl | rfl
      · exact ⟨hcode, hg.1⟩
      · cases hs
      · cases hs
      · cases hs
    · rw [Tier.all, if_neg hcode] at ht
      simp only [Tier.ofFailure, List.mem_cons, List.not_mem_nil, or_false] at ht
      rcases ht with rfl | rfl | rfl | rfl | rfl <;> cases hs
  · rintro ⟨hcode, hwindow, rfl⟩
    rw [← inBugWindow_iff] at hwindow
    simp [resolveFee, Resolution.ofSuccess, Outcome.isSuccess, hcode, hwindow]

/-! ## Summaries -/

namespace Summary

variable {r : Registry SignerRule} {c : Config} {lookup : FeeLookup Id} {o : Outcome}

/-- Signers come first, then the surcharges, and with them the fee. -/
theorem ofOutcome_run :
    (ofOutcome r c lookup o).run =
      match signersOfMessages r o with
      | .error f => .error (.signer f)
      | .ok signers =>
        match (Surcharge.identify lookup o o.height).run with
        | .error f => .error (.surcharge f)
        | .ok surcharges => .ok (assemble c o signers surcharges
            (resolveFee c.fees lookup o !surcharges.isEmpty).run) := by
  rw [ofOutcome]
  cases signersOfMessages r o with
  | error f => rfl
  | ok signers =>
    simp only [Id.run_bind]
    cases (Surcharge.identify lookup o o.height).run <;> rfl

theorem ofOutcome_eq_signer_iff {f : SignerFault} :
    (ofOutcome r c lookup o).run = .error (.signer f) ↔ signersOfMessages r o = .error f := by
  rw [ofOutcome_run]
  cases signersOfMessages r o with
  | error f' => simp
  | ok signers => cases (Surcharge.identify lookup o o.height).run <;> simp

theorem ofOutcome_eq_surcharge_iff {f : Surcharge.Fault} :
    (ofOutcome r c lookup o).run = .error (.surcharge f) ↔
      (∃ signers, signersOfMessages r o = .ok signers) ∧
        (Surcharge.identify lookup o o.height).run = .error f := by
  rw [ofOutcome_run]
  cases signersOfMessages r o with
  | error f' => simp
  | ok signers => cases (Surcharge.identify lookup o o.height).run <;> simp

theorem ofOutcome_eq_ok_iff {s : Summary} :
    (ofOutcome r c lookup o).run = .ok s ↔ ∃ signers surcharges,
      signersOfMessages r o = .ok signers ∧
      (Surcharge.identify lookup o o.height).run = .ok surcharges ∧
      s = assemble c o signers surcharges (resolveFee c.fees lookup o !surcharges.isEmpty).run := by
  rw [ofOutcome_run]
  cases signersOfMessages r o with
  | error f' => simp
  | ok signers => cases (Surcharge.identify lookup o o.height).run <;> simp [eq_comm]

/-- What a summary says, part by part. -/
structure Describes (r : Registry SignerRule) (c : Config) (lookup : FeeLookup Id) (o : Outcome)
    (s : Summary) : Prop where
  /-- The signers of each message, one list a message. -/
  messageSigners : List.Forall₂ (fun e l => r.signersOf e = .ok l) o.messages s.messageSigners
  messageTypes : List.Forall₂ (fun e t => t = MessageType.ofTypeUrl e.typeUrl) o.messages s.messageTypes
  addresses : Events.IsFirstMention (s.messageSigners.flatten ++ Events.named o.events) s.addresses
  surcharges : (Surcharge.identify lookup o o.height).run = .ok s.surcharges
  resolution : s.resolution = (resolveFee c.fees lookup o (decide (s.surcharges ≠ []))).run
  /-- When the fee comes from the default formula. -/
  bugWindowDefault : s.resolution.source = .bugWindowDefault ↔
    o.response.code = 0 ∧ Tier.InBugWindow c.fees o.height ∧ s.surcharges = []

theorem describes_assemble {signers : List (List String)} {surcharges : List Surcharge}
    (hs : signersOfMessages r o = .ok signers)
    (hi : (Surcharge.identify lookup o o.height).run = .ok surcharges) :
    Describes r c lookup o (assemble c o signers surcharges
      (resolveFee c.fees lookup o !surcharges.isEmpty).run) := by
  have hflag : (!surcharges.isEmpty) = decide (surcharges ≠ []) := by
    cases surcharges <;> simp
  have haddresses := Events.touched_isFirstMention signers.flatten o.events
  rw [Events.accounts_eq_named] at haddresses
  refine ⟨mapM_eq_ok_iff.1 hs, ?_, haddresses, hi, ?_, ?_⟩
  · exact List.forall₂_map_right_iff.2 (List.forall₂_same.2 fun e _ => rfl)
  · exact congrArg (fun b => (resolveFee c.fees lookup o b).run) hflag
  · refine resolveFee_source_eq_bugWindowDefault_iff.trans ?_
    simp [assemble]

/-- **When a transaction is summarised, and what the summary says.** It is exactly when every message
has signers and no event carries a list of surcharges or the first one can be read. The first message
at fault is the fault of the whole whatever the events hold; the list is only blamed when no message
is at fault. -/
theorem ofOutcome_verdict (r : Registry SignerRule) (c : Config) (lookup : FeeLookup Id) (o : Outcome) :
    ((∃ s, (ofOutcome r c lookup o).run = .ok s) ↔
      (∀ e ∈ o.messages, ∃ l, r.signersOf e = .ok l) ∧
      ((∀ e ∈ o.events, ¬ e.Carries Surcharge.listEvent Surcharge.listKey) ∨
        ∃ list, Events.FirstValue o.events Surcharge.listEvent Surcharge.listKey list ∧
          Surcharge.IsList list)) ∧
    (∀ f, (ofOutcome r c lookup o).run = .error (.signer f) ↔
      ∃ before e after, o.messages = before ++ e :: after ∧
        (∀ b ∈ before, ∃ l, r.signersOf b = .ok l) ∧ r.signersOf e = .error f) ∧
    (∀ f, (ofOutcome r c lookup o).run = .error (.surcharge f) ↔
      (∀ e ∈ o.messages, ∃ l, r.signersOf e = .ok l) ∧
      ∃ list, Events.FirstValue o.events Surcharge.listEvent Surcharge.listKey list ∧
        ¬ Surcharge.IsList list) ∧
    (∀ s, (ofOutcome r c lookup o).run = .ok s → Describes r c lookup o s) := by
  refine ⟨?_, fun f => ?_, fun f => ?_, fun s h => ?_⟩
  · rw [← @Surcharge.exists_identify_eq_ok_iff lookup o o.height, ← exists_mapM_eq_ok_iff]
    simp only [ofOutcome_eq_ok_iff]
    constructor
    · rintro ⟨-, signers, surcharges, hs, hi, -⟩
      exact ⟨⟨signers, hs⟩, ⟨surcharges, hi⟩⟩
    · rintro ⟨⟨signers, hs⟩, ⟨surcharges, hi⟩⟩
      exact ⟨_, signers, surcharges, hs, hi, rfl⟩
  · rw [ofOutcome_eq_signer_iff]
    exact mapM_eq_error_iff
  · rw [ofOutcome_eq_surcharge_iff, Surcharge.identify_eq_error_iff, ← exists_mapM_eq_ok_iff]
    rfl
  · obtain ⟨signers, surcharges, hs, hi, rfl⟩ := ofOutcome_eq_ok_iff.1 h
    exact describes_assemble hs hi

end Summary

end TxLens

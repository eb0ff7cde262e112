import TxLens.Fee.Memo
import TxLens.Fee.Resolution
import TxLens.Fee.Surcharge
/-!
# What is asked of a schedule

Whatever works out a fee asks a look-up and goes on with the answer. An inquiry lays such a
computation out as the tree of its questions, so that others can get a turn between a question and
its answer. Nothing is lost: with its questions put to a look-up, it is what is worked out for that
look-up (`run_resolveFee`, `Surcharge.run_identify`).
-/

namespace TxLens

inductive Question where
  | fees (height : Nat)
  | floorPrice (height : Nat)
  deriving DecidableEq

namespace Question

@[reducible]
def Answer : Question → Type
  | .fees _ => List ScheduledFee
  | .floorPrice _ => Option Nat

/-- The height whose fees are asked for. -/
def feesHeight? : Question → Option Nat
  | .fees height => some height
  | .floorPrice _ => none

end Question

def FeeLookup.answer {m : Type → Type} (l : FeeLookup m) : (q : Question) → m q.Answer
  | .fees height => l.fees height
  | .floorPrice height => l.floorPrice height

/-- A computation that puts questions, each of which may depend on the answers before. -/
inductive Inquiry (α : Type) : Type where
  | done (a : α)
  | ask (q : Question) (next : q.Answer → Inquiry α)

namespace Inquiry

variable {α β : Type}

def bind : Inquiry α → (α → Inquiry β) → Inquiry β
  | .done a, f => f a
  | .ask q next, f => .ask q fun a => (next a).bind f

instance : Monad Inquiry where
  pure := .done
  bind := bind

/-- The look-up that leaves its questions open. -/
def lookup : FeeLookup Inquiry where
  fees height := .ask (.fees height) .done
  floorPrice height := .ask (.floorPrice height) .done

/-! ## Putting the questions to a look-up -/

section
variable {n : Type → Type} [Monad n]

/-- The computation with its questions put to a look-up. -/
def run (l : FeeLookup n) : Inquiry α → n α
  | .done a => pure a
  | .ask q next => do
    let a ← l.answer q
    (next a).run l

@[simp] theorem run_pure (l : FeeLookup n) (a : α) : (pure a : Inquiry α).run l = pure a := rfl

@[simp] theorem run_bind [LawfulMonad n] (l : FeeLookup n) (p : Inquiry α) (f : α → Inquiry β) :
    (p >>= f).run l = p.run l >>= fun a => (f a).run l := by
  induction p with
  | done a => exact (pure_bind a fun a => (f a).run l).symm
  | ask q next ih =>
    calc (Inquiry.ask q next >>= f).run l
        = l.answer q >>= fun a => (next a >>= f).run l := rfl
      _ = l.answer q >>= fun a => (next a).run l >>= fun b => (f b).run l :=
          bind_congr ih
      _ = (Inquiry.ask q next).run l >>= fun b => (f b).run l := (bind_assoc ..).symm

@[simp] theorem run_lookup_fees [LawfulMonad n] (l : FeeLookup n) (height : Nat) :
    (lookup.fees height).run l = l.fees height := bind_pure (l.fees height)

@[simp] theorem run_lookup_floorPrice [LawfulMonad n] (l : FeeLookup n) (height : Nat) :
    (lookup.floorPrice height).run l = l.floorPrice height := bind_pure (l.floorPrice height)

end

/-! ## How many questions are put -/

section
variable (inner : FeeLookup Id)

/-- The number of questions put if `inner` answers them. -/
def size : Inquiry α → Nat
  | .done _ => 0
  | .ask q next => (next (inner.answer q)).size + 1

@[simp] theorem size_pure (a : α) : (pure a : Inquiry α).size inner = 0 := rfl

@[simp] theorem size_bind (p : Inquiry α) (f : α → Inquiry β) :
    (p >>= f).size inner = p.size inner + (f (p.run inner)).size inner := by
  induction p with
  | done a => exact (Nat.zero_add _).symm
  | ask q next ih =>
    calc (Inquiry.ask q next >>= f).size inner
        = (next (inner.answer q) >>= f).size inner + 1 := rfl
      _ = (next (inner.answer q)).size inner
            + (f ((next (inner.answer q)).run inner)).size inner + 1 := by rw [ih]
      _ = (Inquiry.ask q next).size inner
            + (f ((Inquiry.ask q next).run inner)).size inner := Nat.add_right_comm ..

@[simp] theorem size_lookup_fees (height : Nat) : (lookup.fees height).size inner = 1 := rfl

@[simp] theorem size_lookup_floorPrice (height : Nat) :
    (lookup.floorPrice height).size inner = 1 := rfl

end

end Inquiry

/-! ## Fees and surcharges as inquiries -/

section
variable {n : Type → Type} [Monad n] [LawfulMonad n] (c : FeeConfig) (l : FeeLookup n) (o : Outcome)

open Inquiry (lookup)

namespace Resolution

theorem run_defaultBaseFee :
    (defaultBaseFee c lookup o).run l = defaultBaseFee c l o := by
  simp [defaultBaseFee]

theorem run_ofSuccess (hasSurcharges : Bool) :
    (ofSuccess c lookup o hasSurcharges).run l = ofSuccess c l o hasSurcharges := by
  unfold ofSuccess
  split
  · simp [run_defaultBaseFee]
  · cases eventFee? c o Outcome.txEvent baseFeeKey with
    | some fee => rfl
    | none => cases eventFee? c o Outcome.txEvent feeKey <;> rfl

theorem run_ofFailure : (ofFailure c lookup o).run l = ofFailure c l o := by
  unfold ofFailure
  cases eventFee? c o Outcome.txEvent minFeeChargedKey with
  | some fee => rfl
  | none =>
    cases eventFee? c o coinSpentEvent coinSpentKey with
    | some fee => rfl
    | none =>
      dsimp only
      split
      · rfl
      · rw [Inquiry.run_bind, Inquiry.run_lookup_fees]
        refine bind_congr fun fees => ?_
        split
        · rfl
        · simp [run_defaultBaseFee]

end Resolution

theorem run_resolveFee (hasSurcharges : Bool) :
    (resolveFee c lookup o hasSurcharges).run l = resolveFee c l o hasSurcharges := by
  unfold resolveFee
  split
  · exact Resolution.run_ofSuccess c l o hasSurcharges
  · exact Resolution.run_ofFailure c l o

theorem Surcharge.run_identify (height : Nat) :
    (Surcharge.identify lookup o height).run l = Surcharge.identify l o height := by
  unfold Surcharge.identify
  cases Surcharge.list? o with
  | some list => rfl
  | none => simp

end

section
variable (inner : FeeLookup Id) (c : FeeConfig) (o : Outcome)

open Inquiry (lookup)

namespace Resolution

theorem size_defaultBaseFee : (defaultBaseFee c lookup o).size inner = 1 := by
  simp [defaultBaseFee]

theorem size_ofSuccess (hasSurcharges : Bool) :
    (ofSuccess c lookup o hasSurcharges).size inner ≤ 1 := by
  unfold ofSuccess
  split
  · simp [size_defaultBaseFee]
  · cases eventFee? c o Outcome.txEvent baseFeeKey with
    | some fee => simp
    | none => cases eventFee? c o Outcome.txEvent feeKey <;> simp

theorem size_ofFailure : (ofFailure c lookup o).size inner ≤ 2 := by
  unfold ofFailure
  cases eventFee? c o Outcome.txEvent minFeeChargedKey with
  | some fee => simp
  | none =>
    cases eventFee? c o coinSpentEvent coinSpentKey with
    | some fee => simp
    | none =>
      dsimp only
      split
      · simp
      · rw [Inquiry.size_bind, Inquiry.size_lookup_fees]
        split <;> simp [size_defaultBaseFee]

end Resolution

/-- A fee takes at most two questions: whether there are fees at all, and what gas costs. -/
theorem size_resolveFee (hasSurcharges : Bool) :
    (resolveFee c lookup o hasSurcharges).size inner ≤ 2 := by
  unfold resolveFee
  split
  · exact Nat.le_succ_of_le (Resolution.size_ofSuccess inner c o hasSurcharges)
  · exact Resolution.size_ofFailure inner c o

theorem Surcharge.size_identify (height : Nat) :
    (Surcharge.identify lookup o height).size inner ≤ 1 := by
  unfold Surcharge.identify
  cases Surcharge.list? o with
  | some list => simp
  | none => simp

end

end TxLens

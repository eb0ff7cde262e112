import TxLens.Config
import TxLens.Outcome
/-!
# The fee that was paid

A node reports fees in several places. They are tried in a fixed order and the first that is there
decides, also when its value cannot be read: it then counts as zero.
-/

namespace TxLens

/-- Where a fee was found. -/
inductive FeeSource where
  | bugWindowDefault
  | baseFeeEvent
  | feeEvent
  | declaredFee
  | minFeeChargedEvent
  | coinSpentEvent
  | noChargeRejection
  | cappedDefault
  deriving DecidableEq

def FeeSource.name : FeeSource → String
  | .bugWindowDefault => "bug_window_default"
  | .baseFeeEvent => "base_fee_event"
  | .feeEvent => "fee_event"
  | .declaredFee => "declared_fee"
  | .minFeeChargedEvent => "min_fee_charged_event"
  | .coinSpentEvent => "coin_spent_event"
  | .noChargeRejection => "no_charge_rejection"
  | .cappedDefault => "capped_default"

structure Resolution where
  fee : Money
  source : FeeSource
  deriving DecidableEq

namespace Resolution

variable {m : Type → Type} [Monad m]

/-! ## Candidates -/

def baseFeeKey : String := "basefee"

def feeKey : String := "fee"

def minFeeChargedKey : String := "min_fee_charged"

def coinSpentEvent : String := "coin_spent"

def coinSpentKey : String := "amount"

/-- The fee on an event, if one carries the key. Without a denomination it is in the utility one. -/
def eventFee? (c : FeeConfig) (o : Outcome) (type key : String) : Option Money :=
  (Events.find? o.events type key none).map fun value =>
    match Money.ofText? value with
    | none => ⟨0, c.utilityDenom⟩
    | some money => if money.denom = "" then ⟨money.amount, c.utilityDenom⟩ else money

/-- What the payer offered in the utility denomination. -/
def declared (c : FeeConfig) (o : Outcome) : Money := ⟨o.declaredTotal c.utilityDenom, c.utilityDenom⟩

/-- The gas asked for times the floor price at the height. -/
def defaultBaseFee (c : FeeConfig) (lookup : FeeLookup m) (o : Outcome) : m Nat := do
  let price ← lookup.floorPrice o.height
  pure (Amount.mul o.gasWanted (price.getD c.defaultGasPrice))

/-! ## The order of candidates -/

/-- The fee of a transaction that succeeded. Inside the bug window events are not trusted, unless
there are surcharges. -/
def ofSuccess (c : FeeConfig) (lookup : FeeLookup m) (o : Outcome) (hasSurcharges : Bool) :
    m Resolution :=
  if c.inBugWindow o.height && !hasSurcharges then do
    let amount ← defaultBaseFee c lookup o
    pure ⟨⟨amount, c.utilityDenom⟩, .bugWindowDefault⟩
  else match eventFee? c o Outcome.txEvent baseFeeKey with
    | some fee => pure ⟨fee, .baseFeeEvent⟩
    | none =>
      match eventFee? c o Outcome.txEvent feeKey with
      | some fee => pure ⟨fee, .feeEvent⟩
      | none => pure ⟨declared c o, .declaredFee⟩

/-- The fee of a transaction that failed. -/
def ofFailure (c : FeeConfig) (lookup : FeeLookup m) (o : Outcome) : m Resolution :=
  match eventFee? c o Outcome.txEvent minFeeChargedKey with
  | some fee => pure ⟨fee, .minFeeChargedEvent⟩
  | none =>
    match eventFee? c o coinSpentEvent coinSpentKey with
    | some fee => pure ⟨fee, .coinSpentEvent⟩
    | none =>
      if o.isNoChargeRejection then pure ⟨⟨0, c.utilityDenom⟩, .noChargeRejection⟩
      else do
        let fees ← lookup.fees o.height
        if fees.isEmpty then pure ⟨declared c o, .declaredFee⟩
        else do
          let amount ← defaultBaseFee c lookup o
          pure ⟨⟨min amount (declared c o).amount, c.utilityDenom⟩, .cappedDefault⟩

end Resolution

/-- The fee that a transaction paid, and where it was found. -/
def resolveFee {m : Type → Type} [Monad m] (c : FeeConfig) (lookup : FeeLookup m) (o : Outcome)
    (hasSurcharges : Bool) : m Resolution :=
  if o.isSuccess then Resolution.ofSuccess c lookup o hasSurcharges
  else Resolution.ofFailure c lookup o

end TxLens

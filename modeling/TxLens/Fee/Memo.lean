import TxLens.Fee.Schedule
/-!
# Remembering a schedule

Many transactions of a batch share a block, so the answers of a look-up are remembered by height,
fees and floor prices apart. An absent price and an empty list of fees are answers like any other.
-/

namespace TxLens

/-- What has been answered so far. -/
structure Memo where
  fees : List (Nat × List ScheduledFee)
  prices : List (Nat × Option Nat)

namespace Memo

def empty : Memo := ⟨[], []⟩

/-- Puts an answer in place of the one for the same height. -/
def remember {α : Type} (known : List (Nat × α)) (height : Nat) (a : α) : List (Nat × α) :=
  (height, a) :: known.filter fun e => e.1 != height

def fees? (memo : Memo) (height : Nat) : Option (List ScheduledFee) := memo.fees.lookup height

def price? (memo : Memo) (height : Nat) : Option (Option Nat) := memo.prices.lookup height

def rememberFees (memo : Memo) (height : Nat) (fees : List ScheduledFee) : Memo :=
  { memo with fees := remember memo.fees height fees }

def rememberPrice (memo : Memo) (height : Nat) (price : Option Nat) : Memo :=
  { memo with prices := remember memo.prices height price }

/-- The number of heights whose fees are remembered. -/
def cachedHeights (memo : Memo) : Nat := memo.fees.length

/-- The look-up that asks `inner` only for what is not remembered. -/
def lookup {m : Type → Type} [Monad m] (inner : FeeLookup m) : FeeLookup (StateT Memo m) where
  fees height := do
    match (← get).fees? height with
    | some fees => pure fees
    | none =>
      let fees ← inner.fees height
      modify fun memo => memo.rememberFees height fees
      pure fees
  floorPrice height := do
    match (← get).price? height with
    | some price => pure price
    | none =>
      let price ← inner.floorPrice height
      modify fun memo => memo.rememberPrice height price
      pure price

end Memo

/-- The look-up that counts how often it is asked. -/
def FeeLookup.counting {m : Type → Type} [Monad m] (inner : FeeLookup m) :
    FeeLookup (StateT Nat m) where
  fees height := do
    modify (· + 1)
    inner.fees height
  floorPrice height := do
    modify (· + 1)
    inner.floorPrice height

end TxLens

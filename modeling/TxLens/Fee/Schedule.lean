import TxLens.Json.Record
import TxLens.Money
/-!
# Fee schedules

A schedule is a list of epochs. Each says which fees are charged for messages of some types, and how
much a unit of gas costs at least, from its first height until the next epoch begins. Whoever needs
these facts asks for them by height through a look-up, whose answers come in some monad.
-/

namespace TxLens

/-- An additional fee for one message type. -/
structure ScheduledFee where
  typeUrl : String
  amount : Nat
  denom : String
  deriving DecidableEq

structure FeeEpoch where
  start : Nat
  floorPrice : Option Nat
  fees : List ScheduledFee
  deriving DecidableEq

/-- Where fees and floor prices at a height come from. -/
structure FeeLookup (m : Type → Type) where
  fees : Nat → m (List ScheduledFee)
  floorPrice : Nat → m (Option Nat)

structure FeeSchedule where
  epochs : List FeeEpoch
  deriving DecidableEq

namespace FeeSchedule

def empty : FeeSchedule := ⟨[]⟩

/-- Puts epochs in order of their first heights; epochs that begin together stay in order. -/
def ofEpochs (epochs : List FeeEpoch) : FeeSchedule :=
  ⟨epochs.mergeSort fun a b => a.start ≤ b.start⟩

/-- One epoch that covers all heights. -/
def constant (floorPrice : Option Nat) (fees : List ScheduledFee) : FeeSchedule :=
  ofEpochs [⟨0, floorPrice, fees⟩]

/-- The last epoch in the list that has begun. -/
def epochAt? (s : FeeSchedule) (height : Nat) : Option FeeEpoch :=
  s.epochs.reverse.find? fun e => e.start ≤ height

def feesAt (s : FeeSchedule) (height : Nat) : List ScheduledFee :=
  ((s.epochAt? height).map FeeEpoch.fees).getD []

def floorPriceAt (s : FeeSchedule) (height : Nat) : Option Nat :=
  (s.epochAt? height).bind FeeEpoch.floorPrice

/-- The look-up that answers from the schedule itself. -/
def lookup (s : FeeSchedule) : FeeLookup Id := ⟨s.feesAt, s.floorPriceAt⟩

end FeeSchedule

/-! ## JSON -/

/-- Heights have 64 bits. -/
def heightBound : Nat := 0x10000000000000000

open Json

def ScheduledFee.ofJson? (j : Json) : Option ScheduledFee := do
  let r ← record? ["msg_type_url", "amount", "denom"] j
  let typeUrl ← required r "msg_type_url" text?
  let amount ← required r "amount" (below? (Amount.largest + 1))
  let denom ← required r "denom" text?
  pure ⟨typeUrl, amount, denom⟩

def ScheduledFee.toJson (f : ScheduledFee) : Json :=
  .ofMembers [("msg_type_url", .ofText f.typeUrl), ("amount", .natural f.amount),
    ("denom", .ofText f.denom)]

def FeeEpoch.ofJson? (j : Json) : Option FeeEpoch := do
  let r ← record? ["start_height", "floor_gas_price", "fees"] j
  let start ← required r "start_height" (below? heightBound)
  let floorPrice ← defaulted r "floor_gas_price" (nullable? (below? (Amount.largest + 1))) none
  let fees ← defaulted r "fees" (list? ScheduledFee.ofJson?) []
  pure ⟨start, floorPrice, fees⟩

def FeeEpoch.toJson (e : FeeEpoch) : Json :=
  .ofMembers [("start_height", .natural e.start),
    ("floor_gas_price", .ofOption (e.floorPrice.map .natural)),
    ("fees", .list (e.fees.map ScheduledFee.toJson))]

namespace FeeSchedule

/-- A schedule as it is written: its epochs in the order given. -/
def ofJson? (j : Json) : Option FeeSchedule := do
  let r ← record? ["epochs"] j
  let epochs ← required r "epochs" (list? FeeEpoch.ofJson?)
  pure ⟨epochs⟩

/-- A list of epochs in any order. -/
def ofEpochsJson? (j : Json) : Option FeeSchedule := (list? FeeEpoch.ofJson? j).map ofEpochs

def toJson (s : FeeSchedule) : Json :=
  .ofMembers [("epochs", .list (s.epochs.map FeeEpoch.toJson))]

end FeeSchedule

end TxLens

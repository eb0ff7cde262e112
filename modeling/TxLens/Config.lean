import TxLens.Address
import TxLens.Files
import TxLens.Json.Parser
import TxLens.Json.Printer
import TxLens.Fee.Schedule
/-!
# Configuration

The address labels of a network and the settings by which fees are reconciled.
-/

namespace TxLens

/-- Heights from `start` to `last`, both included. A range that starts at zero holds none. -/
structure HeightRange where
  start : Nat
  last : Nat
  deriving DecidableEq

namespace HeightRange

def isEnabled (r : HeightRange) : Bool := r.start != 0

def contains (r : HeightRange) (height : Nat) : Bool :=
  r.isEnabled && r.start ≤ height && height ≤ r.last

end HeightRange

structure FeeConfig where
  /-- The denomination that fees are charged in. -/
  utilityDenom : String
  /-- The gas price where the schedule has none. -/
  defaultGasPrice : Nat
  /-- The heights whose fee events are known to be wrong. -/
  bugWindow : Option HeightRange
  deriving DecidableEq

namespace FeeConfig

def standard : FeeConfig := ⟨"nhash", 1905, none⟩

def inBugWindow (c : FeeConfig) (height : Nat) : Bool := c.bugWindow.any fun w => w.contains height

end FeeConfig

structure Config where
  labels : Address.Labels
  fees : FeeConfig
  deriving DecidableEq

namespace Config

def mainnet : Config := ⟨.mainnet, .standard⟩

def testnet : Config := ⟨.testnet, .standard⟩

/-! ## Validation -/

inductive Defect where
  | emptyLabel
  | emptyDenom
  | windowReversed (window : HeightRange)

def Defect.message : Defect → String
  | .emptyLabel => "address prefixes must be non-empty"
  | .emptyDenom => "utility denom must be non-empty"
  | .windowReversed w =>
    "bug window start " ++ Text.numeralText w.start ++ " is after end " ++ Text.numeralText w.last

/-- The first defect of a configuration. -/
def defect? (c : Config) : Option Defect :=
  if c.labels.account = "" ∨ c.labels.validatorOperator = "" ∨ c.labels.validatorConsensus = "" then
    some .emptyLabel
  else if c.fees.utilityDenom = "" then some .emptyDenom
  else match c.fees.bugWindow with
    | none => none
    | some w => if w.isEnabled && w.last < w.start then some (.windowReversed w) else none

/-! ## JSON -/

open Json

def rangeOfJson? (j : Json) : Option HeightRange := do
  let r ← record? ["start", "end"] j
  let start ← required r "start" (below? heightBound)
  let last ← required r "end" (below? heightBound)
  pure ⟨start, last⟩

def rangeToJson (w : HeightRange) : Json :=
  .ofMembers [("start", .natural w.start), ("end", .natural w.last)]

def labelsOfJson? (j : Json) : Option Address.Labels := do
  let r ← record? ["account", "validator_operator", "validator_consensus"] j
  let account ← required r "account" text?
  let validatorOperator ← required r "validator_operator" text?
  let validatorConsensus ← required r "validator_consensus" text?
  pure ⟨account, validatorOperator, validatorConsensus⟩

def labelsToJson (l : Address.Labels) : Json :=
  .ofMembers [("account", .ofText l.account), ("validator_operator", .ofText l.validatorOperator),
    ("validator_consensus", .ofText l.validatorConsensus)]

def feesOfJson? (j : Json) : Option FeeConfig := do
  let r ← record? ["utility_denom", "default_gas_price", "bug_window"] j
  let utilityDenom ← defaulted r "utility_denom" text? FeeConfig.standard.utilityDenom
  let defaultGasPrice ← defaulted r "default_gas_price" (below? (Amount.largest + 1))
    FeeConfig.standard.defaultGasPrice
  let bugWindow ← defaulted r "bug_window" (nullable? rangeOfJson?) none
  pure ⟨utilityDenom, defaultGasPrice, bugWindow⟩

def feesToJson (f : FeeConfig) : Json :=
  .ofMembers [("utility_denom", .ofText f.utilityDenom),
    ("default_gas_price", .natural f.defaultGasPrice),
    ("bug_window", .ofOption (f.bugWindow.map rangeToJson))]

def ofJson? (j : Json) : Option Config := do
  let r ← record? ["prefixes", "fees"] j
  let labels ← required r "prefixes" labelsOfJson?
  let fees ← defaulted r "fees" feesOfJson? FeeConfig.standard
  pure ⟨labels, fees⟩

def toJson (c : Config) : Json :=
  .ofMembers [("prefixes", labelsToJson c.labels), ("fees", feesToJson c.fees)]

/-! ## Documents -/

/-- Why a configuration or a schedule cannot be had. -/
inductive Fault where
  | unreadable (path : String) (fault : FileFault)
  | unparsable
  | invalid (defect : Defect)

/-- The text of a fault. What is wrong with an unparsable document is not said. -/
def Fault.message : Fault → String
  | .unreadable path fault => "Failed to read " ++ path ++ ": " ++ fault.message
  | .unparsable => "Failed to parse configuration"
  | .invalid defect => "Invalid configuration: " ++ defect.message

def validate (c : Config) : Except Fault Config :=
  match c.defect? with
  | some d => .error (.invalid d)
  | none => .ok c

/-- Reads a document that a reader of JSON values understands. -/
def readDocument {α : Type} (read : Json → Option α) (s : String) : Except Fault α :=
  match (Json.parse? s.toList).bind read with
  | none => .error .unparsable
  | some a => .ok a

/-- Reads and validates a configuration. -/
def ofText (s : String) : Except Fault Config :=
  match readDocument ofJson? s with
  | .error e => .error e
  | .ok c => c.validate

/-- Reads a schedule from the list of its epochs. -/
def scheduleOfText (s : String) : Except Fault FeeSchedule :=
  readDocument FeeSchedule.ofEpochsJson? s

/-! ## Files -/

def loadDocument {α : Type} (read : String → Except Fault α) (files : Files) (path : String) :
    Except Fault α :=
  match files.text path with
  | .error f => .error (.unreadable path f)
  | .ok s => read s

/-- The configuration in a file. -/
def load (files : Files) (path : String) : Except Fault Config := loadDocument ofText files path

/-- The schedule in a file. -/
def loadSchedule (files : Files) (path : String) : Except Fault FeeSchedule :=
  loadDocument scheduleOfText files path

end Config

end TxLens

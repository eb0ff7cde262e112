import TxLens.Inspection.Options
import TxLens.Summary
/-!
# Inspections

An inspection reads the reports of transactions from files and writes their summaries as one JSON
list. A file that cannot be read or understood, or whose transaction cannot be summarised, is left
out. Without a usable configuration or schedule nothing is written.
-/

namespace TxLens

namespace Inspection

/-- How an inspection ends: its exit code and what it writes. -/
structure Result where
  exit : UInt32
  output : String
  deriving DecidableEq

/-! ## Documents -/

def configOf : Network → Config
  | .mainnet => .mainnet
  | .testnet => .testnet

/-- The configuration in the file named, or that of the network; without either it is the main
network's. -/
def config? (files : Files) (o : Options) : Option Config :=
  match o.configPath with
  | some path => (Config.load files path).toOption
  | none => some (configOf (o.network.getD .mainnet))

/-- The schedule in the file named, or an empty one. -/
def schedule? (files : Files) (o : Options) : Option FeeSchedule :=
  match o.schedulePath with
  | some path => (Config.loadSchedule files path).toOption
  | none => some .empty

/-! ## Transactions -/

/-- The bytes that hexadecimal text stands for; blanks around it do not count. -/
def ofHexText? (content : Bytes) : Option Bytes :=
  (Bytes.toText? content).bind fun text => Bytes.ofHexChars? (Text.trim text.toList)

/-- The report that a file holds. -/
def report? (hex : Bool) (content : Bytes) : Option Bytes :=
  if hex then ofHexText? content else some content

def outcome? (files : Files) (hex : Bool) (path : String) : Option Outcome :=
  ((files path).toOption.bind (report? hex)).bind fun report => (Outcome.ofBytes report).toOption

/-- The summaries of the transactions that have one, in the order of their files. -/
def summaries (files : Files) (hex : Bool) (c : Config) (s : FeeSchedule) (paths : List String) :
    List Summary :=
  (Summary.ofBatch .standard c s (paths.filterMap (outcome? files hex))).filterMap Except.toOption

/-! ## The whole -/

def render (summaries : List Summary) : String :=
  (Json.list (summaries.map Summary.toJson)).toIndentedText ++ "\n"

def run (files : Files) (o : Options) : Result :=
  match config? files o, schedule? files o with
  | some c, some s => ⟨0, render (summaries files o.hex c s o.files)⟩
  | _, _ => ⟨1, ""⟩

/-- Runs the inspection that the arguments ask for. Arguments that ask for none are taken for a mistake,
also where they ask for help or for the version. -/
def ofArguments (files : Files) (args : List String) : Result :=
  match Options.ofArguments? args with
  | none => ⟨2, ""⟩
  | some o => run files o

end Inspection

end TxLens

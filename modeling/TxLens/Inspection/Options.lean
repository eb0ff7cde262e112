import TxLens.Text.Split
/-!
# Options of an inspection

An argument is a file, unless it begins with a dash and has more. Options and files may come in any
order; after two dashes alone all that follows are files. No option may be given twice, and a value
that is empty or looks like an option is refused.

A command line may also ask for help or for the version (`--help`, `-h`, `--version`, `-V`) and then
inspects nothing. Such requests are not covered here: what they print is not part of an inspection, and
the arguments are read as any unknown option is.
-/

namespace TxLens

inductive Network where
  | mainnet
  | testnet
  deriving DecidableEq

def Network.ofName? : String → Option Network
  | "mainnet" => some .mainnet
  | "testnet" => some .testnet
  | _ => none

/-- What is inspected, and how. -/
structure Options where
  network : Option Network
  configPath : Option String
  schedulePath : Option String
  /-- Whether the files hold hexadecimal text and not the bytes themselves. -/
  hex : Bool
  files : List String
  deriving DecidableEq

namespace Options

/-- Nothing said yet. -/
def blank : Options := ⟨none, none, none, false, []⟩

/-! ## Arguments -/

/-- An option that takes a value. -/
inductive Setting where
  | network
  | config
  | schedule
  deriving DecidableEq

namespace Setting

def name : Setting → String
  | .network => "network"
  | .config => "config"
  | .schedule => "schedule"

def letter : Setting → Char
  | .network => 'n'
  | .config => 'c'
  | .schedule => 's'

def all : List Setting := [.network, .config, .schedule]

def ofName? (name : List Char) : Option Setting := all.find? fun s => s.name.toList == name

def ofLetter? (c : Char) : Option Setting := all.find? fun s => s.letter == c

end Setting

/-- What one argument says by itself. The value of a setting may be attached to it. -/
inductive Argument where
  | plain (value : String)
  | onlyFilesFollow
  | hex
  | setting (setting : Setting) (attached : Option String)
  | unknown

namespace Argument

/-- An argument with two dashes before `cs`; a value is attached by an equals sign. -/
def ofLong (cs : List Char) : Argument :=
  match Text.splitFirst ['='] cs with
  | some (name, value) =>
    match Setting.ofName? name with
    | some s => .setting s (some (String.ofList value))
    | none => .unknown
  | none =>
    if cs = "hex".toList then .hex
    else match Setting.ofName? cs with
      | some s => .setting s none
      | none => .unknown

/-- An argument with one dash before `c :: cs`; a value is attached with or without an equals
sign. -/
def ofShort (c : Char) (cs : List Char) : Argument :=
  match Setting.ofLetter? c, cs with
  | none, _ => .unknown
  | some s, [] => .setting s none
  | some s, '=' :: value => .setting s (some (String.ofList value))
  | some s, value => .setting s (some (String.ofList value))

def ofText (arg : String) : Argument :=
  match arg.toList with
  | ['-', '-'] => .onlyFilesFollow
  | '-' :: '-' :: cs => ofLong cs
  | '-' :: c :: cs => ofShort c cs
  | _ => .plain arg

end Argument

/-! ## Gathering -/

def addFile? (o : Options) (path : String) : Option Options :=
  if path = "" then none else some { o with files := o.files ++ [path] }

def setHex? (o : Options) : Option Options := if o.hex then none else some { o with hex := true }

/-- Gives a setting its value, unless it has one or the value cannot be one. -/
def set? (o : Options) (s : Setting) (value : String) : Option Options :=
  if value = "" then none
  else match s with
    | .network =>
      match o.network, Network.ofName? value with
      | none, some n => some { o with network := some n }
      | _, _ => none
    | .config => if o.configPath.isSome then none else some { o with configPath := some value }
    | .schedule => if o.schedulePath.isSome then none else some { o with schedulePath := some value }

/-- Adds what the arguments say to what is known. -/
def gather? (o : Options) : List String → Option Options
  | [] => some o
  | arg :: args =>
    match Argument.ofText arg with
    | .plain path => (o.addFile? path).bind fun o => o.gather? args
    | .onlyFilesFollow => args.foldlM addFile? o
    | .hex => o.setHex?.bind fun o => o.gather? args
    | .setting s (some value) => (o.set? s value).bind fun o => o.gather? args
    | .setting s none =>
      match args with
      | [] => none
      | value :: args =>
        match Argument.ofText value with
        | .plain value => (o.set? s value).bind fun o => o.gather? args
        | _ => none
    | .unknown => none

/-- The options that arguments say; at least one file must be among them. Arguments that ask for help or
for the version say no options. -/
def ofArguments? (args : List String) : Option Options :=
  (blank.gather? args).filter fun o => !o.files.isEmpty

/-- All the files that an inspection may read. -/
def paths (o : Options) : List String := o.configPath.toList ++ o.schedulePath.toList ++ o.files

end Options

end TxLens

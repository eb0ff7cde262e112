import TxLens.Bytes
/-!
# Files

What files hold is given from outside, as a function of their paths.
-/

namespace TxLens

/-- Why a file cannot be read. -/
inductive FileFault where
  | notFound
  | isDirectory
  | notText
  | inaccessible (reason : String)

def FileFault.message : FileFault → String
  | .notFound => "No such file or directory (os error 2)"
  | .isDirectory => "Is a directory (os error 21)"
  | .notText => "stream did not contain valid UTF-8"
  | .inaccessible reason => reason

abbrev Files := String → Except FileFault Bytes

namespace Files

/-- The content of a file that must be text. -/
def text (files : Files) (path : String) : Except FileFault String :=
  match files path with
  | .error f => .error f
  | .ok content =>
    match Bytes.toText? content with
    | none => .error .notText
    | some s => .ok s

end Files

end TxLens

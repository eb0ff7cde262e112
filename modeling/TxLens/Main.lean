import TxLens.Inspection
/-!
# The command line

Reads the files that the arguments name and runs the inspection on them.
-/

namespace TxLens.Inspection

/-- What a file holds, or why it cannot be read. -/
def content (path : String) : IO (Except FileFault Bytes) := do
  try
    let content ← IO.FS.readBinFile path
    pure (.ok content.data.toList)
  catch e => pure (.error (.inaccessible (toString e)))

end TxLens.Inspection

open TxLens

def main (args : List String) : IO UInt32 := do
  let paths := ((Options.ofArguments? args).map Options.paths).getD []
  let contents ← paths.mapM fun path => do
    pure (path, ← Inspection.content path)
  let files : Files := fun path => (contents.lookup path).getD (.error .notFound)
  let result := Inspection.ofArguments files args
  IO.print result.output
  pure result.exit

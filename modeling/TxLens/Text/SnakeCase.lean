import TxLens.Text.LetterCase
/-!
# Snake case

Words run together with capitals are written in lower case with underscores between them. A capital
opens a word after a lower-case letter or a digit, and after a capital if a lower-case letter
follows it.
-/

namespace TxLens.Text

/-- Whether a word opens at `c`, given the characters around it. -/
def opensWord (before : Option Char) (c : Char) (after : Option Char) : Bool :=
  isUpper c && match before with
    | none => false
    | some p => isLower p || p.isDigit || (isUpper p && after.any isLower)

/-- The text after `before` in snake case. -/
def snakeCaseAfter : (before : Option Char) → List Char → List Char
  | _, [] => []
  | before, c :: cs =>
    (if opensWord before c cs.head? then ['_'] else []) ++ toLower c ++ snakeCaseAfter (some c) cs

def snakeCase (cs : List Char) : List Char := snakeCaseAfter none cs

end TxLens.Text

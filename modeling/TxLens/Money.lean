import TxLens.Text.Blank
import TxLens.Text.Decimal
/-!
# Amounts

An amount is a number below `2 ^ 128`. Sums and products that would not fit stay at the largest
amount. A coin text is an amount directly followed by the denomination.
-/

namespace TxLens

namespace Amount

def largest : Nat := 0xffffffffffffffffffffffffffffffff

def add (a b : Nat) : Nat := min (a + b) largest

def mul (a b : Nat) : Nat := min (a * b) largest

/-- An amount written as a numeral, with blanks around it and a plus sign before it allowed. -/
def ofText? (s : String) : Option Nat :=
  let cs := Text.trim s.toList
  let digits := match cs with
    | '+' :: ds => ds
    | ds => ds
  (Text.natOfNumeral? digits).filter (· ≤ largest)

end Amount

structure Money where
  amount : Nat
  denom : String
  deriving DecidableEq

/-- Reads a coin text, with blanks around it allowed. The amount is the longest run of digits at its
start; the denomination is whatever follows. -/
def Money.ofText? (s : String) : Option Money :=
  let cs := Text.trim s.toList
  match Text.natOfNumeral? (cs.takeWhile Text.isDigit) with
  | none => none
  | some n =>
    if n ≤ Amount.largest then some ⟨n, String.ofList (cs.dropWhile Text.isDigit)⟩ else none

end TxLens

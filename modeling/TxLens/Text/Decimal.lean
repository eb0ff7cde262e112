/-!
# Decimal numerals

A numeral is a run of ASCII digits, read with any number of leading zeros and written without.
-/

namespace TxLens.Text

def isDigit (c : Char) : Bool := '0' ≤ c && c ≤ '9'

/-- The value of a run of digits. -/
def numeralValue (ds : List Char) : Nat := Nat.ofDigitChars 10 ds 0

/-- The value of a text that is one numeral. -/
def natOfNumeral? (cs : List Char) : Option Nat :=
  if cs ≠ [] ∧ cs.all isDigit then some (numeralValue cs) else none

/-- The numeral of a number, without leading zeros. -/
def numeral (n : Nat) : List Char := Nat.toDigits 10 n

def numeralText (n : Nat) : String := String.ofList (numeral n)

@[simp] theorem numeralValue_numeral (n : Nat) : numeralValue (numeral n) = n :=
  Nat.ofDigitChars_ten_toDigits

end TxLens.Text

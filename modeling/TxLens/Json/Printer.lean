import TxLens.Json
import TxLens.Text.Decimal
/-!
# Writing JSON

Values are written either without any blanks or with every element and member on a line of its own.
In strings only quotes, backslashes and control characters are escaped.
-/

namespace TxLens.Json

/-! ## Strings -/

def hexDigit (n : Nat) : Char := (Nat.toDigits 16 n).headD '0'

/-- How one character stands in a string literal. -/
def escape (c : Char) : List Char :=
  if c = '"' then ['\\', '"']
  else if c = '\\' then ['\\', '\\']
  else if c = '\x08' then ['\\', 'b']
  else if c = '\x0c' then ['\\', 'f']
  else if c = '\n' then ['\\', 'n']
  else if c = '\r' then ['\\', 'r']
  else if c = '\t' then ['\\', 't']
  else if c.toNat < 0x20 then ['\\', 'u', '0', '0', hexDigit (c.toNat / 16), hexDigit (c.toNat % 16)]
  else [c]

def printString (s : String) : List Char := '"' :: s.toList.flatMap escape ++ ['"']

/-- A string literal; a value that is no text is written as half of a surrogate pair. -/
def printText : Option String → List Char
  | some s => printString s
  | none => "\"\\ud800\"".toList

/-! ## Without blanks -/

mutual

def print : Json → List Char
  | .null => "null".toList
  | .bool true => "true".toList
  | .bool false => "false".toList
  | .natural n => Text.numeral n
  | .number literal => literal.toList
  | .text s => printText s
  | .list elements => '[' :: printElements elements ++ [']']
  | .object members => '\x7b' :: printMembers members ++ ['\x7d']

def printElements : List Json → List Char
  | [] => []
  | [j] => j.print
  | j :: js => j.print ++ ',' :: printElements js

def printMembers : List (Option String × Json) → List Char
  | [] => []
  | [(key, j)] => printText key ++ ':' :: j.print
  | (key, j) :: ms => printText key ++ ':' :: j.print ++ ',' :: printMembers ms

end

def toText (j : Json) : String := String.ofList j.print

/-! ## On several lines -/

/-- A new line, indented by two spaces for each level. -/
def newLine (level : Nat) : List Char := '\n' :: List.replicate (2 * level) ' '

mutual

def printIndented (level : Nat) : Json → List Char
  | .list (j :: js) =>
    '[' :: printIndentedElements (level + 1) (j :: js) ++ newLine level ++ [']']
  | .object (m :: ms) =>
    '\x7b' :: printIndentedMembers (level + 1) (m :: ms) ++ newLine level ++ ['\x7d']
  | j => j.print

def printIndentedElements (level : Nat) : List Json → List Char
  | [] => []
  | [j] => newLine level ++ printIndented level j
  | j :: js => newLine level ++ printIndented level j ++ ',' :: printIndentedElements level js

def printIndentedMembers (level : Nat) : List (Option String × Json) → List Char
  | [] => []
  | [(key, j)] => newLine level ++ printText key ++ ':' :: ' ' :: printIndented level j
  | (key, j) :: ms =>
    newLine level ++ printText key ++ ':' :: ' ' :: printIndented level j ++
      ',' :: printIndentedMembers level ms

end

def toIndentedText (j : Json) : String := String.ofList (printIndented 0 j)

end TxLens.Json

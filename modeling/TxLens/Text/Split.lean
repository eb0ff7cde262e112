/-!
# Cutting texts

Cuts at a separating character, and at the first place where one text stands inside another.
-/

namespace TxLens.Text

/-- The pieces between separators; there is one more piece than there are separators. -/
def splitOn (sep : Char) : List Char → List (List Char)
  | [] => [[]]
  | c :: cs =>
    if c = sep then [] :: splitOn sep cs
    else match splitOn sep cs with
      | [] => [[c]]
      | piece :: pieces => (c :: piece) :: pieces

/-- What stands before and after the first occurrence of `needle`. -/
def splitFirst (needle : List Char) : List Char → Option (List Char × List Char)
  | [] => if needle = [] then some ([], []) else none
  | c :: cs =>
    if needle.isPrefixOf (c :: cs) then some ([], (c :: cs).drop needle.length)
    else (splitFirst needle cs).map fun (before, after) => (c :: before, after)

/-- Whether `needle` stands somewhere inside. -/
def contains (needle cs : List Char) : Bool := (splitFirst needle cs).isSome

/-- The text without `tail` at its end, if it is there. -/
def dropTail (tail cs : List Char) : List Char :=
  if tail.isSuffixOf cs then cs.take (cs.length - tail.length) else cs

end TxLens.Text

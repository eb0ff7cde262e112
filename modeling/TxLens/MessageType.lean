import TxLens.Text.SnakeCase
import TxLens.Text.Split
/-!
# Message types for people

A type URL is shown as the chain's module it belongs to and an action in snake case.
-/

namespace TxLens

structure MessageType where
  typeUrl : String
  moduleName : String
  action : String
  deriving DecidableEq

namespace MessageType

/-- What a type's name says once `Msg` and all before it, and one `Request` at its end, are gone. -/
def shortName (name : List Char) : List Char :=
  let rest := match Text.splitFirst "Msg".toList name with
    | some (_, after) => after
    | none => name
  Text.dropTail "Request".toList rest

/-- The module stands after the first dot. For relaying between chains it stands after the second one
and is marked. -/
def moduleOf (typeUrl : List Char) (parts : List (List Char)) : List Char :=
  if "/ibc".toList.isPrefixOf typeUrl then parts.getD 0 [] ++ '_' :: parts.getD 2 []
  else parts.getD 1 []

/-- The short name in snake case. Actions of groups that do not say so are marked, since other
modules have actions of the same names. -/
def actionOf (typeUrl : List Char) (parts : List (List Char)) : List Char :=
  let short := shortName (parts.getLastD [])
  if "/cosmos.group.v1".toList.isPrefixOf typeUrl && !Text.contains "Group".toList short then
    Text.snakeCase short ++ "_for_group".toList
  else Text.snakeCase short

def ofTypeUrl (typeUrl : String) : MessageType :=
  let cs := typeUrl.toList
  let parts := Text.splitOn '.' (cs.dropWhile (· == '/'))
  { typeUrl
    moduleName := String.ofList (moduleOf cs parts)
    action := String.ofList (actionOf cs parts) }

end MessageType

end TxLens

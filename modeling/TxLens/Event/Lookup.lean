import TxLens.Text.Decimal
import TxLens.Tx
/-!
# Looking up event attributes

Event schemas differ between chain versions, so a missing event or attribute is no fault. A look-up
takes the first event of a type that carries a key, and the first attribute with that key on it.
-/

namespace TxLens.Events

/-- The attribute that tags an event with the index of the message it belongs to. -/
def messageIndexKey : String := "msg_index"

def hasMessageIndex (i : Nat) (e : Event) : Bool :=
  e.attributes.any fun a => a.key == messageIndexKey && unquote a.value == Text.numeralText i

/-- Whether an event is of a type, carries a key and, if an index is given, is tagged with it. -/
def isMatch (type key : String) (index : Option Nat) (e : Event) : Bool :=
  e.type == type && e.hasAttribute key && index.all fun i => hasMessageIndex i e

def findEvent? (es : List Event) (type key : String) (index : Option Nat) : Option Event :=
  es.find? (isMatch type key index)

/-- The value of a key on the first matching event, without its quotes. -/
def find? (es : List Event) (type key : String) (index : Option Nat) : Option String :=
  ((findEvent? es type key index).bind fun e => e.attribute? key).map unquote

/-- The value of a key on each event of a type that carries it, without quotes. -/
def values (es : List Event) (type key : String) : List String :=
  ((es.filter fun e => e.type == type).filterMap fun e => e.attribute? key).map unquote

/-- The events of any of these types. -/
def ofTypes (es : List Event) (types : List String) : List Event :=
  es.filter fun e => types.contains e.type

/-- The first attribute of each requested key, in the order in which they stand. -/
def firstValues (keys : List String) (as : List Attribute) : List (String × String) :=
  as.foldl (fun found a =>
    if keys.contains a.key && !(found.map Prod.fst).contains a.key then
      found ++ [(a.key, unquote a.value)]
    else found) []

end Events

namespace TxResponse

/-- The events of one message: those of its log entry, or where logs do not reach so far, the events
of the transaction that are tagged with the low 32 bits of its index. -/
def eventsAt (r : TxResponse) (index : Nat) : List Event :=
  match r.logs[index]? with
  | some log => log.events
  | none => r.events.filter (Events.hasMessageIndex (index % 0x100000000))

/-- The values of the requested keys on the first event of a type among those of one message. -/
def messageAttributes (r : TxResponse) (index : Nat) (type : String) (keys : List String) :
    List (String × String) :=
  match (r.eventsAt index).find? fun e => e.type == type with
  | some e => Events.firstValues keys e.attributes
  | none => []

end TxResponse

end TxLens

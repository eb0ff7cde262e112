import TxLens.Json
/-!
# Records in JSON

A record with named fields is written as an object, or as the list of its fields in their order. In
an object other members are ignored, but no field may stand twice; in a list fields at the end may be
missing, but there may not be more elements than fields. Members whose key is no text are refused.
-/

namespace TxLens.Json

/-- The members of an object with the text of each key. -/
def keyed? : List (Option String × Json) → Option (List (String × Json))
  | [] => some []
  | (none, _) :: _ => none
  | (some key, j) :: ms => (keyed? ms).map ((key, j) :: ·)

/-- The fields of these names that a value carries. -/
def record? (names : List String) : Json → Option (List (String × Json))
  | .list elements =>
    if elements.length ≤ names.length then some (names.zip elements) else none
  | .object members =>
    match keyed? members with
    | none => none
    | some ms =>
      let known := ms.filter fun m => names.contains m.1
      if (known.map Prod.fst).Nodup then some known else none
  | _ => none

/-- A field that must be there. -/
def required {α : Type} (r : List (String × Json)) (name : String) (read : Json → Option α) :
    Option α :=
  match r.lookup name with
  | some j => read j
  | none => none

/-- A field that has a default. -/
def defaulted {α : Type} (r : List (String × Json)) (name : String) (read : Json → Option α)
    (default : α) : Option α :=
  match r.lookup name with
  | some j => read j
  | none => some default

/-! ## Values of fields -/

def text? : Json → Option String
  | .text s => s
  | _ => none

/-- A natural number below a bound. -/
def below? (bound : Nat) : Json → Option Nat
  | .natural n => if n < bound then some n else none
  | _ => none

/-- A value or null. -/
def nullable? {α : Type} (read : Json → Option α) : Json → Option (Option α)
  | .null => some none
  | j => (read j).map some

/-- All of the values. -/
def all? {α : Type} (read : Json → Option α) : List Json → Option (List α)
  | [] => some []
  | j :: js =>
    match read j with
    | none => none
    | some a => (all? read js).map (a :: ·)

def list? {α : Type} (read : Json → Option α) : Json → Option (List α)
  | .list elements => all? read elements
  | _ => none

end TxLens.Json

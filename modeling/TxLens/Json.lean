/-!
# JSON values

A number is kept as a natural number when its literal is nothing but digits, and as its literal
otherwise. The text of a string literal is missing when the literal names half of a surrogate pair:
such a literal is well formed but denotes no text.
-/

namespace TxLens

inductive Json where
  | null
  | bool (value : Bool)
  | natural (value : Nat)
  | number (literal : String)
  | text (value : Option String)
  | list (elements : List Json)
  | object (members : List (Option String × Json))

namespace Json

def ofText (s : String) : Json := .text (some s)

/-- The value, or null where there is none. -/
def ofOption : Option Json → Json
  | none => .null
  | some j => j

/-- An object with these members. -/
def ofMembers (members : List (String × Json)) : Json :=
  .object (members.map fun m => (some m.1, m.2))

/-! ## Equality -/

mutual

/-- Whether two values are the same, members in the same order. -/
def same : Json → Json → Bool
  | .null, .null => true
  | .bool a, .bool b => a == b
  | .natural a, .natural b => a == b
  | .number a, .number b => a == b
  | .text a, .text b => a == b
  | .list as, .list bs => sameElements as bs
  | .object as, .object bs => sameMembers as bs
  | _, _ => false

def sameElements : List Json → List Json → Bool
  | [], [] => true
  | a :: as, b :: bs => same a b && sameElements as bs
  | _, _ => false

def sameMembers : List (Option String × Json) → List (Option String × Json) → Bool
  | [], [] => true
  | (k, a) :: as, (l, b) :: bs => k == l && same a b && sameMembers as bs
  | _, _ => false

end

mutual

theorem same_iff : ∀ {a b : Json}, same a b = true ↔ a = b
  | .null, b => by cases b <;> simp [same]
  | .bool _, b => by cases b <;> simp [same]
  | .natural _, b => by cases b <;> simp [same]
  | .number _, b => by cases b <;> simp [same]
  | .text _, b => by cases b <;> simp [same]
  | .list _, b => by cases b <;> simp [same, sameElements_iff]
  | .object _, b => by cases b <;> simp [same, sameMembers_iff]

theorem sameElements_iff : ∀ {as bs : List Json}, sameElements as bs = true ↔ as = bs
  | [], bs => by cases bs <;> simp [sameElements]
  | _ :: _, bs => by cases bs <;> simp [sameElements, same_iff, sameElements_iff]

theorem sameMembers_iff : ∀ {as bs : List (Option String × Json)}, sameMembers as bs = true ↔ as = bs
  | [], bs => by cases bs <;> simp [sameMembers]
  | (_, _) :: _, [] => by simp [sameMembers]
  | (_, _) :: _, (_, _) :: _ => by simp [sameMembers, same_iff, sameMembers_iff]

end

instance : DecidableEq Json := fun a b => decidable_of_iff (same a b = true) same_iff

end Json

end TxLens

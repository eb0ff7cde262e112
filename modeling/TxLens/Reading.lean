/-!
# Reading off the front of a list

A reader takes a value off the front of its input and hands back what is left. The rest carries the
proof that it is no longer than the input, so a loop over a reader ends by the length of its input.
-/

namespace TxLens

/-- A value read off the front of `s`, with what is left of `s` after it. -/
structure Read (α : Type) {σ : Type} (s : List σ) where
  value : α
  rest : List σ
  le : rest.length ≤ s.length

namespace Read

variable {α β σ : Type} {s t : List σ}

/-- The same reading with its value changed. -/
def map (f : α → β) (r : Read α s) : Read β s := ⟨f r.value, r.rest, r.le⟩

/-- A reading of the rest of `s` is a reading of `s`. -/
def widen (r : Read α t) (h : t.length ≤ s.length) : Read α s := ⟨r.value, r.rest, Nat.le_trans r.le h⟩

/-- Reads nothing. -/
def nothing (a : α) : Read α s := ⟨a, s, Nat.le_refl _⟩

@[simp] theorem map_value (f : α → β) (r : Read α s) : (r.map f).value = f r.value := rfl
@[simp] theorem map_rest (f : α → β) (r : Read α s) : (r.map f).rest = r.rest := rfl
@[simp] theorem widen_value (r : Read α t) (h : t.length ≤ s.length) : (r.widen h).value = r.value := rfl
@[simp] theorem widen_rest (r : Read α t) (h : t.length ≤ s.length) : (r.widen h).rest = r.rest := rfl

end Read

theorem toOption_eq_some_iff {ε α : Type} {e : Except ε α} {a : α} :
    e.toOption = some a ↔ e = .ok a := by
  cases e <;> simp [Except.toOption]

end TxLens

/-!
# Insertions

A list with further elements of one kind put in anywhere. What passes over elements of that kind makes
the same of both lists.
-/

namespace TxLens

/-- The second list is the first with elements of one kind put in, anywhere and any number of them. -/
inductive Inserted {α : Type} (kind : α → Prop) : List α → List α → Prop
  | nil : Inserted kind [] []
  | keep (a : α) {as bs : List α} (h : Inserted kind as bs) : Inserted kind (a :: as) (a :: bs)
  | put {b : α} (hb : kind b) {as bs : List α} (h : Inserted kind as bs) : Inserted kind as (b :: bs)

namespace Inserted

variable {α β : Type} {kind : α → Prop} {as bs : List α}

theorem mono {kind' : α → Prop} (h : Inserted kind as bs) (hk : ∀ b, kind b → kind' b) :
    Inserted kind' as bs := by
  induction h with
  | nil => exact .nil
  | keep a _ ih => exact .keep a ih
  | put hb _ ih => exact .put (hk _ hb) ih

theorem mem_or (h : Inserted kind as bs) {b : α} (hb : b ∈ bs) : b ∈ as ∨ kind b := by
  induction h with
  | nil => exact .inl hb
  | keep a _ ih =>
    rcases List.mem_cons.1 hb with rfl | hb
    · exact .inl List.mem_cons_self
    · exact (ih hb).imp_left (List.mem_cons_of_mem a)
  | put hk _ ih =>
    rcases List.mem_cons.1 hb with rfl | hb
    · exact .inr hk
    · exact ih hb

theorem subset (h : Inserted kind as bs) : as ⊆ bs := by
  induction h with
  | nil => exact List.Subset.refl []
  | keep a _ ih => exact List.cons_subset_cons a ih
  | put _ _ ih => exact List.subset_cons_of_subset _ ih

theorem flatMap_eq (h : Inserted kind as bs) {f : α → List β} (hf : ∀ b, kind b → f b = []) :
    bs.flatMap f = as.flatMap f := by
  induction h with
  | nil => rfl
  | keep a _ ih => rw [List.flatMap_cons, List.flatMap_cons, ih]
  | put hk _ ih => rw [List.flatMap_cons, hf _ hk, List.nil_append, ih]

theorem find?_eq (h : Inserted kind as bs) {p : α → Bool} (hp : ∀ b, kind b → p b = false) :
    bs.find? p = as.find? p := by
  induction h with
  | nil => rfl
  | keep a _ ih => rw [List.find?_cons, List.find?_cons, ih]
  | put hk _ ih => rw [List.find?_cons, hp _ hk, ih]

theorem filter_eq (h : Inserted kind as bs) {p : α → Bool} (hp : ∀ b, kind b → p b = false) :
    bs.filter p = as.filter p := by
  induction h with
  | nil => rfl
  | keep a _ ih => rw [List.filter_cons, List.filter_cons, ih]
  | put hk _ ih => rw [List.filter_cons, hp _ hk, ih, if_neg Bool.false_ne_true]

end Inserted

end TxLens

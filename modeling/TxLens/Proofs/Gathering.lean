/-!
# Gatherings

What the elements of a list give, in their order, where some give nothing.
-/

namespace TxLens

/-- The second list holds what each element of the first gives; those that give nothing are passed
over. -/
inductive Gathers {α β : Type} (Gives : α → β → Prop) : List α → List β → Prop
  | nil : Gathers Gives [] []
  | keep {a : α} {b : β} {as : List α} {bs : List β} (h : Gives a b) (hs : Gathers Gives as bs) :
    Gathers Gives (a :: as) (b :: bs)
  | skip {a : α} {as : List α} {bs : List β} (h : ∀ b, ¬ Gives a b) (hs : Gathers Gives as bs) :
    Gathers Gives (a :: as) bs

theorem gathers_filterMap {α β : Type} {Gives : α → β → Prop} {f : α → Option β}
    (hf : ∀ a b, f a = some b ↔ Gives a b) (as : List α) : Gathers Gives as (as.filterMap f) := by
  induction as with
  | nil => exact .nil
  | cons a as ih =>
    cases ha : f a with
    | none =>
      rw [List.filterMap_cons_none ha]
      refine .skip (fun b hb => ?_) ih
      rw [(hf a b).2 hb] at ha
      cases ha
    | some b =>
      rw [List.filterMap_cons_some ha]
      exact .keep ((hf a b).1 ha) ih

end TxLens

import Mathlib.Data.List.TakeWhile
import TxLens.Proofs.Json.Literal
import TxLens.Text.Blank
/-!
# Texts between blanks

Trimming takes blanks away and nothing else, as many at either end as there are (`trim_eq_iff`).
-/

namespace TxLens.Text

open Json (Stops)

/-- Any blanks, or none. -/
def Blanks (w : List Char) : Prop := ∀ c ∈ w, isBlank c = true

/-- What stands between blanks and neither begins nor ends with one. -/
def IsTrimmed (cs t : List Char) : Prop :=
  ∃ v w, Blanks v ∧ Blanks w ∧ Stops isBlank t ∧ Stops isBlank t.reverse ∧ cs = v ++ (t ++ w)

theorem blanks_takeWhile (cs : List Char) : Blanks (cs.takeWhile isBlank) := fun _ hc =>
  List.all_eq_true.1 List.all_takeWhile _ hc

theorem isTrimmed_trim (cs : List Char) : IsTrimmed cs (trim cs) := by
  -- what is left when the front is done, and what of it are blanks at the back
  have hfront := Json.stops_dropWhile isBlank cs
  have hback := Json.stops_dropWhile isBlank (cs.dropWhile isBlank).reverse
  have hsplit : cs.dropWhile isBlank =
      trim cs ++ ((cs.dropWhile isBlank).reverse.takeWhile isBlank).reverse := by
    rw [trim, ← List.reverse_append, List.takeWhile_append_dropWhile, List.reverse_reverse]
  refine ⟨cs.takeWhile isBlank, ((cs.dropWhile isBlank).reverse.takeWhile isBlank).reverse,
    blanks_takeWhile cs, fun c hc => blanks_takeWhile _ c (List.mem_reverse.1 hc), ?_, ?_, ?_⟩
  · intro c hc
    rw [hsplit] at hfront
    exact hfront c (by rw [List.head?_append, Option.mem_def.1 hc]; rfl)
  · rwa [trim, List.reverse_reverse]
  · rw [← hsplit, List.takeWhile_append_dropWhile]

theorem trim_of_isTrimmed {cs t : List Char} (h : IsTrimmed cs t) : trim cs = t := by
  obtain ⟨v, w, hv, hw, hfront, hback, rfl⟩ := h
  have hblanks : Blanks w.reverse := fun c hc => hw c (List.mem_reverse.1 hc)
  cases t with
  | nil =>
    have hall : Blanks (v ++ w) := fun c hc => (List.mem_append.1 hc).elim (hv c) (hw c)
    rw [trim, List.nil_append, List.dropWhile_eq_nil_iff.2 hall]
    rfl
  | cons c cs =>
    have hstops : Stops isBlank (c :: cs ++ w) := hfront
    rw [trim, Json.dropWhile_append_of_stops hv hstops, List.reverse_append,
      Json.dropWhile_append_of_stops hblanks hback, List.reverse_reverse]

theorem trim_eq_iff {cs t : List Char} : trim cs = t ↔ IsTrimmed cs t := by
  constructor
  · rintro rfl
    exact isTrimmed_trim cs
  · exact trim_of_isTrimmed

/-- What stands between blanks, if there is no blank in it. -/
theorem trim_between {v cs w : List Char} (hv : Blanks v) (hw : Blanks w)
    (hcs : ∀ c ∈ cs, isBlank c = false) : trim (v ++ (cs ++ w)) = cs := by
  have hfront : Stops isBlank cs := fun c hc => hcs c (List.mem_of_mem_head? hc)
  have hback : Stops isBlank cs.reverse := fun c hc =>
    hcs c (List.mem_reverse.1 (List.mem_of_mem_head? hc))
  exact trim_of_isTrimmed ⟨v, w, hv, hw, hfront, hback, rfl⟩

theorem isBlank_eq_false_of_isDigit {c : Char} (h : isDigit c = true) : isBlank c = false := by
  simp only [isDigit, Bool.and_eq_true, decide_eq_true_eq, Char.le_def, UInt32.le_iff_toNat_le] at h
  have hlow : 48 ≤ c.toNat := h.1
  have hhigh : c.toNat ≤ 57 := h.2
  simp only [isBlank, Bool.or_eq_false_iff, Bool.and_eq_false_iff, decide_eq_false_iff_not,
    beq_eq_false_iff_ne]
  omega

end TxLens.Text

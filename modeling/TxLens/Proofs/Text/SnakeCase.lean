import Mathlib.Data.List.Basic
import TxLens.Proofs.Bech32.LetterCase
import TxLens.Proofs.Insertion
import TxLens.Text.SnakeCase
/-!
# What snake case does to a text

The snake case of an ASCII text is the text in lower case with underscores put in
(`inserted_snakeCaseAfter`), one in front of every place where a word opens (`snakeCaseAfter_eq_flatten`).
A character brings at most one underscore with it, in front of itself, so without underscores of its own
a text gets none at either end and no two in a row (`spaced_snakeCaseAfter`). All of this is put together
in `isSnakeCase_snakeCase`.
-/

namespace TxLens.Text

def IsAscii (cs : List Char) : Prop := ∀ c ∈ cs, c.toNat < 128

instance (cs : List Char) : Decidable (IsAscii cs) :=
  decidable_of_iff ((cs.all fun c => c.toNat < 128) = true) <| by
    simp only [IsAscii, List.all_eq_true, decide_eq_true_iff]

theorem isAscii_cons {c : Char} {cs : List Char} :
    IsAscii (c :: cs) ↔ c.toNat < 128 ∧ IsAscii cs := List.forall_mem_cons

/-! ## Lower case -/

theorem toNat_toLower_lt {c : Char} (h : c.toNat < 128) : c.toLower.toNat < 128 := by
  by_cases hu : c.isUpper = true
  · have hn := Bech32.toNat_toLower_of_isUpper hu
    rw [Bech32.isUpper_iff] at hu
    omega
  · rw [Bool.not_eq_true] at hu
    rwa [Bech32.toLower_of_not_isUpper hu]

theorem toLower_ne_underscore {c : Char} (h : c ≠ '_') : c.toLower ≠ '_' :=
  mt (Bech32.eq_of_toLower (by decide)) h

/-! ## One character -/

section
variable {c : Char} {cs : List Char}

theorem snakeCaseAfter_cons (h : c.toNat < 128) (before : Option Char) (cs : List Char) :
    snakeCaseAfter before (c :: cs) =
      if opensWord before c cs.head? then '_' :: c.toLower :: snakeCaseAfter (some c) cs
      else c.toLower :: snakeCaseAfter (some c) cs := by
  rw [snakeCaseAfter, toLower_ascii h]
  split <;> rfl

theorem opensWord_of_not_isUpper (h : c.toNat < 128) (hu : c.isUpper = false)
    (before after : Option Char) : opensWord before c after = false := by
  simp only [opensWord, isUpper_ascii h, hu, Bool.false_and]

/-- Nothing is put in front of the first character. -/
theorem opensWord_none (c : Char) (after : Option Char) : opensWord none c after = false := by
  simp only [opensWord, Bool.and_false]

/-! ## Where words open -/

/-- A word opens at this place of an ASCII text: at a capital after a lower-case letter or a digit, or
between a capital and a lower-case letter. -/
def OpensAt (cs : List Char) (i : Nat) : Prop :=
  0 < i ∧ ∃ p ∈ cs[i - 1]?, ∃ c ∈ cs[i]?, c.isUpper ∧
    (p.isLower ∨ p.isDigit ∨ p.isUpper ∧ ∃ n ∈ cs[i + 1]?, n.isLower)

instance (cs : List Char) (i : Nat) : Decidable (OpensAt cs i) :=
  inferInstanceAs (Decidable (0 < i ∧ _))

theorem opensWord_iff {before after : List Char} (h : IsAscii (before ++ c :: after)) :
    opensWord before.getLast? c after.head? = true ↔
      OpensAt (before ++ c :: after) before.length := by
  rcases List.eq_nil_or_concat' before with rfl | ⟨before, p, rfl⟩
  · simp [opensWord, OpensAt]
  · have hp : p.toNat < 128 := h p (by simp)
    have hc : c.toNat < 128 := h c (by simp)
    have hlower : after.head?.any isLower = true ↔ ∃ n ∈ after.head?, n.isLower := by
      cases after with
      | nil => simp
      | cons n after => simp [isLower_ascii (h n (by simp))]
    have hprevious : (before ++ [p] ++ c :: after)[before.length]? = some p := by simp
    have hthis : (before ++ [p] ++ c :: after)[before.length + 1]? = some c := by simp
    have hnext : (before ++ [p] ++ c :: after)[before.length + 1 + 1]? = after.head? := by
      rw [List.getElem?_append_right (by simp), List.head?_eq_getElem?]
      simp
    simp only [opensWord, OpensAt, List.getLast?_concat, List.length_append, List.length_singleton,
      Nat.add_sub_cancel, hprevious, hthis, hnext, isUpper_ascii hc, isUpper_ascii hp,
      isLower_ascii hp, Bool.and_eq_true, Bool.or_eq_true, hlower, Option.mem_some_iff,
      exists_eq_left', or_assoc, Nat.zero_lt_succ, true_and]

/-- The text before is carried along whole, though only its last character is looked at. -/
theorem snakeCaseAfter_eq_flatten {before : List Char} (h : IsAscii (before ++ cs)) :
    snakeCaseAfter before.getLast? cs =
      (cs.mapIdx fun i c => if OpensAt (before ++ cs) (before.length + i) then ['_', c.toLower]
        else [c.toLower]).flatten := by
  induction cs generalizing before with
  | nil => rfl
  | cons c cs ih =>
    have hrest := @ih (before ++ [c]) (by simpa using h)
    rw [List.getLast?_concat] at hrest
    rw [snakeCaseAfter_cons (h c (by simp)), hrest, List.mapIdx_cons, List.flatten_cons]
    simp only [opensWord_iff h, Nat.add_zero, List.append_assoc, List.singleton_append,
      List.length_append, List.length_singleton, Nat.add_assoc, Nat.add_comm 1]
    split <;> rfl

/-! ## Lower case and underscores -/

theorem inserted_snakeCaseAfter (h : IsAscii cs) (before : Option Char) :
    Inserted (· = '_') (cs.map Char.toLower) (snakeCaseAfter before cs) := by
  induction cs generalizing before with
  | nil => exact .nil
  | cons c cs ih =>
    obtain ⟨hc, hcs⟩ := isAscii_cons.1 h
    rw [snakeCaseAfter_cons hc, List.map_cons]
    have hrest := ih hcs (some c)
    split
    · exact .put (by rfl) (.keep c.toLower hrest)
    · exact .keep c.toLower hrest

theorem of_mem_snakeCase (h : IsAscii cs) (hc : c ∈ snakeCase cs) :
    c.toNat < 128 ∧ c.isUpper = false := by
  rcases (inserted_snakeCaseAfter h none).mem_or hc with hc | rfl
  · obtain ⟨d, hd, rfl⟩ := List.mem_map.1 hc
    exact ⟨toNat_toLower_lt (h d hd), Bech32.isUpper_toLower d⟩
  · decide

/-- Where there is nothing to lower, nothing is put in either. -/
theorem snakeCaseAfter_of_lower (h : ∀ c ∈ cs, c.toNat < 128 ∧ c.isUpper = false)
    (before : Option Char) : snakeCaseAfter before cs = cs := by
  induction cs generalizing before with
  | nil => rfl
  | cons c cs ih =>
    obtain ⟨⟨hc, hu⟩, hcs⟩ := List.forall_mem_cons.1 h
    rw [snakeCaseAfter_cons hc, opensWord_of_not_isUpper hc hu, if_neg Bool.false_ne_true,
      Bech32.toLower_of_not_isUpper hu, ih hcs]

/-! ## Underscores between characters -/

/-- After every underscore there is a character that is none. -/
inductive Spaced : List Char → Prop
  | nil : Spaced []
  | char {c : Char} {cs : List Char} (hc : c ≠ '_') (hcs : Spaced cs) : Spaced (c :: cs)
  | gap {c : Char} {cs : List Char} (hc : c ≠ '_') (hcs : Spaced cs) : Spaced ('_' :: c :: cs)

theorem getLast?_cons_ne {d : Char} (hc : c ≠ d) (hcs : cs.getLast? ≠ some d) :
    (c :: cs).getLast? ≠ some d := by
  rw [List.getLast?_cons]
  cases hlast : cs.getLast? with
  | none => simpa using hc
  | some e => simpa [hlast] using hcs

theorem Spaced.getLast?_ne (h : Spaced cs) : cs.getLast? ≠ some '_' := by
  induction h with
  | nil => simp
  | char hc _ ih => exact getLast?_cons_ne hc ih
  | gap hc _ ih =>
    rw [List.getLast?_cons_cons]
    exact getLast?_cons_ne hc ih

theorem Spaced.not_doubled (h : Spaced cs) : ¬ ['_', '_'] <:+: cs := by
  induction h with
  | nil => simp
  | char hc _ ih =>
    rw [List.infix_cons_iff, List.cons_prefix_cons]
    rintro (⟨hfirst, -⟩ | hrest)
    · exact hc hfirst.symm
    · exact ih hrest
  | gap hc _ ih =>
    rw [List.infix_cons_iff, List.infix_cons_iff, List.cons_prefix_cons, List.cons_prefix_cons,
      List.cons_prefix_cons]
    rintro (⟨-, hsecond, -⟩ | ⟨hfirst, -⟩ | hrest)
    · exact hc hsecond.symm
    · exact hc hfirst.symm
    · exact ih hrest

theorem spaced_snakeCaseAfter (h : IsAscii cs) (hno : '_' ∉ cs) (before : Option Char) :
    Spaced (snakeCaseAfter before cs) := by
  induction cs generalizing before with
  | nil => exact .nil
  | cons c cs ih =>
    obtain ⟨hc, hcs⟩ := isAscii_cons.1 h
    obtain ⟨hne, hno⟩ := not_or.1 (mt List.mem_cons.2 hno)
    have hlow := toLower_ne_underscore (Ne.symm hne)
    rw [snakeCaseAfter_cons hc]
    split
    · exact .gap hlow (ih hcs hno (some c))
    · exact .char hlow (ih hcs hno (some c))

theorem head?_snakeCase_ne (h : IsAscii cs) (hno : '_' ∉ cs) : (snakeCase cs).head? ≠ some '_' := by
  cases cs with
  | nil => simp [snakeCase, snakeCaseAfter]
  | cons c cs =>
    have hne : c ≠ '_' := fun hc => hno (hc ▸ List.mem_cons_self)
    rw [snakeCase, snakeCaseAfter_cons (isAscii_cons.1 h).1, opensWord_none,
      if_neg Bool.false_ne_true, List.head?_cons, ne_eq, Option.some.injEq]
    exact toLower_ne_underscore hne

end

/-- What a text becomes in snake case: itself in lower case with underscores put in, one wherever a word
opens. It stays as it is when done again, and where the text has no underscores, none stand at an end or
next to each other. -/
structure IsSnakeCase (cs out : List Char) : Prop where
  words : out = (cs.mapIdx fun i c =>
    if OpensAt cs i then ['_', c.toLower] else [c.toLower]).flatten
  inserted : Inserted (· = '_') (cs.map Char.toLower) out
  lower : ∀ c ∈ out, isUpper c = false
  letters : (out.filter fun c => c != '_') = (cs.map Char.toLower).filter fun c => c != '_'
  again : snakeCase out = out
  apart : '_' ∉ cs → out.head? ≠ some '_' ∧ out.getLast? ≠ some '_' ∧ ¬ ['_', '_'] <:+: out

theorem isSnakeCase_snakeCase {cs : List Char} (h : IsAscii cs) : IsSnakeCase cs (snakeCase cs) := by
  have hinserted := inserted_snakeCaseAfter h none
  refine ⟨?_, hinserted, fun c hc => ?_, hinserted.filter_eq fun c hc => ?_, ?_, fun hno => ?_⟩
  · have hwords := @snakeCaseAfter_eq_flatten cs [] h
    simpa [snakeCase] using hwords
  · obtain ⟨hascii, hlow⟩ := of_mem_snakeCase h hc
    rw [isUpper_ascii hascii, hlow]
  · simp [hc]
  · exact snakeCaseAfter_of_lower (fun c hc => of_mem_snakeCase h hc) none
  · have hspaced := spaced_snakeCaseAfter h hno none
    exact ⟨head?_snakeCase_ne h hno, hspaced.getLast?_ne, hspaced.not_doubled⟩

end TxLens.Text

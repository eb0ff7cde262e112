import TxLens.Proofs.Address.Grammar
/-!
# Which address classes work

A class works on a network when every raw identifier can be rendered as a member of it and the
rendering is told to be one. A rendering is in lower case whatever the label is, and the first class
with a label takes all addresses under it, so a class works exactly when its label is acceptable as it
stands and no class before it has the same one (`works_iff`). All classes work exactly when all labels
are acceptable and no two of them are the same (`forall_works_iff`).
-/

namespace TxLens

open Bech32 (IsLabel)

namespace Address.Labels

/-- Every identifier is rendered as a member of the class and recognised as one. -/
def Works (ls : Labels) (c : Class) : Prop :=
  ∀ raw : Bytes, IsLength raw.length →
    ∃ t, ls.encodeAs c raw = .ok t ∧ ls.classify? t = some c

/-- No class that is looked at before this one has its label. -/
def IsFirst (ls : Labels) (c : Class) : Prop :=
  ∃ before after, Class.all = before ++ c :: after ∧ ∀ d ∈ before, ls.ofClass d ≠ ls.ofClass c

/-- All labels are acceptable and no two are the same. -/
structure Proper (ls : Labels) : Prop where
  acceptable : ∀ c, IsLabel (ls.ofClass c).toList
  distinct : ∀ c d, ls.ofClass c = ls.ofClass d → c = d

variable {ls : Labels} {c : Class}

theorem Proper.ofClass_ne_empty (h : ls.Proper) (c : Class) : ls.ofClass c ≠ "" := by
  intro he
  have hlen := (h.acceptable c).nonempty
  rw [he] at hlen
  exact absurd hlen (by decide)

theorem classOf?_eq_some_iff {hrp : String} :
    ls.classOf? hrp = some c ↔ ls.ofClass c = hrp ∧ ls.IsFirst c := by
  simp only [classOf?, List.find?_eq_some_iff_append, beq_iff_eq, Bool.not_eq_true', beq_eq_false_iff_ne,
    IsFirst]
  constructor
  · rintro ⟨rfl, h⟩
    exact ⟨rfl, h⟩
  · rintro ⟨rfl, h⟩
    exact ⟨rfl, h⟩

/-! ## One class -/

/-- What is rendered under a label is recognised by the label's lower-case form. -/
theorem classify?_of_encodeAs {raw : Bytes} {t : String} (h : ls.encodeAs c raw = .ok t) :
    ls.classify? t = ls.classOf? (ls.ofClass c).toLower := by
  rw [classify?, parse_of_render h]

theorem toLower_eq_self {s : String} (h : IsLabel s.toList) : s.toLower = s := by
  rw [← String.toList_inj, toList_toLower, Bech32.map_toLower_of_lower h.lower]

theorem works_iff : ls.Works c ↔ IsLabel (ls.ofClass c).toList ∧ ls.IsFirst c := by
  constructor
  · intro h
    obtain ⟨t, ht, hclass⟩ := h (List.replicate 20 0) (.inl List.length_replicate)
    obtain ⟨-, hlabel, -, -⟩ := render_eq_ok_iff.1 ht
    rw [classify?_of_encodeAs ht] at hclass
    obtain ⟨hlower, hfirst⟩ := classOf?_eq_some_iff.1 hclass
    refine ⟨?_, hfirst⟩
    rwa [hlower, toList_toLower]
  · rintro ⟨hlabel, hfirst⟩ raw hlen
    have hlower := Bech32.map_toLower_of_lower hlabel.lower
    have ht : ls.encodeAs c raw = .ok
        (String.ofList (Bech32.text .bech32 (ls.ofClass c).toList (Bech32.toSymbols raw))) := by
      rw [encodeAs, render_eq_ok_iff, hlower]
      exact ⟨hlen, hlabel, .inl hlabel.lower, String.toList_ofList⟩
    refine ⟨_, ht, ?_⟩
    rw [classify?_of_encodeAs ht, toLower_eq_self hlabel, classOf?_eq_some_iff]
    exact ⟨rfl, hfirst⟩

/-! ## All classes -/

theorem isFirst_of_distinct (h : ∀ c d, ls.ofClass c = ls.ofClass d → c = d) (c : Class) :
    ls.IsFirst c := by
  cases c with
  | account => exact ⟨[], _, rfl, by simp⟩
  | validatorOperator =>
    refine ⟨[.account], _, rfl, fun d hd hl => ?_⟩
    rw [h d _ hl] at hd
    simp at hd
  | validatorConsensus =>
    refine ⟨[.account, .validatorOperator], _, rfl, fun d hd hl => ?_⟩
    rw [h d _ hl] at hd
    simp at hd

/-- A label belongs to one class at most when every class is found by its label. -/
theorem distinct_of_isFirst (h : ∀ c, ls.IsFirst c) (c d : Class) (hl : ls.ofClass c = ls.ofClass d) :
    c = d := by
  have hc := classOf?_eq_some_iff.2 ⟨rfl, h c⟩
  have hd := classOf?_eq_some_iff.2 ⟨rfl, h d⟩
  rw [hl, hd] at hc
  exact (Option.some.inj hc).symm

theorem forall_works_iff : (∀ c, ls.Works c) ↔ ls.Proper := by
  simp only [works_iff]
  constructor
  · intro h
    exact ⟨fun c => (h c).1, distinct_of_isFirst fun c => (h c).2⟩
  · intro h c
    exact ⟨h.acceptable c, isFirst_of_distinct h.distinct c⟩

end Address.Labels

end TxLens

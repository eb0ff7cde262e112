import Mathlib.Data.List.Nodup
/-!
# Looking up among pairs

What is looked up in a list of pairs stands there under its key (`mem_of_lookup`), and under a key that
stands nowhere nothing is found (`lookup_ne_none_iff`). Where no key stands twice, what is found is
everything that stands there (`lookup_eq_some_iff_mem`).
-/

namespace TxLens

variable {κ α : Type} [BEq κ] [LawfulBEq κ] {ps : List (κ × α)} {k : κ} {a : α}

theorem mem_of_lookup (h : ps.lookup k = some a) : (k, a) ∈ ps := by
  obtain ⟨before, after, rfl, -⟩ := List.lookup_eq_some_iff.1 h
  exact List.mem_append_right before List.mem_cons_self

theorem lookup_ne_none_iff : ps.lookup k ≠ none ↔ k ∈ ps.map Prod.fst := by
  rw [ne_eq, List.lookup_eq_none_iff, List.mem_map]
  constructor
  · intro h
    by_contra hno
    exact h fun p hp => bne_iff_ne.2 fun hk => hno ⟨p, hp, hk.symm⟩
  · rintro ⟨p, hp, rfl⟩ h
    simpa using h p hp

theorem not_mem_of_lookup (h : ps.lookup k = none) (a : α) : (k, a) ∉ ps :=
  fun hmem => lookup_ne_none_iff.2 (List.mem_map_of_mem hmem) h

theorem lookup_eq_some_iff_mem (hkeys : (ps.map Prod.fst).Nodup) :
    ps.lookup k = some a ↔ (k, a) ∈ ps := by
  refine ⟨mem_of_lookup, fun hmem => ?_⟩
  obtain ⟨before, after, rfl⟩ := List.append_of_mem hmem
  refine List.lookup_eq_some_iff.2 ⟨before, after, rfl, fun p hp => bne_iff_ne.2 ?_⟩
  rw [List.map_append, List.map_cons, List.nodup_append] at hkeys
  exact (hkeys.2.2 p.1 (List.mem_map_of_mem hp) k List.mem_cons_self).symm

end TxLens

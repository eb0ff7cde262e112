import Mathlib.Data.List.Pairwise
import TxLens.Proofs.Signer.Lookup
/-!
# Which message types are known

No name in the catalog ends in another (`eq_of_isSuffix`), so it does not matter which one is looked
up first: a message is known exactly when its type has one of the names, and then by the rule that
stands there (`lookup?_standard_iff`).
-/

namespace TxLens

/-- Whether the type name of a message is this one, or ends in it after a dot. -/
def Envelope.IsType (e : Envelope) (name : String) : Prop :=
  name.toList ∈ nameSuffixes (afterSlash e.typeUrl.toList)

instance (e : Envelope) (name : String) : Decidable (e.IsType name) :=
  inferInstanceAs (Decidable (_ ∈ _))

namespace Catalog

/-! ## Names -/

/-- Read from the end, two names differ before either is over. -/
theorem pairwise_endings :
    (all.map fun p => (Bytes.ofText p.1).reverse).Pairwise fun a b =>
      (a.isPrefixOf b || b.isPrefixOf a) = false := by
  decide +kernel

theorem not_isSuffix_of_reverse {s t : Bytes} (h : s.reverse.isPrefixOf t.reverse = false) :
    ¬ s <:+ t := by
  intro hsuffix
  have hprefix := List.isPrefixOf_iff_prefix.2 (List.reverse_prefix.2 hsuffix)
  exact Bool.false_ne_true (h.symm.trans hprefix)

theorem pairwise_not_suffix :
    all.Pairwise fun p q =>
      ¬ Bytes.ofText p.1 <:+ Bytes.ofText q.1 ∧ ¬ Bytes.ofText q.1 <:+ Bytes.ofText p.1 := by
  refine (List.pairwise_map.1 pairwise_endings).imp fun {p q} h => ?_
  rw [Bool.or_eq_false_iff] at h
  exact ⟨not_isSuffix_of_reverse h.1, not_isSuffix_of_reverse h.2⟩

/-- No registered name ends in another one. -/
theorem eq_of_isSuffix {p q : String × SignerRule} (hp : p ∈ all) (hq : q ∈ all)
    (h : Bytes.ofText p.1 <:+ Bytes.ofText q.1) : p = q := by
  by_contra hne
  have : Std.Symm fun p q : String × SignerRule =>
      ¬ Bytes.ofText p.1 <:+ Bytes.ofText q.1 ∧ ¬ Bytes.ofText q.1 <:+ Bytes.ofText p.1 :=
    ⟨fun _ _ hpq => ⟨hpq.2, hpq.1⟩⟩
  exact (pairwise_not_suffix.forall hp hq hne).1 h

theorem nodup_names : (all.map Prod.fst).Nodup := by
  refine List.pairwise_map.2 (pairwise_not_suffix.imp fun {p q} h => ?_)
  intro (heq : p.1 = q.1)
  exact h.1 (heq ▸ List.suffix_rfl)

theorem nodup_reverse : (all.reverse.map Prod.fst).Nodup := by
  rw [List.map_reverse, List.nodup_reverse]
  exact nodup_names

/-- No row takes the place of an earlier one. -/
theorem standard_eq : Registry.standard = ⟨all.reverse, nodup_reverse⟩ :=
  Registry.ofList_eq nodup_reverse

theorem get?_standard_iff {name : String} {rule : SignerRule} :
    Registry.standard.get? name = some rule ↔ (name, rule) ∈ all := by
  rw [standard_eq, Registry.get?, lookup_eq_some_iff_mem nodup_reverse, List.mem_reverse]

/-! ## Types -/

theorem lookup?_of_isType {e : Envelope} {name : String} {rule : SignerRule}
    (hrule : (name, rule) ∈ all) (h : e.IsType name) :
    Registry.standard.lookup? e.typeUrl = some rule := by
  refine Registry.lookup?_of_mem_nameSuffixes h (get?_standard_iff.2 hrule) fun s hs => ?_
  rw [Option.eq_none_iff_forall_ne_some]
  intro other hother
  -- a longer name would end in this one, and is not even as long
  have hsame := eq_of_isSuffix hrule (get?_standard_iff.1 hother) (ofText_isSuffix_of_mem_dotTails hs)
  obtain ⟨rfl, -⟩ := Prod.mk.inj hsame
  have hlt := length_lt_of_mem_dotTails hs
  rw [String.toList_ofList] at hlt
  exact Nat.lt_irrefl _ hlt

/-- A message is known exactly when its type has a name in the catalog. -/
theorem lookup?_standard_iff {e : Envelope} {rule : SignerRule} :
    Registry.standard.lookup? e.typeUrl = some rule ↔
      ∃ name, (name, rule) ∈ all ∧ e.IsType name := by
  constructor
  · intro h
    obtain ⟨s, hs, hrule⟩ := Registry.exists_of_lookup? h
    refine ⟨String.ofList s, get?_standard_iff.1 hrule, ?_⟩
    rwa [Envelope.IsType, String.toList_ofList]
  · rintro ⟨name, hrule, h⟩
    exact lookup?_of_isType hrule h

end Catalog

end TxLens

import TxLens.Key
/-!
# Which keys can be used

An envelope holds a usable key when the label of some family stands in its type URL and its content is
what the first such family writes (`exists_ofEnvelope?_eq_some_iff`). Nothing else is asked of it here:
a key of the wrong length is usable and only fails when an address is derived from it.
-/

namespace TxLens

theorem Text.contains_iff {needle cs : List Char} :
    Text.contains needle cs = true ↔ needle <:+: cs := by
  induction cs with
  | nil =>
    rw [List.infix_nil, Text.contains, Text.splitFirst]
    by_cases h : needle = [] <;> simp [h]
  | cons c cs ih =>
    rw [List.infix_cons_iff, ← List.isPrefixOf_iff_prefix, ← ih, Text.contains, Text.splitFirst]
    by_cases h : needle.isPrefixOf (c :: cs) = true
    · simp [h]
    · simp [h, Text.contains]

namespace KeyFamily

/-- The first family, in the order in which they are tried, whose label stands in a type URL. -/
def IsNamedBy (f : KeyFamily) (typeUrl : String) : Prop :=
  f.label.toList <:+: typeUrl.toList ∧
    ∃ before after, all = before ++ f :: after ∧ ∀ g ∈ before, ¬ g.label.toList <:+: typeUrl.toList

theorem ofTypeUrl?_eq_some_iff {f : KeyFamily} {typeUrl : String} :
    ofTypeUrl? typeUrl = some f ↔ f.IsNamedBy typeUrl := by
  rw [ofTypeUrl?, List.find?_eq_some_iff_append, IsNamedBy, Text.contains_iff]
  simp only [Bool.not_eq_true', ← Bool.not_eq_true, Text.contains_iff]

/-- Whether bytes are the encoding of a key of this family. -/
def Decodes : KeyFamily → Bytes → Prop
  | .multisig, bs => ∃ k, Wire.Object.decode MultisigKey bs = .ok k
  | _, bs => ∃ k, Wire.Object.decode KeyBytes bs = .ok k

end KeyFamily

namespace PublicKey

/-- An envelope with a key of a supported family that can be decoded. -/
def IsUsable (e : Envelope) : Prop := ∃ f : KeyFamily, f.IsNamedBy e.typeUrl ∧ f.Decodes e.value

theorem exists_ofEnvelope?_eq_some_iff {e : Envelope} :
    (∃ k, ofEnvelope? e = .ok (some k)) ↔ IsUsable e := by
  simp only [IsUsable, ← KeyFamily.ofTypeUrl?_eq_some_iff, ofEnvelope?, Envelope.unpack]
  cases hf : KeyFamily.ofTypeUrl? e.typeUrl with
  | none => simp
  | some f =>
    cases f with
    | multisig => cases h : Wire.Object.decode MultisigKey e.value <;> simp [KeyFamily.Decodes, h]
    | secp256k1 => cases h : Wire.Object.decode KeyBytes e.value <;> simp [KeyFamily.Decodes, h]
    | secp256r1 => cases h : Wire.Object.decode KeyBytes e.value <;> simp [KeyFamily.Decodes, h]
    | ed25519 => cases h : Wire.Object.decode KeyBytes e.value <;> simp [KeyFamily.Decodes, h]

end PublicKey

end TxLens

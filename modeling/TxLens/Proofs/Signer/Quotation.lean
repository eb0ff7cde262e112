import TxLens.Proofs.Signer.Preorder
import TxLens.Proofs.Wire.Quotation
/-!
# Signers are quotations

The signers of a message stand in its bytes: no rule of the catalog puts an address together or adds
one of its own. A rule reads texts of the decoded payload, which are runs of its bytes, and what the
signers of an embedded message quote stands in that message's payload, itself a run of the bytes
around it (`isInfix_of_mem_signersOf_standard`).
-/

namespace TxLens

open Wire

/-! ## Addresses of the message itself -/

/-- A text that the contents of a message hold, or the empty text of an absent field. -/
def Quoted (contents : List Bytes) (a : String) : Prop := a = "" ∨ Bytes.ofText a ∈ contents

theorem Quoted.mono {contents contents' : List Bytes} {a : String} (h : Quoted contents a)
    (hs : contents ⊆ contents') : Quoted contents' a :=
  h.imp_right fun hm => hs hm

theorem Quoted.isInfix {contents : List Bytes} {a : String} {bs : Bytes} (h : Quoted contents a)
    (hc : ∀ c ∈ contents, c <:+: bs) : Bytes.ofText a <:+: bs := by
  rcases h with rfl | h
  · exact List.nil_infix
  · exact hc _ h

/-- An address at a source is a text of the message or of one inside it. -/
theorem quoted_of_mem_read : ∀ (source : AddressSource) (m : Message) {a : String},
    a ∈ source.read m → Quoted (Message.contents m) a
  | .one n, m, a, h => by
    rw [List.mem_singleton.1 h]
    exact Message.text_eq_empty_or_mem n m
  | .each n, m, a, h => .inr (Message.ofText_mem_contents h)
  | .inside n source, m, a, h =>
    (quoted_of_mem_read source _ h).mono (Message.contents_submessage_subset n m)
  | .insideEach n source, m, a, h => by
    obtain ⟨sub, hsub, ha⟩ := List.mem_flatMap.1 h
    exact (quoted_of_mem_read source sub ha).mono (Message.contents_subset_of_mem_messages hsub)

/-! ## Embedded messages -/

/-- The payload of an embedded message stands in the bytes that the contents around it stand in. -/
theorem isInfix_of_mem_embeddedIn {n : Nat} {m : Message} {bs : Bytes} {c : Envelope}
    (hm : ∀ b ∈ Message.contents m, b <:+: bs) (h : c ∈ embeddedIn n m) : c.value <:+: bs := by
  obtain ⟨sub, hsub, rfl⟩ := List.mem_map.1 h
  change Message.byteString 2 sub <:+: bs
  rcases Message.byteString_eq_nil_or_mem 2 sub with hb | hb
  · rw [hb]
    exact List.nil_infix
  · exact hm _ (Message.contents_subset_of_mem_messages hsub hb)

theorem exists_of_mem_collect {ε α β : Type} {f : α → Except ε (List β)} {as : List α} {bs : List β}
    (h : collect f as = .ok bs) {b : β} (hb : b ∈ bs) : ∃ a ∈ as, ∃ cs, f a = .ok cs ∧ b ∈ cs := by
  induction as generalizing bs with
  | nil =>
    cases h
    cases hb
  | cons a as ih =>
    rw [collect] at h
    cases ha : f a with
    | error e => rw [ha] at h; cases h
    | ok cs =>
      cases hr : collect f as with
      | error e => rw [ha, hr] at h; cases h
      | ok ds =>
        rw [ha, hr] at h
        cases h
        rcases List.mem_append.1 hb with hb | hb
        · exact ⟨a, List.mem_cons_self, cs, ha, hb⟩
        · obtain ⟨a', ha', cs', hf, hb⟩ := ih hr hb
          exact ⟨a', List.mem_cons_of_mem _ ha', cs', hf, hb⟩

/-! ## All signers -/

/-- Whoever `inner` says signs a message stands in its payload. -/
def OnlyQuotes (inner : Envelope → Except SignerFault (List String)) : Prop :=
  ∀ e l, inner e = .ok l → ∀ a ∈ l, Bytes.ofText a <:+: e.value

/-- A rule on payloads quotes where the signers of embedded messages are quotations. -/
theorem onlyQuotes_payload {inner : Envelope → Except SignerFault (List String)}
    (hinner : OnlyQuotes inner) (visit : Visit) (layout : Layout) (parts : List RulePart) :
    OnlyQuotes ((SignerRule.payload layout parts).signers visit inner) := by
  intro e l h a ha
  rw [SignerRule.signers] at h
  cases hm : layout.decode e.value with
  | error f => rw [hm] at h; cases h
  | ok m =>
    rw [hm] at h
    have hcontents := Layout.isInfix_of_mem_contents hm
    obtain ⟨part, -, cs, hpart, ha⟩ := exists_of_mem_collect h ha
    cases part with
    | addresses source =>
      cases hpart
      exact (quoted_of_mem_read source m ha).isInfix hcontents
    | embedded n =>
      obtain ⟨c, hc, ds, hinner', ha⟩ := exists_of_mem_collect hpart ha
      exact (hinner c ds hinner' a ha).trans (isInfix_of_mem_embeddedIn hcontents hc)

/-- At every depth the standard registry quotes: none of its rules is custom. -/
theorem onlyQuotes_signersAt (levels : Nat) : OnlyQuotes (Registry.standard.signersAt levels) := by
  induction levels with
  | zero => intro e l h; cases h
  | succ levels ih =>
    intro e l h
    rw [Registry.signersAt] at h
    cases hr : Registry.standard.lookup? e.typeUrl with
    | none =>
      rw [hr] at h
      cases h
      intro a ha
      cases ha
    | some rule =>
      rw [hr] at h
      obtain ⟨layout, parts, rfl⟩ := Catalog.exists_payload hr
      exact onlyQuotes_payload ih _ layout parts e l h

/-- **No signer is made up**: at whatever depth a message stands, each of its signers that is not the
empty text stands in its payload as one run of bytes. -/
theorem isInfix_of_mem_signersOf_standard (e : Envelope) :
    (∀ l, Registry.standard.signersOf e = .ok l → ∀ a ∈ l, a ≠ "" → Bytes.ofText a <:+: e.value) ∧
    ∀ levels l, Registry.standard.signersAt levels e = .ok l →
      ∀ a ∈ l, a ≠ "" → Bytes.ofText a <:+: e.value :=
  ⟨fun l h a ha _ => onlyQuotes_signersAt (depthLimit + 1) e l h a ha,
    fun levels l h a ha _ => onlyQuotes_signersAt levels e l h a ha⟩

end TxLens

import TxLens.Proofs.Insertion
import TxLens.Proofs.Signer.FieldOrder
import TxLens.Proofs.Wire.Object
/-!
# Fields that a layout leaves out

A layout declares the fields of a message that matter here; who sends the message writes others as
well. Complete fields that the layout does not declare may stand anywhere between those of bytes that
decode, of any wire type and with groups as deep as the budget allows: the bytes decode to the same
message, so to the same object, and a payload keeps its signers (`decode_inserted_undeclared`).
-/

namespace TxLens

open Wire
open Wire.Segment (joined)

/-- The layout has no field of this number. -/
def Wire.Layout.Undeclared (l : Layout) (seg : Segment) : Prop := l.field? seg.number = none

section

variable {l : Layout} {segs segs' : List Segment}

theorem Wire.Layout.decode_inserted_iff (h : Inserted l.Undeclared segs segs') {m : Message} :
    l.decode (joined segs') = .ok m ↔ l.decode (joined segs) = .ok m := by
  have hrecords : segs'.flatMap l.recordsOf = segs.flatMap l.recordsOf :=
    h.flatMap_eq fun seg hundeclared => recordsOf_of_undeclared hundeclared
  have hdecode : (∀ seg ∈ segs', ∃ m, l.decode seg.bytes = .ok m) ↔
      ∀ seg ∈ segs, ∃ m, l.decode seg.bytes = .ok m := by
    constructor
    · intro hall seg hseg
      exact hall seg (h.subset hseg)
    · intro hall seg hseg
      rcases h.mem_or hseg with hold | hundeclared
      · exact hall seg hold
      · exact ⟨[], decode_of_undeclared hundeclared⟩
  rw [decode_joined_iff, decode_joined_iff, hdecode, hrecords]

theorem Wire.Object.decode_inserted_iff {α : Type} [Object α]
    (h : Inserted (type α).layout.Undeclared segs segs') {a : α} :
    decode α (joined segs') = .ok a ↔ decode α (joined segs) = .ok a := by
  simp only [decode_eq_ok_iff, Layout.decode_inserted_iff h]

/-- The signers of a payload that decodes do not depend on fields that its layout leaves out. -/
theorem signersOf_inserted {typeUrl : String} {parts : List RulePart}
    (hr : Registry.standard.lookup? typeUrl = some (.payload l parts)) {m : Message}
    (hm : l.decode (joined segs) = .ok m) (h : Inserted l.Undeclared segs segs') :
    Registry.standard.signersOf ⟨typeUrl, joined segs'⟩ =
      Registry.standard.signersOf ⟨typeUrl, joined segs⟩ := by
  have hm' : l.decode (joined segs') = .ok m := (Layout.decode_inserted_iff h).2 hm
  exact Registry.signersAt_of_sameFields hr hm hm' (fun _ => rfl) (depthLimit + 1)

end

/-- **Undeclared fields change nothing**: bytes that decode are cut in one way into their fields, and
with fields of no declared number put in at any of the cuts they decode to the same. So it is for the
payloads of all registered types, whose signers stay the same, and for all objects. -/
theorem decode_inserted_undeclared :
    (∀ (l : Layout) (m : Message) (bs : Bytes), l.decode bs = .ok m →
      (∃! segs, joined segs = bs) ∧
      ∀ segs segs', joined segs = bs → Inserted l.Undeclared segs segs' →
        l.decode (joined segs') = .ok m) ∧
    (∀ (α : Type) [Object α] (a : α) (segs segs' : List Segment),
      Object.decode α (joined segs) = .ok a →
        Inserted (Object.type α).layout.Undeclared segs segs' →
          Object.decode α (joined segs') = .ok a) ∧
    (∀ (e : Envelope) (rule : SignerRule), Registry.standard.lookup? e.typeUrl = some rule →
      ∃ l, rule.layout? = some l ∧ ∀ (m : Message) (segs segs' : List Segment),
        l.decode e.value = .ok m → joined segs = e.value → Inserted l.Undeclared segs segs' →
          Registry.standard.signersOf ⟨e.typeUrl, joined segs'⟩ = Registry.standard.signersOf e) := by
  refine ⟨?_, ?_, ?_⟩
  · intro l m bs hm
    refine ⟨Layout.existsUnique_joined hm, ?_⟩
    rintro segs segs' rfl h
    exact (Layout.decode_inserted_iff h).2 hm
  · intro α _ a segs segs' ha h
    exact (Object.decode_inserted_iff h).2 ha
  · intro e rule hr
    obtain ⟨l, parts, rfl⟩ := Catalog.exists_payload hr
    refine ⟨l, rfl, ?_⟩
    intro m segs segs' hm hsegs h
    have hsame := signersOf_inserted hr (hsegs ▸ hm) h
    rwa [hsegs] at hsame

/-- A group of field 5 that holds a number and another group, which holds nothing. -/
def Wire.Segment.nestedGroup : Segment where
  key := ⟨5, .startGroup⟩
  keyBytes := [43]
  content := [48] ++ [1] ++ ([51] ++ [52] ++ [44])
  spelled := ⟨.byte (by decide), by decide, by decide⟩
  complete := .field (k := ⟨6, .varint⟩) ⟨.byte (by decide), by decide, by decide⟩ (by decide)
    ⟨1, .byte (by decide)⟩
    (.field (k := ⟨6, .startGroup⟩) ⟨.byte (by decide), by decide, by decide⟩ (by decide)
      (.ends ⟨.byte (by decide), by decide, by decide⟩)
      (.ends ⟨.byte (by decide), by decide, by decide⟩))

open Wire.Segment (nestedGroup)

/-- Groups around the only input of a transfer, and as all that a transfer or an envelope holds. -/
theorem decode_around_nestedGroup :
    Catalog.multiSend.decode (joined [nestedGroup, nestedGroup]) = .ok [] ∧
      Object.decode Envelope (joined [nestedGroup]) = .ok ⟨"", []⟩ ∧
      Registry.standard.signersOf ⟨"/cosmos.bank.v1beta1.MsgMultiSend",
        joined [nestedGroup, Catalog.input 97, nestedGroup]⟩ = .ok ["a"] := by
  have hgroup : Catalog.multiSend.Undeclared nestedGroup := rfl
  have hgroup' : (Object.type Envelope).layout.Undeclared nestedGroup := rfl
  have haround := Inserted.put hgroup (.keep (Catalog.input 97) (.put hgroup .nil))
  have he : Envelope.IsType ⟨"/cosmos.bank.v1beta1.MsgMultiSend", joined [Catalog.input 97]⟩
      "MsgMultiSend" := by decide
  have hrule := Catalog.lookup?_of_isType Catalog.multiSend_mem he
  obtain ⟨m, hm⟩ : ∃ m, Catalog.multiSend.decode (joined [Catalog.input 97]) = .ok m :=
    Layout.exists_of_isOk (by decide +kernel)
  have hnames : Catalog.multiSendParties 1 [Catalog.input 97] ++
      Catalog.multiSendParties 2 [Catalog.input 97] = ["a"] := by decide +kernel
  obtain ⟨hlayout, hobject, hsigners⟩ := decode_inserted_undeclared
  refine ⟨?_, ?_, ?_⟩
  · exact (hlayout _ _ _ (Layout.decode_nil _)).2 [] _ rfl (.put hgroup (.put hgroup .nil))
  · have hempty : Object.decode Envelope (joined []) = .ok ⟨"", []⟩ :=
      Object.decode_eq_ok_iff.2 ⟨[], Layout.decode_nil _, rfl⟩
    exact hobject Envelope _ _ _ hempty (.put hgroup' .nil)
  · obtain ⟨l, hl, hsame⟩ := hsigners _ _ hrule
    cases hl
    rw [hsame _ _ _ hm rfl haround, Catalog.signersOf_multiSend he rfl hm, hnames]

end TxLens

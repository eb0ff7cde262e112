import Mathlib.Data.List.Basic
import TxLens.Proofs.Signer.Preorder
import TxLens.Proofs.Wire.Segment
/-!
# The order of fields does not matter for signers

A payload may list its fields in any order, as long as the records of one field stay in theirs: the
signers are the same, and so is the fault of an embedded message (`signersOf_reordered`). A rule looks
at a message through the values of single fields, so two messages whose fields hold the same records
have the same signers (`signersAt_of_sameFields`); and moving segments past those of other fields
keeps what every field holds.
-/

namespace TxLens

open Wire
open Wire.Segment (joined)

/-! ## Messages with the same fields -/

namespace Wire.Message

/-- Every field holds the same records in the same order. -/
def SameFields (m m' : Message) : Prop :=
  ∀ n, m.filter (fun r => r.number == n) = m'.filter fun r => r.number == n

/-- A view that sees records of one number only sees the same in both. -/
theorem SameFields.filterMap_eq {β : Type} {m m' : Message} (h : SameFields m m') (n : Nat)
    {view : Record → Option β} (hview : ∀ r, r.number ≠ n → view r = none) :
    m.filterMap view = m'.filterMap view := by
  have only : ∀ m : Message, m.filterMap view = (m.filter fun r => r.number == n).filterMap view := by
    intro m
    rw [List.filterMap_filter]
    refine List.filterMap_congr fun r _ => ?_
    by_cases hr : r.number = n
    · simp [hr]
    · simp [hr, hview r hr]
  rw [only m, only m', h n]

variable {m m' : Message}

theorem SameFields.texts_eq (h : SameFields m m') (n : Nat) : texts n m = texts n m' :=
  h.filterMap_eq n fun r hr => by cases r <;> simp_all [Record.text?, Record.number]

theorem SameFields.messages_eq (h : SameFields m m') (n : Nat) : messages n m = messages n m' :=
  h.filterMap_eq n fun r hr => by cases r <;> simp_all [Record.message?, Record.number]

end Wire.Message

open Wire.Message (SameFields)

/-! ## Signers see single fields -/

theorem AddressSource.read_of_sameFields {m m' : Message} (h : SameFields m m') :
    ∀ source : AddressSource, source.read m = source.read m'
  | .one n => by simp only [read, Message.text, h.texts_eq n]
  | .each n => by simp only [read, h.texts_eq n]
  | .inside n source => by simp only [read, Message.submessage, h.messages_eq n]
  | .insideEach n source => by simp only [read, h.messages_eq n]

theorem RulePart.signers_of_sameFields {inner : Envelope → Except SignerFault (List String)}
    {m m' : Message} (h : SameFields m m') (part : RulePart) :
    part.signers inner m = part.signers inner m' := by
  cases part with
  | addresses source => simp only [signers, source.read_of_sameFields h]
  | embedded n => simp only [signers, embeddedIn, Object.subs, h.messages_eq n]

/-- At any depth, payloads that decode to the same fields have the same signers. -/
theorem Registry.signersAt_of_sameFields {r : Registry SignerRule} {typeUrl : String} {l : Layout}
    {parts : List RulePart} {bs bs' : Bytes} {m m' : Message}
    (hr : r.lookup? typeUrl = some (.payload l parts)) (hm : l.decode bs = .ok m)
    (hm' : l.decode bs' = .ok m') (h : SameFields m m') (levels : Nat) :
    r.signersAt levels ⟨typeUrl, bs'⟩ = r.signersAt levels ⟨typeUrl, bs⟩ := by
  cases levels with
  | zero => rfl
  | succ levels =>
    have hparts : RulePart.signers (r.signersAt levels) m' = RulePart.signers (r.signersAt levels) m :=
      funext fun part => (part.signers_of_sameFields h).symm
    simp only [signersAt, hr, SignerRule.signers, hm, hm', hparts]

/-! ## Segments in another order -/

/-- The same segments in another order, which keeps the order of segments of one field. -/
structure Reordered (segs segs' : List Segment) : Prop where
  perm : segs.Perm segs'
  sameField : ∀ n, segs.filter (fun seg => seg.number == n) = segs'.filter fun seg => seg.number == n

/-- Neighbours of different fields may change places. -/
theorem Reordered.swap {a b : Segment} (hne : a.number ≠ b.number) (before after : List Segment) :
    Reordered (before ++ a :: b :: after) (before ++ b :: a :: after) where
  perm := (List.Perm.swap b a after).append_left before
  sameField n := by
    rw [List.filter_append, List.filter_append]
    by_cases ha : a.number = n
    · have hb : b.number ≠ n := fun hb => hne (ha.trans hb.symm)
      simp [ha, hb]
    · simp [List.filter_cons, ha]

namespace Wire.Layout

/-- The records of one field come from the segments of that field. -/
theorem filter_flatMap_recordsOf (l : Layout) (n : Nat) (segs : List Segment) :
    (segs.flatMap l.recordsOf).filter (fun r => r.number == n) =
      (segs.filter fun seg => seg.number == n).flatMap l.recordsOf := by
  induction segs with
  | nil => rfl
  | cons seg segs ih =>
    rw [List.flatMap_cons, List.filter_append, ih]
    by_cases hn : seg.number = n
    · have hall : (l.recordsOf seg).filter (fun r => r.number == n) = l.recordsOf seg :=
        List.filter_eq_self.2 fun r hr => by simp [number_of_mem_recordsOf hr, hn]
      rw [hall, List.filter_cons_of_pos (by simpa using hn), List.flatMap_cons]
    · have hnone : (l.recordsOf seg).filter (fun r => r.number == n) = [] :=
        List.filter_eq_nil_iff.2 fun r hr => by simp [number_of_mem_recordsOf hr, hn]
      rw [hnone, List.filter_cons_of_neg (by simpa using hn), List.nil_append]

theorem decode_reordered {l : Layout} {segs segs' : List Segment} {m : Message}
    (hm : l.decode (joined segs) = .ok m) (h : Reordered segs segs') :
    ∃ m', l.decode (joined segs') = .ok m' ∧ SameFields m m' := by
  obtain ⟨hall, rfl⟩ := decode_joined_iff.1 hm
  refine ⟨segs'.flatMap l.recordsOf, decode_joined_iff.2 ⟨fun seg hs => ?_, rfl⟩, fun n => ?_⟩
  · exact hall seg (h.perm.mem_iff.2 hs)
  · rw [filter_flatMap_recordsOf, filter_flatMap_recordsOf, h.sameField n]

/-- The messages of a field that holds messages, one for each segment of the field. -/
theorem messages_flatMap_recordsOf {l : Layout} {n : Nat} {f : Field FieldType} {sub : Layout}
    (hf : l.field? n = some f) (ht : f.type.layout? = some sub) {segs : List Segment}
    (hall : ∀ seg ∈ segs, ∃ m, l.decode seg.bytes = .ok m) :
    Message.messages n (segs.flatMap l.recordsOf) =
      (segs.filter fun seg => seg.number == n).map fun seg =>
        Message.submessage n (l.recordsOf seg) := by
  induction segs with
  | nil => rfl
  | cons seg segs ih =>
    obtain ⟨⟨m, hm⟩, hall⟩ := List.forall_mem_cons.1 hall
    rw [List.flatMap_cons, Message.messages, List.filterMap_append, ← Message.messages,
      ← Message.messages, ih hall]
    by_cases hn : seg.number = n
    · subst hn
      obtain ⟨rs, rfl⟩ := decode_of_layout? hf ht hm
      rw [List.filter_cons_of_pos (by simp), List.map_cons, recordsOf_of_decode hm]
      simp [Message.messages, Message.submessage, Record.message?]
    · have hnone : Message.messages n (l.recordsOf seg) = [] := by
        refine List.filterMap_eq_nil_iff.2 fun r hr => ?_
        have hr := number_of_mem_recordsOf hr
        cases r <;> simp_all [Record.message?, Record.number]
      rw [hnone, List.filter_cons_of_neg (by simpa using hn), List.nil_append]

end Wire.Layout

/-! ## Transfers between many accounts -/

namespace Catalog

def multiSend : Layout :=
  ⟨"MsgMultiSend", [record 1 "inputs" "Input" [text 1 "address"],
    record 2 "outputs" "Output" [text 1 "address"]]⟩

def multiSendRule : SignerRule := .payload multiSend [insideEach 1 (.one 1), insideEach 2 (.one 1)]

theorem multiSend_mem : ("MsgMultiSend", multiSendRule) ∈ all := mem_of_lookup (by rfl)

/-- The addresses that the segments of one field name, in the order of the segments. -/
def multiSendParties (n : Nat) (segs : List Segment) : List String :=
  (segs.filter fun seg => seg.number == n).map fun seg =>
    (Message.submessage n (multiSend.recordsOf seg)).text 1

theorem signersOf_multiSend {e : Envelope} {segs : List Segment} {m : Message}
    (he : e.IsType "MsgMultiSend") (hsegs : joined segs = e.value)
    (hm : multiSend.decode e.value = .ok m) :
    Registry.standard.signersOf e = .ok (multiSendParties 1 segs ++ multiSendParties 2 segs) := by
  have hr := lookup?_of_isType multiSend_mem he
  obtain ⟨hall, hrecords⟩ := Layout.decode_joined_iff.1 (hsegs ▸ hm)
  have hparties : ∀ n (f : Wire.Field FieldType) (sub : Layout), multiSend.field? n = some f →
      f.type.layout? = some sub →
        (Message.messages n m).map (Message.text 1) = multiSendParties n segs := by
    intro n f sub hf ht
    rw [hrecords, Layout.messages_flatMap_recordsOf hf ht hall, List.map_map]
    rfl
  rw [Registry.signersOf, Registry.signersAt, hr, ← hparties 1 _ _ rfl rfl, ← hparties 2 _ _ rfl rfl]
  simp [multiSendRule, SignerRule.signers, hm, collect, RulePart.signers, insideEach,
    AddressSource.read, List.map_eq_flatMap]

end Catalog

/-- **The order of fields does not matter**: a payload that decodes is cut in one way into its fields,
and in whatever order they stand, those of one number kept in theirs, it decodes and has the same
signers, or the same fault of an embedded message. So a transfer between many accounts names all its
inputs and then all its outputs, each in wire order, however the two are mixed. -/
theorem signersOf_reordered :
    (∀ (e : Envelope) (m : Message), Tree.payload? e = some m →
      (∃! segs, joined segs = e.value) ∧
      ∀ segs segs', joined segs = e.value → Reordered segs segs' →
        (∃ m', Tree.payload? ⟨e.typeUrl, joined segs'⟩ = some m') ∧
        Registry.standard.signersOf ⟨e.typeUrl, joined segs'⟩ = Registry.standard.signersOf e) ∧
    (∀ (e : Envelope) (m : Message) (segs : List Segment), Tree.payload? e = some m →
      e.IsType "MsgMultiSend" → joined segs = e.value →
        Registry.standard.signersOf e =
          .ok (Catalog.multiSendParties 1 segs ++ Catalog.multiSendParties 2 segs)) := by
  constructor
  · intro e m h
    obtain ⟨l, parts, hr, hm⟩ := Tree.payload?_eq_some_iff.1 h
    refine ⟨Layout.existsUnique_joined hm, fun segs segs' hsegs hre => ?_⟩
    obtain ⟨m', hm', hsame⟩ := Layout.decode_reordered (hsegs ▸ hm) hre
    exact ⟨⟨m', Tree.payload?_of_decode hr hm'⟩,
      Registry.signersAt_of_sameFields hr hm hm' hsame (depthLimit + 1)⟩
  · intro e m segs h he hsegs
    obtain ⟨l, parts, hr, hm⟩ := Tree.payload?_eq_some_iff.1 h
    have hrule := Catalog.lookup?_of_isType Catalog.multiSend_mem he
    cases hrule.symm.trans hr
    exact Catalog.signersOf_multiSend he hsegs hm

namespace Catalog

/-- An account that a transfer takes from, with an address of one letter. -/
def input (letter : UInt8) : Segment := .delimited 1 [10, 1, letter] (by decide) (by decide) (by simp)

/-- An account that a transfer gives to. -/
def output (letter : UInt8) : Segment := .delimited 2 [10, 1, letter] (by decide) (by decide) (by simp)

/-- An output stands between two inputs. -/
def mixedTransfer : List Segment := [input 97, output 98, input 99]

def sortedTransfer : List Segment := [input 97, input 99, output 98]

end Catalog

/-- Both orders name the inputs first. -/
theorem signersOf_mixedTransfer :
    Registry.standard.signersOf ⟨"/cosmos.bank.v1beta1.MsgMultiSend", joined Catalog.mixedTransfer⟩ =
        .ok ["a", "c", "b"] ∧
      Registry.standard.signersOf
        ⟨"/cosmos.bank.v1beta1.MsgMultiSend", joined Catalog.sortedTransfer⟩ = .ok ["a", "c", "b"] := by
  have he : Envelope.IsType
      ⟨"/cosmos.bank.v1beta1.MsgMultiSend", joined Catalog.mixedTransfer⟩ "MsgMultiSend" := by decide
  have hrule := Catalog.lookup?_of_isType Catalog.multiSend_mem he
  obtain ⟨m, hm⟩ : ∃ m, Catalog.multiSend.decode (joined Catalog.mixedTransfer) = .ok m :=
    Layout.exists_of_isOk (by decide +kernel)
  have hre : Reordered Catalog.mixedTransfer Catalog.sortedTransfer :=
    Reordered.swap (by decide) [Catalog.input 97] []
  have hnames : Catalog.multiSendParties 1 Catalog.mixedTransfer ++
      Catalog.multiSendParties 2 Catalog.mixedTransfer = ["a", "c", "b"] := by decide +kernel
  obtain ⟨horder, hparties⟩ := signersOf_reordered
  have hpayload := Tree.payload?_of_decode hrule hm
  have hmixed := hparties _ _ _ hpayload he rfl
  have hsorted := ((horder _ _ hpayload).2 _ _ rfl hre).2
  rw [hnames] at hmixed
  exact ⟨hmixed, hsorted.trans hmixed⟩

end TxLens

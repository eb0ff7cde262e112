import TxLens.Config
import TxLens.Proofs.Json.Printing
import TxLens.Proofs.Json.Record
/-!
# Documents of a schedule

A schedule is given as a list of epochs, in any order. Each epoch, and each fee in it, is a record that
may be an object or a list; a price and fees may be left out where there are none. Every text of such a
list is read as the schedule of these epochs (`scheduleOfText_of_isDocument`), and the text that the
epochs are printed as is one of them (`isDocument_toText`).
-/

namespace TxLens

open Json

/-! ## What is written -/

def ScheduledFee.fields (f : ScheduledFee) : List Field :=
  [⟨"msg_type_url", (· = .ofText f.typeUrl), False⟩, ⟨"amount", (· = .natural f.amount), False⟩,
    ⟨"denom", (· = .ofText f.denom), False⟩]

namespace FeeEpoch

def fields (e : FeeEpoch) : List Field :=
  [⟨"start_height", (· = .natural e.start), False⟩,
    ⟨"floor_gas_price", (· = .ofOption (e.floorPrice.map .natural)), e.floorPrice = none⟩,
    ⟨"fees", WritesList (fun f => IsRecord f.fields) e.fees, e.fees = []⟩]

/-- The texts that a list of epochs may be written as. -/
def IsDocument (es : List FeeEpoch) (s : String) : Prop :=
  ∃ j, WritesList (fun e => IsRecord e.fields) es j ∧ SpellsPadded s.toList j

/-- Prices and amounts have 128 bits, heights have 64. -/
structure Fits (e : FeeEpoch) : Prop where
  start : e.start < heightBound
  floorPrice : ∀ p, e.floorPrice = some p → p ≤ Amount.largest
  fees : ∀ f ∈ e.fees, f.amount ≤ Amount.largest

end FeeEpoch

/-! ## What is read -/

variable {j : Json}

theorem ScheduledFee.ofJson?_of_isRecord {f : ScheduledFee} (hfits : f.amount ≤ Amount.largest)
    (h : IsRecord f.fields j) : ofJson? j = some f := by
  obtain ⟨r, hr, hc⟩ := record?_of_isRecord (by simp [fields]) h
  have hrecord : record? ["msg_type_url", "amount", "denom"] j = some r := hr
  have htypeUrl : required r "msg_type_url" text? = some f.typeUrl :=
    required_of_carries (hc _ (.head _)) id fun j hj => hj ▸ text?_ofText _
  have hamount : required r "amount" (below? (Amount.largest + 1)) = some f.amount :=
    required_of_carries (hc _ (.tail _ (.head _))) id fun j hj =>
      hj ▸ below?_natural (Nat.lt_succ_of_le hfits)
  have hdenom : required r "denom" text? = some f.denom :=
    required_of_carries (hc _ (.tail _ (.tail _ (.head _)))) id fun j hj => hj ▸ text?_ofText _
  simp only [ofJson?, hrecord, htypeUrl, hamount, hdenom, Option.bind_eq_bind, Option.bind_some,
    Option.pure_def]

namespace FeeEpoch

theorem nullable?_floorPrice {price : Option Nat} (hfits : ∀ p, price = some p → p ≤ Amount.largest) :
    nullable? (below? (Amount.largest + 1)) (.ofOption (price.map .natural)) = some price := by
  cases price with
  | none => rfl
  | some p => exact congrArg (Option.map some) (below?_natural (Nat.lt_succ_of_le (hfits p rfl)))

theorem ofJson?_of_isRecord {e : FeeEpoch} (hfits : e.Fits) (h : IsRecord e.fields j) :
    ofJson? j = some e := by
  obtain ⟨r, hr, hc⟩ := record?_of_isRecord (by simp [fields]) h
  have hrecord : record? ["start_height", "floor_gas_price", "fees"] j = some r := hr
  have hstart : required r "start_height" (below? heightBound) = some e.start :=
    required_of_carries (hc _ (.head _)) id fun j hj => hj ▸ below?_natural hfits.start
  have hprice : defaulted r "floor_gas_price" (nullable? (below? (Amount.largest + 1))) none =
      some e.floorPrice :=
    defaulted_of_carries (hc _ (.tail _ (.head _))) id fun j hj =>
      hj ▸ nullable?_floorPrice hfits.floorPrice
  have hfees : defaulted r "fees" (list? ScheduledFee.ofJson?) [] = some e.fees :=
    defaulted_of_carries (hc _ (.tail _ (.tail _ (.head _)))) id fun j hj =>
      list?_of_writesList (fun f hf j h => ScheduledFee.ofJson?_of_isRecord (hfits.fees f hf) h) hj
  simp only [ofJson?, hrecord, hstart, hprice, hfees, Option.bind_eq_bind, Option.bind_some,
    Option.pure_def]

theorem scheduleOfText_of_isDocument {es : List FeeEpoch} (hfits : ∀ e ∈ es, e.Fits) {s : String}
    (h : IsDocument es s) : Config.scheduleOfText s = .ok (.ofEpochs es) := by
  obtain ⟨j, hlist, htext⟩ := h
  have hread : list? ofJson? j = some es :=
    list?_of_writesList (fun e he j h => ofJson?_of_isRecord (hfits e he) h) hlist
  rw [Config.scheduleOfText, Config.readDocument, parse?_eq_some_iff.2 htext, Option.bind_some,
    FeeSchedule.ofEpochsJson?, hread, Option.map_some]

/-! ## Their own text -/

theorem isRecord_fee_toJson (f : ScheduledFee) : IsRecord f.fields f.toJson :=
  isRecord_ofMembers_zip [_, _, _] (by simp [ScheduledFee.fields])
    (.cons rfl (.cons rfl (.cons rfl .nil)))

theorem isRecord_toJson (e : FeeEpoch) : IsRecord e.fields e.toJson :=
  isRecord_ofMembers_zip [_, _, _] (by simp [fields])
    (.cons rfl (.cons rfl (.cons (writesList_map isRecord_fee_toJson e.fees) .nil)))

theorem printable_fee_toJson (f : ScheduledFee) : Printable f.toJson := by
  refine printable_ofMembers ?_
  rw [List.forall_mem_cons, List.forall_mem_cons, List.forall_mem_singleton]
  exact ⟨.text _, .natural _, .text _⟩

theorem printable_toJson (e : FeeEpoch) : Printable e.toJson := by
  refine printable_ofMembers ?_
  rw [List.forall_mem_cons, List.forall_mem_cons, List.forall_mem_singleton]
  exact ⟨.natural _, printable_ofOption_map .natural _, printable_list_map printable_fee_toJson _⟩

theorem isDocument_toText (es : List FeeEpoch) :
    IsDocument es (Json.list (es.map toJson)).toText := by
  refine ⟨_, writesList_map isRecord_toJson es, ?_⟩
  rw [Json.toText, String.toList_ofList]
  exact .of_spells (spells_print (printable_list_map printable_toJson es))

end FeeEpoch

end TxLens

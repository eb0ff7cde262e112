import TxLens.Config
import TxLens.Proofs.Json.Printing
import TxLens.Proofs.Json.Record
/-!
# Documents of a configuration

A configuration has many documents: every record in it may be an object or a list, what equals its
default may be left out of it, and every value has many texts. They all say the same
(`ofText_of_isDocument`): whichever of them is read, the outcome is that of validating the configuration.
Its own texts are two of them (`isDocument_toText`, `isDocument_toIndentedText`).
-/

namespace TxLens.Config

open Json

/-! ## What is written -/

def rangeFields (w : HeightRange) : List Field :=
  [⟨"start", (· = .natural w.start), False⟩, ⟨"end", (· = .natural w.last), False⟩]

def labelsFields (l : Address.Labels) : List Field :=
  [⟨"account", (· = .ofText l.account), False⟩,
    ⟨"validator_operator", (· = .ofText l.validatorOperator), False⟩,
    ⟨"validator_consensus", (· = .ofText l.validatorConsensus), False⟩]

/-- A window is written as its record, none as null. -/
inductive WritesWindow : Option HeightRange → Json → Prop
  | none : WritesWindow none .null
  | some {w : HeightRange} {j : Json} (h : IsRecord (rangeFields w) j) : WritesWindow (some w) j

def feesFields (f : FeeConfig) : List Field :=
  [⟨"utility_denom", (· = .ofText f.utilityDenom), f.utilityDenom = "nhash"⟩,
    ⟨"default_gas_price", (· = .natural f.defaultGasPrice), f.defaultGasPrice = 1905⟩,
    ⟨"bug_window", WritesWindow f.bugWindow, f.bugWindow = none⟩]

def fields (c : Config) : List Field :=
  [⟨"prefixes", IsRecord (labelsFields c.labels), False⟩,
    ⟨"fees", IsRecord (feesFields c.fees), c.fees = ⟨"nhash", 1905, none⟩⟩]

/-- The texts that a configuration may be written as. -/
def IsDocument (c : Config) (s : String) : Prop :=
  ∃ j, IsRecord (fields c) j ∧ SpellsPadded s.toList j

/-- Prices have 128 bits, heights have 64. -/
structure Fits (c : Config) : Prop where
  price : c.fees.defaultGasPrice ≤ Amount.largest
  window : ∀ w, c.fees.bugWindow = some w → w.start < heightBound ∧ w.last < heightBound

/-! ## What is read -/

variable {j : Json}

theorem rangeOfJson?_of_isRecord {w : HeightRange} (hs : w.start < heightBound)
    (hl : w.last < heightBound) (h : IsRecord (rangeFields w) j) : rangeOfJson? j = some w := by
  obtain ⟨r, hr, hc⟩ := record?_of_isRecord (by simp [rangeFields]) h
  have hrecord : record? ["start", "end"] j = some r := hr
  have hstart : required r "start" (below? heightBound) = some w.start :=
    required_of_carries (hc _ (.head _)) id fun j hj => hj ▸ below?_natural hs
  have hlast : required r "end" (below? heightBound) = some w.last :=
    required_of_carries (hc _ (.tail _ (.head _))) id fun j hj => hj ▸ below?_natural hl
  simp only [rangeOfJson?, hrecord, hstart, hlast, Option.bind_eq_bind, Option.bind_some,
    Option.pure_def]

theorem labelsOfJson?_of_isRecord {l : Address.Labels} (h : IsRecord (labelsFields l) j) :
    labelsOfJson? j = some l := by
  obtain ⟨r, hr, hc⟩ := record?_of_isRecord (by simp [labelsFields]) h
  have hrecord : record? ["account", "validator_operator", "validator_consensus"] j = some r := hr
  have haccount : required r "account" text? = some l.account :=
    required_of_carries (hc _ (.head _)) id fun j hj => hj ▸ text?_ofText _
  have hoperator : required r "validator_operator" text? = some l.validatorOperator :=
    required_of_carries (hc _ (.tail _ (.head _))) id fun j hj => hj ▸ text?_ofText _
  have hconsensus : required r "validator_consensus" text? = some l.validatorConsensus :=
    required_of_carries (hc _ (.tail _ (.tail _ (.head _)))) id fun j hj => hj ▸ text?_ofText _
  simp only [labelsOfJson?, hrecord, haccount, hoperator, hconsensus, Option.bind_eq_bind,
    Option.bind_some, Option.pure_def]

theorem nullable?_of_writesWindow {window : Option HeightRange}
    (hfits : ∀ w, window = some w → w.start < heightBound ∧ w.last < heightBound)
    (h : WritesWindow window j) : nullable? rangeOfJson? j = some window := by
  cases h with
  | none => rfl
  | @some w j h =>
    obtain ⟨hs, hl⟩ := hfits w rfl
    have hread := rangeOfJson?_of_isRecord hs hl h
    cases h with
    | object => exact congrArg (Option.map some) hread
    | list => exact congrArg (Option.map some) hread

theorem feesOfJson?_of_isRecord {f : FeeConfig} (hprice : f.defaultGasPrice ≤ Amount.largest)
    (hwindow : ∀ w, f.bugWindow = some w → w.start < heightBound ∧ w.last < heightBound)
    (h : IsRecord (feesFields f) j) : feesOfJson? j = some f := by
  obtain ⟨r, hr, hc⟩ := record?_of_isRecord (by simp [feesFields]) h
  have hrecord : record? ["utility_denom", "default_gas_price", "bug_window"] j = some r := hr
  have hdenom : defaulted r "utility_denom" text? FeeConfig.standard.utilityDenom =
      some f.utilityDenom :=
    defaulted_of_carries (hc _ (.head _)) id fun j hj => hj ▸ text?_ofText _
  have hgas : defaulted r "default_gas_price" (below? (Amount.largest + 1))
      FeeConfig.standard.defaultGasPrice = some f.defaultGasPrice :=
    defaulted_of_carries (hc _ (.tail _ (.head _))) id fun j hj =>
      hj ▸ below?_natural (Nat.lt_succ_of_le hprice)
  have hbug : defaulted r "bug_window" (nullable? rangeOfJson?) none = some f.bugWindow :=
    defaulted_of_carries (hc _ (.tail _ (.tail _ (.head _)))) id fun j hj =>
      nullable?_of_writesWindow hwindow hj
  simp only [feesOfJson?, hrecord, hdenom, hgas, hbug, Option.bind_eq_bind, Option.bind_some,
    Option.pure_def]

theorem ofJson?_of_isRecord {c : Config} (hfits : c.Fits) (h : IsRecord (fields c) j) :
    ofJson? j = some c := by
  obtain ⟨r, hr, hc⟩ := record?_of_isRecord (by simp [fields]) h
  have hrecord : record? ["prefixes", "fees"] j = some r := hr
  have hlabels : required r "prefixes" labelsOfJson? = some c.labels :=
    required_of_carries (hc _ (.head _)) id fun j hj => labelsOfJson?_of_isRecord hj
  have hfees : defaulted r "fees" feesOfJson? FeeConfig.standard = some c.fees :=
    defaulted_of_carries (hc _ (.tail _ (.head _))) id fun j hj =>
      feesOfJson?_of_isRecord hfits.price hfits.window hj
  simp only [ofJson?, hrecord, hlabels, hfees, Option.bind_eq_bind, Option.bind_some, Option.pure_def]

theorem ofText_of_isDocument {c : Config} (hfits : c.Fits) {s : String} (h : c.IsDocument s) :
    ofText s = c.validate := by
  obtain ⟨j, hrecord, htext⟩ := h
  have hread : (parse? s.toList).bind ofJson? = some c := by
    rw [parse?_eq_some_iff.2 htext, Option.bind_some, ofJson?_of_isRecord hfits hrecord]
  rw [ofText, readDocument, hread]

/-! ## Its own texts -/

theorem isRecord_rangeToJson (w : HeightRange) : IsRecord (rangeFields w) (rangeToJson w) :=
  isRecord_ofMembers_zip [_, _] (by simp [rangeFields])
    (.cons rfl (.cons rfl .nil))

theorem isRecord_labelsToJson (l : Address.Labels) : IsRecord (labelsFields l) (labelsToJson l) :=
  isRecord_ofMembers_zip [_, _, _] (by simp [labelsFields])
    (.cons rfl (.cons rfl (.cons rfl .nil)))

theorem writesWindow_ofOption (window : Option HeightRange) :
    WritesWindow window (.ofOption (window.map rangeToJson)) := by
  cases window with
  | none => exact .none
  | some w => exact .some (isRecord_rangeToJson w)

theorem isRecord_feesToJson (f : FeeConfig) : IsRecord (feesFields f) (feesToJson f) :=
  isRecord_ofMembers_zip [_, _, _] (by simp [feesFields])
    (.cons rfl (.cons rfl (.cons (writesWindow_ofOption f.bugWindow) .nil)))

theorem isRecord_toJson (c : Config) : IsRecord (fields c) c.toJson :=
  isRecord_ofMembers_zip [_, _] (by simp [fields])
    (.cons (isRecord_labelsToJson c.labels) (.cons (isRecord_feesToJson c.fees) .nil))

theorem printable_rangeToJson (w : HeightRange) : Printable (rangeToJson w) := by
  refine printable_ofMembers ?_
  rw [List.forall_mem_cons, List.forall_mem_singleton]
  exact ⟨.natural w.start, .natural w.last⟩

theorem printable_labelsToJson (l : Address.Labels) : Printable (labelsToJson l) := by
  refine printable_ofMembers ?_
  rw [List.forall_mem_cons, List.forall_mem_cons, List.forall_mem_singleton]
  exact ⟨.text _, .text _, .text _⟩

theorem printable_feesToJson (f : FeeConfig) : Printable (feesToJson f) := by
  have hwindow : Printable (.ofOption (f.bugWindow.map rangeToJson)) :=
    printable_ofOption_map printable_rangeToJson f.bugWindow
  refine printable_ofMembers ?_
  rw [List.forall_mem_cons, List.forall_mem_cons, List.forall_mem_singleton]
  exact ⟨.text _, .natural _, hwindow⟩

theorem printable_toJson (c : Config) : Printable c.toJson := by
  refine printable_ofMembers ?_
  rw [List.forall_mem_cons, List.forall_mem_singleton]
  exact ⟨printable_labelsToJson c.labels, printable_feesToJson c.fees⟩

theorem isDocument_toText (c : Config) : c.IsDocument c.toJson.toText := by
  refine ⟨c.toJson, isRecord_toJson c, ?_⟩
  rw [Json.toText, String.toList_ofList]
  exact .of_spells (spells_print (printable_toJson c))

theorem isDocument_toIndentedText (c : Config) : c.IsDocument c.toJson.toIndentedText := by
  refine ⟨c.toJson, isRecord_toJson c, ?_⟩
  rw [Json.toIndentedText, String.toList_ofList]
  exact .of_spells (spells_printIndented (printable_toJson c) 0)

/-- **What a configuration is read as.** Every document of a configuration is read as that configuration
if it has no defect, and is refused for its first defect otherwise. The texts that the configuration is
printed as are documents of it. -/
theorem ofText_document (c : Config) (hfits : c.Fits) :
    (∀ s, c.IsDocument s →
      (c.defect? = none → ofText s = .ok c) ∧
      ∀ d, c.defect? = some d → ofText s = .error (.invalid d)) ∧
    c.IsDocument c.toJson.toText ∧ c.IsDocument c.toJson.toIndentedText := by
  refine ⟨fun s h => ?_, isDocument_toText c, isDocument_toIndentedText c⟩
  rw [ofText_of_isDocument hfits h, validate]
  constructor
  · intro hd
    rw [hd]
  · intro d hd
    rw [hd]

/-- The fees stand first and hold nothing but the window, the window and the labels are lists, one label
has an escaped quote and one is two halves of a pair, and an unknown member is half of one. -/
theorem ofText_mixed_document :
    let c : Config := ⟨⟨"p\"b", "ä", "𝄞"⟩, ⟨"nhash", 1905, some ⟨1, 18446744073709551615⟩⟩⟩
    let s := " \x7b\"fees\":\x7b\"bug_window\":[1 ,18446744073709551615]\x7d,\"\\n\":\"\\ud800\"," ++
      "\"prefixes\":[\"p\\\"b\",\"\\u00e4\",\"\\uD834\\udd1e\"]\x7d"
    c.Fits ∧ c.IsDocument s ∧ ofText s = .ok c := by
  intro c s
  have hfits : c.Fits := ⟨by decide, by rintro w ⟨⟩; decide⟩
  have hparse : parse? s.toList = some (.ofMembers [
      ("fees", .ofMembers [("bug_window", .list [.natural 1, .natural 18446744073709551615])]),
      ("\n", .text none),
      ("prefixes", .list [.ofText "p\"b", .ofText "ä", .ofText "𝄞"])]) := by
    decide +kernel
  have hlabels : IsRecord (labelsFields c.labels) (.list [.ofText "p\"b", .ofText "ä", .ofText "𝄞"]) :=
    .list (List.append_nil _).symm (.cons rfl (.cons rfl (.cons rfl .nil))) (by simp)
  have hwindow : IsRecord (rangeFields ⟨1, 18446744073709551615⟩)
      (.list [.natural 1, .natural 18446744073709551615]) :=
    .list (List.append_nil _).symm (.cons rfl (.cons rfl .nil)) (by simp)
  have hfees : IsRecord (feesFields c.fees)
      (.ofMembers [("bug_window", .list [.natural 1, .natural 18446744073709551615])]) := by
    refine .object ⟨?_, ?_, ?_⟩
    · simp [feesFields]
    · simpa [feesFields] using WritesWindow.some hwindow
    · simp [feesFields, c]
  have hdocument : c.IsDocument s := by
    refine ⟨_, .object ⟨?_, ?_, ?_⟩, parse?_eq_some_iff.1 hparse⟩
    · simp [fields]
    · simp [fields, hfees, hlabels]
    · simp [fields]
  exact ⟨hfits, hdocument, ((ofText_document c hfits).1 s hdocument).1 rfl⟩

end TxLens.Config

import TxLens.Address
import TxLens.Proofs.Bech32.Grammar
import TxLens.Proofs.Bech32.Regroup
/-!
# The grammar of addresses

An address is read from exactly the texts that it is rendered as, in lower or in upper case. Both
directions are brought down to one form (`parse_eq_ok_iff`, `render_eq_ok_iff`): the label, the
separator, the symbols of the raw identifier and their checksum. What follows is stated together in
`parse_render_grammar`.
-/

namespace TxLens.Address

open Bech32

/-- A text of one letter case under a label, whose symbols end in the checksum of this variant. -/
structure Spells (v : Variant) (s : String) (hrp : List Char) (vs : List Symbol) : Prop where
  label : IsLabel hrp
  oneCase : OneCase s.toList
  lower : s.toList.map Char.toLower = text v hrp vs

theorem decode_iff_spells {v : Variant} {s : String} {hrp : List Char} {vs : List Symbol} :
    Bech32.decode s.toList = .ok (hrp, vs, v) ↔ Spells v s hrp vs := by
  rw [decode_eq_ok_iff]
  exact ⟨fun ⟨hl, hc, ht⟩ => ⟨hl, hc, ht⟩, fun ⟨hl, hc, ht⟩ => ⟨hl, hc, ht⟩⟩

theorem toList_toLower (s : String) : s.toLower.toList = s.toList.map Char.toLower :=
  String.toList_map

theorem toList_toUpper (s : String) : s.toUpper.toList = s.toList.map Char.toUpper :=
  String.toList_map

/-! ## Reading and rendering -/

theorem parse_eq_ok_iff {s h : String} {r : Bytes} : parse s = .ok ⟨h, r⟩ ↔
    IsLength r.length ∧ Spells .bech32 s h.toList (toSymbols r) := by
  constructor
  · intro hp
    rw [parse] at hp
    split at hp
    · cases hp
    · cases hp
    · rename_i hrp vs hdecode
      split at hp
      · cases hp
      · rename_i raw hraw
        split at hp
        · rename_i hlen
          cases hp
          rw [String.toList_ofList, ← toBytes?_eq_some_iff.1 hraw]
          exact ⟨hlen, decode_iff_spells.1 hdecode⟩
        · cases hp
  · rintro ⟨hlen, hs⟩
    rw [parse, decode_iff_spells.2 hs]
    simp only [toBytes?_toSymbols, if_pos hlen, String.ofList_toList]

theorem render_eq_ok_iff {h t : String} {r : Bytes} : render ⟨h, r⟩ = .ok t ↔
    IsLength r.length ∧ IsLabel (h.toList.map Char.toLower) ∧ OneCase h.toList ∧
      t.toList = text .bech32 (h.toList.map Char.toLower) (toSymbols r) := by
  constructor
  · intro hr
    rw [render] at hr
    split at hr
    · rename_i hlen
      split at hr
      · cases hr
      · rename_i cs hencode
        cases hr
        rw [String.toList_ofList]
        exact ⟨hlen, encode_eq_ok_iff.1 hencode⟩
    · cases hr
  · rintro ⟨hlen, hlabel, hcase, ht⟩
    rw [render, if_pos hlen, encode_eq_ok_iff.2 ⟨hlabel, hcase, rfl⟩]
    simp only [← ht, String.ofList_toList]

example : (render ⟨"cosmos", List.replicate 20 0⟩).toOption =
    some "cosmos1qqqqqqqqqqqqqqqqqqqqqqqqqqqqqqqqnrql8a" := by decide +kernel

/-- Every rendering is in lower case. -/
theorem isUpper_of_mem_render {h t : String} {r : Bytes} (ht : render ⟨h, r⟩ = .ok t) :
    ∀ c ∈ t.toList, c.isUpper = false := by
  obtain ⟨-, hlabel, -, ht⟩ := render_eq_ok_iff.1 ht
  rw [ht]
  exact isUpper_of_mem_text hlabel

/-- The texts that are read as an address are its rendering and the upper-case form of it. -/
theorem parse_iff_render {s h : String} {r : Bytes} : parse s = .ok ⟨h, r⟩ ↔
    IsLabel h.toList ∧ IsLength r.length ∧
      ∃ t, render ⟨h, r⟩ = .ok t ∧ (s = t ∨ s = t.toUpper) := by
  rw [parse_eq_ok_iff]
  constructor
  · rintro ⟨hlen, hs⟩
    refine ⟨hs.label, hlen, s.toLower, ?_, ?_⟩
    · rw [render_eq_ok_iff, map_toLower_of_lower hs.label.lower]
      refine ⟨hlen, hs.label, .inl hs.label.lower, ?_⟩
      rw [toList_toLower, hs.lower]
    · rw [← String.toList_inj, ← String.toList_inj, toList_toUpper, toList_toLower]
      exact oneCase_iff.1 hs.oneCase
  · rintro ⟨hlabel, hlen, t, ht, hs⟩
    have hlower := isUpper_of_mem_render ht
    obtain ⟨-, -, -, htext⟩ := render_eq_ok_iff.1 ht
    rw [map_toLower_of_lower hlabel.lower] at htext
    rcases hs with rfl | rfl
    · exact ⟨hlen, hlabel, .inl hlower, by rw [map_toLower_of_lower hlower, htext]⟩
    · refine ⟨hlen, hlabel, .inr fun c hc => ?_, ?_⟩
      · rw [toList_toUpper] at hc
        obtain ⟨d, -, rfl⟩ := List.mem_map.1 hc
        exact isLower_toUpper d
      · rw [toList_toUpper, map_toLower_map_toUpper hlower, htext]

/-- What was rendered under a label of either case is read back under the lower-case label. -/
theorem parse_of_render {h t : String} {r : Bytes} (ht : render ⟨h, r⟩ = .ok t) :
    parse t = .ok ⟨h.toLower, r⟩ := by
  have hlower := isUpper_of_mem_render ht
  obtain ⟨hlen, hlabel, -, htext⟩ := render_eq_ok_iff.1 ht
  rw [parse_eq_ok_iff, toList_toLower]
  exact ⟨hlen, hlabel, .inl hlower, by rw [map_toLower_of_lower hlower, htext]⟩

/-- What was read is rendered as the lower-case form of what was read. -/
theorem render_of_parse {s : String} {a : Address} (h : parse s = .ok a) :
    a.render = .ok s.toLower := by
  obtain ⟨hlen, hs⟩ := parse_eq_ok_iff.1 h
  rw [render_eq_ok_iff, map_toLower_of_lower hs.label.lower]
  refine ⟨hlen, hs.label, .inl hs.label.lower, ?_⟩
  rw [toList_toLower, hs.lower]

/-! ## What is refused -/

/-- The bits of symbols that are left over when they are joined to bytes. -/
def leftOver (vs : List Symbol) : List Bool :=
  (symbolBits vs).drop (8 * ((symbolBits vs).length / 8))

section

variable {s : String} {hrp : List Char} {vs : List Symbol}

theorem parse_bech32m (hs : Spells .bech32m s hrp vs) :
    parse s = .error (.malformed s .otherChecksum) := by
  rw [parse, decode_iff_spells.2 hs]

theorem parse_padding (hs : Spells .bech32 s hrp vs)
    (hleft : 5 ≤ (leftOver vs).length ∨ true ∈ leftOver vs) :
    parse s = .error (.malformed s (.encoding .invalidPadding)) := by
  have hnone : toBytes? vs = none := if_pos hleft
  rw [parse, decode_iff_spells.2 hs]
  simp only [hnone]

theorem parse_length {r : Bytes} (hs : Spells .bech32 s hrp (toSymbols r))
    (hlen : ¬ IsLength r.length) :
    parse s = .error (.malformed s (.payloadLength r.length)) := by
  rw [parse, decode_iff_spells.2 hs]
  simp only [toBytes?_toSymbols, if_neg hlen]

theorem parse_error {f : Fault} (h : parse s = .error f) : ∃ reason, f = .malformed s reason := by
  rw [parse] at h
  split at h
  · cases h
    exact ⟨_, rfl⟩
  · cases h
    exact ⟨_, rfl⟩
  · split at h
    · cases h
      exact ⟨_, rfl⟩
    · split at h
      · cases h
      · cases h
        exact ⟨_, rfl⟩

end

/-! ## The grammar -/

/-- **Reading addresses** accepts exactly the renderings and their upper-case forms, is the inverse of
rendering up to letter case, and refuses everything else as malformed. -/
theorem parse_render_grammar :
    -- what is accepted, and as what
    (∀ s h r, parse s = .ok ⟨h, r⟩ ↔
      IsLabel h.toList ∧ IsLength r.length ∧
        ∃ t, render ⟨h, r⟩ = .ok t ∧ (s = t ∨ s = t.toUpper)) ∧
    -- which labels can be rendered under, and what their renderings are read as
    (∀ h r, (∃ t, render ⟨h, r⟩ = .ok t) ↔
      IsLength r.length ∧ IsLabel h.toLower.toList ∧ OneCase h.toList) ∧
    (∀ h r t, render ⟨h, r⟩ = .ok t → parse t = .ok ⟨h.toLower, r⟩) ∧
    -- reading determines the text up to letter case
    (∀ s a, parse s = .ok a → a.render = .ok s.toLower) ∧
    (∀ s s' a, s.toLower = s → s'.toLower = s' → parse s = .ok a → parse s' = .ok a → s = s') ∧
    -- other checksums, paddings and payload lengths, and whatever else is refused
    (∀ s hrp vs, Spells .bech32m s hrp vs → parse s = .error (.malformed s .otherChecksum)) ∧
    (∀ s hrp vs, Spells .bech32 s hrp vs → 5 ≤ (leftOver vs).length ∨ true ∈ leftOver vs →
      parse s = .error (.malformed s (.encoding .invalidPadding))) ∧
    (∀ s hrp r, Spells .bech32 s hrp (toSymbols r) → ¬ IsLength r.length →
      parse s = .error (.malformed s (.payloadLength r.length))) ∧
    (∀ s f, parse s = .error f → ∃ reason, f = .malformed s reason) := by
  refine ⟨fun s h r => parse_iff_render, fun h r => ?_, fun h r t => parse_of_render,
    fun s a => render_of_parse, fun s s' a hs hs' hp hp' => ?_, fun s hrp vs => parse_bech32m,
    fun s hrp vs => parse_padding, fun s hrp r => parse_length, fun s f => parse_error⟩
  · rw [toList_toLower]
    constructor
    · rintro ⟨t, ht⟩
      obtain ⟨hlen, hlabel, hcase, -⟩ := render_eq_ok_iff.1 ht
      exact ⟨hlen, hlabel, hcase⟩
    · rintro ⟨hlen, hlabel, hcase⟩
      exact ⟨_, render_eq_ok_iff.2 ⟨hlen, hlabel, hcase, String.toList_ofList⟩⟩
  · have ht := render_of_parse hp
    rw [render_of_parse hp'] at ht
    rw [← hs, ← hs', Except.ok.inj ht]

end TxLens.Address

import TxLens.Proofs.Address.Grammar
import TxLens.Proofs.Bech32.Burst
/-!
# Damaged addresses

An address in which up to six symbols in a row were changed is refused, whatever symbols were put in
their place: its residue is no longer the one that an address has (`residue_ne_of_window`). It may be
the one that the other checksum leaves, and then the address is refused for that. One changed character
and two neighbours that changed places are such damages; `parse_burst` treats all of them.
-/

namespace TxLens.Address

open Bech32

/-- A position behind the last separator. -/
def InData (s : List Char) (i : Nat) : Prop :=
  ∃ before after, s = before ++ separator :: after ∧ separator ∉ after ∧ before.length < i

/-- The strings have the same length and are not the same. They differ within six positions in a row
only, all of them behind the last separator, and what the second has there are symbols. -/
structure IsBurst (s s' : List Char) : Prop where
  length : s'.length = s.length
  differs : s' ≠ s
  window : ∃ start, ∀ i : Nat, s'[i]? ≠ s[i]? → start ≤ i ∧ i < start + 6
  inData : ∀ i : Nat, s'[i]? ≠ s[i]? → InData s i
  symbols : ∀ (i : Nat) c, s'[i]? = some c → s[i]? ≠ some c → c ∈ alphabet

/-- A text is refused for its checksum, which is the other one or none at all. -/
inductive WrongChecksum (s : String) : Prop
  | otherVariant {hrp : List Char} {vs : List Symbol} (hs : Spells .bech32m s hrp vs)
      (h : parse s = .error (.malformed s .otherChecksum))
  | invalid (hs : ∀ v hrp vs, ¬ Spells v s hrp vs)
      (h : parse s = .error (.malformed s (.encoding .invalidChecksum)))

/-! ## Replacing what stands in one place -/

theorem inData_of_append {before after : List Char} (hsep : separator ∈ before ++ after)
    (hno : separator ∉ after) {i : Nat} (hi : before.length ≤ i) : InData (before ++ after) i := by
  cases hsplit : splitLast (before ++ after) with
  | none => exact absurd hsep (not_mem_of_splitLast hsplit)
  | some parts =>
    obtain ⟨label, data⟩ := parts
    obtain ⟨heq, hdata⟩ := eq_append_of_splitLast hsplit
    refine ⟨label, data, heq, hdata, Nat.lt_of_lt_of_le (Nat.lt_of_not_le fun hle => ?_) hi⟩
    -- the last separator would stand in `after`
    have hat : (before ++ after)[label.length]? = some separator := by
      rw [heq, List.getElem?_append_right (Nat.le_refl _), Nat.sub_self]
      rfl
    rw [List.getElem?_append_right hle] at hat
    exact hno (List.mem_of_getElem? hat)

/-- Up to six characters in a row behind the last separator make way for symbols. -/
theorem isBurst_of_append {before ws ws' after : List Char}
    (hsep : separator ∈ before ++ (ws ++ after)) (hno : separator ∉ ws ++ after)
    (hlen : ws'.length = ws.length) (hsix : ws.length ≤ 6) (hne : ws' ≠ ws)
    (hsymbols : ∀ c ∈ ws', c ∈ alphabet) :
    IsBurst (before ++ (ws ++ after)) (before ++ (ws' ++ after)) := by
  have hdiff : ∀ i : Nat, (before ++ (ws' ++ after))[i]? ≠ (before ++ (ws ++ after))[i]? →
      before.length ≤ i ∧ i < before.length + ws.length := by
    intro i hi
    simp only [List.getElem?_append, hlen] at hi
    constructor
    · refine Nat.le_of_not_lt fun hlt => hi ?_
      rw [if_pos hlt, if_pos hlt]
    · refine Nat.lt_of_not_le fun hle => hi ?_
      rw [if_neg (by omega), if_neg (by omega), if_neg (by omega), if_neg (by omega)]
  refine ⟨?_, ?_, ⟨before.length, fun i hi => ?_⟩, fun i hi => ?_, fun i c hc hc' => ?_⟩
  · simp only [List.length_append, hlen]
  · intro heq
    exact hne (List.append_cancel_right (List.append_cancel_left heq))
  · have := hdiff i hi
    omega
  · exact inData_of_append hsep hno (hdiff i hi).1
  · obtain ⟨hle, hlt⟩ := hdiff i (by rw [hc]; exact Ne.symm hc')
    rw [List.getElem?_append_right hle, List.getElem?_append_left (by omega)] at hc
    exact hsymbols c (List.mem_of_getElem? hc)

/-! ## Bursts in the symbols -/

section
variable {label data s' : List Char}

theorem inData_iff (hno : separator ∉ data) {i : Nat} :
    InData (label ++ separator :: data) i ↔ label.length < i := by
  constructor
  · rintro ⟨before, after, heq, hafter, hi⟩
    have hsplit := splitLast_append before hafter
    rw [← heq, splitLast_append label hno] at hsplit
    cases hsplit
    exact hi
  · exact fun hi => ⟨label, data, rfl, hno, hi⟩

theorem getElem?_data (label data : List Char) (i : Nat) :
    (label ++ separator :: data)[label.length + 1 + i]? = data[i]? := by
  rw [Nat.add_assoc, List.getElem?_append_right (Nat.le_add_right _ _), Nat.add_sub_cancel_left,
    Nat.add_comm, List.getElem?_cons_succ]

/-- A burst leaves the label and the separator as they are. -/
theorem IsBurst.exists_data (hno : separator ∉ data)
    (hb : IsBurst (label ++ separator :: data) s') : ∃ data', s' = label ++ separator :: data' := by
  have hfront : s'.take (label.length + 1) = label ++ [separator] := by
    apply List.ext_getElem?
    intro i
    rw [List.getElem?_take]
    split
    · rename_i hi
      have hsame : s'[i]? = (label ++ separator :: data)[i]? := by
        refine Decidable.byContradiction fun hdiff => ?_
        have := (inData_iff hno).1 (hb.inData i hdiff)
        omega
      rw [hsame, ← List.singleton_append, ← List.append_assoc, List.getElem?_append_left]
      rwa [List.length_append, List.length_singleton]
    · rename_i hi
      rw [List.getElem?_eq_none]
      rw [List.length_append, List.length_singleton]
      exact Nat.le_of_not_lt hi
  refine ⟨s'.drop (label.length + 1), ?_⟩
  rw [← List.singleton_append, ← List.append_assoc, ← hfront, List.take_append_drop]

end

/-- A burst replaces symbols by symbols. -/
theorem IsBurst.exists_symbols {label s' : List Char} {vs : List Symbol}
    (hb : IsBurst (label ++ separator :: vs.map charOf) s') :
    ∃ vs' : List Symbol, s' = label ++ separator :: vs'.map charOf ∧ vs'.length = vs.length ∧
      vs' ≠ vs ∧ ∃ start, ∀ i : Nat, vs'[i]? ≠ vs[i]? → start ≤ i ∧ i < start + 6 := by
  obtain ⟨data', rfl⟩ := hb.exists_data (separator_not_mem_map_charOf vs)
  have hsymbols : ∀ c ∈ data', c ∈ alphabet := by
    intro c hc
    obtain ⟨i, hi⟩ := List.mem_iff_getElem?.1 hc
    by_cases hsame : (vs.map charOf)[i]? = some c
    · obtain ⟨v, -, rfl⟩ := List.mem_map.1 (List.mem_of_getElem? hsame)
      exact mem_alphabet_iff.2 ⟨v, rfl⟩
    · refine hb.symbols (label.length + 1 + i) c ?_ ?_
      · rwa [getElem?_data]
      · rwa [getElem?_data]
  obtain ⟨vs', rfl⟩ := exists_map_charOf hsymbols
  refine ⟨vs', rfl, ?_, ?_, ?_⟩
  · have hlen := hb.length
    simp only [List.length_append, List.length_cons, List.length_map] at hlen
    omega
  · rintro rfl
    exact hb.differs rfl
  · obtain ⟨start, hstart⟩ := hb.window
    refine ⟨start - (label.length + 1), fun i hdiff => ?_⟩
    have hchars : (vs'.map charOf)[i]? ≠ (vs.map charOf)[i]? := by
      rw [List.getElem?_map, List.getElem?_map]
      exact fun h => hdiff (Option.map_injective (fun _ _ => charOf_injective) h)
    have := hstart (label.length + 1 + i) (by rwa [getElem?_data, getElem?_data])
    omega

/-! ## What becomes of the address -/

/-- A label and symbols whose residue is not that of an address. -/
theorem wrongChecksum_of_residue_ne {s : String} {hrp : List Char} {vs : List Symbol}
    (hlabel : IsLabel hrp) (hlen : checksumLength ≤ vs.length)
    (hs : s.toList = hrp ++ separator :: vs.map charOf)
    (hne : residue (expandLabel hrp ++ vs) ≠ Variant.target .bech32) : WrongChecksum s := by
  have hdecode := decode_symbols hlabel hlen
  rw [← hs] at hdecode
  cases hv : variant? hrp vs with
  | none =>
    simp only [hv] at hdecode
    refine .invalid (fun v hrp' vs' hspells => ?_) ?_
    · rw [← decode_iff_spells, hdecode] at hspells
      cases hspells
    · rw [parse, hdecode]
  | some v =>
    simp only [hv] at hdecode
    cases v with
    | bech32 => exact absurd (variant?_eq_some_iff.1 hv) hne
    | bech32m =>
      have hspells := decode_iff_spells.1 hdecode
      exact .otherVariant hspells (parse_bech32m hspells)

variable {s : String} {a : Address}

theorem toList_of_parse (h : parse s = .ok a) (hlower : s.toLower = s) :
    s.toList = text .bech32 a.hrp.toList (toSymbols a.raw) := by
  obtain ⟨-, hs⟩ := parse_eq_ok_iff.1 h
  rw [← hs.lower, ← toList_toLower, hlower]

theorem separator_mem_of_parse (h : parse s = .ok a) (hlower : s.toLower = s) :
    separator ∈ s.toList := by
  rw [toList_of_parse h hlower, text]
  exact List.mem_append_right _ List.mem_cons_self

theorem wrongChecksum_of_isBurst (h : parse s = .ok a) (hlower : s.toLower = s) {s' : String}
    (hb : IsBurst s.toList s'.toList) : WrongChecksum s' := by
  obtain ⟨-, hs⟩ := parse_eq_ok_iff.1 h
  have htarget := variant?_eq_some_iff.1
    ((variant?_append_iff (Variant.length_checksum .bech32 a.hrp.toList (toSymbols a.raw))).2 rfl)
  rw [toList_of_parse h hlower, text] at hb
  generalize hvs : toSymbols a.raw ++ Variant.checksum .bech32 a.hrp.toList (toSymbols a.raw) = vs
    at hb htarget
  have hsix : checksumLength ≤ vs.length := by
    rw [← hvs, List.length_append, Variant.length_checksum]
    exact Nat.le_add_left _ _
  obtain ⟨vs', hs', hlen, hne, start, hwindow⟩ := hb.exists_symbols
  refine wrongChecksum_of_residue_ne hs.label (by rwa [hlen]) hs' ?_
  rw [← htarget]
  exact residue_ne_of_window hlen hsix hwindow hne

/-- What stands behind the separator of an address are symbols. -/
theorem mem_alphabet_of_parse (h : parse s = .ok a) (hlower : s.toLower = s)
    {before after : List Char} (hs : s.toList = before ++ after) (hno : separator ∉ after) :
    ∀ c ∈ after, c ∈ alphabet := by
  intro c hc
  obtain ⟨i, hi⟩ := List.mem_iff_getElem?.1 hc
  have htext := toList_of_parse h hlower
  have hsep := separator_mem_of_parse h hlower
  rw [text] at htext
  rw [hs] at hsep
  have hdata := inData_of_append hsep hno (Nat.le_add_right before.length i)
  rw [← hs, htext, inData_iff (separator_not_mem_map_charOf _)] at hdata
  obtain ⟨j, hj⟩ := Nat.exists_eq_add_of_lt hdata
  have hat : (before ++ after)[before.length + i]? = some c := by
    rwa [List.getElem?_append_right (Nat.le_add_right _ _), Nat.add_sub_cancel_left]
  rw [← hs, htext, show before.length + i = a.hrp.toList.length + 1 + j by omega, getElem?_data] at hat
  obtain ⟨v, -, rfl⟩ := List.mem_map.1 (List.mem_of_getElem? hat)
  exact mem_alphabet_iff.2 ⟨v, rfl⟩

theorem wrongChecksum_of_append (h : parse s = .ok a) (hlower : s.toLower = s) {s' : String}
    {before after : List Char} (ws ws' : List Char) (hs : s.toList = before ++ (ws ++ after))
    (hs' : s'.toList = before ++ (ws' ++ after)) (hno : separator ∉ ws ++ after)
    (hlen : ws'.length = ws.length) (hsix : ws.length ≤ 6) (hne : ws' ≠ ws)
    (hsymbols : ∀ c ∈ ws', c ∈ alphabet) : WrongChecksum s' := by
  have hsep := separator_mem_of_parse h hlower
  refine wrongChecksum_of_isBurst h hlower ?_
  rw [hs] at hsep
  rw [hs, hs']
  exact isBurst_of_append hsep hno hlen hsix hne hsymbols

/-- **Short bursts are noticed.** An address in lower case is refused for its checksum when symbols are
put in place of up to six characters in a row behind the separator and anything changes by that; so it
is when one character becomes another symbol, and when two neighbours that differ change places. -/
theorem parse_burst (h : parse s = .ok a) (hlower : s.toLower = s) :
    (∀ s' : String, IsBurst s.toList s'.toList → WrongChecksum s') ∧
    (∀ (s' : String) before c d after, s.toList = before ++ c :: after → separator ∉ c :: after →
      d ∈ alphabet → d ≠ c → s'.toList = before ++ d :: after → WrongChecksum s') ∧
    (∀ (s' : String) before c d after, s.toList = before ++ c :: d :: after →
      separator ∉ c :: d :: after → c ≠ d → s'.toList = before ++ d :: c :: after →
      WrongChecksum s') := by
  refine ⟨fun s' => wrongChecksum_of_isBurst h hlower, ?_, ?_⟩
  · intro s' before c d after hs hno hd hne hs'
    refine wrongChecksum_of_append h hlower [c] [d] hs hs' hno rfl (Nat.le_add_left 1 5) ?_ ?_
    · exact fun heq => hne (List.cons.inj heq).1
    · rwa [List.forall_mem_singleton]
  · intro s' before c d after hs hno hne hs'
    have hsymbols := mem_alphabet_of_parse h hlower hs hno
    refine wrongChecksum_of_append h hlower [c, d] [d, c] hs hs' hno rfl (Nat.le_add_left 2 4) ?_ ?_
    · exact fun heq => hne (List.cons.inj heq).1.symm
    · rw [List.forall_mem_cons, List.forall_mem_singleton]
      exact ⟨hsymbols d (List.mem_cons_of_mem c List.mem_cons_self), hsymbols c List.mem_cons_self⟩

/-- The six symbols of a checksum become the other checksum of the same symbols, the last one becomes
another, and the last two change places. -/
theorem wrongChecksum_of_replaced_checksum :
    let s := "pb1qqqqqqqqqqqqqqqqqqqqqqqqqqqqqqqq6dt62p"
    let s' := "pb1qqqqqqqqqqqqqqqqqqqqqqqqqqqqqqqq03mk0r"
    parse s = .ok ⟨"pb", List.replicate 20 0⟩ ∧ s.toLower = s ∧ IsBurst s.toList s'.toList ∧
      WrongChecksum s' ∧ parse s' = .error (.malformed s' .otherChecksum) ∧
      WrongChecksum "pb1qqqqqqqqqqqqqqqqqqqqqqqqqqqqqqqq6dt62q" ∧
      WrongChecksum "pb1qqqqqqqqqqqqqqqqqqqqqqqqqqqqqqqq6dt6p2" := by
  intro s s'
  have hlabel : IsLabel "pb".toList := by decide
  have hparse : parse s = .ok ⟨"pb", List.replicate 20 0⟩ :=
    parse_eq_ok_iff.2 ⟨.inl rfl, hlabel, by decide +kernel, by decide +kernel⟩
  have hlower : s.toLower = s := by decide +kernel
  let front := "pb1qqqqqqqqqqqqqqqqqqqqqqqqqqqqqqqq".toList
  have hs : s.toList = front ++ ("6dt62p".toList ++ []) := by decide +kernel
  have hs' : s'.toList = front ++ ("03mk0r".toList ++ []) := by decide +kernel
  have hsymbols : "03mk0r".toList.all alphabet.elem = true := by decide +kernel
  have hburst : IsBurst s.toList s'.toList := by
    rw [hs, hs']
    exact isBurst_of_append (by decide +kernel) (by decide +kernel) (by decide +kernel)
      (by decide +kernel) (by decide +kernel)
      fun c hc => List.elem_iff.1 (List.all_eq_true.1 hsymbols c hc)
  have hspells : Spells .bech32m s' "pb".toList (List.replicate 32 0) :=
    ⟨hlabel, by decide +kernel, by decide +kernel⟩
  obtain ⟨hall, hone, hswap⟩ := parse_burst hparse hlower
  refine ⟨hparse, hlower, hburst, hall s' hburst, parse_bech32m hspells, ?_, ?_⟩
  · exact hone _ (front ++ "6dt62".toList) 'p' 'q' [] (by decide +kernel) (by decide)
      (by decide +kernel) (by decide) (by decide +kernel)
  · exact hswap _ (front ++ "6dt6".toList) '2' 'p' [] (by decide +kernel) (by decide) (by decide)
      (by decide +kernel)

end TxLens.Address

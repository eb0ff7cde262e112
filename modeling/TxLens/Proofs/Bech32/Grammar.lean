import TxLens.Proofs.Bech32.Checksum
import TxLens.Proofs.Bech32.LetterCase
/-!
# The grammar of labelled symbol strings

A string is read as a label, symbols and a checksum exactly when it has one letter case and its
lower-case form is the label, the separator, the symbols and the checksum that is due to them
(`decode_eq_ok_iff`). Writing puts out that lower-case form (`encode_eq_ok_iff`).
-/

namespace TxLens.Bech32

/-! ## Symbols as characters -/

theorem idxOf?_charOf (v : Symbol) : alphabet.idxOf? (charOf v) = some v.toNat := by
  revert v
  decide +kernel

theorem charOf_ascii (v : Symbol) :
    (charOf v).isUpper = false ∧ charOf v ≠ separator ∧ (charOf v).toNat < 128 := by
  revert v
  decide +kernel

theorem charOf_injective {u v : Symbol} (h : charOf u = charOf v) : u = v := by
  have hindex := idxOf?_charOf u
  rw [h, idxOf?_charOf] at hindex
  exact BitVec.eq_of_toNat_eq (Option.some.inj hindex).symm

theorem charOf_ofNat {i : Nat} (h : i < alphabet.length) : charOf (BitVec.ofNat 5 i) = alphabet[i] := by
  have hi : (BitVec.ofNat 5 i).toNat = i := by
    have : alphabet.length = 32 := by decide
    rw [BitVec.toNat_ofNat]
    omega
  rw [charOf, hi, List.getD_eq_getElem?_getD, List.getElem?_eq_getElem h, Option.getD_some]

theorem mem_alphabet_iff {c : Char} : c ∈ alphabet ↔ ∃ v, charOf v = c := by
  constructor
  · intro hc
    obtain ⟨i, hi, rfl⟩ := List.getElem_of_mem hc
    exact ⟨_, charOf_ofNat hi⟩
  · rintro ⟨v, rfl⟩
    rw [← List.isSome_idxOf?, idxOf?_charOf]
    rfl

theorem exists_map_charOf {cs : List Char} (h : ∀ c ∈ cs, c ∈ alphabet) :
    ∃ vs : List Symbol, vs.map charOf = cs := by
  induction cs with
  | nil => exact ⟨[], rfl⟩
  | cons c cs ih =>
    obtain ⟨v, rfl⟩ := mem_alphabet_iff.1 (h c List.mem_cons_self)
    obtain ⟨vs, rfl⟩ := ih fun d hd => h d (List.mem_cons_of_mem _ hd)
    exact ⟨v :: vs, rfl⟩

theorem separator_not_mem_map_charOf (vs : List Symbol) : separator ∉ vs.map charOf := by
  intro hmem
  obtain ⟨v, -, hv⟩ := List.mem_map.1 hmem
  exact (charOf_ascii v).2.1 hv

/-- A character stands for a symbol in either case. -/
theorem symbolOf?_eq_some_iff {c : Char} {v : Symbol} :
    symbolOf? c = some v ↔ c.toLower = charOf v := by
  constructor
  · intro h
    obtain ⟨i, hi, rfl⟩ := Option.map_eq_some_iff.1 h
    obtain ⟨hlt, hget, -⟩ := List.idxOf?_eq_some_iff.1 hi
    have hlen : alphabet.length = 32 := by decide +kernel
    rw [charOf, BitVec.toNat_ofNat, Nat.mod_eq_of_lt (by omega), ← hget]
    simp [hlt]
  · intro h
    rw [symbolOf?, h, idxOf?_charOf]
    simp

/-! ## The last separator -/

theorem not_mem_of_splitLast {s : List Char} (h : splitLast s = none) : separator ∉ s := by
  induction s with
  | nil => exact List.not_mem_nil
  | cons c cs ih =>
    rw [splitLast] at h
    split at h
    · cases h
    · rename_i hs
      split at h
      · cases h
      · rename_i hc
        rw [List.mem_cons, not_or]
        exact ⟨Ne.symm hc, ih hs⟩

/-- What stands after the last separator holds none. -/
theorem eq_append_of_splitLast {s before after : List Char}
    (h : splitLast s = some (before, after)) :
    s = before ++ separator :: after ∧ separator ∉ after := by
  induction s generalizing before with
  | nil => cases h
  | cons c cs ih =>
    rw [splitLast] at h
    split at h
    · rename_i before' after' hs
      cases h
      obtain ⟨hcs, hno⟩ := ih hs
      exact ⟨by rw [List.cons_append, ← hcs], hno⟩
    · rename_i hs
      split at h
      · rename_i hc
        cases h
        exact ⟨by rw [hc, List.nil_append], not_mem_of_splitLast hs⟩
      · cases h

theorem splitLast_eq_none {s : List Char} (h : separator ∉ s) : splitLast s = none := by
  induction s with
  | nil => rfl
  | cons c cs ih =>
    rw [List.mem_cons, not_or] at h
    rw [splitLast, ih h.2]
    exact if_neg (Ne.symm h.1)

theorem splitLast_append (before : List Char) {after : List Char} (h : separator ∉ after) :
    splitLast (before ++ separator :: after) = some (before, after) := by
  induction before with
  | nil => rw [List.nil_append, splitLast, splitLast_eq_none h, if_pos rfl]
  | cons c cs ih => rw [List.cons_append, splitLast, ih]

/-! ## Labels -/

/-- A label in lower case. -/
structure IsLabel (hrp : List Char) : Prop where
  nonempty : 1 ≤ hrp.length
  short : hrp.length ≤ 83
  printing : ∀ c ∈ hrp, 33 ≤ c.toNat ∧ c.toNat ≤ 126
  lower : ∀ c ∈ hrp, c.isUpper = false

theorem isLabelChar_iff {c : Char} : isLabelChar c = true ↔ 33 ≤ c.toNat ∧ c.toNat ≤ 126 := by
  simp [isLabelChar]

instance (hrp : List Char) : Decidable (IsLabel hrp) :=
  decidable_of_iff (1 ≤ hrp.length ∧ hrp.length ≤ 83 ∧ hrp.all isLabelChar = true ∧
      (hrp.all fun c => !c.isUpper) = true) <| by
    simp only [List.all_eq_true, Bool.not_eq_true', isLabelChar_iff]
    exact ⟨fun ⟨h₁, h₂, h₃, h₄⟩ => ⟨h₁, h₂, h₃, h₄⟩, fun ⟨h₁, h₂, h₃, h₄⟩ => ⟨h₁, h₂, h₃, h₄⟩⟩

theorem isLabelChar_toLower (c : Char) : isLabelChar c.toLower = isLabelChar c := by
  by_cases h : c.isUpper = true
  · have hn := toNat_toLower_of_isUpper h
    rw [isUpper_iff] at h
    rw [Bool.eq_iff_iff, isLabelChar_iff, isLabelChar_iff]
    omega
  · rw [Bool.not_eq_true] at h
    rw [toLower_of_not_isUpper h]

theorem labelCase_eq_ok_iff {seen out : Case} {hrp : List Char} : labelCase seen hrp = .ok out ↔
    (∀ c ∈ hrp, isLabelChar c = true) ∧ seen.run hrp = some out := by
  induction hrp generalizing seen with
  | nil => simp [labelCase, Case.run]
  | cons c cs ih =>
    by_cases hc : isLabelChar c = true
    · simp only [labelCase, hc, if_true, Case.run, List.mem_cons, forall_eq_or_imp, true_and]
      cases seen.meet c with
      | error e => simp
      | ok next => exact ih
    · simp [labelCase, hc]

/-- Printing ASCII takes one byte a character. -/
theorem size_of_isLabelChar {hrp : List Char} (h : ∀ c ∈ hrp, isLabelChar c = true) :
    hrp.foldr (fun c n => c.utf8Size + n) 0 = hrp.length := by
  induction hrp with
  | nil => rfl
  | cons c cs ih =>
    have hc := isLabelChar_iff.1 (h c List.mem_cons_self)
    have hsize : c.utf8Size = 1 := by
      rw [Char.utf8Size_eq_one_iff, UInt32.le_iff_toNat_le]
      show c.toNat ≤ 127
      omega
    rw [List.foldr_cons, ih fun d hd => h d (List.mem_cons_of_mem _ hd), hsize, List.length_cons,
      Nat.add_comm]

theorem checkLabel_eq_ok_iff {hrp : List Char} {out : Case} : checkLabel hrp = .ok out ↔
    IsLabel (hrp.map Char.toLower) ∧ Case.run .unset hrp = some out := by
  have hlower : ∀ c ∈ hrp.map Char.toLower, c.isUpper = false := by
    intro c hc
    obtain ⟨d, -, rfl⟩ := List.mem_map.1 hc
    exact isUpper_toLower d
  have hprinting : (∀ c ∈ hrp.map Char.toLower, 33 ≤ c.toNat ∧ c.toNat ≤ 126) ↔
      ∀ c ∈ hrp, isLabelChar c = true := by
    simp only [List.mem_map, forall_exists_index, and_imp, forall_apply_eq_imp_iff₂,
      ← isLabelChar_iff, isLabelChar_toLower]
  constructor
  · intro h
    rw [checkLabel] at h
    split at h
    · cases h
    rename_i hsize
    obtain ⟨hchars, hrun⟩ := labelCase_eq_ok_iff.1 h
    rw [size_of_isLabelChar hchars, maxLabelLength] at hsize
    refine ⟨⟨?_, ?_, hprinting.2 hchars, hlower⟩, hrun⟩ <;> rw [List.length_map] <;> omega
  · rintro ⟨⟨hne, hshort, hchars, -⟩, hrun⟩
    have hchars := hprinting.1 hchars
    rw [List.length_map] at hne hshort
    rw [checkLabel, if_neg]
    · exact labelCase_eq_ok_iff.2 ⟨hchars, hrun⟩
    · rw [size_of_isLabelChar hchars, maxLabelLength]
      omega

/-! ## Symbols in one case -/

theorem ascii_of_symbolOf? {c : Char} {v : Symbol} (h : c.toLower = charOf v) : c.toNat < 128 := by
  by_cases hu : c.isUpper = true
  · rw [isUpper_iff] at hu
    omega
  · rw [Bool.not_eq_true] at hu
    rw [← toLower_of_not_isUpper hu, h]
    exact (charOf_ascii v).2.2

theorem of_readSymbols {seen : Case} {cs : List Char} {vs : List Symbol}
    (h : readSymbols seen cs = .ok vs) :
    (seen.run cs).isSome ∧ cs.map Char.toLower = vs.map charOf := by
  induction cs generalizing seen vs with
  | nil =>
    cases h
    exact ⟨rfl, rfl⟩
  | cons c cs ih =>
    rw [readSymbols] at h
    split at h
    · cases h
    split at h
    · cases h
    rename_i next hmeet
    split at h
    · cases h
    rename_i v hv
    split at h
    · cases h
    rename_i ws hws
    cases h
    obtain ⟨hrun, hmap⟩ := ih hws
    rw [Case.run, hmeet]
    exact ⟨hrun, by rw [List.map_cons, List.map_cons, symbolOf?_eq_some_iff.1 hv, hmap]⟩

theorem readSymbols_of {seen : Case} {cs : List Char} {vs : List Symbol}
    (hrun : (seen.run cs).isSome) (hmap : cs.map Char.toLower = vs.map charOf) :
    readSymbols seen cs = .ok vs := by
  induction cs generalizing seen vs with
  | nil =>
    cases vs with
    | nil => rfl
    | cons v vs => cases hmap
  | cons c cs ih =>
    cases vs with
    | nil => cases hmap
    | cons v vs =>
      obtain ⟨hc, hcs⟩ := List.cons.inj hmap
      have hascii := ascii_of_symbolOf? hc
      rw [Case.run] at hrun
      rw [readSymbols, if_neg (by omega)]
      cases hmeet : seen.meet c with
      | error e => simp [hmeet] at hrun
      | ok next =>
        simp only [hmeet] at hrun
        simp only [symbolOf?_eq_some_iff.2 hc, ih hrun hcs]

/-! ## Whole strings -/

/-- The label, the separator, the symbols and the checksum of a variant. -/
def text (v : Variant) (hrp : List Char) (vs : List Symbol) : List Char :=
  hrp ++ separator :: (vs ++ v.checksum hrp vs).map charOf

/-- A string is read as the lower-case form that it is of. -/
theorem of_decode {s hrp : List Char} {vs : List Symbol} {v : Variant}
    (h : decode s = .ok (hrp, vs, v)) :
    IsLabel hrp ∧ OneCase s ∧ s.map Char.toLower = text v hrp vs := by
  rw [decode] at h
  split at h
  · cases h
  rename_i label data hsplit
  split at h
  · cases h
  rename_i out hlabel
  split at h
  · cases h
  rename_i ws hws
  split at h
  · cases h
  rename_i hlen
  split at h
  · cases h
  rename_i v' hv
  cases h
  rw [checksumLength] at *
  obtain ⟨hs, -⟩ := eq_append_of_splitLast hsplit
  obtain ⟨hgood, hrun⟩ := checkLabel_eq_ok_iff.1 hlabel
  obtain ⟨hrun', hmap⟩ := of_readSymbols hws
  refine ⟨hgood, ?_, ?_⟩
  · -- the separator is no letter, so the case carries over it
    show Case.Admits .unset s
    rw [← Case.run_isSome_iff, hs, Case.run_append, hrun]
    exact hrun'
  · have hcs : (ws.drop (ws.length - 6)).length = 6 := by
      rw [List.length_drop]
      omega
    have hchecksum := (variant?_append_iff hcs).1 (by rwa [List.take_append_drop])
    rw [text, ← hchecksum, List.take_append_drop, ← hmap, hs, List.map_append, List.map_cons]
    rfl

theorem decode_of {s hrp : List Char} {vs : List Symbol} {v : Variant} (hlabel : IsLabel hrp)
    (hcase : OneCase s) (htext : s.map Char.toLower = text v hrp vs) :
    decode s = .ok (hrp, vs, v) := by
  obtain ⟨label, rest, rfl, rfl, hrest⟩ := List.map_eq_append_iff.1 htext
  obtain ⟨c, data, rfl, hc, hdata⟩ := List.map_eq_cons_iff.1 hrest
  obtain rfl := eq_of_toLower (by decide) hc
  have hno : separator ∉ data := by
    intro hmem
    have := List.mem_map_of_mem (f := Char.toLower) hmem
    rw [hdata] at this
    obtain ⟨v', -, hv'⟩ := List.mem_map.1 this
    exact (charOf_ascii v').2.1 hv'
  have hrun : (Case.run .unset (label ++ separator :: data)).isSome :=
    Case.run_isSome_iff.2 hcase
  rw [Case.run_append] at hrun
  cases hout : Case.run .unset label with
  | none => simp [hout] at hrun
  | some out =>
    rw [hout] at hrun
    have hdatarun : (out.run data).isSome := hrun
    have hread := readSymbols_of hdatarun hdata
    have hvariant : variant? (label.map Char.toLower)
        (vs ++ v.checksum (label.map Char.toLower) vs) = some v :=
      (variant?_append_iff (v.length_checksum _ vs)).2 rfl
    have hlen : ¬ (vs ++ v.checksum (label.map Char.toLower) vs).length < checksumLength := by
      rw [List.length_append, Variant.length_checksum, checksumLength]
      omega
    have htake : (vs ++ v.checksum (label.map Char.toLower) vs).length - checksumLength =
        vs.length := by
      rw [List.length_append, Variant.length_checksum, checksumLength]
      omega
    simp only [decode, splitLast_append label hno, checkLabel_eq_ok_iff.2 ⟨hlabel, hout⟩, hread,
      if_neg hlen, hvariant, htake, List.take_left]

/-- A label and symbols are read as they stand, and only their checksum can be wrong. -/
theorem decode_symbols {hrp : List Char} {vs : List Symbol} (hlabel : IsLabel hrp)
    (hlen : checksumLength ≤ vs.length) : decode (hrp ++ separator :: vs.map charOf) =
      match variant? hrp vs with
      | none => .error .invalidChecksum
      | some v => .ok (hrp, vs.take (vs.length - checksumLength), v) := by
  have hno := separator_not_mem_map_charOf vs
  have hdata : ∀ c ∈ vs.map charOf, c.isUpper = false := by
    intro c hc
    obtain ⟨v, -, rfl⟩ := List.mem_map.1 hc
    exact (charOf_ascii v).1
  have hlower : ∀ c ∈ hrp ++ vs.map charOf, c.isUpper = false := by
    intro c hc
    rcases List.mem_append.1 hc with hc | hc
    · exact hlabel.lower c hc
    · exact hdata c hc
  have hrun : (Case.run .unset (hrp ++ vs.map charOf)).isSome := Case.run_isSome_iff.2 (.inl hlower)
  rw [Case.run_append] at hrun
  cases hout : Case.run .unset hrp with
  | none => simp [hout] at hrun
  | some out =>
    rw [hout] at hrun
    have hread : readSymbols out (vs.map charOf) = .ok vs :=
      readSymbols_of hrun (map_toLower_of_lower hdata)
    have hmap := map_toLower_of_lower hlabel.lower
    have hcheck : checkLabel hrp = .ok out := checkLabel_eq_ok_iff.2 ⟨by rwa [hmap], hout⟩
    have hshort : ¬ vs.length < checksumLength := Nat.not_lt.2 hlen
    cases hvariant : variant? hrp vs with
    | none => simp only [decode, splitLast_append hrp hno, hcheck, hread, if_neg hshort, hmap, hvariant]
    | some v =>
      simp only [decode, splitLast_append hrp hno, hcheck, hread, if_neg hshort, hmap, hvariant]

/-- **The grammar**: a string is read as these parts when it is of one case and its lower-case form is
the text of these parts. -/
theorem decode_eq_ok_iff {s hrp : List Char} {vs : List Symbol} {v : Variant} :
    decode s = .ok (hrp, vs, v) ↔
      IsLabel hrp ∧ OneCase s ∧ s.map Char.toLower = text v hrp vs :=
  ⟨of_decode, fun ⟨hlabel, hcase, htext⟩ => decode_of hlabel hcase htext⟩

/-- Writing puts out the text of the label's lower-case form, if the label has one case. -/
theorem encode_eq_ok_iff {hrp t : List Char} {vs : List Symbol} : encode hrp vs = .ok t ↔
    IsLabel (hrp.map Char.toLower) ∧ OneCase hrp ∧ t = text .bech32 (hrp.map Char.toLower) vs := by
  have hcase : OneCase hrp ↔ ∃ out, Case.run .unset hrp = some out := by
    rw [← Option.isSome_iff_exists, Case.run_isSome_iff]
    exact Iff.rfl
  rw [encode, hcase]
  constructor
  · intro h
    split at h
    · cases h
    · rename_i out hout
      obtain ⟨hlabel, hrun⟩ := checkLabel_eq_ok_iff.1 hout
      cases h
      exact ⟨hlabel, ⟨out, hrun⟩, by rw [text, ← checksum_eq]⟩
  · rintro ⟨hlabel, ⟨out, hrun⟩, rfl⟩
    rw [checkLabel_eq_ok_iff.2 ⟨hlabel, hrun⟩, text, ← checksum_eq]

/-- A text is in lower case. -/
theorem isUpper_of_mem_text {v : Variant} {hrp : List Char} {vs : List Symbol} (h : IsLabel hrp) :
    ∀ c ∈ text v hrp vs, c.isUpper = false := by
  intro c hc
  rw [text, List.mem_append, List.mem_cons, List.mem_map] at hc
  rcases hc with hc | rfl | ⟨u, -, rfl⟩
  · exact h.lower c hc
  · rfl
  · exact (charOf_ascii u).1

end TxLens.Bech32

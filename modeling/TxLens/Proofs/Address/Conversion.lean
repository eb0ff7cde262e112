import TxLens.Proofs.Address.Classes
/-!
# Views of one identifier

On a network whose labels are acceptable and pairwise different, an address of any label can be
converted to every class: it is read as its identifier and rendered under the label of the class, which
tells the class again (`exists_convert`). A conversion keeps nothing of an address but its identifier,
so one after another does what the last one does (`convert_convert`), and it leaves an address as it is,
up to letter case, exactly when the address is of the class already (`convert_eq_toLower_iff`).
-/

namespace TxLens.Address.Labels

variable {ls : Labels} {c d : Class} {s t : String} {a : Address} {raw : Bytes}

theorem Proper.classOf?_eq_some_iff (h : ls.Proper) {hrp : String} :
    ls.classOf? hrp = some c ↔ ls.ofClass c = hrp := by
  rw [Labels.classOf?_eq_some_iff]
  exact ⟨fun hc => hc.1, fun hc => ⟨hc, isFirst_of_distinct h.distinct c⟩⟩

/-- What is rendered under a label of the network is read back under the same label. -/
theorem Proper.parse_of_encodeAs (h : ls.Proper) (ht : ls.encodeAs c raw = .ok t) :
    parse t = .ok ⟨ls.ofClass c, raw⟩ := by
  rw [parse_of_render ht, toLower_eq_self (h.acceptable c)]

theorem isValidatorOperator_iff :
    ls.isValidatorOperator t = true ↔ ls.classify? t = some .validatorOperator := by
  rw [isValidatorOperator, beq_iff_eq]

/-! ## One address -/

theorem convert_of_parse (ha : parse s = .ok a) : ls.convert s c = ls.encodeAs c a.raw := by
  rw [convert, ha]

theorem classify?_of_parse (ha : parse s = .ok a) : ls.classify? s = ls.classOf? a.hrp := by
  rw [classify?, ha]

theorem Proper.exists_convert (h : ls.Proper) (ha : parse s = .ok a) (c : Class) :
    ∃ t, ls.convert s c = .ok t ∧ parse t = .ok ⟨ls.ofClass c, a.raw⟩ ∧ ls.classify? t = some c := by
  obtain ⟨hlen, -⟩ := parse_eq_ok_iff.1 ha
  obtain ⟨t, ht, hclass⟩ := forall_works_iff.2 h c a.raw hlen
  exact ⟨t, by rw [convert_of_parse ha, ht], h.parse_of_encodeAs ht, hclass⟩

theorem Proper.convert_convert (h : ls.Proper) (ha : parse s = .ok a) (ht : ls.convert s d = .ok t) :
    ls.convert t c = ls.convert s c := by
  rw [convert_of_parse ha] at ht
  rw [convert_of_parse (h.parse_of_encodeAs ht), convert_of_parse ha]

theorem Proper.convert_eq_toLower_iff (h : ls.Proper) (ha : parse s = .ok a) :
    ls.convert s c = .ok s.toLower ↔ ls.classify? s = some c := by
  have hrender := render_of_parse ha
  rw [convert_of_parse ha, classify?_of_parse ha, h.classOf?_eq_some_iff]
  constructor
  · intro ht
    -- both renderings are the same text, so they are read back as the same address
    obtain ⟨-, hs⟩ := parse_eq_ok_iff.1 ha
    have hparse := parse_of_render hrender
    rw [toLower_eq_self hs.label, h.parse_of_encodeAs ht] at hparse
    exact congrArg Address.hrp (Except.ok.inj hparse)
  · intro hc
    rw [encodeAs, hc]
    exact hrender

/-! ## All addresses -/

/-- **Addresses are views of identifiers.** An address of any label is converted to every class of the
network, with its identifier, and told to be of it; conversions one after another do what the last one
does; and an address of the class is the only one that a conversion leaves as it is, up to letter case.
What is no address is of no class and cannot be converted, for the same fault. -/
theorem convert_views (ls : Labels) (h : ls.Proper) :
    (∀ s a, parse s = .ok a →
      (∀ c, ∃ t, ls.convert s c = .ok t ∧ parse t = .ok ⟨ls.ofClass c, a.raw⟩ ∧
        ls.classify? t = some c ∧
        (ls.isValidatorOperator t = true ↔ c = .validatorOperator)) ∧
      (∀ c d t, ls.convert s d = .ok t → ls.convert t c = ls.convert s c) ∧
      (∀ c, ls.convert s c = .ok s.toLower ↔ ls.classify? s = some c)) ∧
    (∀ s e, parse s = .error e →
      ls.classify? s = none ∧ ∀ c, ls.convert s c = .error e) := by
  refine ⟨fun s a ha => ⟨fun c => ?_, fun c d t => h.convert_convert ha,
    fun c => h.convert_eq_toLower_iff ha⟩, fun s e he => ⟨?_, fun c => ?_⟩⟩
  · obtain ⟨t, ht, hparse, hclass⟩ := h.exists_convert ha c
    refine ⟨t, ht, hparse, hclass, ?_⟩
    rw [isValidatorOperator_iff, hclass, Option.some.injEq]
  · rw [classify?, he]
  · rw [convert, he]

/-- An address of another network in upper case, as a validator operator and as an account. -/
theorem convert_foreign_upperCase :
    let s := "COSMOS1QQQQQQQQQQQQQQQQQQQQQQQQQQQQQQQQNRQL8A"
    mainnet.Proper ∧ parse s = .ok ⟨"cosmos", List.replicate 20 0⟩ ∧ mainnet.classify? s = none ∧
      ∃ t, mainnet.convert s .validatorOperator = .ok t ∧
        mainnet.isValidatorOperator t = true ∧
        mainnet.convert t .account = mainnet.convert s .account ∧
        mainnet.convert t .account ≠ .ok t.toLower := by
  intro s
  have hproper : mainnet.Proper := by
    constructor
    · rintro (_ | _ | _) <;> decide
    · rintro (_ | _ | _) (_ | _ | _) <;> decide
  have hparse : parse s = .ok ⟨"cosmos", List.replicate 20 0⟩ :=
    parse_eq_ok_iff.2 ⟨.inl rfl, by decide, by decide +kernel, by decide +kernel⟩
  obtain ⟨hall, -⟩ := convert_views mainnet hproper
  obtain ⟨hviews, hagain, -⟩ := hall s _ hparse
  obtain ⟨t, ht, htparse, hclass, hoperator⟩ := hviews .validatorOperator
  refine ⟨hproper, hparse, ?_, t, ht, hoperator.2 rfl, hagain .account _ t ht, ?_⟩
  · rw [classify?_of_parse hparse]
    rfl
  · rw [Ne, (hall t _ htparse).2.2 .account, hclass]
    decide

end TxLens.Address.Labels

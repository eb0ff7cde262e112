import TxLens.Bech32
/-!
# One letter case

A string is acceptable when its letters are all lower or all upper case. The case met so far is
carried from the label into the symbols, so what may follow depends on it: anything of one case after
no letter, no letter of the other case after one (`Case.run_isSome_iff`).
-/

namespace TxLens.Bech32

/-! ## Letters of the alphabet -/

theorem isUpper_iff {c : Char} : c.isUpper = true ↔ 65 ≤ c.toNat ∧ c.toNat ≤ 90 :=
  decide_eq_true_iff

theorem isLower_iff {c : Char} : c.isLower = true ↔ 97 ≤ c.toNat ∧ c.toNat ≤ 122 := by
  show (decide (97 ≤ c.toNat) && decide (c.toNat ≤ 122)) = true ↔ _
  rw [Bool.and_eq_true, decide_eq_true_iff, decide_eq_true_iff]

theorem isLower_of_isUpper {c : Char} (h : c.isUpper = true) : c.isLower = false := by
  rw [isUpper_iff] at h
  rw [Bool.eq_false_iff, Ne, isLower_iff]
  omega

theorem toLower_of_not_isUpper {c : Char} (h : c.isUpper = false) : c.toLower = c :=
  dif_neg (of_decide_eq_false h)

theorem toNat_toLower_of_isUpper {c : Char} (h : c.isUpper = true) :
    c.toLower.toNat = c.toNat + 32 := by
  have hval : c.toLower.val = c.val + ('a'.val - 'A'.val) :=
    congrArg Char.val (dif_pos (of_decide_eq_true h))
  rw [isUpper_iff] at h
  show c.toLower.val.toNat = c.val.toNat + 32
  have hc : c.val.toNat = c.toNat := rfl
  have hd : ('a'.val - 'A'.val : UInt32).toNat = 32 := rfl
  rw [hval, UInt32.toNat_add, hd]
  omega

theorem toNat_toUpper_of_isLower {c : Char} (h : c.isLower = true) :
    c.toUpper.toNat + 32 = c.toNat := by
  rw [isLower_iff] at h
  have hletter : 'a'.val ≤ c.val ∧ c.val ≤ 'z'.val := h
  have hval : c.toUpper.val = c.val + ('A'.val - 'a'.val) := by
    delta Char.toUpper
    rw [dif_pos hletter]
  show c.toUpper.val.toNat + 32 = c.val.toNat
  have hc : c.val.toNat = c.toNat := rfl
  have hd : ('A'.val - 'a'.val : UInt32).toNat = 4294967264 := rfl
  rw [hval, UInt32.toNat_add, hd]
  omega

theorem toUpper_of_not_isLower {c : Char} (h : c.isLower = false) : c.toUpper = c := by
  rw [Bool.eq_false_iff, Ne, isLower_iff] at h
  exact dif_neg h

@[simp] theorem isUpper_toLower (c : Char) : c.toLower.isUpper = false := by
  by_cases h : c.isUpper = true
  · have hn := toNat_toLower_of_isUpper h
    rw [isUpper_iff] at h
    rw [Bool.eq_false_iff, Ne, isUpper_iff]
    omega
  · rw [Bool.not_eq_true] at h
    rw [toLower_of_not_isUpper h, h]

theorem isLower_toLower_of_isUpper {c : Char} (h : c.isUpper = true) : c.toLower.isLower = true := by
  have hn := toNat_toLower_of_isUpper h
  rw [isUpper_iff] at h
  rw [isLower_iff]
  omega

/-- Only lower-case letters are the lower-case form of another character. -/
theorem eq_of_toLower {c d : Char} (hd : d.isLower = false) (h : c.toLower = d) : c = d := by
  by_cases hu : c.isUpper = true
  · have hl := isLower_toLower_of_isUpper hu
    rw [h, hd] at hl
    cases hl
  · rw [Bool.not_eq_true] at hu
    rwa [toLower_of_not_isUpper hu] at h

/-- A character that is no lower-case letter is the upper-case form of its lower-case form. -/
theorem toUpper_toLower {c : Char} (h : c.isLower = false) : c.toLower.toUpper = c := by
  by_cases hu : c.isUpper = true
  · have hn := toNat_toLower_of_isUpper hu
    have := toNat_toUpper_of_isLower (isLower_toLower_of_isUpper hu)
    exact Char.toNat_inj.1 (by omega)
  · rw [Bool.not_eq_true] at hu
    rw [toLower_of_not_isUpper hu, toUpper_of_not_isLower h]

/-- A character that is no upper-case letter is the lower-case form of its upper-case form. -/
theorem toLower_toUpper {c : Char} (h : c.isUpper = false) : c.toUpper.toLower = c := by
  by_cases hl : c.isLower = true
  · have hn := toNat_toUpper_of_isLower hl
    have hu : c.toUpper.isUpper = true := by
      rw [isLower_iff] at hl
      rw [isUpper_iff]
      omega
    have := toNat_toLower_of_isUpper hu
    exact Char.toNat_inj.1 (by omega)
  · rw [Bool.not_eq_true] at hl
    rw [toUpper_of_not_isLower hl, toLower_of_not_isUpper h]

@[simp] theorem isLower_toUpper (c : Char) : c.toUpper.isLower = false := by
  by_cases h : c.isLower = true
  · have hn := toNat_toUpper_of_isLower h
    rw [isLower_iff] at h
    rw [Bool.eq_false_iff, Ne, isLower_iff]
    omega
  · rw [Bool.not_eq_true] at h
    rw [toUpper_of_not_isLower h, h]

/-! ## Strings of one case -/

/-- No upper-case letter, or no lower-case one. -/
def OneCase (s : List Char) : Prop :=
  (∀ c ∈ s, c.isUpper = false) ∨ (∀ c ∈ s, c.isLower = false)

instance (s : List Char) : Decidable (OneCase s) :=
  decidable_of_iff ((s.all fun c => !c.isUpper) = true ∨ (s.all fun c => !c.isLower) = true) <| by
    simp only [OneCase, List.all_eq_true, Bool.not_eq_true']

theorem map_eq_self {f : Char → Char} {s : List Char} (h : ∀ c ∈ s, f c = c) : s.map f = s := by
  have hid : s.map f = s.map id := List.map_congr_left h
  rw [hid, List.map_id]

theorem map_toLower_of_lower {s : List Char} (h : ∀ c ∈ s, c.isUpper = false) :
    s.map Char.toLower = s :=
  map_eq_self fun c hc => toLower_of_not_isUpper (h c hc)

/-- Strings of one case are the two forms of their lower-case form. -/
theorem oneCase_iff {s : List Char} :
    OneCase s ↔ s = s.map Char.toLower ∨ s = (s.map Char.toLower).map Char.toUpper := by
  constructor
  · rintro (h | h)
    · exact .inl (map_toLower_of_lower h).symm
    · right
      rw [List.map_map]
      exact (map_eq_self fun c hc => toUpper_toLower (h c hc)).symm
  · rintro (h | h)
    · left
      intro c hc
      rw [h] at hc
      obtain ⟨d, -, rfl⟩ := List.mem_map.1 hc
      exact isUpper_toLower d
    · right
      intro c hc
      rw [h] at hc
      obtain ⟨d, -, rfl⟩ := List.mem_map.1 hc
      exact isLower_toUpper d

theorem map_toLower_map_toUpper {s : List Char} (h : ∀ c ∈ s, c.isUpper = false) :
    (s.map Char.toUpper).map Char.toLower = s := by
  rw [List.map_map]
  exact map_eq_self fun c hc => toLower_toUpper (h c hc)

/-! ## The case carried along -/

namespace Case

/-- The case after all these characters, unless two letters differ in case. -/
def run : Case → List Char → Option Case
  | seen, [] => some seen
  | seen, c :: cs =>
    match seen.meet c with
    | .error _ => none
    | .ok seen => run seen cs

theorem run_append (seen : Case) (a b : List Char) :
    run seen (a ++ b) = (run seen a).bind fun mid => run mid b := by
  induction a generalizing seen with
  | nil => rfl
  | cons c cs ih =>
    simp only [List.cons_append, run]
    cases seen.meet c with
    | error e => rfl
    | ok next => exact ih next

/-- What may follow after letters of this case. -/
def Admits : Case → List Char → Prop
  | .unset, cs => OneCase cs
  | .lower, cs => ∀ c ∈ cs, c.isUpper = false
  | .upper, cs => ∀ c ∈ cs, c.isLower = false

theorem run_isSome_iff {seen : Case} {cs : List Char} : (run seen cs).isSome ↔ seen.Admits cs := by
  induction cs generalizing seen with
  | nil => cases seen <;> simp [run, Admits, OneCase]
  | cons c cs ih =>
    by_cases hl : c.isLower = true
    · have hu : c.isUpper = false := by
        rw [← Bool.not_eq_true]
        intro hu
        rw [isLower_of_isUpper hu] at hl
        cases hl
      cases seen <;> simp [run, meet, hl, hu, Admits, OneCase, ih]
    · rw [Bool.not_eq_true] at hl
      by_cases hu : c.isUpper = true
      · cases seen <;> simp [run, meet, hl, hu, Admits, OneCase, ih]
      · rw [Bool.not_eq_true] at hu
        cases seen <;> simp [run, meet, hl, hu, Admits, OneCase, ih]

end Case

end TxLens.Bech32

import TxLens.Json.Printer
import TxLens.Proofs.Json.Grammar
/-!
# What is printed is read back

The texts that a value is printed as, on one line or on several, are texts of that value
(`spells_print`, `spells_printIndented`), so it is read back as the value it was printed from
(`parse?_printIndented`). The only values of which this does not hold are those with a number whose
literal is no literal of a number, or that of an integer; the reader makes no such value.
-/

namespace TxLens.Json

/-! ## Values that can be printed -/

/-- Wherever the value holds the literal of a number, it is one, and not that of an integer. -/
inductive Printable : Json → Prop
  | null : Printable .null
  | bool (b : Bool) : Printable (.bool b)
  | natural (n : Nat) : Printable (.natural n)
  | number {literal : String} (h : IsNumber literal.toList) (hn : ¬ IsInteger literal.toList) :
      Printable (.number literal)
  | text (v : Option String) : Printable (.text v)
  | list {js : List Json} (h : ∀ j ∈ js, Printable j) : Printable (.list js)
  | object {ms : List (Option String × Json)} (h : ∀ m ∈ ms, Printable m.2) : Printable (.object ms)

theorem printable_ofOption {j : Option Json} (h : ∀ k, j = some k → Printable k) :
    Printable (ofOption j) := by
  cases j with
  | none => exact .null
  | some k => exact h k rfl

theorem printable_ofMembers {ms : List (String × Json)} (h : ∀ m ∈ ms, Printable m.2) :
    Printable (ofMembers ms) := by
  refine .object fun m hm => ?_
  obtain ⟨m', hm', rfl⟩ := List.mem_map.1 hm
  exact h m' hm'

theorem printable_ofText (s : String) : Printable (ofText s) := .text _

section

variable {α : Type} {toJson : α → Json}

theorem printable_ofOption_map (h : ∀ a, Printable (toJson a)) (a : Option α) :
    Printable (ofOption (a.map toJson)) := by
  refine printable_ofOption fun k hk => ?_
  obtain ⟨b, -, rfl⟩ := Option.map_eq_some_iff.1 hk
  exact h b

theorem printable_list_map (h : ∀ a, Printable (toJson a)) (as : List α) :
    Printable (.list (as.map toJson)) := by
  refine .list fun j hj => ?_
  obtain ⟨a, -, rfl⟩ := List.mem_map.1 hj
  exact h a

end

/-! ## Numbers -/

/-- The numeral of a number other than zero does not begin with a zero. -/
theorem numeral_head {n : Nat} (h : 0 < n) : ∃ d ds, Text.numeral n = d :: ds ∧ d ≠ '0' := by
  induction n using Nat.strongRecOn with
  | ind n ih =>
    rw [Text.numeral, Nat.toDigits_eq_if (by decide)]
    by_cases hn : n < 10
    · have hdigit : ∀ n < 10, 0 < n → Nat.digitChar n ≠ '0' := by decide
      rw [if_pos hn]
      exact ⟨_, _, rfl, hdigit n hn h⟩
    · obtain ⟨d, ds, hds, hd⟩ := ih (n / 10) (by omega) (by omega)
      rw [if_neg hn]
      rw [Text.numeral] at hds
      exact ⟨d, ds ++ [Nat.digitChar (n % 10)], by rw [hds, List.cons_append], hd⟩

theorem isInteger_numeral (n : Nat) : IsInteger (Text.numeral n) := by
  have hdigits := digits_numeral n
  cases n with
  | zero => exact .zero
  | succ n =>
    obtain ⟨d, ds, hds, hd⟩ := numeral_head (Nat.succ_pos n)
    rw [hds] at hdigits ⊢
    exact .digits hd hdigits

/-! ## Strings -/

theorem isHexDigit_hexDigit {n : Nat} (h : n < 16) : IsHexDigit (hexDigit n) n := by
  have hall : ∀ n < 16, hexDigit n = Nat.digitChar n := by decide
  exact ⟨h, .inl (hall n h)⟩

theorem spellsCodes_escape (c : Char) {body : List Char} {us : List Nat} (h : SpellsCodes body us) :
    SpellsCodes (escape c ++ body) (c.toNat :: us) := by
  rw [escape]
  -- the characters with an escape of their own
  iterate 7
    split
    · subst c
      exact .short (by decide) h
  split
  · have hunit := IsHexUnit.mk (isHexDigit_hexDigit (n := 0) (by decide))
      (isHexDigit_hexDigit (n := 0) (by decide)) (isHexDigit_hexDigit (n := c.toNat / 16) (by omega))
      (isHexDigit_hexDigit (n := c.toNat % 16) (by omega))
    have hcode : ((0 * 16 + 0) * 16 + c.toNat / 16) * 16 + c.toNat % 16 = c.toNat := by omega
    rw [hcode] at hunit
    exact .unit hunit h
  · rename_i hq hb _ _ _ _ _ hc
    exact .plain (Nat.not_lt.1 hc) hq hb h

theorem spellsCodes_flatMap_escape (cs : List Char) :
    SpellsCodes (cs.flatMap escape) (cs.map Char.toNat) := by
  induction cs with
  | nil => exact .nil
  | cons c cs ih => exact spellsCodes_escape c ih

theorem joins_map_toNat (cs : List Char) : Joins (cs.map Char.toNat) cs := by
  induction cs with
  | nil => exact .nil
  | cons c cs ih => exact .char ih

/-- A string literal, as a value or as a key. -/
theorem exists_printText (v : Option String) :
    ∃ body us, printText v = '"' :: (body ++ ['"']) ∧ SpellsCodes body us ∧ Denotes us v := by
  cases v with
  | some s =>
    exact ⟨_, _, rfl, spellsCodes_flatMap_escape s.toList, joins_map_toNat s.toList⟩
  | none =>
    have hunit : IsHexUnit ['d', '8', '0', '0'] 0xd800 :=
      isHexUnit_of_hexUnit? (by decide)
    have hnone : Denotes [0xd800] ((joinUnits [0xd800]).map String.ofList) :=
      denotes_joinUnits (by decide)
    exact ⟨_, _, rfl, .unit hunit .nil, hnone⟩

/-! ## Values -/

theorem blanks_nil : Blanks [] := fun _ h => nomatch h

theorem SpellsPadded.of_spells {t : List Char} {j : Json} (h : Spells t j) : SpellsPadded t j := by
  have hpadded := SpellsPadded.mk (v := []) (w := []) blanks_nil h blanks_nil
  simpa using hpadded

theorem spellsElements_printElements {js : List Json} (hne : js ≠ [])
    (h : ∀ j ∈ js, Spells j.print j) : SpellsElements (printElements js) js := by
  match js, hne with
  | [j], _ => exact .last (.of_spells (h j List.mem_cons_self))
  | j :: k :: js, _ =>
    refine .cons (.of_spells (h j List.mem_cons_self)) ?_
    exact spellsElements_printElements (List.cons_ne_nil k js) fun l hl =>
      h l (List.mem_cons_of_mem j hl)

theorem spellsMember_printText (key : Option String) {v t : List Char} {j : Json} (hv : Blanks v)
    (h : SpellsPadded t j) : SpellsMember (v ++ (printText key ++ ':' :: t)) (key, j) := by
  obtain ⟨body, us, hkey, hbody, hdenotes⟩ := exists_printText key
  have hmember := SpellsMember.mk (w := []) hv hbody hdenotes blanks_nil h
  rw [hkey]
  simpa using hmember

theorem spellsMembers_printMembers {ms : List (Option String × Json)} (hne : ms ≠ [])
    (h : ∀ m ∈ ms, Spells m.2.print m.2) : SpellsMembers (printMembers ms) ms := by
  match ms, hne with
  | [(key, j)], _ =>
    exact .last (spellsMember_printText key blanks_nil (.of_spells (h _ List.mem_cons_self)))
  | (key, j) :: m :: ms, _ =>
    refine .cons (spellsMember_printText key blanks_nil (.of_spells (h _ List.mem_cons_self))) ?_
    exact spellsMembers_printMembers (List.cons_ne_nil m ms) fun l hl =>
      h l (List.mem_cons_of_mem _ hl)

theorem spells_print {j : Json} (h : Printable j) : Spells j.print j := by
  induction h with
  | null => exact .null
  | bool b =>
    cases b with
    | true => exact .yes
    | false => exact .no
  | natural n =>
    have hnatural := Spells.natural (isInteger_numeral n)
    rwa [Text.numeralValue_numeral] at hnatural
  | @number literal h hn =>
    have hnumber := Spells.number h hn
    rwa [String.ofList_toList] at hnumber
  | text v =>
    obtain ⟨body, us, hv, hbody, hdenotes⟩ := exists_printText v
    rw [print, hv]
    exact .text hbody hdenotes
  | @list js h ih =>
    by_cases hjs : js = []
    · subst hjs
      exact .emptyList (w := []) blanks_nil
    · exact .list (spellsElements_printElements hjs ih)
  | @object ms h ih =>
    by_cases hms : ms = []
    · subst hms
      exact .emptyObject (w := []) blanks_nil
    · exact .object (spellsMembers_printMembers hms ih)

/-! ## Values on several lines -/

theorem blanks_newLine (level : Nat) : Blanks (newLine level) := by
  intro c hc
  rcases List.mem_cons.1 hc with rfl | hc
  · decide
  · rw [List.eq_of_mem_replicate hc]
    decide

theorem spellsElements_printIndentedElements {level : Nat} {js : List Json} (hne : js ≠ [])
    (h : ∀ j ∈ js, Spells (printIndented level j) j) {w : List Char} (hw : Blanks w) :
    SpellsElements (printIndentedElements level js ++ w) js := by
  match js, hne with
  | [j], _ =>
    rw [printIndentedElements, List.append_assoc]
    exact .last (.mk (blanks_newLine level) (h j List.mem_cons_self) hw)
  | j :: k :: js, _ =>
    have hrest := spellsElements_printIndentedElements (List.cons_ne_nil k js)
      (fun l hl => h l (List.mem_cons_of_mem j hl)) hw
    have helements := SpellsElements.cons
      (.mk (blanks_newLine level) (h j List.mem_cons_self) (w := []) blanks_nil) hrest
    rw [printIndentedElements]
    · simpa using helements
    · simp

theorem spellsMembers_printIndentedMembers {level : Nat} {ms : List (Option String × Json)}
    (hne : ms ≠ []) (h : ∀ m ∈ ms, Spells (printIndented level m.2) m.2) {w : List Char}
    (hw : Blanks w) : SpellsMembers (printIndentedMembers level ms ++ w) ms := by
  have hspace : Blanks [' '] := by
    intro c hc
    rw [List.mem_singleton.1 hc]
    decide
  match ms, hne with
  | [(key, j)], _ =>
    have hmember := spellsMember_printText key (blanks_newLine level)
      (.mk hspace (h _ List.mem_cons_self) hw)
    rw [printIndentedMembers]
    exact .last (by simpa using hmember)
  | (key, j) :: m :: ms, _ =>
    have hrest := spellsMembers_printIndentedMembers (List.cons_ne_nil m ms)
      (fun l hl => h l (List.mem_cons_of_mem _ hl)) hw
    have hmembers := SpellsMembers.cons (spellsMember_printText key (blanks_newLine level)
      (.mk hspace (h _ List.mem_cons_self) blanks_nil)) hrest
    rw [printIndentedMembers]
    · simpa using hmembers
    · simp

theorem spells_printIndented {j : Json} (h : Printable j) (level : Nat) :
    Spells (printIndented level j) j := by
  induction h generalizing level with
  | @list js h ih =>
    cases js with
    | nil => exact spells_print (.list h)
    | cons j js =>
      have hlist := Spells.list (spellsElements_printIndentedElements (List.cons_ne_nil j js)
        (fun l hl => ih l hl (level + 1)) (blanks_newLine level))
      rw [printIndented]
      simpa using hlist
  | @object ms h ih =>
    cases ms with
    | nil => exact spells_print (.object h)
    | cons m ms =>
      have hobject := Spells.object (spellsMembers_printIndentedMembers (List.cons_ne_nil m ms)
        (fun l hl => ih l hl (level + 1)) (blanks_newLine level))
      rw [printIndented]
      simpa using hobject
  | null => exact spells_print .null
  | bool b => exact spells_print (.bool b)
  | natural n => exact spells_print (.natural n)
  | number h hn => exact spells_print (.number h hn)
  | text v => exact spells_print (.text v)

/-- A value is read back from its text, also with blanks behind it. -/
theorem parse?_printIndented {j : Json} (h : Printable j) (level : Nat) {w : List Char}
    (hw : Blanks w) : parse? (printIndented level j ++ w) = some j :=
  parse?_eq_some_iff.2 (.mk (v := []) blanks_nil (spells_printIndented h level) hw)

end TxLens.Json

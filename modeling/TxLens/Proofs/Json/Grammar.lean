import TxLens.Proofs.Json.Literal
/-!
# The grammar of JSON

Which texts spell which value: blanks may stand around values, keys and punctuation, a list or an
object without anything in it may have blanks inside, and no comma stands behind the last element. A
text is read as a value exactly when it spells that value (`parse?_eq_some_iff`).

The readers hand out what is left together with a proof that it is no longer than the text, so they
cannot be rewritten in place. Their equations are first stated for what they read and leave only; both
directions then follow the readers.
-/

namespace TxLens.Json

/-! ## Texts of values -/

/-- Any blanks, or none. -/
def Blanks (w : List Char) : Prop := ∀ c ∈ w, c ∈ [' ', '\n', '\t', '\r']

mutual

/-- The texts of a value, without blanks around them. -/
inductive Spells : List Char → Json → Prop
  | null : Spells "null".toList .null
  | yes : Spells "true".toList (.bool true)
  | no : Spells "false".toList (.bool false)
  | natural {t : List Char} (h : IsInteger t) : Spells t (.natural (Text.numeralValue t))
  | number {t : List Char} (h : IsNumber t) (hn : ¬ IsInteger t) : Spells t (.number (String.ofList t))
  | text {body : List Char} {us : List Nat} {v : Option String} (hb : SpellsCodes body us)
      (hv : Denotes us v) : Spells ('"' :: (body ++ ['"'])) (.text v)
  | emptyList {w : List Char} (hw : Blanks w) : Spells ('[' :: (w ++ [']'])) (.list [])
  | list {t : List Char} {js : List Json} (h : SpellsElements t js) :
      Spells ('[' :: (t ++ [']'])) (.list js)
  | emptyObject {w : List Char} (hw : Blanks w) : Spells ('\x7b' :: (w ++ ['\x7d'])) (.object [])
  | object {t : List Char} {ms : List (Option String × Json)} (h : SpellsMembers t ms) :
      Spells ('\x7b' :: (t ++ ['\x7d'])) (.object ms)

/-- The texts of a value, with blanks around them allowed. -/
inductive SpellsPadded : List Char → Json → Prop
  | mk {v t w : List Char} {j : Json} (hv : Blanks v) (h : Spells t j) (hw : Blanks w) :
      SpellsPadded (v ++ (t ++ w)) j

/-- The texts of one value or more, with commas between them. -/
inductive SpellsElements : List Char → List Json → Prop
  | last {t : List Char} {j : Json} (h : SpellsPadded t j) : SpellsElements t [j]
  | cons {t u : List Char} {j : Json} {js : List Json} (h : SpellsPadded t j)
      (hs : SpellsElements u js) : SpellsElements (t ++ ',' :: u) (j :: js)

/-- The texts of a member: its key, a colon and its value. -/
inductive SpellsMember : List Char → Option String × Json → Prop
  | mk {v body w t : List Char} {us : List Nat} {key : Option String} {j : Json} (hv : Blanks v)
      (hb : SpellsCodes body us) (hk : Denotes us key) (hw : Blanks w) (h : SpellsPadded t j) :
      SpellsMember (v ++ '"' :: (body ++ '"' :: (w ++ ':' :: t))) (key, j)

/-- The texts of one member or more, with commas between them. -/
inductive SpellsMembers : List Char → List (Option String × Json) → Prop
  | last {t : List Char} {m : Option String × Json} (h : SpellsMember t m) : SpellsMembers t [m]
  | cons {t u : List Char} {m : Option String × Json} {ms : List (Option String × Json)}
      (h : SpellsMember t m) (hs : SpellsMembers u ms) : SpellsMembers (t ++ ',' :: u) (m :: ms)

end

theorem isBlank_iff {c : Char} : isBlank c = true ↔ c ∈ [' ', '\n', '\t', '\r'] := by
  simp [isBlank, or_assoc]

theorem skipBlanks_blanks {w : List Char} (hw : Blanks w) (s : List Char) :
    skipBlanks (w ++ s) = skipBlanks s :=
  List.dropWhile_append_of_pos fun c hc => isBlank_iff.2 (hw c hc)

theorem skipBlanks_append {w s : List Char} (hw : Blanks w) (hs : Stops isBlank s) :
    skipBlanks (w ++ s) = s :=
  dropWhile_append_of_stops (fun c hc => isBlank_iff.2 (hw c hc)) hs

theorem stops_continuesNumber_append {w s : List Char} (hw : Blanks w) (hs : Stops continuesNumber s) :
    Stops continuesNumber (w ++ s) := by
  refine stops_append (fun c hc => ?_) hs
  have hall : ∀ c ∈ [' ', '\n', '\t', '\r'], continuesNumber c = false := by
    simp [continuesNumber, continuesFraction, Text.isDigit]
  exact hall c (hw c (List.mem_of_head? hc))

theorem isNumber_of_isInteger {t : List Char} (h : IsInteger t) : IsNumber t := by
  have hnumber : IsNumber ([] ++ (t ++ ([] ++ []))) := .mk (.inl rfl) h .none .none
  simpa using hnumber

/-- What the first character of a number is not. -/
theorem IsNumber.head_not_mem {t : List Char} (h : IsNumber t) :
    ∃ c u, t = c :: u ∧ c ∉ [' ', '\n', '\t', '\r', 'n', 't', 'f', '"', '[', ']', '\x7b'] := by
  obtain ⟨c, u, rfl, hc⟩ := h.head
  refine ⟨c, u, rfl, fun hmem => ?_⟩
  have hall : ∀ c ∈ [' ', '\n', '\t', '\r', 'n', 't', 'f', '"', '[', ']', '\x7b'],
      Text.isDigit c = false ∧ c ≠ '-' := by simp [Text.isDigit]
  obtain ⟨hdigit, hminus⟩ := hall c hmem
  rcases hc with hc | rfl
  · rw [hc] at hdigit
    cases hdigit
  · exact hminus rfl

/-- A value begins with neither a blank nor a closing bracket. -/
theorem Spells.head {t : List Char} {j : Json} (h : Spells t j) :
    ∃ c u, t = c :: u ∧ isBlank c = false ∧ c ≠ ']' := by
  have hnumber {t : List Char} (h : IsNumber t) :
      ∃ c u, t = c :: u ∧ isBlank c = false ∧ c ≠ ']' := by
    obtain ⟨c, u, rfl, hc⟩ := h.head_not_mem
    refine ⟨c, u, rfl, ?_, ?_⟩
    · rw [Bool.eq_false_iff, ne_eq, isBlank_iff]
      exact fun hblank => hc (List.mem_append_left _ hblank)
    · rintro rfl
      exact hc (by decide)
  cases h with
  | null => exact ⟨'n', _, rfl, rfl, by decide⟩
  | yes => exact ⟨'t', _, rfl, rfl, by decide⟩
  | no => exact ⟨'f', _, rfl, rfl, by decide⟩
  | natural h => exact hnumber (isNumber_of_isInteger h)
  | number h _ => exact hnumber h
  | text hb hv => exact ⟨'"', _, rfl, rfl, by decide⟩
  | emptyList hw => exact ⟨'[', _, rfl, rfl, by decide⟩
  | list h => exact ⟨'[', _, rfl, rfl, by decide⟩
  | emptyObject hw => exact ⟨'\x7b', _, rfl, rfl, by decide⟩
  | object h => exact ⟨'\x7b', _, rfl, rfl, by decide⟩

theorem Spells.stops {t : List Char} {j : Json} (h : Spells t j) (rest : List Char) :
    Stops isBlank (t ++ rest) := by
  obtain ⟨c, u, rfl, hc, -⟩ := h.head
  rintro d ⟨⟩
  exact hc

theorem spells_ofLiteral {t : List Char} (h : IsNumber t) : Spells t (ofLiteral t) := by
  by_cases hi : IsInteger t
  · rw [ofLiteral_of_isInteger hi]
    exact .natural hi
  · rw [ofLiteral_of_not_isInteger h hi]
    exact .number h hi

/-! ## What the readers do -/

theorem readString_toPair (s : List Char) : (readString s).map Read.toPair =
    (readUnits s).map fun t => ((joinUnits t.1).map String.ofList, t.2) := by
  rw [readString]
  split
  · rename_i h
    rw [h]
    rfl
  · rename_i us rest h
    simp only [h]
    rfl

theorem readValue_toPair (s : List Char) : (readValue s).map Read.toPair =
    match skipBlanks s with
    | 'n' :: 'u' :: 'l' :: 'l' :: r => some (.null, r)
    | 't' :: 'r' :: 'u' :: 'e' :: r => some (.bool true, r)
    | 'f' :: 'a' :: 'l' :: 's' :: 'e' :: r => some (.bool false, r)
    | '"' :: r => ((readString r).map Read.toPair).map fun t => (.text t.1, t.2)
    | '[' :: r =>
      match skipBlanks r with
      | ']' :: r' => some (.list [], r')
      | _ => ((readElements r).map Read.toPair).map fun es => (.list es.1, es.2)
    | '\x7b' :: r =>
      match skipBlanks r with
      | '\x7d' :: r' => some (.object [], r')
      | _ => ((readMembers r).map Read.toPair).map fun ms => (.object ms.1, ms.2)
    | r => (readNumber r).map Read.toPair := by
  rw [readValue]
  split
  all_goals rename_i h
  all_goals simp only [h, Option.map_map]
  · rfl
  · rfl
  · rfl
  · rfl
  · split
    · rename_i h'
      simp only [h']
      rfl
    · rename_i h'
      split
      · rename_i hclose
        exact absurd hclose (h' _)
      · rw [Option.map_map]
        rfl
  · split
    · rename_i h'
      simp only [h']
      rfl
    · rename_i h'
      split
      · rename_i hclose
        exact absurd hclose (h' _)
      · rw [Option.map_map]
        rfl
  · rfl

theorem readElements_toPair (s : List Char) : (readElements s).map Read.toPair =
    match (readValue s).map Read.toPair with
    | none => none
    | some (j, r) =>
      match skipBlanks r with
      | ',' :: r => ((readElements r).map Read.toPair).map fun es => (j :: es.1, es.2)
      | ']' :: r => some ([j], r)
      | _ => none := by
  rw [readElements]
  cases hv : readValue s with
  | none => rfl
  | some v =>
    simp only [Option.map_some, Read.toPair]
    split
    all_goals rename_i h
    all_goals simp only [h, Option.map_map]
    · rfl
    · rfl
    · rfl

theorem readMembers_toPair (s : List Char) : (readMembers s).map Read.toPair =
    match skipBlanks s with
    | '"' :: s₁ =>
      match (readString s₁).map Read.toPair with
      | none => none
      | some (key, r) =>
        match skipBlanks r with
        | ':' :: s₂ =>
          match (readValue s₂).map Read.toPair with
          | none => none
          | some (j, r) =>
            match skipBlanks r with
            | ',' :: r => ((readMembers r).map Read.toPair).map fun ms => ((key, j) :: ms.1, ms.2)
            | '\x7d' :: r => some ([(key, j)], r)
            | _ => none
        | _ => none
    | _ => none := by
  rw [readMembers]
  split
  · rename_i s₁ h₁
    simp only [h₁]
    cases hk : readString s₁ with
    | none => rfl
    | some key =>
      simp only [Option.map_some, Read.toPair]
      split
      · rename_i s₂ h₂
        simp only [h₂]
        cases hv : readValue s₂ with
        | none => rfl
        | some v =>
          simp only [Option.map_some, Read.toPair]
          split
          all_goals rename_i h₃
          all_goals simp only [h₃, Option.map_map]
          · rfl
          · rfl
          · rfl
      · rename_i h₂
        split
        · rename_i hcolon
          exact absurd hcolon (h₂ _)
        · rfl
  · rename_i h₁
    split
    · rename_i hquote
      exact absurd hquote (h₁ _)
    · rfl

/-! ## Every text of a value is read -/

theorem readValue_number {v t rest : List Char} (hv : Blanks v) (h : IsNumber t)
    (hr : Stops continuesNumber rest) :
    (readValue (v ++ (t ++ rest))).map Read.toPair = some (ofLiteral t, rest) := by
  rw [readValue_toPair, skipBlanks_append hv ((spells_ofLiteral h).stops rest)]
  have hread := readNumber_append h hr
  obtain ⟨c, u, rfl, hc⟩ := h.head_not_mem
  have hne : ∀ d ∈ ['n', 't', 'f', '"', '[', '\x7b'], c ≠ d := by
    rintro d hd rfl
    have hall : ∀ d ∈ ['n', 't', 'f', '"', '[', '\x7b'],
        d ∈ [' ', '\n', '\t', '\r', 'n', 't', 'f', '"', '[', ']', '\x7b'] := by simp
    exact hc (hall c hd)
  split
  case h_7 => exact hread
  all_goals
    rename_i heq
    exact absurd (List.cons.inj heq).1 (hne _ (by decide))

theorem readString_append {body : List Char} {us : List Nat} {v : Option String}
    (hb : SpellsCodes body us) (hv : Denotes us v) (rest : List Char) :
    (readString (body ++ '"' :: rest)).map Read.toPair = some (v, rest) := by
  rw [readString_toPair, readUnits_append hb, Option.map_some, joinUnits_of_denotes hb.lt hv]

/-- The first element does not begin with the closing bracket. -/
theorem SpellsElements.skipBlanks_ne {t : List Char} {js : List Json} (h : SpellsElements t js)
    (rest r : List Char) : skipBlanks (t ++ rest) ≠ ']' :: r := by
  have hpadded : ∀ {t : List Char} {j : Json}, SpellsPadded t j → ∀ rest,
      skipBlanks (t ++ rest) ≠ ']' :: r := by
    rintro _ j ⟨hv, ht, hw⟩ rest hclose
    rw [List.append_assoc, List.append_assoc, skipBlanks_append hv (ht.stops _)] at hclose
    obtain ⟨c, u, rfl, -, hc⟩ := ht.head
    exact hc (List.cons.inj hclose).1
  cases h with
  | last h => exact hpadded h rest
  | @cons t u j js h hs =>
    rw [List.append_assoc]
    exact hpadded h _

/-- The first member begins with a quote. -/
theorem SpellsMembers.skipBlanks_ne {t : List Char} {ms : List (Option String × Json)}
    (h : SpellsMembers t ms) (rest r : List Char) : skipBlanks (t ++ rest) ≠ '\x7d' :: r := by
  have hmember : ∀ {t : List Char} {m : Option String × Json}, SpellsMember t m → ∀ rest,
      skipBlanks (t ++ rest) ≠ '\x7d' :: r := by
    rintro _ m ⟨hv, hb, hk, hw, ht⟩ rest hclose
    rw [List.append_assoc, skipBlanks_append hv (by rintro c ⟨⟩; rfl)] at hclose
    exact absurd (List.cons.inj hclose).1 (by decide)
  cases h with
  | last h => exact hmember h rest
  | @cons t u m ms h hs =>
    rw [List.append_assoc]
    exact hmember h _

mutual

theorem readValue_append {t : List Char} {j : Json} (h : Spells t j) {v rest : List Char}
    (hv : Blanks v) (hr : Stops continuesNumber rest) :
    (readValue (v ++ (t ++ rest))).map Read.toPair = some (j, rest) := by
  have hskip := skipBlanks_append hv (h.stops rest)
  match h with
  | .null => rw [readValue_toPair, hskip]; rfl
  | .yes => rw [readValue_toPair, hskip]; rfl
  | .no => rw [readValue_toPair, hskip]; rfl
  | .natural h =>
    rw [readValue_number hv (isNumber_of_isInteger h) hr, ofLiteral_of_isInteger h]
  | .number h hn =>
    rw [readValue_number hv h hr, ofLiteral_of_not_isInteger h hn]
  | .text hb hu =>
    rw [readValue_toPair, hskip]
    simp only [List.cons_append, List.append_assoc, List.nil_append, readString_append hb hu,
      Option.map_some]
  | .emptyList hw =>
    rw [readValue_toPair, hskip]
    have hclose : skipBlanks (_ ++ ']' :: rest) = _ := skipBlanks_append hw (by rintro c ⟨⟩; rfl)
    simp only [List.cons_append, List.append_assoc, List.nil_append, hclose]
  | .list hs =>
    rw [readValue_toPair, hskip]
    simp only [List.cons_append, List.append_assoc, List.nil_append]
    split
    · rename_i hclose
      exact absurd hclose (hs.skipBlanks_ne _ _)
    · rw [readElements_append hs rest, Option.map_some]
  | .emptyObject hw =>
    rw [readValue_toPair, hskip]
    have hclose : skipBlanks (_ ++ '\x7d' :: rest) = _ := skipBlanks_append hw (by rintro c ⟨⟩; rfl)
    simp only [List.cons_append, List.append_assoc, List.nil_append, hclose]
  | .object hs =>
    rw [readValue_toPair, hskip]
    simp only [List.cons_append, List.append_assoc, List.nil_append]
    split
    · rename_i hclose
      exact absurd hclose (hs.skipBlanks_ne _ _)
    · rw [readMembers_append hs rest, Option.map_some]

/-- The blanks behind a value are left. -/
theorem readValue_padded {t : List Char} {j : Json} (h : SpellsPadded t j) (rest : List Char)
    (hr : Stops continuesNumber rest) :
    ∃ w, Blanks w ∧ (readValue (t ++ rest)).map Read.toPair = some (j, w ++ rest) := by
  match h with
  | .mk hv ht hw =>
    refine ⟨_, hw, ?_⟩
    rw [List.append_assoc, List.append_assoc]
    exact readValue_append ht hv (stops_continuesNumber_append hw hr)

theorem readElements_append {t : List Char} {js : List Json} (h : SpellsElements t js)
    (rest : List Char) :
    (readElements (t ++ ']' :: rest)).map Read.toPair = some (js, rest) := by
  match h with
  | .last h =>
    obtain ⟨w, hw, hread⟩ := readValue_padded h (']' :: rest) (by rintro c ⟨⟩; rfl)
    have hskip := skipBlanks_append (s := ']' :: rest) hw (by rintro c ⟨⟩; rfl)
    rw [readElements_toPair, hread]
    simp only [hskip]
  | .cons (u := u) h hs =>
    obtain ⟨w, hw, hread⟩ :=
      readValue_padded h (',' :: (u ++ ']' :: rest)) (by rintro c ⟨⟩; rfl)
    have hskip := skipBlanks_append (s := ',' :: (u ++ ']' :: rest)) hw (by rintro c ⟨⟩; rfl)
    rw [List.append_assoc, List.cons_append, readElements_toPair, hread]
    simp only [hskip, readElements_append hs rest, Option.map_some]

/-- A member is read, and what stands behind it decides whether it is the last. -/
theorem readMembers_cons {t : List Char} {m : Option String × Json} (h : SpellsMember t m)
    {rest : List Char} (hr : Stops continuesNumber rest) :
    (readMembers (t ++ rest)).map Read.toPair = match skipBlanks rest with
      | ',' :: r => ((readMembers r).map Read.toPair).map fun ms => (m :: ms.1, ms.2)
      | '\x7d' :: r => some ([m], r)
      | _ => none := by
  match h with
  | @SpellsMember.mk v body w t us key j hv hbody hkey hw ht =>
    obtain ⟨w', hw', hread⟩ := readValue_padded ht rest hr
    have hquote : skipBlanks (v ++ '"' :: (body ++ '"' :: (w ++ ':' :: t)) ++ rest) =
        '"' :: (body ++ '"' :: (w ++ ':' :: (t ++ rest))) := by
      rw [List.append_assoc, skipBlanks_append hv (by rintro c ⟨⟩; rfl)]
      simp only [List.append_assoc, List.cons_append]
    have hcolon : skipBlanks (w ++ ':' :: (t ++ rest)) = _ :=
      skipBlanks_append hw (by rintro c ⟨⟩; rfl)
    rw [readMembers_toPair, hquote]
    simp only [readString_append hbody hkey, hcolon, hread, skipBlanks_blanks hw']

theorem readMembers_append {t : List Char} {ms : List (Option String × Json)}
    (h : SpellsMembers t ms) (rest : List Char) :
    (readMembers (t ++ '\x7d' :: rest)).map Read.toPair = some (ms, rest) := by
  match h with
  | .last h =>
    have hclose : skipBlanks ('\x7d' :: rest) = '\x7d' :: rest := rfl
    rw [readMembers_cons h (by rintro c ⟨⟩; rfl), hclose]
    rfl
  | .cons (u := u) h hs =>
    have hcomma : skipBlanks (',' :: (u ++ '\x7d' :: rest)) = ',' :: (u ++ '\x7d' :: rest) := rfl
    rw [List.append_assoc, List.cons_append, readMembers_cons h (by rintro c ⟨⟩; rfl), hcomma]
    simp only [readMembers_append hs rest, Option.map_some]

end

/-! ## What is read is a text of the value -/

theorem exists_blanks (s : List Char) : ∃ w, Blanks w ∧ s = w ++ skipBlanks s := by
  refine ⟨s.takeWhile isBlank, fun c hc => ?_, List.takeWhile_append_dropWhile.symm⟩
  exact isBlank_iff.1 (List.all_eq_true.1 List.all_takeWhile c hc)

theorem spellsCodes_of_readString {s rest : List Char} {v : Option String}
    (h : (readString s).map Read.toPair = some (v, rest)) :
    ∃ body us, SpellsCodes body us ∧ Denotes us v ∧ s = body ++ '"' :: rest := by
  rw [readString_toPair] at h
  obtain ⟨⟨us, r⟩, hread, heq⟩ := Option.map_eq_some_iff.1 h
  cases heq
  obtain ⟨body, hbody, rfl⟩ := spellsCodes_of_readUnits hread
  exact ⟨body, us, hbody, denotes_joinUnits hbody.lt, rfl⟩

mutual

theorem spells_of_readValue {s rest : List Char} {j : Json}
    (h : (readValue s).map Read.toPair = some (j, rest)) :
    ∃ v t, Blanks v ∧ Spells t j ∧ s = v ++ (t ++ rest) := by
  obtain ⟨v, hv, hs⟩ := exists_blanks s
  rw [readValue_toPair] at h
  split at h
  · rename_i hskip
    cases h
    exact ⟨v, _, hv, .null, by rw [hs, hskip]; rfl⟩
  · rename_i hskip
    cases h
    exact ⟨v, _, hv, .yes, by rw [hs, hskip]; rfl⟩
  · rename_i hskip
    cases h
    exact ⟨v, _, hv, .no, by rw [hs, hskip]; rfl⟩
  · rename_i r hskip
    obtain ⟨⟨text, r'⟩, hread, heq⟩ := Option.map_eq_some_iff.1 h
    cases heq
    obtain ⟨body, us, hbody, hdenotes, rfl⟩ := spellsCodes_of_readString hread
    exact ⟨v, _, hv, .text hbody hdenotes, by rw [hs, hskip]; simp⟩
  · rename_i r hskip
    have hlt := length_lt_of_skipBlanks hskip
    obtain ⟨w, hw, hr⟩ := exists_blanks r
    split at h
    · rename_i hclose
      cases h
      exact ⟨v, _, hv, .emptyList hw, by rw [hs, hskip, hr, hclose]; simp⟩
    · obtain ⟨⟨js, r'⟩, hread, heq⟩ := Option.map_eq_some_iff.1 h
      cases heq
      obtain ⟨t, ht, rfl⟩ := spells_of_readElements hread
      exact ⟨v, _, hv, .list ht, by rw [hs, hskip]; simp⟩
  · rename_i r hskip
    have hlt := length_lt_of_skipBlanks hskip
    obtain ⟨w, hw, hr⟩ := exists_blanks r
    split at h
    · rename_i hclose
      cases h
      exact ⟨v, _, hv, .emptyObject hw, by rw [hs, hskip, hr, hclose]; simp⟩
    · obtain ⟨⟨ms, r'⟩, hread, heq⟩ := Option.map_eq_some_iff.1 h
      cases heq
      obtain ⟨t, ht, rfl⟩ := spells_of_readMembers hread
      exact ⟨v, _, hv, .object ht, by rw [hs, hskip]; simp⟩
  · obtain ⟨n, hread, heq⟩ := Option.map_eq_some_iff.1 h
    cases heq
    obtain ⟨t, ht, hvalue, hskip⟩ := isNumber_of_readNumber hread
    refine ⟨v, t, hv, ?_, by rw [← hskip]; exact hs⟩
    rw [hvalue]
    exact spells_ofLiteral ht
termination_by (s.length, 0)

theorem spells_of_readElements {s rest : List Char} {js : List Json}
    (h : (readElements s).map Read.toPair = some (js, rest)) :
    ∃ t, SpellsElements t js ∧ s = t ++ ']' :: rest := by
  rw [readElements_toPair] at h
  split at h
  · cases h
  · rename_i j r hread
    obtain ⟨v, t, hv, ht, hs⟩ := spells_of_readValue hread
    obtain ⟨w, hw, hr⟩ := exists_blanks r
    split at h
    · rename_i u hskip
      obtain ⟨⟨js, r'⟩, hread', heq⟩ := Option.map_eq_some_iff.1 h
      cases heq
      have hlt : u.length < s.length := by
        have hlt := length_lt_of_skipBlanks hskip
        rw [hs, List.length_append, List.length_append]
        omega
      obtain ⟨t', ht', rfl⟩ := spells_of_readElements hread'
      exact ⟨_, .cons (.mk hv ht hw) ht', by rw [hs, hr, hskip]; simp⟩
    · rename_i u hskip
      cases h
      exact ⟨_, .last (.mk hv ht hw), by rw [hs, hr, hskip]; simp⟩
    · cases h
termination_by (s.length, 1)

theorem spells_of_readMembers {s rest : List Char} {ms : List (Option String × Json)}
    (h : (readMembers s).map Read.toPair = some (ms, rest)) :
    ∃ t, SpellsMembers t ms ∧ s = t ++ '\x7d' :: rest := by
  obtain ⟨v, hv, hs⟩ := exists_blanks s
  rw [readMembers_toPair] at h
  split at h
  · rename_i s₁ hquote
    split at h
    · cases h
    · rename_i key r₁ hkey
      obtain ⟨body, us, hbody, hdenotes, hs₁⟩ := spellsCodes_of_readString hkey
      obtain ⟨w₁, hw₁, hr₁⟩ := exists_blanks r₁
      split at h
      · rename_i s₂ hcolon
        split at h
        · cases h
        · rename_i j r₂ hread
          have hlt : s₂.length < s.length := by
            have hlt₁ := length_lt_of_skipBlanks hquote
            have hlt₂ := length_lt_of_skipBlanks hcolon
            rw [hs₁, List.length_append, List.length_cons] at hlt₁
            omega
          obtain ⟨v₂, t, hv₂, ht, hs₂⟩ := spells_of_readValue hread
          obtain ⟨w₂, hw₂, hr₂⟩ := exists_blanks r₂
          have hmember := SpellsMember.mk hv hbody hdenotes hw₁ (.mk hv₂ ht hw₂)
          have hwhole : s = v ++ '"' :: (body ++ '"' ::
              (w₁ ++ ':' :: (v₂ ++ (t ++ (w₂ ++ skipBlanks r₂))))) := by
            rw [hs, hquote, hs₁, hr₁, hcolon, hs₂, ← hr₂]
          split at h
          · rename_i u hcomma
            obtain ⟨⟨ms, r'⟩, hread', heq⟩ := Option.map_eq_some_iff.1 h
            cases heq
            have hlt : u.length < s.length := by
              rw [hwhole, hcomma]
              simp only [List.length_append, List.length_cons]
              omega
            obtain ⟨t', ht', rfl⟩ := spells_of_readMembers hread'
            exact ⟨_, .cons hmember ht', by rw [hwhole, hcomma]; simp⟩
          · rename_i u hclose
            cases h
            exact ⟨_, .last hmember, by rw [hwhole, hclose]; simp⟩
          · cases h
      · cases h
  · cases h
termination_by (s.length, 1)

end

/-- A text is read as a value exactly when it is one of the value's texts. -/
theorem parse?_eq_some_iff {s : List Char} {j : Json} : parse? s = some j ↔ SpellsPadded s j := by
  have hparse : parse? s = ((readValue s).map Read.toPair).bind fun r =>
      if r.2.all isBlank then some r.1 else none := by
    rw [parse?]
    cases readValue s <;> rfl
  rw [hparse, Option.bind_eq_some_iff]
  constructor
  · rintro ⟨⟨j', w⟩, hread, hblank⟩
    obtain ⟨v, t, hv, ht, rfl⟩ := spells_of_readValue hread
    split at hblank
    · rename_i hw
      cases hblank
      exact .mk hv ht fun c hc => isBlank_iff.1 (List.all_eq_true.1 hw c hc)
    · cases hblank
  · intro h
    obtain ⟨w, hw, hread⟩ := readValue_padded h [] (by rintro c ⟨⟩)
    rw [List.append_nil, List.append_nil] at hread
    exact ⟨(j, w), hread, if_pos (List.all_eq_true.2 fun c hc => isBlank_iff.2 (hw c hc))⟩

end TxLens.Json

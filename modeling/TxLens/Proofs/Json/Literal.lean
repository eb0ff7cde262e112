import TxLens.Json.Parser
/-!
# Literals of JSON

What a number literal and a string literal are, and that the readers take them off the front of any
text that does not go on with them, and nothing else. A number ends where no digit, point or exponent
follows; a string ends at its own quote. The codes of a string literal are read one after the other
whatever they are, and only then joined to characters: a literal with half of a surrogate pair is read,
but denotes no text (`joinUnits_of_denotes`).
-/

namespace TxLens

/-- What was read and what is left. -/
def Read.toPair {α σ : Type} {s : List σ} (r : Read α s) : α × List σ := (r.value, r.rest)

namespace Json

/-! ## Numbers -/

/-- One digit or more. -/
def Digits (ds : List Char) : Prop := ds ≠ [] ∧ ∀ c ∈ ds, Text.isDigit c = true

theorem Digits.head {ds : List Char} (h : Digits ds) :
    ∃ d ds', ds = d :: ds' ∧ Text.isDigit d = true := by
  obtain ⟨hne, hds⟩ := h
  cases ds with
  | nil => exact absurd rfl hne
  | cons d ds => exact ⟨d, ds, rfl, hds d List.mem_cons_self⟩

theorem digits_numeral (n : Nat) : Digits (Text.numeral n) :=
  ⟨Nat.toDigits_ne_nil, fun _ hc => Nat.isDigit_of_mem_toDigits (by decide) (by decide) hc⟩

/-- A zero, or digits that do not begin with one. -/
inductive IsInteger : List Char → Prop
  | zero : IsInteger ['0']
  | digits {d : Char} {ds : List Char} (hd : d ≠ '0') (h : Digits (d :: ds)) : IsInteger (d :: ds)

theorem IsInteger.isDigits {i : List Char} (h : IsInteger i) : Digits i := by
  cases h with
  | zero => exact ⟨by simp, by simp [Text.isDigit]⟩
  | digits _ h => exact h

inductive IsFraction : List Char → Prop
  | none : IsFraction []
  | point {ds : List Char} (h : Digits ds) : IsFraction ('.' :: ds)

inductive IsExponent : List Char → Prop
  | none : IsExponent []
  | power {e : Char} {sign ds : List Char} (he : e = 'e' ∨ e = 'E')
      (hs : sign = [] ∨ sign = ['+'] ∨ sign = ['-']) (h : Digits ds) : IsExponent (e :: (sign ++ ds))

/-- A number literal: an integer that may have a sign before it and a fraction and an exponent after
it. -/
inductive IsNumber : List Char → Prop
  | mk {sign i f x : List Char} (hs : sign = [] ∨ sign = ['-']) (hi : IsInteger i)
      (hf : IsFraction f) (hx : IsExponent x) : IsNumber (sign ++ (i ++ (f ++ x)))

/-- The first character, if there is one, is not of this kind. -/
def Stops (p : Char → Bool) (s : List Char) : Prop := ∀ c ∈ s.head?, p c = false

/-- Whether a character goes on with an integer or a fraction. -/
def continuesFraction (c : Char) : Bool := Text.isDigit c || c == '.'

/-- Whether a character goes on with a number. -/
def continuesNumber (c : Char) : Bool := continuesFraction c || c == 'e' || c == 'E'

theorem Stops.mono {p q : Char → Bool} {s : List Char} (h : Stops q s)
    (hpq : ∀ c, p c = true → q c = true) : Stops p s := by
  intro c hc
  rw [Bool.eq_false_iff]
  intro hp
  have hq := hpq c hp
  rw [h c hc] at hq
  exact absurd hq (by decide)

theorem stops_append {p : Char → Bool} {s t : List Char} (hs : Stops p s) (ht : Stops p t) :
    Stops p (s ++ t) := by
  cases s with
  | nil => exact ht
  | cons c s => exact hs

theorem dropWhile_append_of_stops {p : Char → Bool} {s t : List Char} (hs : ∀ c ∈ s, p c = true)
    (ht : Stops p t) : (s ++ t).dropWhile p = t := by
  rw [List.dropWhile_append_of_pos hs]
  cases t with
  | nil => rfl
  | cons c t => rw [List.dropWhile_cons_of_neg (by rw [ht c rfl]; decide)]

theorem takeWhile_append_of_stops {p : Char → Bool} {s t : List Char} (hs : ∀ c ∈ s, p c = true)
    (ht : Stops p t) : (s ++ t).takeWhile p = s := by
  rw [List.takeWhile_append_of_pos hs]
  cases t with
  | nil => rw [List.takeWhile_nil, List.append_nil]
  | cons c t => rw [List.takeWhile_cons_of_neg (by rw [ht c rfl]; decide), List.append_nil]

theorem stops_dropWhile (p : Char → Bool) (s : List Char) : Stops p (s.dropWhile p) := by
  intro c hc
  have hhead := List.head?_dropWhile_not p s
  rw [Option.mem_def.1 hc] at hhead
  exact hhead

theorem afterDigits_append {ds rest : List Char} (h : Digits ds) (hr : Stops Text.isDigit rest) :
    afterDigits (ds ++ rest) = some rest := by
  have hdrop := dropWhile_append_of_stops h.2 hr
  obtain ⟨d, ds, rfl, hd⟩ := h.head
  rw [List.cons_append] at hdrop ⊢
  rw [afterDigits, if_pos hd, hdrop]

theorem afterInteger_append {i rest : List Char} (h : IsInteger i) (hr : Stops Text.isDigit rest) :
    afterInteger (i ++ rest) = some rest := by
  cases h with
  | zero => rfl
  | @digits d ds hd h =>
    rw [← afterDigits_append h hr]
    unfold afterInteger
    split
    · rename_i heq
      exact absurd (List.cons.inj heq).1 hd
    · rfl

theorem Stops.digit {rest : List Char} (h : Stops continuesFraction rest) : Stops Text.isDigit rest :=
  h.mono fun c hc => by simp [continuesFraction, hc]

theorem Stops.fraction {rest : List Char} (h : Stops continuesNumber rest) :
    Stops continuesFraction rest :=
  h.mono fun c hc => by simp [continuesNumber, hc]

theorem afterFraction_append {f rest : List Char} (h : IsFraction f)
    (hr : Stops continuesFraction rest) : afterFraction (f ++ rest) = some rest := by
  cases h with
  | point h => exact afterDigits_append h hr.digit
  | none =>
    unfold afterFraction
    split
    · rename_i heq
      rw [List.nil_append] at heq
      rw [heq] at hr
      exact absurd (hr '.' rfl) (by decide)
    · rfl

theorem afterExponent_append {x rest : List Char} (h : IsExponent x)
    (hr : Stops continuesNumber rest) : afterExponent (x ++ rest) = some rest := by
  have hdigit := hr.fraction.digit
  unfold afterExponent
  cases h with
  | none =>
    cases rest with
    | nil => rfl
    | cons c rest =>
      have hc : ¬ (c = 'e' ∨ c = 'E') := by
        have hstop := hr c rfl
        rintro (rfl | rfl)
        · exact absurd hstop (by decide)
        · exact absurd hstop (by decide)
      exact if_neg hc
  | @power e sign ds he hs h =>
    simp only [List.cons_append, List.append_assoc, if_pos he]
    rcases hs with rfl | rfl | rfl
    · -- without a sign the digits begin with neither of the signs
      obtain ⟨d, ds, rfl, hd⟩ := h.head
      rw [List.nil_append, ← afterDigits_append h hdigit]
      split
      · rename_i heq
        rw [(List.cons.inj heq).1] at hd
        exact absurd hd (by decide)
      · rename_i heq
        rw [(List.cons.inj heq).1] at hd
        exact absurd hd (by decide)
      · rfl
    · exact afterDigits_append h hdigit
    · exact afterDigits_append h hdigit

/-- A number begins with a digit or a minus sign. -/
theorem IsNumber.head {t : List Char} (h : IsNumber t) :
    ∃ c u, t = c :: u ∧ (Text.isDigit c = true ∨ c = '-') := by
  cases h with
  | @mk sign i f x hs hi hf hx =>
    obtain ⟨d, ds, rfl, hd⟩ := hi.isDigits.head
    rcases hs with rfl | rfl
    · exact ⟨d, _, rfl, .inl hd⟩
    · exact ⟨'-', _, rfl, .inr rfl⟩

theorem stops_exponent {x rest : List Char} (h : IsExponent x) (hr : Stops continuesNumber rest) :
    Stops continuesFraction (x ++ rest) := by
  refine stops_append ?_ hr.fraction
  cases h with
  | none => simp [Stops]
  | power he _ _ =>
    rcases he with rfl | rfl
    · simp [Stops, continuesFraction, Text.isDigit]
    · simp [Stops, continuesFraction, Text.isDigit]

theorem stops_fraction {f rest : List Char} (h : IsFraction f) (hr : Stops Text.isDigit rest) :
    Stops Text.isDigit (f ++ rest) := by
  refine stops_append ?_ hr
  cases h with
  | none => simp [Stops]
  | point _ => simp [Stops, Text.isDigit]

theorem afterNumber_append {t rest : List Char} (h : IsNumber t) (hr : Stops continuesNumber rest) :
    afterNumber (t ++ rest) = some rest := by
  cases h with
  | @mk sign i f x hs hi hf hx =>
    have hexp := stops_exponent hx hr
    have hint := afterInteger_append hi (stops_fraction hf hexp.digit)
    have hfrac := afterFraction_append hf hexp
    have hread : ((afterInteger (i ++ (f ++ (x ++ rest)))).bind fun s =>
        (afterFraction s).bind afterExponent) = some rest := by
      rw [hint, Option.bind_some, hfrac, Option.bind_some, afterExponent_append hx hr]
    unfold afterNumber
    rcases hs with rfl | rfl
    · -- an integer does not begin with the sign
      obtain ⟨d, ds, rfl, hd⟩ := hi.isDigits.head
      simp only [List.nil_append, List.append_assoc]
      split
      · rename_i heq
        rw [(List.cons.inj heq).1] at hd
        exact absurd hd (by decide)
      · exact hread
    · simp only [List.append_assoc]
      exact hread

/-- The value of an integer literal is a number, that of any other is the literal itself. -/
theorem ofLiteral_of_isInteger {t : List Char} (h : IsInteger t) :
    ofLiteral t = .natural (Text.numeralValue t) := by
  obtain ⟨hne, hds⟩ := h.isDigits
  rw [ofLiteral, Text.natOfNumeral?, if_pos ⟨hne, List.all_eq_true.2 hds⟩]

/-- A number of digits only is an integer. -/
theorem IsNumber.isInteger {t : List Char} (h : IsNumber t) (ht : ∀ c ∈ t, Text.isDigit c = true) :
    IsInteger t := by
  cases h with
  | @mk sign i f x hs hi hf hx =>
    cases hf with
    | point _ => exact absurd (ht '.' (by simp)) (by decide)
    | none =>
      cases hx with
      | @power e _ _ he _ _ =>
        have hd := ht e (by simp)
        rcases he with rfl | rfl
        · exact absurd hd (by decide)
        · exact absurd hd (by decide)
      | none =>
        rcases hs with rfl | rfl
        · simpa using hi
        · exact absurd (ht '-' (by simp)) (by decide)

theorem ofLiteral_of_not_isInteger {t : List Char} (h : IsNumber t) (hn : ¬ IsInteger t) :
    ofLiteral t = .number (String.ofList t) := by
  have hdigits : ¬ (t ≠ [] ∧ t.all Text.isDigit = true) :=
    fun hd => hn (h.isInteger (List.all_eq_true.1 hd.2))
  rw [ofLiteral, Text.natOfNumeral?, if_neg hdigits]

/-- A number literal is read up to where it ends. -/
theorem readNumber_append {t rest : List Char} (h : IsNumber t) (hr : Stops continuesNumber rest) :
    (readNumber (t ++ rest)).map Read.toPair = some (ofLiteral t, rest) := by
  have hafter := afterNumber_append h hr
  rw [readNumber]
  split
  · rename_i hn
    rw [hafter] at hn
    cases hn
  · rename_i r hsome
    rw [hafter] at hsome
    cases hsome
    simp [Read.toPair]

/-! ### What is read is a number -/

theorem digits_of_afterDigits {s rest : List Char} (h : afterDigits s = some rest) :
    ∃ ds, Digits ds ∧ s = ds ++ rest := by
  unfold afterDigits at h
  split at h
  · rename_i c s
    split at h
    · rename_i hc
      cases h
      refine ⟨(c :: s).takeWhile Text.isDigit, ⟨?_, List.all_eq_true.1 List.all_takeWhile⟩,
        List.takeWhile_append_dropWhile.symm⟩
      rw [List.takeWhile_cons_of_pos hc]
      exact List.cons_ne_nil _ _
    · cases h
  · cases h

theorem isInteger_of_afterInteger {s rest : List Char} (h : afterInteger s = some rest) :
    ∃ i, IsInteger i ∧ s = i ++ rest := by
  unfold afterInteger at h
  split at h
  · cases h
    exact ⟨['0'], .zero, rfl⟩
  · rename_i hzero
    obtain ⟨ds, hds, rfl⟩ := digits_of_afterDigits h
    obtain ⟨d, ds, rfl, -⟩ := hds.head
    exact ⟨d :: ds, .digits (fun hd => hzero (ds ++ rest) (by rw [hd, List.cons_append])) hds, rfl⟩

theorem isFraction_of_afterFraction {s rest : List Char} (h : afterFraction s = some rest) :
    ∃ f, IsFraction f ∧ s = f ++ rest := by
  unfold afterFraction at h
  split at h
  · obtain ⟨ds, hds, rfl⟩ := digits_of_afterDigits h
    exact ⟨'.' :: ds, .point hds, rfl⟩
  · cases h
    exact ⟨[], .none, rfl⟩

theorem isExponent_of_afterExponent {s rest : List Char} (h : afterExponent s = some rest) :
    ∃ x, IsExponent x ∧ s = x ++ rest := by
  unfold afterExponent at h
  split at h
  · rename_i e s
    split at h
    · rename_i he
      split at h
      · obtain ⟨ds, hds, rfl⟩ := digits_of_afterDigits h
        exact ⟨_, .power he (.inr (.inl rfl)) hds, rfl⟩
      · obtain ⟨ds, hds, rfl⟩ := digits_of_afterDigits h
        exact ⟨_, .power he (.inr (.inr rfl)) hds, rfl⟩
      · obtain ⟨ds, hds, rfl⟩ := digits_of_afterDigits h
        exact ⟨_, .power he (.inl rfl) hds, rfl⟩
    · cases h
      exact ⟨[], .none, rfl⟩
  · cases h
    exact ⟨[], .none, rfl⟩

theorem isNumber_of_afterNumber {s rest : List Char} (h : afterNumber s = some rest) :
    ∃ t, IsNumber t ∧ s = t ++ rest := by
  simp only [afterNumber, Option.bind_eq_bind, Option.bind_eq_some_iff] at h
  obtain ⟨s₁, hint, s₂, hfrac, hexp⟩ := h
  obtain ⟨i, hi, hs⟩ := isInteger_of_afterInteger hint
  obtain ⟨f, hf, rfl⟩ := isFraction_of_afterFraction hfrac
  obtain ⟨x, hx, rfl⟩ := isExponent_of_afterExponent hexp
  split at hs
  · subst hs
    exact ⟨_, .mk (.inr rfl) hi hf hx, by simp⟩
  · subst hs
    exact ⟨_, .mk (.inl rfl) hi hf hx, by simp⟩

theorem isNumber_of_readNumber {s : List Char} {r : Read Json s} (h : readNumber s = some r) :
    ∃ t, IsNumber t ∧ r.value = ofLiteral t ∧ s = t ++ r.rest := by
  rw [readNumber] at h
  split at h
  · cases h
  · rename_i rest hrest
    cases h
    obtain ⟨t, ht, rfl⟩ := isNumber_of_afterNumber hrest
    exact ⟨t, ht, by simp, rfl⟩

/-! ## Strings -/

/-- The letters that stand after a backslash, and what they stand for. -/
def shortEscapes : List (Char × Char) :=
  [('"', '"'), ('\\', '\\'), ('/', '/'), ('b', '\x08'), ('f', '\x0c'), ('n', '\n'), ('r', '\r'),
    ('t', '\t')]

/-- A hexadecimal digit in either case. -/
def IsHexDigit (c : Char) (n : Nat) : Prop :=
  n < 16 ∧ (c = Nat.digitChar n ∨ c = (Nat.digitChar n).toUpper)

/-- Four hexadecimal digits, the most significant first. -/
inductive IsHexUnit : List Char → Nat → Prop
  | mk {a b c d : Char} {k l m n : Nat} (ha : IsHexDigit a k) (hb : IsHexDigit b l)
      (hc : IsHexDigit c m) (hd : IsHexDigit d n) :
      IsHexUnit [a, b, c, d] (((k * 16 + l) * 16 + m) * 16 + n)

/-- The codes that stand between the quotes of a string literal: a character that need not be escaped,
one after a backslash, or a 16-bit unit. -/
inductive SpellsCodes : List Char → List Nat → Prop
  | nil : SpellsCodes [] []
  | plain {c : Char} {body : List Char} {us : List Nat} (hc : 0x20 ≤ c.toNat) (hq : c ≠ '"')
      (hb : c ≠ '\\') (h : SpellsCodes body us) : SpellsCodes (c :: body) (c.toNat :: us)
  | short {e c : Char} {body : List Char} {us : List Nat} (he : (e, c) ∈ shortEscapes)
      (h : SpellsCodes body us) : SpellsCodes ('\\' :: e :: body) (c.toNat :: us)
  | unit {ds body : List Char} {u : Nat} {us : List Nat} (hu : IsHexUnit ds u)
      (h : SpellsCodes body us) : SpellsCodes ('\\' :: 'u' :: (ds ++ body)) (u :: us)

/-- The characters of codes: a code is that of a character, or two are the halves of a surrogate
pair. -/
inductive Joins : List Nat → List Char → Prop
  | nil : Joins [] []
  | char {c : Char} {us : List Nat} {cs : List Char} (h : Joins us cs) : Joins (c.toNat :: us) (c :: cs)
  | pair {c : Char} {high low : Nat} {us : List Nat} {cs : List Char}
      (hh : 0xd800 ≤ high ∧ high ≤ 0xdbff) (hl : 0xdc00 ≤ low ∧ low ≤ 0xdfff)
      (hc : c.toNat = 0x10000 + (high - 0xd800) * 0x400 + (low - 0xdc00)) (h : Joins us cs) :
      Joins (high :: low :: us) (c :: cs)

/-- What a string literal denotes: the text of its codes, if they are those of any. -/
def Denotes (us : List Nat) : Option String → Prop
  | some s => Joins us s.toList
  | none => ∀ cs, ¬ Joins us cs

theorem hexValue?_of_isHexDigit {c : Char} {n : Nat} (h : IsHexDigit c n) :
    Bytes.hexValue? c = some n := by
  have hall : ∀ n < 16, Bytes.hexValue? (Nat.digitChar n) = some n ∧
      Bytes.hexValue? (Nat.digitChar n).toUpper = some n := by decide
  obtain ⟨hn, rfl | rfl⟩ := h
  · exact (hall n hn).1
  · exact (hall n hn).2

theorem escaped?_of_mem {e c : Char} (h : (e, c) ∈ shortEscapes) : escaped? e = some c := by
  have hall : ∀ p ∈ shortEscapes, escaped? p.1 = some p.2 := by decide
  exact hall (e, c) h

theorem readUnits_append {body : List Char} {us : List Nat} (h : SpellsCodes body us)
    (rest : List Char) : readUnits (body ++ '"' :: rest) = some (us, rest) := by
  induction h with
  | nil => rfl
  | @plain c body us hc hq hb h ih =>
    rw [List.cons_append]
    unfold readUnits
    split
    · rename_i heq
      cases heq
    · rename_i heq
      exact absurd (List.cons.inj heq).1 hq
    · rename_i heq
      exact absurd (List.cons.inj heq).1 hb
    · rename_i heq
      exact absurd (List.cons.inj heq).1 hb
    · rename_i heq
      obtain ⟨rfl, rfl⟩ := List.cons.inj heq
      rw [if_neg (Nat.not_lt.2 hc), ih]
  | @short e c body us he h ih =>
    have hu : e ≠ 'u' := by
      rintro rfl
      have hnone := escaped?_of_mem he
      cases hnone
    rw [List.cons_append, List.cons_append]
    unfold readUnits
    split
    · rename_i heq
      cases heq
    · rename_i heq
      exact absurd (List.cons.inj heq).1 (by decide)
    · rename_i heq
      exact absurd (List.cons.inj (List.cons.inj heq).2).1 hu
    · rename_i heq
      obtain ⟨-, heq⟩ := List.cons.inj heq
      obtain ⟨rfl, rfl⟩ := List.cons.inj heq
      rw [escaped?_of_mem he, ih]
    · rename_i hno heq
      obtain ⟨rfl, hs⟩ := List.cons.inj heq
      exact (hno _ _ rfl hs.symm).elim
  | @unit ds body u us hu h ih =>
    cases hu with
    | @mk a b c d k l m n ha hb hc hd =>
    simp only [List.cons_append, List.nil_append, readUnits, hexUnit?, hexValue?_of_isHexDigit ha,
      hexValue?_of_isHexDigit hb, hexValue?_of_isHexDigit hc, hexValue?_of_isHexDigit hd, ih,
      Option.bind_eq_bind, Option.bind_some, Option.pure_def]

theorem SpellsCodes.lt {body : List Char} {us : List Nat} (h : SpellsCodes body us) :
    ∀ u ∈ us, u < 0x110000 := by
  have hchar : ∀ c : Char, c.toNat < 0x110000 := by
    intro c
    have hv : c.toNat < 0xd800 ∨ 0xdfff < c.toNat ∧ c.toNat < 0x110000 := c.valid
    omega
  induction h with
  | nil => simp
  | plain _ _ _ _ ih => exact List.forall_mem_cons.2 ⟨hchar _, ih⟩
  | short _ _ ih => exact List.forall_mem_cons.2 ⟨hchar _, ih⟩
  | @unit ds body u us hu h ih =>
    refine List.forall_mem_cons.2 ⟨?_, ih⟩
    cases hu with
    | mk ha hb hc hd =>
      have hk := ha.1
      have hl := hb.1
      have hm := hc.1
      have hn := hd.1
      omega

/-- The code of a character is no half of a surrogate pair. -/
theorem isHalf_toNat (c : Char) : isHighHalf c.toNat = false ∧ isLowHalf c.toNat = false := by
  have hv : c.toNat < 0xd800 ∨ 0xdfff < c.toNat ∧ c.toNat < 0x110000 := c.valid
  simp only [isHighHalf, isLowHalf, Bool.and_eq_false_iff, decide_eq_false_iff_not]
  omega

theorem joinUnits_of_joins {us : List Nat} {cs : List Char} (h : Joins us cs) :
    joinUnits us = some cs := by
  induction h with
  | nil => rfl
  | @char c us cs h ih =>
    obtain ⟨hhigh, hlow⟩ := isHalf_toNat c
    cases us with
    | nil =>
      cases h
      simp [joinUnits, hhigh, hlow]
    | cons v us => simp [joinUnits, hhigh, hlow, ih]
  | @pair c high low us cs hh hl hc h ih =>
    have hhigh : isHighHalf high = true := by simp [isHighHalf, hh]
    have hlow : isLowHalf low = true := by simp [isLowHalf, hl]
    have hcode : (high - 0xd800) * 0x400 + (low - 0xdc00) + 0x10000 = c.toNat := by omega
    rw [joinUnits, if_pos hhigh, if_pos hlow, ih, hcode, Char.ofNat_toNat]
    rfl

theorem toNat_ofNat {u : Nat} (h : u.isValidChar) : (Char.ofNat u).toNat = u := by
  rw [Char.ofNat, dif_pos h]
  rfl

/-- A code that is no half of a surrogate pair is that of a character. -/
theorem joins_cons {u : Nat} {us : List Nat} {cs : List Char} (hu : u < 0x110000)
    (hh : isHighHalf u = false) (hl : isLowHalf u = false) (h : Joins us cs) :
    Joins (u :: us) (Char.ofNat u :: cs) := by
  have hvalid : u.isValidChar := by
    simp only [isHighHalf, isLowHalf, Bool.and_eq_false_iff, decide_eq_false_iff_not] at hh hl
    show u < 0xd800 ∨ 0xdfff < u ∧ u < 0x110000
    omega
  have hjoins := Joins.char (c := Char.ofNat u) h
  rwa [toNat_ofNat hvalid] at hjoins

theorem joins_of_joinUnits {us : List Nat} {cs : List Char} (hus : ∀ u ∈ us, u < 0x110000)
    (h : joinUnits us = some cs) : Joins us cs := by
  fun_induction joinUnits us generalizing cs with
  | case1 =>
    cases h
    exact .nil
  | case2 u hu => cases h
  | case3 u hu =>
    cases h
    rw [Bool.or_eq_true, not_or, Bool.not_eq_true, Bool.not_eq_true] at hu
    exact joins_cons (hus u List.mem_cons_self) hu.1 hu.2 .nil
  | case4 u v us hu hv ih =>
    obtain ⟨cs, hcs, rfl⟩ := Option.map_eq_some_iff.1 h
    have hrest : ∀ w ∈ us, w < 0x110000 := fun w hw =>
      hus w (List.mem_cons_of_mem u (List.mem_cons_of_mem v hw))
    simp only [isHighHalf, isLowHalf, Bool.and_eq_true, decide_eq_true_eq] at hu hv
    have hvalid : ((u - 0xd800) * 0x400 + (v - 0xdc00) + 0x10000).isValidChar := by
      show _ < 0xd800 ∨ 0xdfff < _ ∧ _ < 0x110000
      omega
    refine .pair hu hv ?_ (ih hrest hcs)
    rw [toNat_ofNat hvalid]
    omega
  | case5 => cases h
  | case6 => cases h
  | case7 u v us hu hl ih =>
    obtain ⟨cs, hcs, rfl⟩ := Option.map_eq_some_iff.1 h
    rw [Bool.not_eq_true] at hu hl
    exact joins_cons (hus u List.mem_cons_self) hu hl
      (ih (fun w hw => hus w (List.mem_cons_of_mem u hw)) hcs)

theorem joinUnits_of_denotes {us : List Nat} {v : Option String} (hus : ∀ u ∈ us, u < 0x110000)
    (h : Denotes us v) : (joinUnits us).map String.ofList = v := by
  cases v with
  | some s => rw [joinUnits_of_joins h, Option.map_some, String.ofList_toList]
  | none =>
    cases hj : joinUnits us with
    | none => rfl
    | some cs => exact absurd (joins_of_joinUnits hus hj) (h cs)

/-! ### What is read is a string -/

theorem isHexDigit_of_hexValue? {c : Char} {n : Nat} (h : Bytes.hexValue? c = some n) :
    IsHexDigit c n := by
  have hall : ∀ k < 0x67, ∀ n ∈ Bytes.hexValue? (Char.ofNat k), n < 16 ∧
      (Char.ofNat k = Nat.digitChar n ∨ Char.ofNat k = (Nat.digitChar n).toUpper) := by decide
  have hc : c.toNat < 0x67 := by
    have hle : ∀ d : Char, c ≤ d → c.toNat ≤ d.toNat := fun d h => h
    unfold Bytes.hexValue? at h
    split at h
    · rename_i hr
      exact Nat.lt_of_le_of_lt (hle '9' hr.2) (by decide)
    · split at h
      · rename_i hr
        exact Nat.lt_of_le_of_lt (hle 'f' hr.2) (by decide)
      · split at h
        · rename_i hr
          exact Nat.lt_of_le_of_lt (hle 'F' hr.2) (by decide)
        · cases h
  have hdigit := hall c.toNat hc
  rw [Char.ofNat_toNat] at hdigit
  exact hdigit n h

theorem mem_of_escaped? {e c : Char} (h : escaped? e = some c) : (e, c) ∈ shortEscapes := by
  unfold escaped? at h
  split at h
  all_goals cases h
  all_goals decide

theorem isHexUnit_of_hexUnit? {a b c d : Char} {u : Nat} (h : hexUnit? a b c d = some u) :
    IsHexUnit [a, b, c, d] u := by
  simp only [hexUnit?, Option.bind_eq_bind, Option.bind_eq_some_iff, Option.pure_def,
    Option.some.injEq] at h
  obtain ⟨k, hk, l, hl, m, hm, n, hn, rfl⟩ := h
  exact .mk (isHexDigit_of_hexValue? hk) (isHexDigit_of_hexValue? hl) (isHexDigit_of_hexValue? hm)
    (isHexDigit_of_hexValue? hn)

theorem spellsCodes_of_readUnits {s rest : List Char} {us : List Nat}
    (h : readUnits s = some (us, rest)) : ∃ body, SpellsCodes body us ∧ s = body ++ '"' :: rest := by
  fun_induction readUnits s generalizing us with
  | case1 => cases h
  | case2 s =>
    cases h
    exact ⟨[], .nil, rfl⟩
  | case3 a b c d s u us' rest' hr hu ih =>
    cases h
    obtain ⟨body, hbody, rfl⟩ := ih hr
    exact ⟨_, .unit (isHexUnit_of_hexUnit? hu) hbody, rfl⟩
  | case4 => cases h
  | case5 e s hnotUnit c us' rest' hr he ih =>
    cases h
    obtain ⟨body, hbody, rfl⟩ := ih hr
    exact ⟨_, .short (mem_of_escaped? he) hbody, rfl⟩
  | case6 => cases h
  | case7 => cases h
  | case8 c s hq hu hb hc us' rest' hr ih =>
    cases h
    obtain ⟨body, hbody, rfl⟩ := ih hr
    refine ⟨_, .plain (Nat.not_lt.1 hc) hq ?_ hbody, rfl⟩
    -- a backslash before the end of the text stands before another character
    rintro rfl
    cases body with
    | nil => exact hb _ _ rfl rfl
    | cons e body => exact hb _ _ rfl rfl
  | case9 => cases h

/-- Codes denote one text, or none. -/
theorem denotes_joinUnits {us : List Nat} (hus : ∀ u ∈ us, u < 0x110000) :
    Denotes us ((joinUnits us).map String.ofList) := by
  cases hj : joinUnits us with
  | none =>
    intro cs hcs
    rw [joinUnits_of_joins hcs] at hj
    cases hj
  | some cs =>
    rw [Option.map_some, Denotes, String.toList_ofList]
    exact joins_of_joinUnits hus hj

end Json

end TxLens

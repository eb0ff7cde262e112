import TxLens.Bytes
import TxLens.Json
import TxLens.Reading
import TxLens.Text.Decimal
/-!
# Reading JSON

Strict JSON: one value with blanks around it, no comments, no comma after the last element, no
leading zeros, no control characters inside strings. Nesting is not limited.
-/

namespace TxLens.Json

/-! ## Blanks -/

def isBlank (c : Char) : Bool := c == ' ' || c == '\n' || c == '\t' || c == '\r'

def skipBlanks (s : List Char) : List Char := s.dropWhile isBlank

theorem length_skipBlanks_le (s : List Char) : (skipBlanks s).length ≤ s.length :=
  (List.dropWhile_sublist _).length_le

theorem length_lt_of_skipBlanks {s r : List Char} {c : Char} (h : skipBlanks s = c :: r) :
    r.length < s.length := by
  have := length_skipBlanks_le s
  rw [h, List.length_cons] at this
  omega

/-! ## Strings -/

/-- The 16-bit unit that four hexadecimal digits name. -/
def hexUnit? (a b c d : Char) : Option Nat := do
  let a ← Bytes.hexValue? a
  let b ← Bytes.hexValue? b
  let c ← Bytes.hexValue? c
  let d ← Bytes.hexValue? d
  pure (((a * 16 + b) * 16 + c) * 16 + d)

/-- The character that a one-letter escape names. -/
def escaped? : Char → Option Char
  | '"' => some '"'
  | '\\' => some '\\'
  | '/' => some '/'
  | 'b' => some '\x08'
  | 'f' => some '\x0c'
  | 'n' => some '\n'
  | 'r' => some '\r'
  | 't' => some '\t'
  | _ => none

/-- Reads a string after its opening quote: the code of every character, and of every escape. -/
def readUnits : List Char → Option (List Nat × List Char)
  | [] => none
  | '"' :: s => some ([], s)
  | '\\' :: 'u' :: a :: b :: c :: d :: s =>
    match hexUnit? a b c d, readUnits s with
    | some u, some (us, rest) => some (u :: us, rest)
    | _, _ => none
  | '\\' :: e :: s =>
    match escaped? e, readUnits s with
    | some c, some (us, rest) => some (c.toNat :: us, rest)
    | _, _ => none
  | c :: s =>
    if c.toNat < 0x20 then none
    else match readUnits s with
      | some (us, rest) => some (c.toNat :: us, rest)
      | none => none

def isHighHalf (u : Nat) : Bool := 0xd800 ≤ u && u ≤ 0xdbff

def isLowHalf (u : Nat) : Bool := 0xdc00 ≤ u && u ≤ 0xdfff

/-- The characters of the codes, where two halves of a surrogate pair make one; none if a half
stands alone. -/
def joinUnits : List Nat → Option (List Char)
  | [] => some []
  | [u] => if isHighHalf u || isLowHalf u then none else some [Char.ofNat u]
  | u :: v :: us =>
    if isHighHalf u then
      if isLowHalf v then
        (joinUnits us).map (Char.ofNat ((u - 0xd800) * 0x400 + (v - 0xdc00) + 0x10000) :: ·)
      else none
    else if isLowHalf u then none
    else (joinUnits (v :: us)).map (Char.ofNat u :: ·)

theorem length_lt_of_readUnits {s rest : List Char} {us : List Nat}
    (h : readUnits s = some (us, rest)) : rest.length < s.length := by
  fun_induction readUnits s generalizing us with
  | case1 => cases h
  | case2 s => cases h; simp
  | case3 a b c d s u us' rest' hr _ ih =>
    cases h
    have := ih hr
    simp only [List.length_cons]
    omega
  | case4 => cases h
  | case5 e s _ c us' rest' hr _ ih =>
    cases h
    have := ih hr
    simp only [List.length_cons]
    omega
  | case6 => cases h
  | case7 => cases h
  | case8 c s _ _ _ hc us' rest' hr ih =>
    cases h
    have := ih hr
    simp only [List.length_cons]
    omega
  | case9 => cases h

/-- Reads a string after its opening quote. -/
def readString (s : List Char) : Option (Read (Option String) s) :=
  match h : readUnits s with
  | none => none
  | some (us, rest) =>
    some ⟨(joinUnits us).map String.ofList, rest, Nat.le_of_lt (length_lt_of_readUnits h)⟩

/-! ## Numbers -/

/-- What follows at least one digit. -/
def afterDigits (s : List Char) : Option (List Char) :=
  match s with
  | c :: _ => if Text.isDigit c then some (s.dropWhile Text.isDigit) else none
  | [] => none

/-- What follows the integer part of a number: a zero, or digits that do not begin with one. -/
def afterInteger : List Char → Option (List Char)
  | '0' :: s => some s
  | s => afterDigits s

/-- What follows a fraction, if there is one. -/
def afterFraction : List Char → Option (List Char)
  | '.' :: s => afterDigits s
  | s => some s

/-- What follows an exponent, if there is one. -/
def afterExponent : List Char → Option (List Char)
  | c :: s =>
    if c = 'e' ∨ c = 'E' then
      match s with
      | '+' :: s => afterDigits s
      | '-' :: s => afterDigits s
      | s => afterDigits s
    else some (c :: s)
  | [] => some []

/-- What follows a number. -/
def afterNumber (s : List Char) : Option (List Char) := do
  let unsigned := match s with
    | '-' :: s => s
    | s => s
  let s ← afterInteger unsigned
  let s ← afterFraction s
  afterExponent s

theorem length_le_of_afterDigits {s rest : List Char} (h : afterDigits s = some rest) :
    rest.length ≤ s.length := by
  unfold afterDigits at h
  split at h
  · split at h
    · cases h; exact (List.dropWhile_sublist _).length_le
    · cases h
  · cases h

theorem length_le_of_afterInteger {s rest : List Char} (h : afterInteger s = some rest) :
    rest.length ≤ s.length := by
  unfold afterInteger at h
  split at h
  · cases h; simp
  · exact length_le_of_afterDigits h

theorem length_le_of_afterFraction {s rest : List Char} (h : afterFraction s = some rest) :
    rest.length ≤ s.length := by
  unfold afterFraction at h
  split at h
  · exact Nat.le_trans (length_le_of_afterDigits h) (by simp)
  · cases h; exact Nat.le_refl _

theorem length_le_of_afterExponent {s rest : List Char} (h : afterExponent s = some rest) :
    rest.length ≤ s.length := by
  unfold afterExponent at h
  split at h
  · split at h
    · split at h <;>
        exact Nat.le_trans (length_le_of_afterDigits h) (by simp only [List.length_cons]; omega)
    · cases h; exact Nat.le_refl _
  · cases h; exact Nat.le_refl _

theorem length_le_of_afterNumber {s rest : List Char} (h : afterNumber s = some rest) :
    rest.length ≤ s.length := by
  simp only [afterNumber, Option.bind_eq_bind, Option.bind_eq_some_iff] at h
  obtain ⟨a, ha, b, hb, hc⟩ := h
  have h₁ := length_le_of_afterInteger ha
  have h₂ := length_le_of_afterFraction hb
  have h₃ := length_le_of_afterExponent hc
  have h₀ : (match s with | '-' :: s => s | s => s).length ≤ s.length := by split <;> simp
  omega

/-- The value of a number literal. -/
def ofLiteral (literal : List Char) : Json :=
  match Text.natOfNumeral? literal with
  | some n => .natural n
  | none => .number (String.ofList literal)

def readNumber (s : List Char) : Option (Read Json s) :=
  match h : afterNumber s with
  | none => none
  | some rest =>
    some ⟨ofLiteral (s.take (s.length - rest.length)), rest, length_le_of_afterNumber h⟩

/-! ## Values -/

mutual

/-- Reads a value, with blanks before it allowed. -/
def readValue (s : List Char) : Option (Read Json s) :=
  have hs := length_skipBlanks_le s
  match h : skipBlanks s with
  | 'n' :: 'u' :: 'l' :: 'l' :: r => some ⟨.null, r, by simp [h] at hs; omega⟩
  | 't' :: 'r' :: 'u' :: 'e' :: r => some ⟨.bool true, r, by simp [h] at hs; omega⟩
  | 'f' :: 'a' :: 'l' :: 's' :: 'e' :: r => some ⟨.bool false, r, by simp [h] at hs; omega⟩
  | '"' :: r =>
    (readString r).map fun t =>
      (t.map .text).widen (Nat.le_of_lt (length_lt_of_skipBlanks h))
  | '[' :: r =>
    have hr := length_lt_of_skipBlanks h
    match h' : skipBlanks r with
    | ']' :: r' => some ⟨.list [], r', by have := length_lt_of_skipBlanks h'; omega⟩
    | _ => (readElements r).map fun es => (es.map .list).widen (Nat.le_of_lt hr)
  | '\x7b' :: r =>
    have hr := length_lt_of_skipBlanks h
    match h' : skipBlanks r with
    | '\x7d' :: r' => some ⟨.object [], r', by have := length_lt_of_skipBlanks h'; omega⟩
    | _ => (readMembers r).map fun ms => (ms.map .object).widen (Nat.le_of_lt hr)
  | r => (readNumber r).map fun n => n.widen (h ▸ hs)
termination_by 2 * s.length

/-- Reads one element or more, up to the closing bracket. -/
def readElements (s : List Char) : Option (Read (List Json) s) :=
  match readValue s with
  | none => none
  | some v =>
    have hv := v.le
    match h : skipBlanks v.rest with
    | ',' :: r =>
      have hr := length_lt_of_skipBlanks h
      (readElements r).map fun vs => (vs.map (v.value :: ·)).widen (by omega)
    | ']' :: r => some ⟨[v.value], r, by have := length_lt_of_skipBlanks h; omega⟩
    | _ => none
termination_by 2 * s.length + 1

/-- Reads one member or more, up to the closing brace. -/
def readMembers (s : List Char) : Option (Read (List (Option String × Json)) s) :=
  match h₁ : skipBlanks s with
  | '"' :: s₁ =>
    have hs₁ := length_lt_of_skipBlanks h₁
    match readString s₁ with
    | none => none
    | some key =>
      have hk := key.le
      match h₂ : skipBlanks key.rest with
      | ':' :: s₂ =>
        have hs₂ := length_lt_of_skipBlanks h₂
        match readValue s₂ with
        | none => none
        | some v =>
          have hv := v.le
          match h₃ : skipBlanks v.rest with
          | ',' :: r =>
            have hr := length_lt_of_skipBlanks h₃
            (readMembers r).map fun ms =>
              (ms.map ((key.value, v.value) :: ·)).widen (by omega)
          | '\x7d' :: r =>
            some ⟨[(key.value, v.value)], r, by have := length_lt_of_skipBlanks h₃; omega⟩
          | _ => none
      | _ => none
  | _ => none
termination_by 2 * s.length + 1

end

/-- The value that a text is, with blanks around it allowed. -/
def parse? (s : List Char) : Option Json :=
  match readValue s with
  | some v => if v.rest.all isBlank then some v.value else none
  | none => none

end TxLens.Json

import TxLens.Inspection
import TxLens.Proofs.Json.Literal
import TxLens.Proofs.Text.Blank
/-!
# The report in a file

A file holds the bytes of a report as they are, or spells them: two hexadecimal digits of either case
for each byte, with any blanks before the first digit and behind the last one. Which of the two is told
from outside, and a content is read as exactly the bytes that it holds in that way (`report?_eq_some_iff`).
-/

namespace TxLens

/-! ## Hexadecimal -/

namespace Bytes

open Json (IsHexDigit)

/-- Two hexadecimal digits for each byte, the upper half first. -/
inductive SpelledBy : Bytes → List Char → Prop
  | nil : SpelledBy [] []
  | cons {high low : Char} {m n : Nat} {bs : Bytes} {cs : List Char} (hh : IsHexDigit high m)
      (hl : IsHexDigit low n) (h : SpelledBy bs cs) :
      SpelledBy (UInt8.ofNat (16 * m + n) :: bs) (high :: low :: cs)

theorem ofHexChars?_of_spelledBy {bs : Bytes} {cs : List Char} (h : SpelledBy bs cs) :
    ofHexChars? cs = some bs := by
  induction h with
  | nil => rfl
  | cons hh hl _ ih =>
    rw [ofHexChars?, Json.hexValue?_of_isHexDigit hh, Json.hexValue?_of_isHexDigit hl, ih]
    rfl

theorem spelledBy_of_ofHexChars? {cs : List Char} {bs : Bytes} (h : ofHexChars? cs = some bs) :
    SpelledBy bs cs := by
  fun_induction ofHexChars? cs generalizing bs with
  | case1 =>
    cases h
    exact .nil
  | case2 => cases h
  | case3 high low cs ih =>
    simp only [Option.bind_eq_bind, Option.bind_eq_some_iff, Option.pure_def] at h
    obtain ⟨m, hm, n, hn, rest, hrest, hbs⟩ := h
    cases hbs
    exact .cons (Json.isHexDigit_of_hexValue? hm) (Json.isHexDigit_of_hexValue? hn) (ih hrest)

theorem spelledBy_hexChars (bs : Bytes) : bs.SpelledBy (hexChars bs) := by
  have hdigit : ∀ n < 16, IsHexDigit (hexDigit n) n := fun n hn =>
    have hall : ∀ n < 16, hexDigit n = Nat.digitChar n := by decide
    ⟨hn, .inl (hall n hn)⟩
  induction bs with
  | nil => exact .nil
  | cons b bs ih =>
    have hb : b.toNat < 256 := b.toNat_lt
    have hhalves : UInt8.ofNat (16 * (b.toNat / 16) + b.toNat % 16) = b := by
      rw [Nat.div_add_mod, UInt8.ofNat_toNat]
    have hspelled := SpelledBy.cons (hdigit (b.toNat / 16) (by omega))
      (hdigit (b.toNat % 16) (by omega)) ih
    rwa [hhalves] at hspelled

theorem isBlank_eq_false_of_isHexDigit {c : Char} {n : Nat} (h : IsHexDigit c n) :
    Text.isBlank c = false := by
  have hall : ∀ n < 16, Text.isBlank (Nat.digitChar n) = false ∧
      Text.isBlank (Nat.digitChar n).toUpper = false := by decide
  obtain ⟨hn, rfl | rfl⟩ := h
  · exact (hall n hn).1
  · exact (hall n hn).2

theorem SpelledBy.isBlank_eq_false {bs : Bytes} {cs : List Char} (h : SpelledBy bs cs) :
    ∀ c ∈ cs, Text.isBlank c = false := by
  induction h with
  | nil => exact fun c hc => nomatch hc
  | cons hh hl _ ih =>
    rw [List.forall_mem_cons, List.forall_mem_cons]
    exact ⟨isBlank_eq_false_of_isHexDigit hh, isBlank_eq_false_of_isHexDigit hl, ih⟩

end Bytes

namespace Inspection

/-- A content that spells bytes, with blanks around the digits. -/
inductive IsHexText : Bytes → Bytes → Prop
  | mk {v cs w : List Char} {bs : Bytes} (hv : Text.Blanks v) (h : bs.SpelledBy cs)
      (hw : Text.Blanks w) : IsHexText (Bytes.ofText (String.ofList (v ++ (cs ++ w)))) bs

theorem ofHexText?_eq_some_iff {content bs : Bytes} :
    ofHexText? content = some bs ↔ IsHexText content bs := by
  constructor
  · intro h
    obtain ⟨text, htext, hbytes⟩ := Option.bind_eq_some_iff.1 h
    obtain ⟨v, w, hv, hw, -, -, hsplit⟩ := Text.isTrimmed_trim text.toList
    have hcontent : content = Bytes.ofText (String.ofList (v ++ (Text.trim text.toList ++ w))) := by
      rw [← hsplit, String.ofList_toList, Bytes.ofText_of_toText? htext]
    rw [hcontent]
    exact .mk hv (Bytes.spelledBy_of_ofHexChars? hbytes) hw
  · rintro ⟨hv, hspelled, hw⟩
    rw [ofHexText?, Bytes.toText?_ofText, Option.bind_some, String.toList_ofList,
      Text.trim_between hv hw hspelled.isBlank_eq_false]
    exact Bytes.ofHexChars?_of_spelledBy hspelled

theorem isHexText_toHex (bs : Bytes) : IsHexText (Bytes.ofText (Bytes.toHex bs)) bs := by
  have hblanks : Text.Blanks [] := fun _ h => nomatch h
  have htext := IsHexText.mk hblanks (Bytes.spelledBy_hexChars bs) hblanks
  rwa [List.nil_append, List.append_nil] at htext

/-- The bytes that a content holds, as they are or in hexadecimal. -/
inductive Holds : Bool → Bytes → Bytes → Prop
  | plain (content : Bytes) : Holds false content content
  | hex {content bs : Bytes} (h : IsHexText content bs) : Holds true content bs

theorem report?_eq_some_iff {hex : Bool} {content bs : Bytes} :
    report? hex content = some bs ↔ Holds hex content bs := by
  cases hex with
  | false =>
    rw [report?, if_neg Bool.false_ne_true, Option.some.injEq]
    constructor
    · rintro rfl
      exact .plain content
    · rintro ⟨⟩
      rfl
  | true =>
    rw [report?, if_pos rfl, ofHexText?_eq_some_iff]
    constructor
    · exact .hex
    · rintro ⟨⟩
      assumption

end Inspection

end TxLens

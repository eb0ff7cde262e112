/-!
# Byte strings

A byte string is a list of bytes. It is shown as lower-case hexadecimal, read from hexadecimal in
either case, and read as text when it is well-formed UTF-8.
-/

namespace TxLens

abbrev Bytes := List UInt8

namespace Bytes

/-! ## Hexadecimal -/

/-- The lower-case hexadecimal digit of a number below 16. -/
def hexDigit (n : Nat) : Char :=
  if n < 10 then Char.ofNat ('0'.toNat + n) else Char.ofNat ('a'.toNat + (n - 10))

/-- The value of a hexadecimal digit of either case. -/
def hexValue? (c : Char) : Option Nat :=
  if '0' ≤ c ∧ c ≤ '9' then some (c.toNat - '0'.toNat)
  else if 'a' ≤ c ∧ c ≤ 'f' then some (c.toNat - 'a'.toNat + 10)
  else if 'A' ≤ c ∧ c ≤ 'F' then some (c.toNat - 'A'.toNat + 10)
  else none

def hexChars : Bytes → List Char
  | [] => []
  | b :: bs => hexDigit (b.toNat / 16) :: hexDigit (b.toNat % 16) :: hexChars bs

/-- Two lower-case digits a byte. -/
def toHex (bs : Bytes) : String := String.ofList (hexChars bs)

/-- Reads pairs of hexadecimal digits; an odd digit or any other character is refused. -/
def ofHexChars? : List Char → Option Bytes
  | [] => some []
  | [_] => none
  | a :: b :: cs => do
    let hi ← hexValue? a
    let lo ← hexValue? b
    let bs ← ofHexChars? cs
    pure (UInt8.ofNat (16 * hi + lo) :: bs)

def ofHex? (s : String) : Option Bytes := ofHexChars? s.toList

/-! ## Text -/

/-- The UTF-8 bytes of a text. -/
def ofText (s : String) : Bytes := s.toByteArray.data.toList

/-- The text that these bytes encode, if they are well-formed UTF-8. -/
def toText? (bs : Bytes) : Option String := String.fromUTF8? ⟨bs.toArray⟩

/-- What is written as text is read back as that text. -/
@[simp] theorem toText?_ofText (s : String) : toText? (ofText s) = some s := by
  have h : (⟨(ofText s).toArray⟩ : ByteArray) = s.toByteArray := by simp [ofText]
  simp only [toText?, h, String.fromUTF8?, dif_pos s.isValidUTF8]
  rfl

/-- A text that was read is the text of exactly the bytes read. -/
theorem ofText_of_toText? {bs : Bytes} {s : String} (h : toText? bs = some s) : ofText s = bs := by
  simp only [toText?, String.fromUTF8?] at h
  split at h
  · cases h; simp [ofText, String.fromUTF8]
  · cases h

end Bytes

end TxLens

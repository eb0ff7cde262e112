import TxLens.Bytes
/-!
# Variable-length numbers

A number is written seven bits a byte, least significant group first, with the top bit set on every
byte but the last. A reader accepts at most ten bytes, the tenth of which may only hold one bit, so
that what it reads fits 64 bits; groups of zeros at the end are accepted.
-/

namespace TxLens.Wire.Varint

/-- The shortest form of a number. -/
def write (n : Nat) : Bytes :=
  if n < 128 then [UInt8.ofNat n] else UInt8.ofNat (n % 128 + 128) :: write (n / 128)

/-- Reads a number of at most `places` bytes; one at the last place is below two. -/
def read? : (places : Nat) → Bytes → Option (Nat × Bytes)
  | 0, _ => none
  | _, [] => none
  | places + 1, b :: s =>
    if b < 128 then
      if places = 0 ∧ 2 ≤ b then none else some (b.toNat, s)
    else match read? places s with
      | none => none
      | some (n, rest) => some (b.toNat - 128 + 128 * n, rest)

/-- The most bytes that a 64-bit number takes. -/
def maxLength : Nat := 10

theorem length_rest_lt {places : Nat} {s : Bytes} {n : Nat} {rest : Bytes}
    (h : read? places s = some (n, rest)) : rest.length < s.length := by
  fun_induction read? places s generalizing n with
  | case1 => cases h
  | case2 => cases h
  | case3 => cases h
  | case4 => cases h; simp
  | case5 => cases h
  | case6 places b s _ m rest' hr ih =>
    cases h
    have := ih hr
    simp only [List.length_cons]
    omega

end TxLens.Wire.Varint

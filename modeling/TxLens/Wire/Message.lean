import TxLens.Bytes
/-!
# Messages as field records

A message is the sequence of its field records in the order in which they were written. Merging two
messages is appending their records; every view below respects that: a field that occurs once keeps
its last value, a repeated field its values in order, and a sub-message that is split over several
records is the records of all of them together.
-/

namespace TxLens.Wire

/-- One field record; a number of any type is kept as the 64 bits it is written with. -/
inductive Record where
  | word (number : Nat) (value : UInt64)
  | text (number : Nat) (value : String)
  | bytes (number : Nat) (value : Bytes)
  | message (number : Nat) (fields : List Record)

abbrev Message := List Record

def Record.number : Record → Nat
  | .word n _ => n
  | .text n _ => n
  | .bytes n _ => n
  | .message n _ => n

def Record.word? (n : Nat) : Record → Option UInt64
  | .word m v => if m = n then some v else none
  | _ => none

def Record.text? (n : Nat) : Record → Option String
  | .text m v => if m = n then some v else none
  | _ => none

def Record.bytes? (n : Nat) : Record → Option Bytes
  | .bytes m v => if m = n then some v else none
  | _ => none

def Record.message? (n : Nat) : Record → Option Message
  | .message m v => if m = n then some v else none
  | _ => none

namespace Message

/-! ## Every value of a field -/

def words (n : Nat) (m : Message) : List UInt64 := m.filterMap (Record.word? n)

def texts (n : Nat) (m : Message) : List String := m.filterMap (Record.text? n)

def byteStrings (n : Nat) (m : Message) : List Bytes := m.filterMap (Record.bytes? n)

def messages (n : Nat) (m : Message) : List Message := m.filterMap (Record.message? n)

/-! ## The value of a field that occurs once -/

def word (n : Nat) (m : Message) : UInt64 := (words n m).getLast?.getD 0

def text (n : Nat) (m : Message) : String := (texts n m).getLast?.getD ""

def byteString (n : Nat) (m : Message) : Bytes := (byteStrings n m).getLast?.getD []

/-- The records of a sub-message, merged from all its occurrences; none when absent. -/
def submessage (n : Nat) (m : Message) : Message := (messages n m).flatten

def submessage? (n : Nat) (m : Message) : Option Message :=
  if (messages n m).isEmpty then none else some (submessage n m)

/-! ## Writing fields: zero and empty values of a field that occurs once are left out -/

def ofWord (n : Nat) (v : UInt64) : Message := if v = 0 then [] else [.word n v]

def ofText (n : Nat) (s : String) : Message := if s = "" then [] else [.text n s]

def ofByteString (n : Nat) (b : Bytes) : Message := if b = [] then [] else [.bytes n b]

def ofByteStrings (n : Nat) (bs : List Bytes) : Message := bs.map (.bytes n)

def ofMessages (n : Nat) (ms : List Message) : Message := ms.map (.message n)

def ofMessage? (n : Nat) (m : Option Message) : Message := ofMessages n m.toList

end Message

/-! ## Size and alternatives -/

mutual

/-- The number of records of a message, those of its sub-messages included. -/
def Record.size : Record → Nat
  | .word _ _ => 1
  | .text _ _ => 1
  | .bytes _ _ => 1
  | .message _ rs => Message.size rs + 1

def Message.size : List Record → Nat
  | [] => 0
  | r :: rs => r.size + Message.size rs

end

namespace Message

theorem size_append (a b : Message) : size (a ++ b) = size a + size b := by
  induction a with
  | nil => simp [size]
  | cons r rs ih => simp [size, ih, Nat.add_assoc]

theorem size_lt_of_mem_messages {n : Nat} {sub m : Message} (h : sub ∈ messages n m) :
    size sub < size m := by
  induction m with
  | nil => simp [messages] at h
  | cons r rs ih =>
    simp only [messages, List.mem_filterMap, List.mem_cons] at h
    obtain ⟨r', hr, hs⟩ := h
    rcases hr with rfl | hr
    · cases r' <;> simp [Record.message?] at hs
      obtain ⟨-, rfl⟩ := hs
      simp only [size, Record.size]
      omega
    · have := ih (by simpa [messages] using ⟨r', hr, hs⟩)
      simp only [size]
      omega

/-- One more alternative: its records are added to those of the one before if that has the same
number, and replace them otherwise. -/
def addChoice (acc : Option (Nat × Message)) : Record → Option (Nat × Message)
  | .message n rs =>
    match acc with
    | some (k, inner) => if k = n then some (k, inner ++ rs) else some (n, rs)
    | none => some (n, rs)
  | _ => acc

/-- The last of several alternatives: its number and the merged records of its occurrences since
another one stood. -/
def lastChoice (m : Message) : Option (Nat × Message) := m.foldl addChoice none

theorem size_lt_of_addChoice {acc : Option (Nat × Message)} {r : Record} {b : Nat}
    (hb : ∀ k i, acc = some (k, i) → size i < b) {k : Nat} {i : Message}
    (h : addChoice acc r = some (k, i)) : size i < b + r.size := by
  cases r with
  | message n sub =>
    cases acc with
    | none =>
      simp only [addChoice, Option.some.injEq, Prod.mk.injEq] at h
      obtain ⟨-, rfl⟩ := h
      simp only [Record.size]
      omega
    | some a =>
      obtain ⟨k', i'⟩ := a
      have hi := hb k' i' rfl
      simp only [addChoice] at h
      split at h <;> simp only [Option.some.injEq, Prod.mk.injEq] at h <;> obtain ⟨-, rfl⟩ := h <;>
        simp only [size_append, Record.size] <;> omega
  | _ => exact Nat.lt_of_lt_of_le (hb k i h) (by simp)

theorem size_lt_of_foldl_addChoice (m : Message) {acc : Option (Nat × Message)} {b : Nat}
    (hb : ∀ k i, acc = some (k, i) → size i < b) {k : Nat} {i : Message}
    (h : m.foldl addChoice acc = some (k, i)) : size i < b + size m := by
  induction m generalizing acc b with
  | nil => exact Nat.lt_of_lt_of_le (hb k i h) (by simp)
  | cons r rs ih =>
    have := ih (fun _ _ => size_lt_of_addChoice hb) h
    simp only [size]
    omega

theorem size_lt_of_lastChoice {m inner : Message} {n : Nat} (h : lastChoice m = some (n, inner)) :
    size inner < size m := by
  have := size_lt_of_foldl_addChoice m (b := 0) (by simp) h
  omega

end Message

end TxLens.Wire

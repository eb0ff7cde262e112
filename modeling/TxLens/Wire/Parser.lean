import TxLens.Reading
import TxLens.Wire.Fault
import TxLens.Wire.Layout
import TxLens.Wire.Message
import TxLens.Wire.Varint
/-!
# Reading messages

Reading takes field records off the front of the input until the end of the message is reached.
Fields that the layout declares are kept, all others are skipped by the way they are delimited. A
length is held against the whole rest of the input, so a field of a nested message may run past that
message; this is noticed when its end is passed. Every nested message and every nested group of a
skipped field takes one from a budget of levels.
-/

namespace TxLens.Wire

/-! ## Numbers, keys and delimited bytes -/

def readVarint (s : Bytes) : Except Cause (Read Nat s) :=
  match h : Varint.read? Varint.maxLength s with
  | none => .error .invalidVarint
  | some (n, rest) => .ok ⟨n, rest, Nat.le_of_lt (Varint.length_rest_lt h)⟩

theorem readVarint_lt {s : Bytes} {r : Read Nat s} (h : readVarint s = .ok r) :
    r.rest.length < s.length := by
  unfold readVarint at h
  split at h
  · cases h
  · cases h
    exact Varint.length_rest_lt (by assumption)

/-- A field number and how the field's content is delimited. -/
structure Key where
  number : Nat
  wireType : WireType

/-- The key that a number stands for; it has at most 32 bits. -/
def Key.ofNat (n : Nat) : Except Cause Key :=
  if 0x100000000 ≤ n then .error (.invalidKey n)
  else match WireType.ofCode? (n % 8) with
    | none => .error (.invalidWireType (n % 8))
    | some w => if n / 8 = 0 then .error .invalidNumber else .ok ⟨n / 8, w⟩

def readKey (s : Bytes) : Except Cause (Read Key s) :=
  match readVarint s with
  | .error c => .error c
  | .ok r =>
    match Key.ofNat r.value with
    | .error c => .error c
    | .ok k => .ok (r.map fun _ => k)

theorem readKey_lt {s : Bytes} {r : Read Key s} (h : readKey s = .ok r) :
    r.rest.length < s.length := by
  unfold readKey at h
  split at h
  · cases h
  · split at h
    · cases h
    · cases h
      exact readVarint_lt (by assumption)

/-- The next `n` bytes. -/
def readBytes (n : Nat) (s : Bytes) : Except Cause (Read Bytes s) :=
  if n ≤ s.length then .ok ⟨s.take n, s.drop n, by simp⟩ else .error .underflow

/-- A length and that many bytes. -/
def readDelimited (s : Bytes) : Except Cause (Read Bytes s) :=
  match readVarint s with
  | .error c => .error c
  | .ok n =>
    match readBytes n.value n.rest with
    | .error c => .error c
    | .ok r => .ok (r.widen n.le)

/-! ## Skipping undeclared fields -/

/-- Skips fields up to the end of the group of this number, each by `skip`. -/
def skipGroup (number : Nat) (skip : Key → (s : Bytes) → Except Cause (Read Unit s)) (s : Bytes) :
    Except Cause (Read Unit s) :=
  match h : readKey s with
  | .error c => .error c
  | .ok k =>
    if k.value.wireType = .endGroup then
      if k.value.number = number then .ok (k.map fun _ => ()) else .error .unexpectedEndGroup
    else
      match skip k.value k.rest with
      | .error c => .error c
      | .ok r =>
        have : r.rest.length < s.length := Nat.lt_of_le_of_lt r.le (readKey_lt h)
        match skipGroup number skip r.rest with
        | .error c => .error c
        | .ok e => .ok (e.widen (Nat.le_of_lt this))
termination_by s.length

/-- Skips the content of a field with this many levels left. -/
def skipContent : (levels : Nat) → Key → (s : Bytes) → Except Cause (Read Unit s)
  | 0, _, _ => .error .recursionLimit
  | levels + 1, k, s =>
    match k.wireType with
    | .varint => (readVarint s).map (Read.map fun _ => ())
    | .sixtyFourBit => (readBytes 8 s).map (Read.map fun _ => ())
    | .thirtyTwoBit => (readBytes 4 s).map (Read.map fun _ => ())
    | .lengthDelimited => (readDelimited s).map (Read.map fun _ => ())
    | .startGroup => skipGroup k.number (skipContent levels) s
    | .endGroup => .error .unexpectedEndGroup

/-! ## Declared fields -/

/-- What a number of some type keeps of the 64 bits it is written with: the truth of a `bool`, the
low half of a 32-bit number, extended by its sign if it has one. -/
def FieldType.ofWord : FieldType → UInt64 → UInt64
  | .bool, v => if v = 0 then 0 else 1
  | .uint32, v => v.toUInt32.toUInt64
  | .int32, v => v.toUInt32.toInt32.toInt64.toUInt64
  | _, v => v

/-- How the content of a field of this type is delimited. -/
def FieldType.wireType : FieldType → WireType
  | .bool | .uint32 | .uint64 | .int32 | .int64 => .varint
  | .text | .bytes | .object _ | .payload _ _ => .lengthDelimited

/-- The layout of a field that holds a message. -/
def FieldType.layout? : FieldType → Option Layout
  | .object t => some t.layout
  | .payload name fields => some ⟨name, fields⟩
  | _ => none

/-- Reads the content of a declared field; `nested` reads a message with its length. -/
def readContent (nested : Layout → (s : Bytes) → Except Fault (Read Message s)) (number : Nat)
    (type : FieldType) (w : WireType) (s : Bytes) : Except Fault (Read Record s) :=
  if w = type.wireType then
    match type with
    | .text =>
      match readDelimited s with
      | .error c => .error c.bare
      | .ok r =>
        match Bytes.toText? r.value with
        | none => .error Cause.notUtf8.bare
        | some text => .ok (r.map fun _ => .text number text)
    | .bytes =>
      match readDelimited s with
      | .error c => .error c.bare
      | .ok r => .ok (r.map (.bytes number))
    | .object t => (nested t.layout s).map (Read.map (.message number))
    | .payload name fields => (nested ⟨name, fields⟩ s).map (Read.map (.message number))
    | type =>
      match readVarint s with
      | .error c => .error c.bare
      | .ok r => .ok (r.map fun n => .word number (type.ofWord (UInt64.ofNat n)))
  else .error (Cause.wireTypeMismatch w type.wireType).bare

/-- Reads what follows a key: the record of a declared field, or nothing of a skipped one. -/
def readField (l : Layout) (levels : Nat)
    (nested : Layout → (s : Bytes) → Except Fault (Read Message s)) (k : Key) (s : Bytes) :
    Except Fault (Read (Option Record) s) :=
  match l.field? k.number with
  | some f =>
    match readContent nested f.number f.type k.wireType s with
    | .error e => .error (e.inside l.name f.name)
    | .ok r => .ok (r.map some)
  | none =>
    match skipContent levels k s with
    | .error c => .error c.bare
    | .ok r => .ok (r.map fun _ => none)

/-! ## Messages -/

/-- Reads field records until `stop` bytes of the input are left. -/
def readRecords (field : Key → (s : Bytes) → Except Fault (Read (Option Record) s)) (stop : Nat)
    (s : Bytes) : Except Fault (Read Message s) :=
  if s.length = stop then .ok (.nothing [])
  else if s.length < stop then .error Cause.lengthExceeded.bare
  else
    match h : readKey s with
    | .error c => .error c.bare
    | .ok k =>
      match field k.value k.rest with
      | .error e => .error e
      | .ok r =>
        have : r.rest.length < s.length := Nat.lt_of_le_of_lt r.le (readKey_lt h)
        match readRecords field stop r.rest with
        | .error e => .error e
        | .ok m => .ok ⟨r.value.toList ++ m.value, m.rest, Nat.le_trans m.le (Nat.le_of_lt this)⟩
termination_by s.length

/-- Reads a length and a message of that length by `message`, which is told where to stop. -/
def readNested (message : (stop : Nat) → (s : Bytes) → Except Fault (Read Message s)) (s : Bytes) :
    Except Fault (Read Message s) :=
  match readVarint s with
  | .error c => .error c.bare
  | .ok n =>
    if n.value ≤ n.rest.length then
      match message (n.rest.length - n.value) n.rest with
      | .error e => .error e
      | .ok m => .ok (m.widen n.le)
    else .error Cause.underflow.bare

/-- Reads the records of a message up to where `stop` bytes are left, with this many levels of
messages left below it. -/
def readMessage : (levels : Nat) → Layout → (stop : Nat) → (s : Bytes) → Except Fault (Read Message s)
  | 0, l, stop, s => readRecords (readField l 0 fun _ _ => .error Cause.recursionLimit.bare) stop s
  | levels + 1, l, stop, s =>
    readRecords (readField l (levels + 1) fun sub => readNested (readMessage levels sub)) stop s

/-- The levels of messages allowed below the outermost one. -/
def levelLimit : Nat := 100

/-- The declared fields of a message that takes up all the bytes. -/
def Layout.decode (l : Layout) (bs : Bytes) : Except Fault Message :=
  (readMessage levelLimit l 0 bs).map Read.value

end TxLens.Wire

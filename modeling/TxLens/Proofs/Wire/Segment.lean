import Mathlib.Logic.ExistsUnique
import TxLens.Proofs.Wire.Locality
/-!
# Messages segment by segment

Bytes that decode are cut in exactly one way into segments, each a complete field record as it stands
on the wire (`Layout.exists_joined`, `joined_injective`). Segments do not touch one another: some of
them joined decode exactly when each does alone, and hold the records of all in their order
(`Layout.decode_joined_iff`). A segment of an undeclared field decodes to nothing.
-/

namespace TxLens.Wire

/-! ## Segments -/

/-- A complete field record as it stands on the wire, whether or not a layout declares its field. -/
structure Segment where
  key : Key
  keyBytes : Bytes
  content : Bytes
  spelled : key.Spelled keyBytes
  complete : IsContent levelLimit key content

namespace Segment

def bytes (seg : Segment) : Bytes := seg.keyBytes ++ seg.content

def number (seg : Segment) : Nat := seg.key.number

/-- A field that holds these bytes, with its key and their length in the shortest form. -/
def delimited (number : Nat) (bs : Bytes) (hpos : 0 < number) (hlt : number < 2 ^ 29)
    (hlen : bs.length < 2 ^ 64) : Segment where
  key := ⟨number, .lengthDelimited⟩
  keyBytes := Varint.write (8 * number + 2)
  content := Varint.write bs.length ++ bs
  spelled := ⟨Varint.isNumber_write (by omega), hpos, hlt⟩
  complete := ⟨_, bs, rfl, Varint.isNumber_write hlen⟩

theorem length_bytes_pos (seg : Segment) : 0 < seg.bytes.length := by
  have := seg.spelled.number.spells.length_pos
  rw [bytes, List.length_append]
  omega

/-- Segments one after another. -/
def joined (segs : List Segment) : Bytes := segs.flatMap bytes

@[simp] theorem joined_nil : joined [] = [] := rfl

@[simp] theorem joined_cons (seg : Segment) (segs : List Segment) :
    joined (seg :: segs) = seg.bytes ++ joined segs := rfl

theorem readKey_bytes (seg : Segment) (rest : Bytes) :
    Reads (readKey (seg.bytes ++ rest)) seg.key (seg.content ++ rest) :=
  readKey_iff.2 ⟨seg.keyBytes, by rw [bytes, List.append_assoc], seg.spelled⟩

/-- No segment is the beginning of another one. -/
theorem bytes_append_inj {seg seg' : Segment} {rest rest' : Bytes}
    (h : seg.bytes ++ rest = seg'.bytes ++ rest') : seg = seg' ∧ rest = rest' := by
  have hkey := seg.readKey_bytes rest
  rw [h] at hkey
  obtain ⟨hk, hs⟩ := hkey.unique (seg'.readKey_bytes rest')
  obtain ⟨hc, hrest⟩ := seg.complete.unique (hk ▸ seg'.complete) hs
  have hbytes : seg.keyBytes = seg'.keyBytes := by
    simp only [bytes, List.append_assoc, hc, hrest] at h
    exact List.append_cancel_right h
  refine ⟨?_, hrest⟩
  cases seg
  cases seg'
  cases hk
  cases hc
  cases hbytes
  rfl

/-- Bytes are cut into segments in one way at most. -/
theorem joined_injective {segs segs' : List Segment} (h : joined segs = joined segs') :
    segs = segs' := by
  induction segs generalizing segs' with
  | nil =>
    cases segs' with
    | nil => rfl
    | cons seg' segs' =>
      have := congrArg List.length h
      have := seg'.length_bytes_pos
      simp only [joined_nil, joined_cons, List.length_nil, List.length_append] at *
      omega
  | cons seg segs ih =>
    cases segs' with
    | nil =>
      have := congrArg List.length h
      have := seg.length_bytes_pos
      simp only [joined_nil, joined_cons, List.length_nil, List.length_append] at *
      omega
    | cons seg' segs' =>
      obtain ⟨rfl, hrest⟩ := bytes_append_inj h
      rw [ih hrest]

end Segment

/-! ## Reading segments -/

namespace Layout

open Segment (joined)

variable {l : Layout} {seg : Segment} {m : Message}

/-- Reads what follows a key of the outermost message. -/
def readTop (l : Layout) : Key → (s : Bytes) → Except Fault (Read (Option Record) s) :=
  readField l levelLimit fun sub => readNested (readMessage (levelLimit - 1) sub)

theorem readTop_local (l : Layout) (k : Key) : Local (l.readTop k) (IsContent levelLimit k) :=
  readField_local (fun sub => readNested_local (readMessage_local (levelLimit - 1) sub))
    (fun _ hc => hc (levelLimit - 1) k.number) fun _ hc => hc

theorem decode_eq_ok_iff {bs : Bytes} :
    l.decode bs = .ok m ↔ Reads (readRecords l.readTop 0 bs) m [] := by
  have heq : l.decode bs = (readRecords l.readTop 0 bs).map Read.value := rfl
  rw [heq]
  constructor
  · intro h
    cases hr : readRecords l.readTop 0 bs with
    | error e => rw [hr] at h; cases h
    | ok r =>
      rw [hr] at h
      cases h
      -- all bytes are read
      obtain ⟨hstop, -⟩ := readRecords_local _ l.readTop_local _ _ _ _ (Reads.of_eq hr)
      rw [← List.length_eq_zero_iff.1 hstop]
      exact Reads.of_eq rfl
  · rintro ⟨hle, h⟩
    rw [h]
    rfl

@[simp] theorem decode_nil (l : Layout) : l.decode [] = .ok [] :=
  decode_eq_ok_iff.2 (readRecords_iff.2 (.inl ⟨rfl, rfl, rfl⟩))

/-- What the layout makes of a segment, whatever stands after it. -/
def Yields (l : Layout) (seg : Segment) (r : Option Record) : Prop :=
  ∀ rest, Reads (l.readTop seg.key (seg.content ++ rest)) r rest

theorem yields_of_reads {r : Option Record} {rest u : Bytes}
    (h : Reads (l.readTop seg.key (seg.content ++ rest)) r u) : l.Yields seg r ∧ u = rest := by
  obtain ⟨c, hs, hc, hlocal⟩ := l.readTop_local _ _ _ _ h
  obtain ⟨rfl, rfl⟩ := seg.complete.unique hc hs
  exact ⟨hlocal, rfl⟩

theorem decode_append_iff {rest : Bytes} :
    l.decode (seg.bytes ++ rest) = .ok m ↔
      ∃ r m', l.Yields seg r ∧ l.decode rest = .ok m' ∧ m = r.toList ++ m' := by
  rw [decode_eq_ok_iff, readRecords_iff]
  have hpos : 0 < (seg.bytes ++ rest).length := by
    have := seg.length_bytes_pos
    rw [List.length_append]
    omega
  constructor
  · rintro (⟨hend, -⟩ | ⟨-, k, t, r, u, m', hk, hr, hm, rfl⟩)
    · omega
    · obtain ⟨rfl, rfl⟩ := hk.unique (seg.readKey_bytes rest)
      obtain ⟨hy, rfl⟩ := yields_of_reads hr
      exact ⟨r, m', hy, decode_eq_ok_iff.2 hm, rfl⟩
  · rintro ⟨r, m', hy, hm, rfl⟩
    exact .inr ⟨hpos, _, _, r, rest, m', seg.readKey_bytes rest, hy rest, decode_eq_ok_iff.1 hm, rfl⟩

theorem decode_bytes_iff : l.decode seg.bytes = .ok m ↔ ∃ r, l.Yields seg r ∧ m = r.toList := by
  have h := @decode_append_iff l seg m []
  rw [List.append_nil] at h
  simp [h]

/-- The records that the layout makes of a segment on its own: one, or none of an undeclared field. -/
def recordsOf (l : Layout) (seg : Segment) : Message := (l.decode seg.bytes).toOption.getD []

theorem recordsOf_of_decode (h : l.decode seg.bytes = .ok m) : l.recordsOf seg = m := by
  rw [recordsOf, h]
  rfl

/-- **Segments decode one by one**: joined, they decode exactly when each does alone, to the records of
all in order. -/
theorem decode_joined_iff {segs : List Segment} :
    l.decode (joined segs) = .ok m ↔
      (∀ seg ∈ segs, ∃ m', l.decode seg.bytes = .ok m') ∧ m = segs.flatMap l.recordsOf := by
  induction segs generalizing m with
  | nil => simp [eq_comm]
  | cons seg segs ih =>
    rw [Segment.joined_cons, decode_append_iff]
    constructor
    · rintro ⟨r, m', hy, hm, rfl⟩
      obtain ⟨hall, rfl⟩ := ih.1 hm
      have hseg := decode_bytes_iff.2 ⟨r, hy, rfl⟩
      refine ⟨List.forall_mem_cons.2 ⟨⟨_, hseg⟩, hall⟩, ?_⟩
      rw [List.flatMap_cons, recordsOf_of_decode hseg]
    · rintro ⟨hall, rfl⟩
      obtain ⟨⟨m', hseg⟩, hall⟩ := List.forall_mem_cons.1 hall
      obtain ⟨r, hy, rfl⟩ := decode_bytes_iff.1 hseg
      refine ⟨r, _, hy, ih.2 ⟨hall, rfl⟩, ?_⟩
      rw [List.flatMap_cons, recordsOf_of_decode hseg]

/-- Bytes that decode are segments one after another. -/
theorem exists_joined {bs : Bytes} (h : l.decode bs = .ok m) : ∃ segs, joined segs = bs := by
  induction hlen : bs.length using Nat.strongRecOn generalizing bs m with
  | ind n ih =>
    subst hlen
    rcases readRecords_iff.1 (decode_eq_ok_iff.1 h) with ⟨-, -, rfl⟩ | ⟨-, k, t, r, u, m', hk, hr, hm, -⟩
    · exact ⟨[], rfl⟩
    · obtain ⟨w, rfl, hw⟩ := readKey_iff.1 hk
      obtain ⟨c, rfl, hc, -⟩ := l.readTop_local _ _ _ _ hr
      have hpos := hw.number.spells.length_pos
      obtain ⟨segs, rfl⟩ := ih u.length (by simp only [List.length_append]; omega)
        (decode_eq_ok_iff.2 hm) rfl
      exact ⟨⟨k, w, c, hw, hc⟩ :: segs, by simp [Segment.bytes]⟩

/-- The segments of bytes that decode: there is exactly one way to cut them. -/
theorem existsUnique_joined {bs : Bytes} (h : l.decode bs = .ok m) : ∃! segs, joined segs = bs := by
  obtain ⟨segs, rfl⟩ := exists_joined h
  exact ⟨segs, rfl, fun segs' h' => Segment.joined_injective h'⟩

/-- Whether some bytes decode can be computed. -/
theorem exists_of_isOk {bs : Bytes} (h : (l.decode bs).isOk = true) : ∃ m, l.decode bs = .ok m := by
  cases hm : l.decode bs with
  | error f =>
    rw [hm] at h
    cases h
  | ok m => exact ⟨m, rfl⟩

/-! ## What a segment holds -/

/-- A segment of an undeclared field decodes to nothing. -/
theorem decode_of_undeclared (h : l.field? seg.number = none) : l.decode seg.bytes = .ok [] := by
  refine decode_bytes_iff.2 ⟨none, fun rest => ?_, rfl⟩
  exact (readField_undeclared_iff h).2 ⟨(), (skipContent_iff _ _ _ _).2 ⟨_, rfl, seg.complete⟩, rfl⟩

theorem recordsOf_of_undeclared (h : l.field? seg.number = none) : l.recordsOf seg = [] :=
  recordsOf_of_decode (decode_of_undeclared h)

/-- A segment of a declared field decodes to one record of the same number. -/
theorem decode_of_declared {f : Field FieldType} (hf : l.field? seg.number = some f)
    (h : l.decode seg.bytes = .ok m) : ∃ r, m = [r] ∧ r.number = seg.number := by
  obtain ⟨r, hy, rfl⟩ := decode_bytes_iff.1 h
  obtain ⟨rec, hrec, hr⟩ := (readField_declared_iff hf).1 (hy [])
  cases hr
  exact ⟨rec, rfl, number_of_readContent hrec⟩

/-- A segment of a field that holds a message decodes to that message. -/
theorem decode_of_layout? {f : Field FieldType} {sub : Layout} (hf : l.field? seg.number = some f)
    (ht : f.type.layout? = some sub) (h : l.decode seg.bytes = .ok m) :
    ∃ rs, m = [.message seg.number rs] := by
  obtain ⟨r, hy, rfl⟩ := decode_bytes_iff.1 h
  obtain ⟨rec, hrec, hr⟩ := (readField_declared_iff hf).1 (hy [])
  cases hr
  have hw := wireType_of_readContent hrec
  have hlen : f.type.wireType = .lengthDelimited := by
    cases hty : f.type <;> simp_all [FieldType.layout?, FieldType.wireType]
  rw [hw, hlen] at hrec
  obtain ⟨rs, -, hr⟩ := (readContent_message_iff ht).1 hrec
  cases hr
  exact ⟨rs, rfl⟩

theorem number_of_mem_recordsOf {r : Record} (h : r ∈ l.recordsOf seg) : r.number = seg.number := by
  cases hd : l.decode seg.bytes with
  | error e =>
    rw [recordsOf, hd] at h
    cases h
  | ok m =>
    rw [recordsOf_of_decode hd] at h
    cases hf : l.field? seg.number with
    | none =>
      rw [decode_of_undeclared hf] at hd
      cases hd
      cases h
    | some f =>
      obtain ⟨r', rfl, hr⟩ := decode_of_declared hf hd
      rw [List.mem_singleton.1 h, hr]

end Layout

end TxLens.Wire

import TxLens.Proofs.Wire.Extent
import TxLens.Proofs.Wire.Varint
import TxLens.Wire.Printer
/-!
# Reading undoes writing

A message whose records its layout declares is read back record by record. The one thing that can go
wrong is the budget of levels: a message that nests deeper than it allows is refused, and a message
that does not is restored. Each reader is shown to do exactly this (`Restores`), from single fields up
to whole messages (`readMessage_print`).
-/

namespace TxLens.Wire

/-! ## Messages that a layout declares -/

/-- The layout declares a field of this number, which fits a key, and of this type. -/
structure Layout.Declares (l : Layout) (n : Nat) (t : FieldType) : Prop where
  positive : 0 < n
  bounded : n < 2 ^ 29
  field : ∃ f, l.field? n = some f ∧ f.type = t

theorem Layout.number_of_field? {l : Layout} {n : Nat} {f : Field FieldType}
    (h : l.field? n = some f) : f.number = n := by
  simpa using List.find?_some h

mutual

/-- The layout declares a record's field with the record's kind of content; a number is already what
its type keeps of it. -/
def Record.Conforms (l : Layout) : Record → Prop
  | .word n v => ∃ t, l.Declares n t ∧ t.wireType = .varint ∧ t.ofWord v = v
  | .text n _ => l.Declares n .text
  | .bytes n _ => l.Declares n .bytes
  | .message n rs => ∃ t sub, l.Declares n t ∧ t.layout? = some sub ∧ Message.Conforms sub rs

def Message.Conforms (l : Layout) : List Record → Prop
  | [] => True
  | r :: rs => r.Conforms l ∧ Message.Conforms l rs

end

theorem Message.conforms_iff {l : Layout} {m : Message} :
    Message.Conforms l m ↔ ∀ r ∈ m, r.Conforms l := by
  induction m with
  | nil => simp [Message.Conforms]
  | cons r rs ih => simp [Message.Conforms, ih]

/-! ## What a reader makes of a written value -/

/-- Where the budget of levels suffices, the value is read and the rest left; otherwise the budget is
what is reported. -/
structure Restores {β : Type} {s : Bytes} (x : Except Fault (Read β s)) (fits : Prop) (b : β)
    (rest : Bytes) : Prop where
  reads : fits → Reads x b rest
  limit : ¬ fits → ∃ f, x = .error f ∧ f.cause = .recursionLimit

namespace Restores

variable {β γ : Type} {s rest : Bytes} {fits : Prop} {x : Except Fault (Read β s)} {b : β}

/-- Where no levels are needed. -/
theorem of_reads (h : Reads x b rest) (hf : fits) : Restores x fits b rest :=
  ⟨fun _ => h, fun hn => absurd hf hn⟩

theorem map (h : Restores x fits b rest) (f : β → γ) :
    Restores (x.map (Read.map f)) fits (f b) rest := by
  refine ⟨fun hf => ?_, fun hf => ?_⟩
  · obtain ⟨hle, rfl⟩ := h.reads hf
    exact ⟨hle, rfl⟩
  · obtain ⟨e, rfl, he⟩ := h.limit hf
    exact ⟨e, rfl, he⟩

theorem of_iff {fits' : Prop} (h : Restores x fits b rest) (hf : fits ↔ fits') :
    Restores x fits' b rest :=
  ⟨fun h' => h.reads (hf.2 h'), fun h' => h.limit (fun h'' => h' (hf.1 h''))⟩

end Restores

/-! ## Fields -/

/-- The key that a record is written with. -/
def Record.key : Record → Key
  | .word n _ => ⟨n, .varint⟩
  | .text n _ | .bytes n _ | .message n _ => ⟨n, .lengthDelimited⟩

/-- What a record is written with after its key. -/
def Record.body : Record → Bytes
  | .word _ v => Varint.write v.toNat
  | .text _ s => Varint.write (Bytes.ofText s).length ++ Bytes.ofText s
  | .bytes _ b => Varint.write b.length ++ b
  | .message _ rs => Varint.write (Message.print rs).length ++ Message.print rs

theorem Record.Conforms.number_bounds {l : Layout} {r : Record} (h : r.Conforms l) :
    0 < r.key.number ∧ r.key.number < 2 ^ 29 := by
  cases r with
  | word n v =>
    obtain ⟨t, hd, -⟩ := h
    exact ⟨hd.positive, hd.bounded⟩
  | text n s => exact ⟨h.positive, h.bounded⟩
  | bytes n b => exact ⟨h.positive, h.bounded⟩
  | message n rs =>
    simp only [Record.Conforms] at h
    obtain ⟨t, sub, hd, -⟩ := h
    exact ⟨hd.positive, hd.bounded⟩

/-- A record is written as its key and its body. -/
theorem Record.print_eq (r : Record) : ∃ code, WireType.ofCode? code = some r.key.wireType ∧
    code < 8 ∧ r.print = Varint.write (8 * r.key.number + code) ++ r.body := by
  cases r with
  | word n v => exact ⟨0, rfl, by decide, rfl⟩
  | text n s => exact ⟨2, rfl, by decide, List.append_assoc _ _ _⟩
  | bytes n b => exact ⟨2, rfl, by decide, List.append_assoc _ _ _⟩
  | message n rs => exact ⟨2, rfl, by decide, List.append_assoc _ _ _⟩

theorem readKey_print {l : Layout} {r : Record} (h : r.Conforms l) (rest : Bytes) :
    Reads (readKey (r.print ++ rest)) r.key (r.body ++ rest) := by
  obtain ⟨hpos, hlt⟩ := h.number_bounds
  obtain ⟨code, hw, hcode, hp⟩ := r.print_eq
  rw [hp, List.append_assoc]
  exact readKey_write hw hcode hpos hlt (r.body ++ rest)

/-- A field that holds a message is read by the reader of nested messages. -/
theorem readContent_of_layout? {nested : Layout → (s : Bytes) → Except Fault (Read Message s)}
    {type : FieldType} {sub : Layout} (h : type.layout? = some sub) (number : Nat) (s : Bytes) :
    readContent nested number type .lengthDelimited s =
      (nested sub s).map (Read.map (.message number)) := by
  cases type <;> simp only [FieldType.layout?, Option.some.injEq, reduceCtorEq] at h <;> subst h <;> rfl

/-- A declared field is restored where its content is. -/
theorem readField_declared {l : Layout} {skips : Nat}
    {nested : Layout → (s : Bytes) → Except Fault (Read Message s)} {k : Key} {s rest : Bytes}
    {f : Field FieldType} {fits : Prop} {r : Record} (hf : l.field? k.number = some f)
    (h : Restores (readContent nested f.number f.type k.wireType s) fits r rest) :
    Restores (readField l skips nested k s) fits (some r) rest := by
  simp only [readField, hf]
  refine ⟨fun hfit => ?_, fun hfit => ?_⟩
  · obtain ⟨hle, he⟩ := h.reads hfit
    exact ⟨hle, by simp only [he, Read.map]⟩
  · obtain ⟨e, he, hc⟩ := h.limit hfit
    exact ⟨e.inside l.name f.name, by simp only [he], hc⟩

section

variable {levels : Nat} {nested : Layout → (s : Bytes) → Except Fault (Read Message s)}

/-- The field of a record is restored where nested messages are, one level further down. -/
theorem readField_body
    (hn : ∀ sub rs rest, Message.Conforms sub rs → (Message.print rs).length < 2 ^ 64 →
      Restores (nested sub (Record.body (.message 0 rs) ++ rest)) (Message.depth rs + 1 ≤ levels)
        rs rest)
    {l : Layout} {skips : Nat} {r : Record} (hr : r.Conforms l) (hlen : r.print.length < 2 ^ 64)
    (rest : Bytes) :
    Restores (readField l skips nested r.key (r.body ++ rest)) (r.depth ≤ levels) (some r) rest := by
  -- a length is at most as long as what stands after it
  have hbody : r.body.length < 2 ^ 64 := by
    obtain ⟨code, -, -, hp⟩ := r.print_eq
    rw [hp, List.length_append] at hlen
    omega
  cases r with
  | word n v =>
    obtain ⟨t, ⟨-, -, f, hf, rfl⟩, hw, hv⟩ := hr
    refine readField_declared hf (.of_reads ?_ (Nat.zero_le _))
    obtain ⟨hle, hread⟩ := readVarint_write v.toNat_lt rest
    refine ⟨hle, ?_⟩
    rw [Layout.number_of_field? hf]
    cases ht : f.type <;> simp_all [readContent, FieldType.wireType, Record.key, Record.body, Read.map]
  | text n s =>
    obtain ⟨-, -, f, hf, ht⟩ := hr
    refine readField_declared hf (.of_reads ?_ (Nat.zero_le _))
    simp only [Record.body, List.length_append] at hbody
    obtain ⟨hle, hread⟩ := readDelimited_write (Bytes.ofText s) (by omega) rest
    refine ⟨hle, ?_⟩
    rw [Layout.number_of_field? hf, ht]
    simp only [readContent, FieldType.wireType, Record.key, Record.body, if_pos, hread,
      Bytes.toText?_ofText, Read.map]
  | bytes n b =>
    obtain ⟨-, -, f, hf, ht⟩ := hr
    refine readField_declared hf (.of_reads ?_ (Nat.zero_le _))
    simp only [Record.body, List.length_append] at hbody
    obtain ⟨hle, hread⟩ := readDelimited_write b (by omega) rest
    refine ⟨hle, ?_⟩
    rw [Layout.number_of_field? hf, ht]
    simp only [readContent, FieldType.wireType, Record.key, Record.body, if_pos, hread, Read.map]
  | message n rs =>
    simp only [Record.Conforms] at hr
    obtain ⟨t, sub, ⟨-, -, f, hf, rfl⟩, hs, hc⟩ := hr
    refine readField_declared hf ?_
    rw [Layout.number_of_field? hf]
    simp only [Record.body, List.length_append] at hbody
    rw [Record.key, readContent_of_layout? hs]
    exact (hn sub rs rest hc (by omega)).map _

end

/-! ## Messages -/

/-- Merging messages is appending their bytes. -/
theorem Message.print_append (a b : Message) :
    Message.print (a ++ b) = Message.print a ++ Message.print b := by
  induction a with
  | nil => rfl
  | cons r rs ih => rw [List.cons_append, Message.print, Message.print, ih, List.append_assoc]

theorem Record.length_print_pos (r : Record) : 0 < r.print.length := by
  obtain ⟨code, -, -, hp⟩ := r.print_eq
  have := Varint.length_write_pos (8 * r.key.number + code)
  rw [hp, List.length_append]
  omega

mutual

/-- Every record takes a byte for its key at least, and all the bytes of its content. -/
theorem Record.weight_le_length_print : ∀ r : Record, r.weight ≤ r.print.length
  | .word n v => by
    have := Varint.length_write_pos (8 * n)
    simp only [Record.weight, Record.print, List.length_append]
    omega
  | .text n s => by
    have := Varint.length_write_pos (8 * n + 2)
    simp only [Record.weight, Record.print, delimited, List.length_append]
    omega
  | .bytes n b => by
    have := Varint.length_write_pos (8 * n + 2)
    simp only [Record.weight, Record.print, delimited, List.length_append]
    omega
  | .message n rs => by
    have := Varint.length_write_pos (8 * n + 2)
    have := Message.weight_le_length_print rs
    simp only [Record.weight, Record.print, delimited, List.length_append]
    omega

theorem Message.weight_le_length_print : ∀ m : Message, Message.weight m ≤ (Message.print m).length
  | [] => Nat.zero_le _
  | r :: rs => by
    have := r.weight_le_length_print
    have := Message.weight_le_length_print rs
    simp only [Message.weight_cons, Message.print, List.length_append]
    omega

end

section

variable {field : Key → (s : Bytes) → Except Fault (Read (Option Record) s)}

/-- Before the end of the message, a field and the records after it are read; the first of the two to
run out of levels is reported. -/
theorem readRecords_field {stop : Nat} {k : Key} {s rest rest' tail : Bytes} {fits fits' : Prop}
    {r : Option Record} {m : Message} (hs : stop < s.length) (hk : Reads (readKey s) k rest)
    (hf : Restores (field k rest) fits r rest')
    (hm : Restores (readRecords field stop rest') fits' m tail) :
    Restores (readRecords field stop s) (fits ∧ fits') (r.toList ++ m) tail := by
  obtain ⟨hle, hk⟩ := hk
  rw [readRecords, if_neg (by omega), if_neg (by omega)]
  split
  · rename_i c hc
    rw [hk] at hc
    cases hc
  rename_i k' hk'
  rw [hk] at hk'
  cases hk'
  by_cases hfit : fits
  · obtain ⟨hle', hf⟩ := hf.reads hfit
    simp only [hf]
    refine ⟨fun h => ?_, fun h => ?_⟩
    · obtain ⟨hle'', hm⟩ := hm.reads h.2
      exact ⟨by omega, by simp only [hm]⟩
    · obtain ⟨e, hm, he⟩ := hm.limit fun h' => h ⟨hfit, h'⟩
      exact ⟨e, by simp only [hm], he⟩
  · obtain ⟨e, hf, he⟩ := hf.limit hfit
    exact ⟨fun h => absurd h.1 hfit, fun _ => ⟨e, by simp only [hf], he⟩⟩

/-- Records are restored one after another where the fields of single records are. -/
theorem readRecords_print {levels : Nat} {l : Layout}
    (hf : ∀ r : Record, r.Conforms l → r.print.length < 2 ^ 64 → ∀ rest,
      Restores (field r.key (r.body ++ rest)) (r.depth ≤ levels) (some r) rest)
    (tail : Bytes) (m : Message) (hm : Message.Conforms l m)
    (hlen : (Message.print m).length < 2 ^ 64) :
    Restores (readRecords field tail.length (Message.print m ++ tail)) (Message.depth m ≤ levels)
      m tail := by
  induction m with
  | nil =>
    rw [readRecords, if_pos (by simp [Message.print])]
    exact .of_reads ⟨by simp [Message.print], rfl⟩ (Nat.zero_le _)
  | cons r rs ih =>
    obtain ⟨hr, hrs⟩ := hm
    have hpos := r.length_print_pos
    simp only [Message.print, List.length_append] at hlen
    rw [Message.print, List.append_assoc]
    have hs : tail.length < (r.print ++ (Message.print rs ++ tail)).length := by
      simp only [List.length_append]
      omega
    refine (readRecords_field hs (readKey_print hr _) (hf r hr (by omega) _)
      (ih hrs (by omega))).of_iff ?_
    rw [Message.depth_cons, Nat.max_le]

end

/-- A nested message is restored where the message itself is, up to where its length says. -/
theorem readNested_print {message : (stop : Nat) → (s : Bytes) → Except Fault (Read Message s)}
    {n : Nat} {rs : Message} {rest : Bytes} {fits : Prop} (hlen : (Message.print rs).length < 2 ^ 64)
    (h : Restores (message rest.length (Message.print rs ++ rest)) fits rs rest) :
    Restores (readNested message (Record.body (.message n rs) ++ rest)) fits rs rest := by
  rw [Record.body, List.append_assoc]
  obtain ⟨hle, hread⟩ := readVarint_write hlen (Message.print rs ++ rest)
  have hstop : (Message.print rs ++ rest).length - (Message.print rs).length = rest.length := by
    rw [List.length_append]
    omega
  have hin : (Message.print rs).length ≤ (Message.print rs ++ rest).length := by
    rw [List.length_append]
    omega
  simp only [readNested, hread, if_pos hin, hstop]
  refine ⟨fun hfit => ?_, fun hfit => ?_⟩
  · obtain ⟨hle', hm⟩ := h.reads hfit
    exact ⟨by simp; omega, by simp only [hm, Read.widen]⟩
  · obtain ⟨e, hm, he⟩ := h.limit hfit
    exact ⟨e, by simp only [hm], he⟩

/-- **Reading what was written**: a message whose records its layout declares is restored when it nests
no deeper than the budget, and refused for the budget when it does. -/
theorem readMessage_print : ∀ (levels : Nat) (l : Layout) (m : Message) (tail : Bytes),
    Message.Conforms l m → (Message.print m).length < 2 ^ 64 →
      Restores (readMessage levels l tail.length (Message.print m ++ tail))
        (Message.depth m ≤ levels) m tail
  | 0, l, m, tail, hm, hlen => by
    rw [readMessage]
    refine readRecords_print (fun r hr hr' rest => readField_body ?_ hr hr' rest) tail m hm hlen
    -- no level is left for a nested message, whatever it holds
    intro sub rs rest _ _
    exact ⟨fun h => absurd h (Nat.not_succ_le_zero _), fun _ => ⟨_, rfl, rfl⟩⟩
  | levels + 1, l, m, tail, hm, hlen => by
    rw [readMessage]
    refine readRecords_print (fun r hr hr' rest => readField_body ?_ hr hr' rest) tail m hm hlen
    intro sub rs rest hc hl
    exact (readNested_print hl (readMessage_print levels sub rs rest hc hl)).of_iff
      Nat.succ_le_succ_iff.symm

/-- The same for a message that takes up all the bytes. -/
theorem Layout.decode_print {l : Layout} {m : Message} (hm : Message.Conforms l m)
    (hlen : (Message.print m).length < 2 ^ 64) :
    (Message.depth m ≤ levelLimit → l.decode (Message.print m) = .ok m) ∧
      (levelLimit < Message.depth m →
        ∃ f, l.decode (Message.print m) = .error f ∧ f.cause = .recursionLimit) := by
  have h := readMessage_print levelLimit l m [] hm hlen
  rw [List.append_nil] at h
  rw [Layout.decode]
  refine ⟨fun hd => ?_, fun hd => ?_⟩
  · obtain ⟨hle, hr⟩ := h.reads hd
    rw [← List.length_nil, hr]
    rfl
  · obtain ⟨e, hr, he⟩ := h.limit (Nat.not_le.2 hd)
    exact ⟨e, by rw [← List.length_nil, hr]; rfl, he⟩

end TxLens.Wire

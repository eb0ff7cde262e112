import TxLens.Proofs.Wire.Grammar
import TxLens.Proofs.Wire.RoundTrip
/-!
# Readers are local

What a reader makes of the bytes that it takes does not depend on what follows them: put anything else
behind those bytes, and it reads the same value and leaves the rest (`Local`). A length is held against
the whole input, so this is not plain for nested messages, which may run past their end; but such a
message is refused when the end is passed. One lemma for each reader of declared fields, up to
messages (`readMessage_local`).
-/

namespace TxLens.Wire

/-! ## Local readers -/

/-- The reader takes a word, and reads that word alike whatever follows it. -/
def Local {ε α : Type} (read : (s : Bytes) → Except ε (Read α s)) (word : Bytes → Prop) : Prop :=
  ∀ s a rest, Reads (read s) a rest →
    ∃ w, s = w ++ rest ∧ word w ∧ ∀ rest', Reads (read (w ++ rest')) a rest'

theorem readVarint_local : Local readVarint fun w => ∃ n, Varint.IsNumber w n := by
  intro s n rest h
  obtain ⟨w, hs, hw⟩ := readVarint_iff.1 h
  exact ⟨w, hs, ⟨n, hw⟩, fun rest' => readVarint_iff.2 ⟨w, rfl, hw⟩⟩

theorem readDelimited_local : Local readDelimited IsDelimited := by
  intro s content rest h
  obtain ⟨len, hs, hlen⟩ := readDelimited_iff.1 h
  refine ⟨len ++ content, hs, ⟨len, content, rfl, hlen⟩, fun rest' => ?_⟩
  exact readDelimited_iff.2 ⟨len, rfl, hlen⟩

theorem skipContent_local (levels : Nat) (k : Key) :
    Local (skipContent levels k) (IsContent levels k) := by
  intro s a rest h
  obtain ⟨c, hs, hc⟩ := (skipContent_iff levels k s rest).1 h
  exact ⟨c, hs, hc, fun rest' => (skipContent_iff levels k _ rest').2 ⟨c, rfl, hc⟩⟩

/-- A reader that goes on with the value of a local reader, and takes nothing more, is local. -/
theorem Local.of_value {ε ε' α β : Type} {word : Bytes → Prop}
    {read : (s : Bytes) → Except ε (Read α s)} {read' : (s : Bytes) → Except ε' (Read β s)}
    (h : Local read word) (f : α → Option β)
    (hread : ∀ s b rest, Reads (read' s) b rest ↔ ∃ a, Reads (read s) a rest ∧ f a = some b) :
    Local read' word := by
  intro s b rest hb
  obtain ⟨a, ha, hf⟩ := (hread s b rest).1 hb
  obtain ⟨w, hs, hw, hlocal⟩ := h s a rest ha
  exact ⟨w, hs, hw, fun rest' => (hread _ b rest').2 ⟨a, hlocal rest', hf⟩⟩

theorem Local.mono {ε α : Type} {word word' : Bytes → Prop}
    {read : (s : Bytes) → Except ε (Read α s)} (h : Local read word) (hw : ∀ w, word w → word' w) :
    Local read word' := by
  intro s a rest ha
  obtain ⟨w, hs, hword, hlocal⟩ := h s a rest ha
  exact ⟨w, hs, hw w hword, hlocal⟩

/-! ## Declared fields -/

section

variable {nested : Layout → (s : Bytes) → Except Fault (Read Message s)}

theorem readContent_text_iff {number : Nat} {s rest : Bytes} {r : Record} :
    Reads (readContent nested number .text .lengthDelimited s) r rest ↔
      ∃ bs, Reads (readDelimited s) bs rest ∧ (Bytes.toText? bs).map (.text number) = some r := by
  simp only [readContent, FieldType.wireType, ↓reduceIte]
  constructor
  · rintro ⟨hle, h⟩
    cases hd : readDelimited s with
    | error c => simp [hd] at h
    | ok d =>
      cases ht : Bytes.toText? d.value with
      | none => simp [hd, ht] at h
      | some t =>
        simp only [hd, ht] at h
        cases h
        exact ⟨d.value, Reads.of_eq rfl, by rw [ht]; rfl⟩
  · rintro ⟨bs, ⟨hle, hd⟩, hr⟩
    obtain ⟨t, ht, rfl⟩ := Option.map_eq_some_iff.1 hr
    exact ⟨hle, by simp only [hd, ht, Read.map]⟩

theorem readContent_bytes_iff {number : Nat} {s rest : Bytes} {r : Record} :
    Reads (readContent nested number .bytes .lengthDelimited s) r rest ↔
      ∃ bs, Reads (readDelimited s) bs rest ∧ some (.bytes number bs) = some r := by
  have heq : readContent nested number .bytes .lengthDelimited s =
      ((readDelimited s).mapError Cause.bare).map (Read.map (.bytes number)) := by
    simp only [readContent, FieldType.wireType, ↓reduceIte]
    cases readDelimited s <;> rfl
  simp only [heq, Reads.map_iff, Reads.mapError_iff, Option.some.injEq]

theorem readContent_word_iff {type : FieldType} (ht : type.wireType = .varint) {number : Nat}
    {s rest : Bytes} {r : Record} :
    Reads (readContent nested number type .varint s) r rest ↔
      ∃ n, Reads (readVarint s) n rest ∧
        some (.word number (type.ofWord (UInt64.ofNat n))) = some r := by
  have heq : readContent nested number type .varint s = ((readVarint s).mapError Cause.bare).map
      (Read.map fun n => .word number (type.ofWord (UInt64.ofNat n))) := by
    cases type <;> cases ht <;> simp only [readContent, FieldType.wireType, ↓reduceIte] <;>
      cases readVarint s <;> rfl
  simp only [heq, Reads.map_iff, Reads.mapError_iff, Option.some.injEq]

theorem readContent_message_iff {type : FieldType} {sub : Layout} (ht : type.layout? = some sub)
    {number : Nat} {s rest : Bytes} {r : Record} :
    Reads (readContent nested number type .lengthDelimited s) r rest ↔
      ∃ m, Reads (nested sub s) m rest ∧ some (.message number m) = some r := by
  simp only [readContent_of_layout? ht, Reads.map_iff, Option.some.injEq]

/-- The wire type of a field that was read is the one that its type asks for. -/
theorem wireType_of_readContent {number : Nat} {type : FieldType} {w : WireType} {s rest : Bytes}
    {r : Record} (h : Reads (readContent nested number type w s) r rest) : w = type.wireType := by
  obtain ⟨hle, h⟩ := h
  by_cases hw : w = type.wireType
  · exact hw
  · unfold readContent at h
    rw [if_neg hw] at h
    cases h

/-- A field's type is a number, a text, a byte string or a message. -/
theorem FieldType.shape (type : FieldType) :
    type.wireType = .varint ∨ type = .text ∨ type = .bytes ∨
      ∃ sub, type.layout? = some sub ∧ type.wireType = .lengthDelimited := by
  cases type <;> simp [wireType, layout?]

/-- Declared content is local where nested messages are, and complete for whoever would skip it. -/
theorem readContent_local (hn : ∀ l, Local (nested l) IsDelimited) (number : Nat) (type : FieldType)
    (w : WireType) :
    Local (readContent nested number type w) fun c => ∀ levels n, IsContent (levels + 1) ⟨n, w⟩ c := by
  intro s r rest h
  have hw := wireType_of_readContent h
  subst hw
  revert s r rest
  rcases type.shape with ht | rfl | rfl | ⟨sub, ht, hw⟩
  · rw [ht]
    exact (readVarint_local.mono fun c hc _ _ => hc).of_value _ fun s r rest => readContent_word_iff ht
  · exact (readDelimited_local.mono fun c hc _ _ => hc).of_value _ fun s r rest => readContent_text_iff
  · exact (readDelimited_local.mono fun c hc _ _ => hc).of_value _ fun s r rest => readContent_bytes_iff
  · rw [hw]
    exact ((hn sub).mono fun c hc _ _ => hc).of_value _ fun s r rest => readContent_message_iff ht

end

/-- The record of a declared field has the number of the field. -/
theorem number_of_readContent {nested : Layout → (s : Bytes) → Except Fault (Read Message s)}
    {number : Nat} {type : FieldType} {w : WireType} {s rest : Bytes} {r : Record}
    (h : Reads (readContent nested number type w s) r rest) : r.number = number := by
  have hw := wireType_of_readContent h
  subst hw
  rcases type.shape with ht | rfl | rfl | ⟨sub, ht, hw⟩
  · rw [ht] at h
    obtain ⟨n, -, hr⟩ := (readContent_word_iff ht).1 h
    cases hr
    rfl
  · obtain ⟨bs, -, hr⟩ := readContent_text_iff.1 h
    obtain ⟨t, -, rfl⟩ := Option.map_eq_some_iff.1 hr
    rfl
  · obtain ⟨bs, -, hr⟩ := readContent_bytes_iff.1 h
    cases hr
    rfl
  · rw [hw] at h
    obtain ⟨m, -, hr⟩ := (readContent_message_iff ht).1 h
    cases hr
    rfl

section

variable {nested : Layout → (s : Bytes) → Except Fault (Read Message s)} {l : Layout} {levels : Nat}
  {k : Key}

theorem readField_declared_iff {f : Field FieldType} (hf : l.field? k.number = some f)
    {s rest : Bytes} {r : Option Record} :
    Reads (readField l levels nested k s) r rest ↔ ∃ rec,
      Reads (readContent nested k.number f.type k.wireType s) rec rest ∧ some (some rec) = some r := by
  have heq : readField l levels nested k s =
      ((readContent nested k.number f.type k.wireType s).mapError fun e => e.inside l.name f.name).map
        (Read.map some) := by
    simp only [readField, hf, Layout.number_of_field? hf]
    cases readContent nested k.number f.type k.wireType s <;> rfl
  simp only [heq, Reads.map_iff, Reads.mapError_iff, Option.some.injEq]

theorem readField_undeclared_iff (hf : l.field? k.number = none) {s rest : Bytes} {r : Option Record} :
    Reads (readField l levels nested k s) r rest ↔ ∃ u,
      Reads (skipContent levels k s) u rest ∧ some none = some r := by
  have heq : readField l levels nested k s =
      ((skipContent levels k s).mapError Cause.bare).map (Read.map fun _ => none) := by
    simp only [readField, hf]
    cases skipContent levels k s <;> rfl
  simp only [heq, Reads.map_iff, Reads.mapError_iff, Option.some.injEq]

/-- A field is local: a declared one where nested messages are, an undeclared one always. -/
theorem readField_local (hn : ∀ l, Local (nested l) IsDelimited) {word : Bytes → Prop}
    (hdeclared : ∀ c, (∀ levels n, IsContent (levels + 1) ⟨n, k.wireType⟩ c) → word c)
    (hskipped : ∀ c, IsContent levels k c → word c) : Local (readField l levels nested k) word := by
  cases hf : l.field? k.number with
  | some f =>
    have hc := (readContent_local hn k.number f.type k.wireType).mono hdeclared
    exact hc.of_value _ fun s r rest => readField_declared_iff hf
  | none =>
    have hs := (skipContent_local levels k).mono hskipped
    exact hs.of_value _ fun s r rest => readField_undeclared_iff hf

end

/-! ## Messages -/

section

variable {field : Key → (s : Bytes) → Except Fault (Read (Option Record) s)}

/-- The end of the message, or a field and the records after it. -/
theorem readRecords_iff {stop : Nat} {s rest : Bytes} {m : Message} :
    Reads (readRecords field stop s) m rest ↔
      (s.length = stop ∧ m = [] ∧ s = rest) ∨
      (stop < s.length ∧ ∃ k t r u m', Reads (readKey s) k t ∧ Reads (field k t) r u ∧
        Reads (readRecords field stop u) m' rest ∧ m = r.toList ++ m') := by
  constructor
  · rintro ⟨hle, h⟩
    rw [readRecords] at h
    split at h
    · rename_i hend
      cases h
      exact .inl ⟨hend, rfl, rfl⟩
    · split at h
      · cases h
      · split at h
        · cases h
        · rename_i hne hlt k hk
          split at h
          · cases h
          · rename_i r hr
            simp only at h
            split at h
            · cases h
            · rename_i m' hm
              cases h
              exact .inr ⟨by omega, _, _, _, _, _, Reads.of_eq hk, Reads.of_eq hr, Reads.of_eq hm, rfl⟩
  · rintro (⟨hend, rfl, rfl⟩ | ⟨hlt, k, t, r, u, m', hk, hr, hm, rfl⟩)
    · rw [readRecords, if_pos hend]
      exact ⟨Nat.le_refl _, rfl⟩
    · exact (readRecords_field hlt hk (.of_reads hr trivial) (.of_reads hm trivial)).reads
        ⟨trivial, trivial⟩

/-- A reader of messages that stops where it is told, and reads alike whatever stands after that. -/
def LocalUpTo (message : (stop : Nat) → (s : Bytes) → Except Fault (Read Message s)) : Prop :=
  ∀ stop s m rest, Reads (message stop s) m rest → rest.length = stop ∧
    ∃ w, s = w ++ rest ∧ ∀ rest' : Bytes, Reads (message rest'.length (w ++ rest')) m rest'

theorem readRecords_local (word : Key → Bytes → Prop) (hf : ∀ k, Local (field k) (word k)) :
    LocalUpTo (readRecords field) := by
  intro stop s
  induction hlen : s.length using Nat.strongRecOn generalizing s with
  | ind n ih =>
    subst hlen
    intro m rest h
    rcases readRecords_iff.1 h with ⟨hend, rfl, rfl⟩ | ⟨hlt, k, t, r, u, m', hk, hr, hm, rfl⟩
    · exact ⟨hend, [], rfl, fun rest' => readRecords_iff.2 (.inl ⟨rfl, rfl, rfl⟩)⟩
    · obtain ⟨w, rfl, hw⟩ := readKey_iff.1 hk
      obtain ⟨c, rfl, -, hlocal⟩ := hf k t r u hr
      have hpos := hw.number.spells.length_pos
      have hlt' : u.length < (w ++ (c ++ u)).length := by
        simp only [List.length_append]
        omega
      obtain ⟨hstop, v, rfl, hrest⟩ := ih u.length hlt' u rfl m' rest hm
      refine ⟨hstop, w ++ c ++ v, by simp, fun rest' => readRecords_iff.2 (.inr ⟨?_, ?_⟩)⟩
      · simp only [List.length_append]
        omega
      · exact ⟨k, c ++ (v ++ rest'), r, v ++ rest', m', readKey_iff.2 ⟨w, by simp, hw⟩, hlocal _,
          hrest rest', rfl⟩

end

/-- A nested message takes its length and that many bytes. -/
theorem readNested_local {message : (stop : Nat) → (s : Bytes) → Except Fault (Read Message s)}
    (hm : LocalUpTo message) : Local (readNested message) IsDelimited := by
  have hiff : ∀ s m rest, Reads (readNested message s) m rest ↔ ∃ n t, Reads (readVarint s) n t ∧
      n ≤ t.length ∧ Reads (message (t.length - n) t) m rest := by
    intro s m rest
    constructor
    · rintro ⟨hle, h⟩
      unfold readNested at h
      split at h
      · cases h
      · rename_i n hn
        split at h
        · rename_i hfits
          split at h
          · cases h
          · rename_i r hr
            cases h
            exact ⟨n.value, n.rest, Reads.of_eq hn, hfits, Reads.of_eq hr⟩
        · cases h
    · rintro ⟨n, t, ⟨hle, hn⟩, hfits, ⟨hle', hr⟩⟩
      exact ⟨Nat.le_trans hle' hle, by simp only [readNested, hn, if_pos hfits, hr, Read.widen]⟩
  intro s m rest h
  obtain ⟨n, t, hn, hfits, hr⟩ := (hiff s m rest).1 h
  obtain ⟨len, rfl, hlen⟩ := readVarint_iff.1 hn
  obtain ⟨hstop, w, rfl, hlocal⟩ := hm _ _ _ _ hr
  obtain rfl : w.length = n := by
    rw [List.length_append] at hstop hfits
    omega
  refine ⟨len ++ w, by simp, ⟨len, w, rfl, hlen⟩, fun rest' => (hiff _ m rest').2 ?_⟩
  refine ⟨w.length, w ++ rest', readVarint_iff.2 ⟨len, by simp, hlen⟩, by simp, ?_⟩
  rw [List.length_append, Nat.add_sub_cancel_left]
  exact hlocal rest'

theorem readMessage_local : ∀ (levels : Nat) (l : Layout), LocalUpTo (readMessage levels l)
  | 0, l => by
    refine readRecords_local (fun _ _ => True) fun k => readField_local ?_ ?_ ?_
    · rintro sub s m rest ⟨hle, h⟩
      cases h
    · exact fun _ _ => trivial
    · exact fun _ _ => trivial
  | levels + 1, l => by
    refine readRecords_local (fun _ _ => True) fun k => readField_local ?_ ?_ ?_
    · exact fun sub => readNested_local (readMessage_local levels sub)
    · exact fun _ _ => trivial
    · exact fun _ _ => trivial

end TxLens.Wire

import TxLens.Proofs.Wire.RoundTrip
import TxLens.Wire.Object
/-!
# Lawful objects

An object type is lawful when its messages follow its layout and reading them gives the object back.
Such a type is put together field by field: what a writer of one field adds is seen by the view of
that field only, so a writer of several fields is the union of lawful parts. From the laws alone
follows the round trip through bytes, up to the budget of levels (`decode_encode`).
-/

namespace TxLens.Wire

namespace Message

variable (n k : Nat)

/-! ## Views of written fields -/

@[simp] theorem views_append (a b : Message) :
    words n (a ++ b) = words n a ++ words n b ∧ texts n (a ++ b) = texts n a ++ texts n b ∧
      byteStrings n (a ++ b) = byteStrings n a ++ byteStrings n b ∧
      messages n (a ++ b) = messages n a ++ messages n b := by
  simp [words, texts, byteStrings, messages]

@[simp] theorem views_ofWord (v : UInt64) :
    words n (ofWord k v) = (if k = n then if v = 0 then [] else [v] else []) ∧
      texts n (ofWord k v) = [] ∧ byteStrings n (ofWord k v) = [] ∧
      messages n (ofWord k v) = [] := by
  by_cases hv : v = 0 <;> by_cases hk : k = n <;>
    simp [ofWord, hv, hk, words, texts, byteStrings, messages, Record.word?, Record.text?,
      Record.bytes?, Record.message?]

@[simp] theorem views_ofText (s : String) :
    words n (ofText k s) = [] ∧
      texts n (ofText k s) = (if k = n then if s = "" then [] else [s] else []) ∧
      byteStrings n (ofText k s) = [] ∧ messages n (ofText k s) = [] := by
  by_cases hs : s = "" <;> by_cases hk : k = n <;>
    simp [ofText, hs, hk, words, texts, byteStrings, messages, Record.word?, Record.text?,
      Record.bytes?, Record.message?]

@[simp] theorem views_ofByteString (b : Bytes) :
    words n (ofByteString k b) = [] ∧ texts n (ofByteString k b) = [] ∧
      byteStrings n (ofByteString k b) = (if k = n then if b = [] then [] else [b] else []) ∧
      messages n (ofByteString k b) = [] := by
  by_cases hb : b = [] <;> by_cases hk : k = n <;>
    simp [ofByteString, hb, hk, words, texts, byteStrings, messages, Record.word?, Record.text?,
      Record.bytes?, Record.message?]

@[simp] theorem views_ofByteStrings (bs : List Bytes) :
    words n (ofByteStrings k bs) = [] ∧ texts n (ofByteStrings k bs) = [] ∧
      byteStrings n (ofByteStrings k bs) = (if k = n then bs else []) ∧
      messages n (ofByteStrings k bs) = [] := by
  by_cases hk : k = n <;>
    simp [ofByteStrings, hk, words, texts, byteStrings, messages, Record.word?, Record.text?,
      Record.bytes?, Record.message?, List.filterMap_map, Function.comp_def]

@[simp] theorem views_ofMessages (ms : List Message) :
    words n (ofMessages k ms) = [] ∧ texts n (ofMessages k ms) = [] ∧
      byteStrings n (ofMessages k ms) = [] ∧
      messages n (ofMessages k ms) = (if k = n then ms else []) := by
  by_cases hk : k = n <;>
    simp [ofMessages, hk, words, texts, byteStrings, messages, Record.word?, Record.text?,
      Record.bytes?, Record.message?, List.filterMap_map, Function.comp_def]

/-- A value that is left out when it is the default is read as the default. -/
@[simp] theorem getD_getLast?_written {β : Type} [DecidableEq β] (d b : β) :
    (if b = d then ([] : List β) else [b]).getLast?.getD d = b := by
  by_cases h : b = d <;> simp [h]

/-! ## Levels of written fields -/

@[simp] theorem depth_ofWord (v : UInt64) : depth (ofWord k v) = 0 := by
  unfold ofWord
  split <;> rfl

@[simp] theorem depth_ofText (s : String) : depth (ofText k s) = 0 := by
  unfold ofText
  split <;> rfl

@[simp] theorem depth_ofByteString (b : Bytes) : depth (ofByteString k b) = 0 := by
  unfold ofByteString
  split <;> rfl

@[simp] theorem depth_ofByteStrings (bs : List Bytes) : depth (ofByteStrings k bs) = 0 := by
  induction bs with
  | nil => rfl
  | cons b bs ih =>
    rw [ofByteStrings, List.map_cons, depth_cons, Record.depth, Nat.zero_max]
    exact ih

variable {n k}

theorem depth_ofMessages_le {ms : List Message} {d : Nat} (h : ∀ m ∈ ms, depth m + 1 ≤ d) :
    depth (ofMessages k ms) ≤ d := by
  rw [depth_le_iff]
  intro r hr
  obtain ⟨m, hm, rfl⟩ := List.mem_map.1 hr
  exact h m hm

/-- A sub-message stands one level below the message that holds it. -/
theorem depth_lt_of_mem_messages {sub m : Message} (h : sub ∈ messages n m) :
    depth sub + 1 ≤ depth m := by
  simp only [messages, List.mem_filterMap] at h
  obtain ⟨r, hr, hs⟩ := h
  have hd := depth_le_iff.1 (Nat.le_refl (depth m)) r hr
  cases r <;> simp [Record.message?] at hs
  obtain ⟨-, rfl⟩ := hs
  exact hd

theorem depth_flatten_le {ms : List Message} {d : Nat} (h : ∀ m ∈ ms, depth m ≤ d) :
    depth ms.flatten ≤ d := by
  induction ms with
  | nil => exact Nat.zero_le _
  | cons m ms ih =>
    rw [List.flatten_cons, depth_append, Nat.max_le]
    exact ⟨h m List.mem_cons_self, ih fun m' hm => h m' (List.mem_cons_of_mem _ hm)⟩

/-- So does what all its occurrences hold together. -/
theorem depth_lt_of_submessage? {sub m : Message} (h : submessage? n m = some sub) :
    depth sub + 1 ≤ depth m := by
  unfold submessage? at h
  split at h
  · cases h
  · rename_i hne
    cases h
    cases hm : messages n m with
    | nil => simp [hm] at hne
    | cons first rest =>
      have hfirst : first ∈ messages n m := by
        rw [hm]
        exact List.mem_cons_self
      have hpos := depth_lt_of_mem_messages hfirst
      have hall : depth (submessage n m) ≤ depth m - 1 := depth_flatten_le fun sub hs => by
        have := depth_lt_of_mem_messages hs
        omega
      omega

/-- An alternative stands one level below the message that holds it, with all it was merged from. -/
theorem depth_lt_of_addChoice {acc : Option (Nat × Message)} {r : Record} {d : Nat}
    (hacc : ∀ k i, acc = some (k, i) → depth i + 1 ≤ d) (hr : r.depth ≤ d) {k : Nat} {i : Message}
    (h : addChoice acc r = some (k, i)) : depth i + 1 ≤ d := by
  cases r with
  | message n rs =>
    simp only [Record.depth] at hr
    cases acc with
    | none =>
      simp only [addChoice, Option.some.injEq, Prod.mk.injEq] at h
      obtain ⟨-, rfl⟩ := h
      exact hr
    | some c =>
      have hc := hacc c.1 c.2 rfl
      simp only [addChoice] at h
      split at h <;> simp only [Option.some.injEq, Prod.mk.injEq] at h <;> obtain ⟨-, rfl⟩ := h
      · rw [depth_append]
        omega
      · exact hr
  | _ => exact hacc k i h

theorem depth_lt_of_foldl_addChoice {m : Message} {acc : Option (Nat × Message)} {d : Nat}
    (hacc : ∀ k i, acc = some (k, i) → depth i + 1 ≤ d) (hm : ∀ r ∈ m, r.depth ≤ d) {k : Nat}
    {i : Message} (h : m.foldl addChoice acc = some (k, i)) : depth i + 1 ≤ d := by
  induction m generalizing acc with
  | nil => exact hacc k i h
  | cons r rs ih =>
    refine ih (fun k i => ?_) (fun r' hr' => hm r' (List.mem_cons_of_mem _ hr')) h
    exact depth_lt_of_addChoice hacc (hm r List.mem_cons_self)

theorem depth_lt_of_lastChoice {m inner : Message} {n : Nat}
    (h : lastChoice m = some (n, inner)) : depth inner + 1 ≤ depth m :=
  depth_lt_of_foldl_addChoice (by simp) (depth_le_iff.1 (Nat.le_refl _)) h

/-! ## Written fields that a layout declares -/

variable {l : Layout} {a b : Message}

theorem Conforms.append (ha : Conforms l a) (hb : Conforms l b) : Conforms l (a ++ b) := by
  rw [conforms_iff] at *
  intro r hr
  rcases List.mem_append.1 hr with h | h
  · exact ha r h
  · exact hb r h

theorem conforms_ofWord {t : FieldType} {v : UInt64} (h : l.Declares k t)
    (hw : t.wireType = .varint) (hv : t.ofWord v = v) : Conforms l (ofWord k v) := by
  unfold ofWord
  split
  · trivial
  · exact ⟨⟨t, h, hw, hv⟩, trivial⟩

theorem conforms_ofBool (h : l.Declares k .bool) (b : Bool) :
    Conforms l (ofWord k b.toUInt64) :=
  conforms_ofWord h rfl (by cases b <;> rfl)

theorem conforms_ofUInt32 (h : l.Declares k .uint32) (v : UInt32) :
    Conforms l (ofWord k v.toUInt64) :=
  conforms_ofWord h rfl (by simp [FieldType.ofWord])

theorem conforms_ofUInt64 (h : l.Declares k .uint64) (v : UInt64) : Conforms l (ofWord k v) :=
  conforms_ofWord h rfl rfl

theorem conforms_ofInt64 (h : l.Declares k .int64) (v : Int64) : Conforms l (ofWord k v.toUInt64) :=
  conforms_ofWord h rfl rfl

/-- A negative number is written with all its 64 bits and read from the lower half of them. -/
theorem toInt32_toUInt64 (v : Int32) : v.toInt64.toUInt64.toUInt32.toInt32 = v := by
  apply Int32.toBitVec_inj.1
  apply BitVec.eq_of_getLsbD_eq
  intro i hi
  simp [BitVec.getLsbD_signExtend, hi]
  omega

theorem conforms_ofInt32 (h : l.Declares k .int32) (v : Int32) :
    Conforms l (ofWord k v.toInt64.toUInt64) :=
  conforms_ofWord h rfl (by simp only [FieldType.ofWord, toInt32_toUInt64])

theorem conforms_ofText (h : l.Declares k .text) (s : String) : Conforms l (ofText k s) := by
  unfold ofText
  split
  · trivial
  · exact ⟨h, trivial⟩

theorem conforms_ofByteString (h : l.Declares k .bytes) (b : Bytes) :
    Conforms l (ofByteString k b) := by
  unfold ofByteString
  split
  · trivial
  · exact ⟨h, trivial⟩

theorem conforms_ofByteStrings (h : l.Declares k .bytes) (bs : List Bytes) :
    Conforms l (ofByteStrings k bs) := by
  rw [conforms_iff]
  intro r hr
  obtain ⟨b, -, rfl⟩ := List.mem_map.1 hr
  exact h

theorem conforms_ofMessages {t : FieldType} {sub : Layout} (h : l.Declares k t)
    (hs : t.layout? = some sub) {ms : List Message} (hm : ∀ m ∈ ms, Conforms sub m) :
    Conforms l (ofMessages k ms) := by
  rw [conforms_iff]
  intro r hr
  obtain ⟨m, hmem, rfl⟩ := List.mem_map.1 hr
  exact ⟨t, sub, h, hs, hm m hmem⟩

end Message

/-! ## Declared fields of objects -/

/-- Field numbers of objects fit a key. -/
theorem ObjectType.number_bounds (t : ObjectType) :
    ∀ f ∈ t.layout.fields, 0 < f.number ∧ f.number < 2 ^ 29 := by
  cases t <;> decide

theorem ObjectType.declares {t : ObjectType} {n number : Nat} {name : String} {type : FieldType}
    (h : t.layout.field? n = some ⟨number, name, type⟩) : t.layout.Declares n type := by
  have hn := Layout.number_of_field? h
  obtain ⟨hpos, hlt⟩ := t.number_bounds _ (List.mem_of_find?_eq_some h)
  exact ⟨hn ▸ hpos, hn ▸ hlt, _, h, rfl⟩

/-! ## Lawful objects -/

namespace Object

/-- The number of levels of messages below an object. -/
def levels {α : Type} [Object α] (a : α) : Nat := Message.depth (toMessage a)

/-- Objects are written as their layout says and read as they were written; an object that was read
nests no deeper than the message it was read from. -/
class Lawful (α : Type) [Object α] : Prop where
  conforms : ∀ a : α, Message.Conforms (type α).layout (toMessage a)
  ofMessage_toMessage : ∀ a : α, ofMessage (toMessage a) = a
  depth_le : ∀ m : Message, Message.depth (toMessage (ofMessage m : α)) ≤ Message.depth m

variable {α : Type} [Object α] {n k : Nat} {a b : Message}

/-- Some bytes hold an object when they hold a message that reads as it. -/
theorem decode_eq_ok_iff {bs : Bytes} {o : α} :
    decode α bs = .ok o ↔ ∃ m, (type α).layout.decode bs = .ok m ∧ ofMessage m = o := by
  unfold decode
  cases (type α).layout.decode bs <;> simp [Except.map]

/-- A message that the layout declares is read as its object from the bytes that it is written as,
where it nests within the budget, and refused for the budget where it does not. A length has 64 bits,
so there must be no more bytes than it can count. -/
theorem decode_print {m : Message} (hm : Message.Conforms (type α).layout m)
    (hlen : (Message.print m).length < 2 ^ 64) :
    (Message.depth m ≤ levelLimit → decode α (Message.print m) = .ok (ofMessage m)) ∧
      (levelLimit < Message.depth m →
        ∃ f, decode α (Message.print m) = .error f ∧ f.cause = .recursionLimit) := by
  obtain ⟨hok, hdeep⟩ := Layout.decode_print hm hlen
  refine ⟨fun h => ?_, fun h => ?_⟩
  · rw [decode, hok h, Except.map]
  · obtain ⟨f, hf, hc⟩ := hdeep h
    exact ⟨f, by rw [decode, hf, Except.map], hc⟩

/-! ### Fields of sub-objects -/

@[simp] theorem views_ofSubs (as : List α) :
    Message.words n (ofSubs k as) = [] ∧ Message.texts n (ofSubs k as) = [] ∧
      Message.byteStrings n (ofSubs k as) = [] ∧
      Message.messages n (ofSubs k as) = (if k = n then as.map toMessage else []) := by
  simp [ofSubs]

@[simp] theorem views_ofSub? (o : Option α) :
    Message.words n (ofSub? k o) = [] ∧ Message.texts n (ofSub? k o) = [] ∧
      Message.byteStrings n (ofSub? k o) = [] ∧
      Message.messages n (ofSub? k o) = (if k = n then (o.map toMessage).toList else []) := by
  simp [ofSub?, Message.ofMessage?]

@[simp] theorem subs_append : subs n (a ++ b) = (subs n a ++ subs n b : List α) := by
  simp [subs]

@[simp] theorem subs_eq_nil (h : Message.messages n a = []) : subs n a = ([] : List α) := by
  simp [subs, h]

@[simp] theorem sub?_append_of_left (h : Message.messages n b = []) :
    sub? n (a ++ b) = (sub? n a : Option α) := by
  simp [sub?, Message.submessage?, Message.submessage, h]

@[simp] theorem sub?_append_of_right (h : Message.messages n a = []) :
    sub? n (a ++ b) = (sub? n b : Option α) := by
  simp [sub?, Message.submessage?, Message.submessage, h]

/-! ### Levels of sub-objects -/

theorem depth_ofSub?_some (a : α) : Message.depth (ofSub? k (some a)) = levels a + 1 := by
  simp [ofSub?, Message.ofMessage?, Message.ofMessages, Record.depth, levels]

theorem depth_ofSub?_le {d : Nat} {o : Option α} (h : ∀ a ∈ o, levels a ≤ d) :
    Message.depth (ofSub? k o) ≤ d + 1 := by
  cases o with
  | none => exact Nat.zero_le _
  | some a =>
    rw [depth_ofSub?_some]
    exact Nat.succ_le_succ (h a rfl)

theorem depth_ofSubs_le {d : Nat} {as : List α} (h : ∀ a ∈ as, levels a ≤ d) :
    Message.depth (ofSubs k as) ≤ d + 1 := by
  refine Message.depth_ofMessages_le fun m hm => ?_
  obtain ⟨a, ha, rfl⟩ := List.mem_map.1 hm
  exact Nat.succ_le_succ (h a ha)

/-! ### Sub-objects of lawful types -/

section

variable [Lawful α]

@[simp] theorem subs_ofSubs (as : List α) : subs n (ofSubs n as) = as := by
  simp [subs, Lawful.ofMessage_toMessage, Function.comp_def]

@[simp] theorem sub?_ofSub? (o : Option α) : sub? n (ofSub? n o) = o := by
  cases o <;> simp [sub?, Message.submessage?, Message.submessage, Lawful.ofMessage_toMessage]

/-- A sub-object that was read nests no deeper than where it was read. -/
@[simp] theorem depth_ofSubs_subs (m : Message) :
    Message.depth (ofSubs k (subs n m : List α)) ≤ Message.depth m := by
  refine Message.depth_ofMessages_le fun sub hs => ?_
  simp only [subs, List.map_map, List.mem_map, Function.comp_apply] at hs
  obtain ⟨sub', hs', rfl⟩ := hs
  have := Message.depth_lt_of_mem_messages hs'
  have := Lawful.depth_le (α := α) sub'
  omega

@[simp] theorem depth_ofSub?_sub? (m : Message) :
    Message.depth (ofSub? k (sub? n m : Option α)) ≤ Message.depth m := by
  refine Message.depth_ofMessages_le fun sub hs => ?_
  simp only [sub?, Option.map_map, Option.mem_toList, Option.map_eq_some_iff,
    Function.comp_apply] at hs
  obtain ⟨sub', hs', rfl⟩ := hs
  have := Message.depth_lt_of_submessage? hs'
  have := Lawful.depth_le (α := α) sub'
  omega

variable {l : Layout}

theorem conforms_ofSubs (h : l.Declares k (.object (type α))) (as : List α) :
    Message.Conforms l (ofSubs k as) := by
  refine Message.conforms_ofMessages h rfl fun m hm => ?_
  obtain ⟨a, -, rfl⟩ := List.mem_map.1 hm
  exact Lawful.conforms a

theorem conforms_ofSub? (h : l.Declares k (.object (type α))) (o : Option α) :
    Message.Conforms l (ofSub? k o) := by
  refine Message.conforms_ofMessages h rfl fun m hm => ?_
  simp only [Option.mem_toList, Option.map_eq_some_iff] at hm
  obtain ⟨a, -, rfl⟩ := hm
  exact Lawful.conforms a

/-! ### Through bytes -/

/-- A lawful object is read back from its own bytes. -/
theorem decode_encode (a : α) (hlen : (encode a).length < 2 ^ 64) :
    (levels a ≤ levelLimit → decode α (encode a) = .ok a) ∧
      (levelLimit < levels a →
        ∃ f, decode α (encode a) = .error f ∧ f.cause = .recursionLimit) := by
  have hread := decode_print (Lawful.conforms a) hlen
  rwa [Lawful.ofMessage_toMessage] at hread

/-- What was read from some bytes nests within the budget. -/
theorem levels_le_of_decode {bs : Bytes} {a : α} (h : decode α bs = .ok a) :
    levels a ≤ levelLimit := by
  obtain ⟨m, hm, rfl⟩ := decode_eq_ok_iff.1 h
  rw [levels]
  exact Nat.le_trans (Lawful.depth_le m) (Layout.depth_le_of_decode hm)

end

end Object

end TxLens.Wire

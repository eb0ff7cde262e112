import TxLens.Proofs.Wire.Grammar
/-!
# What a message quotes

The texts and byte strings of a message that was read are quotations: each stands in the input as one
run of bytes. Readers only go forward, so what is left is the end of the input (`*_suffix`), and what
is read off the end of the input is read off the input. One induction over the records shows both
together (`readMessage_quotes`); merging the records of a message that is split adds no content.
-/

namespace TxLens.Wire

/-! ## Contents -/

mutual

/-- The texts and byte strings of a record, those of the messages in it included. -/
def Record.contents : Record → List Bytes
  | .word _ _ => []
  | .text _ s => [Bytes.ofText s]
  | .bytes _ b => [b]
  | .message _ rs => Message.contents rs

def Message.contents : List Record → List Bytes
  | [] => []
  | r :: rs => r.contents ++ Message.contents rs

end

namespace Message

theorem mem_contents_iff {c : Bytes} {m : Message} :
    c ∈ contents m ↔ ∃ r ∈ m, c ∈ r.contents := by
  induction m with
  | nil => simp [contents]
  | cons r rs ih => simp [contents, ih]

theorem contents_append (a b : Message) : contents (a ++ b) = contents a ++ contents b := by
  induction a with
  | nil => simp [contents]
  | cons r rs ih => simp [contents, ih]

variable {n : Nat} {m : Message}

theorem ofText_mem_contents {s : String} (h : s ∈ texts n m) : Bytes.ofText s ∈ contents m := by
  obtain ⟨r, hr, hs⟩ := List.mem_filterMap.1 h
  refine mem_contents_iff.2 ⟨r, hr, ?_⟩
  cases r <;> simp [Record.text?] at hs
  obtain ⟨-, rfl⟩ := hs
  exact List.mem_singleton_self _

theorem mem_contents_of_mem_byteStrings {b : Bytes} (h : b ∈ byteStrings n m) : b ∈ contents m := by
  obtain ⟨r, hr, hs⟩ := List.mem_filterMap.1 h
  refine mem_contents_iff.2 ⟨r, hr, ?_⟩
  cases r <;> simp [Record.bytes?] at hs
  obtain ⟨-, rfl⟩ := hs
  exact List.mem_singleton_self _

theorem contents_subset_of_mem_messages {sub : Message} (h : sub ∈ messages n m) :
    contents sub ⊆ contents m := by
  intro c hc
  obtain ⟨r, hr, hs⟩ := List.mem_filterMap.1 h
  refine mem_contents_iff.2 ⟨r, hr, ?_⟩
  cases r <;> simp [Record.message?] at hs
  obtain ⟨-, rfl⟩ := hs
  exact hc

theorem contents_flatten_subset {ms : List Message} {bs : List Bytes}
    (h : ∀ sub ∈ ms, contents sub ⊆ bs) : contents ms.flatten ⊆ bs := by
  intro c hc
  obtain ⟨r, hr, hc⟩ := mem_contents_iff.1 hc
  obtain ⟨sub, hsub, hr⟩ := List.mem_flatten.1 hr
  exact h sub hsub (mem_contents_iff.2 ⟨r, hr, hc⟩)

/-- What all occurrences of a sub-message hold together is held by the message. -/
theorem contents_submessage_subset (n : Nat) (m : Message) : contents (submessage n m) ⊆ contents m :=
  contents_flatten_subset fun _ h => contents_subset_of_mem_messages h

/-- The text of a field stands among the contents, unless it is the empty one of an absent field. -/
theorem text_eq_empty_or_mem (n : Nat) (m : Message) :
    text n m = "" ∨ Bytes.ofText (text n m) ∈ contents m := by
  unfold text
  cases h : (texts n m).getLast? with
  | none => exact .inl rfl
  | some s => exact .inr (ofText_mem_contents (List.mem_of_getLast? h))

theorem byteString_eq_nil_or_mem (n : Nat) (m : Message) :
    byteString n m = [] ∨ byteString n m ∈ contents m := by
  unfold byteString
  cases h : (byteStrings n m).getLast? with
  | none => exact .inl rfl
  | some b => exact .inr (mem_contents_of_mem_byteStrings (List.mem_of_getLast? h))

end Message

/-! ## Readers only go forward -/

theorem readVarint_suffix {s : Bytes} {r : Read Nat s} (h : readVarint s = .ok r) : r.rest <:+ s := by
  obtain ⟨w, hs, -⟩ := readVarint_iff.1 (Reads.of_eq h)
  exact ⟨w, hs.symm⟩

theorem readKey_suffix {s : Bytes} {r : Read Key s} (h : readKey s = .ok r) : r.rest <:+ s := by
  obtain ⟨w, hs, -⟩ := readKey_iff.1 (Reads.of_eq h)
  exact ⟨w, hs.symm⟩

/-- Delimited bytes stand in the input, and what is left stands at its end. -/
theorem readDelimited_quotes {s : Bytes} {r : Read Bytes s} (h : readDelimited s = .ok r) :
    r.value <:+: s ∧ r.rest <:+ s := by
  obtain ⟨w, hs, -⟩ := readDelimited_iff.1 (Reads.of_eq h)
  exact ⟨⟨w, r.rest, hs.symm⟩, ⟨w ++ r.value, hs.symm⟩⟩

theorem skipContent_suffix {levels : Nat} {k : Key} {s : Bytes} {r : Read Unit s}
    (h : skipContent levels k s = .ok r) : r.rest <:+ s := by
  obtain ⟨c, hs, -⟩ := (skipContent_iff levels k s r.rest).1 (Reads.of_eq h)
  exact ⟨c, hs.symm⟩

/-! ## What was read stands in the input -/

/-- A reading of records of which every content stands in the input. -/
structure Quotes {s : Bytes} (r : Read Message s) : Prop where
  atEnd : r.rest <:+ s
  standsIn : ∀ c ∈ Message.contents r.value, c <:+: s

section

variable {nested : Layout → (s : Bytes) → Except Fault (Read Message s)}

theorem readContent_quotes (hn : ∀ l s (r : Read Message s), nested l s = .ok r → Quotes r)
    {number : Nat} {type : FieldType} {w : WireType} {s : Bytes} {r : Read Record s}
    (h : readContent nested number type w s = .ok r) :
    r.rest <:+ s ∧ ∀ c ∈ r.value.contents, c <:+: s := by
  have message : ∀ {l : Layout}, (nested l s).map (Read.map (Record.message number)) = .ok r →
      r.rest <:+ s ∧ ∀ c ∈ r.value.contents, c <:+: s := by
    intro l hr
    cases hm : nested l s with
    | error e => rw [hm] at hr; cases hr
    | ok m =>
      rw [hm] at hr
      cases hr
      obtain ⟨hrest, hc⟩ := hn l s m hm
      exact ⟨hrest, hc⟩
  unfold readContent at h
  split at h
  · split at h
    · split at h
      · cases h
      · rename_i d hd
        split at h
        · cases h
        · rename_i t ht
          cases h
          obtain ⟨hv, hrest⟩ := readDelimited_quotes hd
          refine ⟨hrest, fun c hc => ?_⟩
          rw [List.mem_singleton.1 hc, Bytes.ofText_of_toText? ht]
          exact hv
    · split at h
      · cases h
      · rename_i d hd
        cases h
        obtain ⟨hv, hrest⟩ := readDelimited_quotes hd
        refine ⟨hrest, fun c hc => ?_⟩
        rw [List.mem_singleton.1 hc]
        exact hv
    · exact message h
    · exact message h
    · split at h
      · cases h
      · rename_i n hn
        cases h
        exact ⟨readVarint_suffix hn, fun c hc => by cases hc⟩
  · cases h

theorem readField_quotes (hn : ∀ l s (r : Read Message s), nested l s = .ok r → Quotes r)
    {l : Layout} {skips : Nat} {k : Key} {s : Bytes} {r : Read (Option Record) s}
    (h : readField l skips nested k s = .ok r) :
    r.rest <:+ s ∧ ∀ c ∈ Message.contents r.value.toList, c <:+: s := by
  unfold readField at h
  split at h
  · split at h
    · cases h
    · rename_i c hc
      cases h
      simpa [Message.contents] using readContent_quotes hn hc
  · split at h
    · cases h
    · rename_i c hc
      cases h
      exact ⟨skipContent_suffix hc, fun c hc => by cases hc⟩

end

/-- Reading records quotes where reading one field does. -/
theorem readRecords_quotes {stop : Nat}
    {field : Key → (s : Bytes) → Except Fault (Read (Option Record) s)}
    (hf : ∀ k s (r : Read (Option Record) s), field k s = .ok r →
      r.rest <:+ s ∧ ∀ c ∈ Message.contents r.value.toList, c <:+: s)
    (s : Bytes) : ∀ {r : Read Message s}, readRecords field stop s = .ok r → Quotes r := by
  fun_induction readRecords field stop s with
  | case1 s hs =>
    intro r h
    cases h
    exact ⟨List.suffix_refl s, fun c hc => by cases hc⟩
  | case2 => intro r h; cases h
  | case3 => intro r h; cases h
  | case4 => intro r h; cases h
  | case5 => intro r h; cases h
  | case6 s _ _ k hk f hfield _ m hm ih =>
    intro r h
    cases h
    have hkey := readKey_suffix hk
    obtain ⟨hrest, hc⟩ := hf _ _ f hfield
    obtain ⟨hrest', hc'⟩ := ih hm
    refine ⟨hrest'.trans (hrest.trans hkey), fun c hmem => ?_⟩
    rw [Message.contents_append, List.mem_append] at hmem
    rcases hmem with hmem | hmem
    · exact (hc c hmem).trans hkey.isInfix
    · exact (hc' c hmem).trans (hrest.trans hkey).isInfix

theorem readNested_quotes {message : (stop : Nat) → (s : Bytes) → Except Fault (Read Message s)}
    (hm : ∀ stop s (r : Read Message s), message stop s = .ok r → Quotes r)
    {s : Bytes} {r : Read Message s} (h : readNested message s = .ok r) : Quotes r := by
  unfold readNested at h
  split at h
  · cases h
  · rename_i n hn
    split at h
    · split at h
      · cases h
      · rename_i m hr
        cases h
        have hs := readVarint_suffix hn
        obtain ⟨hrest, hc⟩ := hm _ _ m hr
        exact ⟨hrest.trans hs, fun c hmem => (hc c hmem).trans hs.isInfix⟩
    · cases h

/-- **Reading a message quotes its input.** -/
theorem readMessage_quotes : ∀ (levels : Nat) (l : Layout) (stop : Nat) (s : Bytes)
    {r : Read Message s}, readMessage levels l stop s = .ok r → Quotes r
  | 0, l, stop, s, r, h => by
    simp only [readMessage] at h
    exact readRecords_quotes (fun k s r hr => readField_quotes (fun _ _ _ hn => by cases hn) hr) s h
  | levels + 1, l, stop, s, r, h => by
    simp only [readMessage] at h
    refine readRecords_quotes (fun k s r hr => readField_quotes (fun sub s r hn => ?_) hr) s h
    exact readNested_quotes (fun stop s _ => readMessage_quotes levels sub stop s) hn

/-- The contents of a message stand in the bytes that it was decoded from. -/
theorem Layout.isInfix_of_mem_contents {l : Layout} {bs : Bytes} {m : Message}
    (h : l.decode bs = .ok m) : ∀ c ∈ Message.contents m, c <:+: bs := by
  unfold Layout.decode at h
  cases hr : readMessage levelLimit l 0 bs with
  | error e => rw [hr] at h; cases h
  | ok r =>
    rw [hr] at h
    cases h
    exact (readMessage_quotes _ _ _ _ hr).standsIn

end TxLens.Wire

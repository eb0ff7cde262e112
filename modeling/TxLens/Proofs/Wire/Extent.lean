import TxLens.Wire.Parser
/-!
# How much a message can hold

A message that was read is bounded twice by what it was read from: its sub-messages nest no deeper
than the budget of levels allows, and its contents take no more bytes than were consumed. Both are
kept by every reader, so one induction over the records shows them together (`readMessage_within`).
-/

namespace TxLens.Wire

/-! ## Depth and weight -/

mutual

/-- The number of levels of messages that a record adds below the message it stands in. -/
def Record.depth : Record → Nat
  | .word _ _ | .text _ _ | .bytes _ _ => 0
  | .message _ rs => Message.depth rs + 1

/-- The number of levels of messages below a message. -/
def Message.depth : List Record → Nat
  | [] => 0
  | r :: rs => max r.depth (Message.depth rs)

end

mutual

/-- The bytes of a record's content, and one for its key. -/
def Record.weight : Record → Nat
  | .word _ _ => 1
  | .text _ s => (Bytes.ofText s).length + 1
  | .bytes _ b => b.length + 1
  | .message _ rs => Message.weight rs + 1

def Message.weight : List Record → Nat
  | [] => 0
  | r :: rs => r.weight + Message.weight rs

end

namespace Message

@[simp] theorem depth_nil : depth [] = 0 := rfl

@[simp] theorem depth_cons (r : Record) (rs : Message) : depth (r :: rs) = max r.depth (depth rs) := rfl

@[simp] theorem depth_append (a b : Message) : depth (a ++ b) = max (depth a) (depth b) := by
  induction a with
  | nil => simp
  | cons r rs ih => simp [ih, Nat.max_assoc]

theorem depth_le_iff {m : Message} {n : Nat} : depth m ≤ n ↔ ∀ r ∈ m, r.depth ≤ n := by
  induction m with
  | nil => simp
  | cons r rs ih => rw [depth_cons, Nat.max_le, ih, List.forall_mem_cons]

@[simp] theorem weight_nil : weight [] = 0 := rfl

@[simp] theorem weight_cons (r : Record) (rs : Message) :
    weight (r :: rs) = r.weight + weight rs := rfl

@[simp] theorem weight_append (a b : Message) : weight (a ++ b) = weight a + weight b := by
  induction a with
  | nil => simp
  | cons r rs ih => simp [ih, Nat.add_assoc]

theorem weight_le_of_mem {r : Record} {m : Message} (h : r ∈ m) : r.weight ≤ weight m := by
  induction m with
  | nil => simp at h
  | cons s rs ih =>
    simp only [List.mem_cons, weight_cons] at h ⊢
    rcases h with rfl | h
    · omega
    · have := ih h
      omega

/-- A sub-message weighs less than the message that holds it. -/
theorem weight_lt_of_mem_messages {n : Nat} {sub m : Message} (h : sub ∈ messages n m) :
    weight sub < weight m := by
  simp only [messages, List.mem_filterMap] at h
  obtain ⟨r, hr, hs⟩ := h
  have hw := weight_le_of_mem hr
  cases r <;> simp [Record.message?] at hs
  obtain ⟨-, rfl⟩ := hs
  simp only [Record.weight] at hw
  omega

/-- A byte string of a message is shorter than the message weighs, and so is one that is absent. -/
theorem length_byteString_le (n : Nat) (m : Message) : (byteString n m).length ≤ weight m := by
  unfold byteString
  cases h : (byteStrings n m).getLast? with
  | none => simp
  | some b =>
    have hb : b ∈ byteStrings n m := List.mem_of_getLast? h
    simp only [byteStrings, List.mem_filterMap] at hb
    obtain ⟨r, hr, hs⟩ := hb
    have hw := weight_le_of_mem hr
    cases r <;> simp [Record.bytes?] at hs
    obtain ⟨-, rfl⟩ := hs
    simp only [Record.weight] at hw
    simp only [Option.getD_some]
    omega

end Message

/-! ## What readers keep -/

/-- A message read off `s` nests at most `levels` deep and weighs no more than was consumed. -/
structure Within (levels : Nat) {s : Bytes} (r : Read Message s) : Prop where
  depth_le : Message.depth r.value ≤ levels
  weight_le : Message.weight r.value + r.rest.length ≤ s.length

theorem readBytes_length {n : Nat} {s : Bytes} {r : Read Bytes s} (h : readBytes n s = .ok r) :
    r.value.length + r.rest.length = s.length := by
  unfold readBytes at h
  split at h
  · cases h
    simp only [List.length_take, List.length_drop]
    omega
  · cases h

theorem readDelimited_length {s : Bytes} {r : Read Bytes s} (h : readDelimited s = .ok r) :
    r.value.length + r.rest.length ≤ s.length := by
  unfold readDelimited at h
  split at h
  · cases h
  · rename_i n hn
    split at h
    · cases h
    · rename_i b hb
      cases h
      have := readBytes_length hb
      have := n.le
      simp only [Read.widen_value, Read.widen_rest]
      omega

section

variable {levels : Nat} {nested : Layout → (s : Bytes) → Except Fault (Read Message s)}

/-- The record of a declared field, when nested messages are bounded. -/
theorem readContent_within
    (hn : ∀ l s (r : Read Message s), nested l s = .ok r → 0 < levels ∧ Within (levels - 1) r)
    {number : Nat} {type : FieldType} {w : WireType} {s : Bytes} {r : Read Record s}
    (h : readContent nested number type w s = .ok r) :
    r.value.depth ≤ levels ∧ r.value.weight + r.rest.length ≤ s.length + 1 := by
  have message : ∀ {l : Layout}, (nested l s).map (Read.map (Record.message number)) = .ok r →
      r.value.depth ≤ levels ∧ r.value.weight + r.rest.length ≤ s.length + 1 := by
    intro l hr
    cases hm : nested l s with
    | error e => simp [hm, Except.map] at hr
    | ok m =>
      obtain ⟨hpos, hd, hw⟩ := hn l s m hm
      simp only [hm, Except.map, Except.ok.injEq] at hr
      subst hr
      simp only [Read.map_value, Read.map_rest, Record.depth, Record.weight]
      omega
  unfold readContent at h
  split at h
  · split at h
    · split at h
      · cases h
      · rename_i d hd
        split at h
        · cases h
        · rename_i t ht
          cases h
          have := readDelimited_length hd
          have := congrArg List.length (Bytes.ofText_of_toText? ht)
          simp only [Read.map_value, Read.map_rest, Record.depth, Record.weight]
          omega
    · split at h
      · cases h
      · rename_i d hd
        cases h
        have := readDelimited_length hd
        simp only [Read.map_value, Read.map_rest, Record.depth, Record.weight]
        omega
    · exact message h
    · exact message h
    · split at h
      · cases h
      · rename_i n hn
        cases h
        have := n.le
        simp only [Read.map_value, Read.map_rest, Record.depth, Record.weight]
        omega
  · cases h

theorem readField_within
    (hn : ∀ l s (r : Read Message s), nested l s = .ok r → 0 < levels ∧ Within (levels - 1) r)
    {l : Layout} {skips : Nat} {k : Key} {s : Bytes} {r : Read (Option Record) s}
    (h : readField l skips nested k s = .ok r) :
    Message.depth r.value.toList ≤ levels ∧
      Message.weight r.value.toList + r.rest.length ≤ s.length + 1 := by
  unfold readField at h
  split at h
  · split at h
    · cases h
    · rename_i c hc
      cases h
      simpa using readContent_within hn hc
  · split at h
    · cases h
    · rename_i c hc
      cases h
      have := c.le
      simp only [Read.map_value, Read.map_rest, Option.toList_none, Message.depth_nil,
        Message.weight_nil]
      omega

end

/-- Reading records keeps the bounds that reading one field keeps. -/
theorem readRecords_within {levels stop : Nat}
    {field : Key → (s : Bytes) → Except Fault (Read (Option Record) s)}
    (hf : ∀ k s (r : Read (Option Record) s), field k s = .ok r →
      Message.depth r.value.toList ≤ levels ∧
        Message.weight r.value.toList + r.rest.length ≤ s.length + 1)
    (s : Bytes) : ∀ {r : Read Message s}, readRecords field stop s = .ok r → Within levels r := by
  fun_induction readRecords field stop s with
  | case1 s hs =>
    intro r h
    cases h
    exact ⟨Nat.zero_le _, by simp [Read.nothing]⟩
  | case2 => intro r h; cases h
  | case3 => intro r h; cases h
  | case4 => intro r h; cases h
  | case5 => intro r h; cases h
  | case6 s _ _ k hk c hc _ m hm ih =>
    intro r h
    cases h
    obtain ⟨hd, hw⟩ := hf _ _ c hc
    obtain ⟨hd', hw'⟩ := ih hm
    have := readKey_lt hk
    exact ⟨by simp only [Message.depth_append]; omega, by simp only [Message.weight_append]; omega⟩

theorem readNested_within {levels : Nat}
    {message : (stop : Nat) → (s : Bytes) → Except Fault (Read Message s)}
    (hm : ∀ stop s (r : Read Message s), message stop s = .ok r → Within levels r)
    {s : Bytes} {r : Read Message s} (h : readNested message s = .ok r) : Within levels r := by
  unfold readNested at h
  split at h
  · cases h
  · rename_i n hn
    split at h
    · split at h
      · cases h
      · rename_i m hr
        cases h
        obtain ⟨hd, hw⟩ := hm _ _ m hr
        have := n.le
        exact ⟨hd, by simp only [Read.widen_value, Read.widen_rest]; omega⟩
    · cases h

/-- **What reading a message can yield**: no more levels than the budget, no more content than the
bytes consumed. -/
theorem readMessage_within : ∀ (levels : Nat) (l : Layout) (stop : Nat) (s : Bytes)
    {r : Read Message s}, readMessage levels l stop s = .ok r → Within levels r
  | 0, l, stop, s, r, h => by
    simp only [readMessage] at h
    exact readRecords_within (fun k s r hr => readField_within (fun _ _ _ hn => by cases hn) hr) s h
  | levels + 1, l, stop, s, r, h => by
    simp only [readMessage] at h
    refine readRecords_within (fun k s r hr => readField_within (fun sub s r hn => ?_) hr) s h
    exact ⟨Nat.succ_pos _, readNested_within (readMessage_within levels sub) hn⟩

theorem Layout.depth_le_of_decode {l : Layout} {bs : Bytes} {m : Message} (h : l.decode bs = .ok m) :
    Message.depth m ≤ levelLimit := by
  unfold Layout.decode at h
  cases hr : readMessage levelLimit l 0 bs with
  | error e => simp [hr, Except.map] at h
  | ok r =>
    simp only [hr, Except.map, Except.ok.injEq] at h
    exact h ▸ (readMessage_within _ _ _ _ hr).depth_le

theorem Layout.weight_le_of_decode {l : Layout} {bs : Bytes} {m : Message}
    (h : l.decode bs = .ok m) : Message.weight m ≤ bs.length := by
  unfold Layout.decode at h
  cases hr : readMessage levelLimit l 0 bs with
  | error e => simp [hr, Except.map] at h
  | ok r =>
    simp only [hr, Except.map, Except.ok.injEq] at h
    have := (readMessage_within _ _ _ _ hr).weight_le
    rw [h] at this
    omega

end TxLens.Wire

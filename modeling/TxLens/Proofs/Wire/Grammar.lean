import Mathlib.Algebra.Group.Nat.Defs
import TxLens.Proofs.Wire.Varint
/-!
# Which bytes the readers take

The bytes that a reader takes off its input are a word of a grammar, and what it makes of them does
not depend on what follows. For numbers, keys, delimited bytes and the content of skipped fields the
grammar is written out, and the reader takes exactly its words (`*_iff`). A word is never longer in
one input than in another, so two words at the front of one input are the same (`IsContent.unique`).
-/

namespace TxLens.Wire

/-! ## Numbers -/

namespace Varint

/-- The bytes spell the number, seven bits a byte from the least significant on; all but the last have
their top bit set. -/
inductive Spells : Bytes → Nat → Prop
  | last {b : UInt8} (hb : b < 128) : Spells [b] b.toNat
  | more {b : UInt8} {w : Bytes} {n : Nat} (hb : ¬ b < 128) (hw : Spells w n) :
    Spells (b :: w) (b.toNat - 128 + 128 * n)

theorem Spells.length_pos {w : Bytes} {n : Nat} (h : Spells w n) : 0 < w.length := by
  cases h <;> simp

/-- The bytes are a number: at most ten of them, for at most 64 bits. -/
structure IsNumber (w : Bytes) (n : Nat) : Prop where
  spells : Spells w n
  short : w.length ≤ maxLength
  fits : n < 2 ^ 64

theorem IsNumber.byte {b : UInt8} (hb : b < 128) : IsNumber [b] b.toNat := by
  have := b.toNat_lt
  exact ⟨.last hb, by simp [maxLength], by omega⟩

/-- The last place has one bit, each of the others seven; so a number that takes up all places is
bounded, and one that does not is bounded anyway. -/
theorem read?_sound {places : Nat} {s : Bytes} {n : Nat} {rest : Bytes}
    (h : read? (places + 1) s = some (n, rest)) :
    ∃ w, s = w ++ rest ∧ Spells w n ∧ w.length ≤ places + 1 ∧ n < 2 * 128 ^ places := by
  induction places generalizing s n with
  | zero =>
    cases s with
    | nil => simp [read?] at h
    | cons b s =>
      by_cases hb : b < 128
      · simp only [read?, hb, ↓reduceIte, true_and, Option.ite_none_left_eq_some,
          Option.some.injEq, Prod.mk.injEq] at h
        obtain ⟨hlt, rfl, rfl⟩ := h
        refine ⟨[b], rfl, .last hb, by simp, ?_⟩
        rw [UInt8.le_iff_toNat_le] at hlt
        simpa using hlt
      · simp [read?, hb] at h
  | succ places ih =>
    cases s with
    | nil => simp [read?] at h
    | cons b s =>
      rw [Nat.pow_succ]
      by_cases hb : b < 128
      · rw [read?, if_pos hb, if_neg (by omega)] at h
        cases h
        refine ⟨[b], rfl, .last hb, by simp, ?_⟩
        have hpow := Nat.one_le_pow places 128 (by omega)
        have hlt := UInt8.lt_iff_toNat_lt.1 hb
        simp only [UInt8.reduceToNat] at hlt
        omega
      · rw [read?, if_neg hb] at h
        cases hr : read? (places + 1) s with
        | none => rw [hr] at h; cases h
        | some p =>
          obtain ⟨m, rest'⟩ := p
          rw [hr] at h
          cases h
          obtain ⟨w, rfl, hw, hlen, hm⟩ := ih hr
          have hlt := b.toNat_lt
          exact ⟨b :: w, rfl, .more hb hw, by simpa using hlen, by omega⟩

theorem read?_complete {w : Bytes} {n : Nat} (hw : Spells w n) {places : Nat}
    (hlen : w.length ≤ places + 1) (hn : n < 2 * 128 ^ places) (rest : Bytes) :
    read? (places + 1) (w ++ rest) = some (n, rest) := by
  induction hw generalizing places with
  | @last b hb =>
    have hone : ¬ (places = 0 ∧ 2 ≤ b) := by
      rintro ⟨rfl, htwo⟩
      have := UInt8.le_iff_toNat_le.1 htwo
      simp only [UInt8.reduceToNat] at this
      omega
    rw [List.singleton_append, read?, if_pos hb, if_neg hone]
  | @more b w n hb hw ih =>
    rw [List.length_cons] at hlen
    cases places with
    | zero =>
      have := hw.length_pos
      omega
    | succ places =>
      rw [Nat.pow_succ] at hn
      have hread : read? (places + 1) (w ++ rest) = some (n, rest) := ih (by omega) (by omega)
      rw [List.cons_append, read?, if_neg hb, hread]

end Varint

/-! ## What a reader returned -/

namespace Reads

variable {ε α β : Type} {s rest rest' : Bytes} {x : Except ε (Read α s)} {a a' : α}

theorem unique (h : Reads x a rest) (h' : Reads x a' rest') : a = a' ∧ rest = rest' := by
  obtain ⟨_, hx⟩ := h
  obtain ⟨_, hx'⟩ := h'
  cases hx.symm.trans hx'
  exact ⟨rfl, rfl⟩

theorem of_eq {r : Read α s} (h : x = .ok r) : Reads x r.value r.rest := ⟨r.le, h⟩

theorem map_iff {f : α → β} {b : β} :
    Reads (x.map (Read.map f)) b rest ↔ ∃ a, Reads x a rest ∧ f a = b := by
  constructor
  · rintro ⟨hle, h⟩
    cases x with
    | error e => cases h
    | ok r =>
      cases h
      exact ⟨r.value, of_eq rfl, rfl⟩
  · rintro ⟨a, ⟨hle, rfl⟩, rfl⟩
    exact ⟨hle, rfl⟩

theorem mapError_iff {ε' : Type} {f : ε → ε'} : Reads (x.mapError f) a rest ↔ Reads x a rest := by
  cases x with
  | error e =>
    constructor
    · rintro ⟨hle, h⟩
      cases h
    · rintro ⟨hle, h⟩
      cases h
  | ok r =>
    constructor
    · rintro ⟨hle, h⟩
      cases h
      exact of_eq rfl
    · rintro ⟨hle, h⟩
      cases h
      exact of_eq rfl

end Reads

/-! ## Numbers, keys and delimited bytes -/

theorem readVarint_iff {s : Bytes} {n : Nat} {rest : Bytes} :
    Reads (readVarint s) n rest ↔ ∃ w, s = w ++ rest ∧ Varint.IsNumber w n := by
  have hbound : 2 * 128 ^ 9 = 2 ^ 64 := by decide
  constructor
  · rintro ⟨hle, h⟩
    unfold readVarint at h
    split at h
    · cases h
    · rename_i hr
      cases h
      obtain ⟨w, hs, hw, hlen, hn⟩ := Varint.read?_sound hr
      exact ⟨w, hs, hw, hlen, Nat.lt_of_lt_of_eq hn hbound⟩
  · rintro ⟨w, rfl, hw, hlen, hn⟩
    have hr := Varint.read?_complete hw hlen (Nat.lt_of_lt_of_eq hn hbound.symm) rest
    unfold readVarint
    split
    · rename_i h
      cases hr.symm.trans h
    · rename_i h
      cases hr.symm.trans h
      exact ⟨by simp, rfl⟩

theorem Varint.isNumber_write {n : Nat} (hn : n < 2 ^ 64) : IsNumber (write n) n := by
  obtain ⟨w, hw, hnumber⟩ := readVarint_iff.1 (readVarint_write hn [])
  rw [List.append_cancel_right hw]
  exact hnumber

def WireType.code : WireType → Nat
  | .varint => 0
  | .sixtyFourBit => 1
  | .lengthDelimited => 2
  | .startGroup => 3
  | .endGroup => 4
  | .thirtyTwoBit => 5

theorem WireType.ofCode?_eq_some_iff {c : Nat} {w : WireType} : ofCode? c = some w ↔ c = w.code := by
  constructor
  · intro h
    unfold ofCode? at h
    split at h <;> cases h <;> rfl
  · rintro rfl
    cases w <;> rfl

theorem WireType.code_lt (w : WireType) : w.code < 8 := by
  cases w <;> decide

/-- The bytes are a key: a number that joins the field number and the code of the wire type. -/
structure Key.Spelled (k : Key) (w : Bytes) : Prop where
  number : Varint.IsNumber w (8 * k.number + k.wireType.code)
  positive : 0 < k.number
  bounded : k.number < 2 ^ 29

theorem Key.ofNat_eq_ok_iff {n : Nat} {k : Key} :
    Key.ofNat n = .ok k ↔ n = 8 * k.number + k.wireType.code ∧ 0 < k.number ∧ k.number < 2 ^ 29 := by
  have hcode := k.wireType.code_lt
  constructor
  · intro h
    unfold Key.ofNat at h
    split at h
    · cases h
    · split at h
      · cases h
      · rename_i w hw
        split at h
        · cases h
        · cases h
          have := WireType.ofCode?_eq_some_iff.1 hw
          simp only
          omega
  · rintro ⟨rfl, hpos, hlt⟩
    have hmod : (8 * k.number + k.wireType.code) % 8 = k.wireType.code := by omega
    have hdiv : (8 * k.number + k.wireType.code) / 8 = k.number := by omega
    rw [Key.ofNat, if_neg (by omega), hmod, WireType.ofCode?_eq_some_iff.2 rfl, hdiv]
    exact if_neg (by omega)

theorem readKey_iff {s : Bytes} {k : Key} {rest : Bytes} :
    Reads (readKey s) k rest ↔ ∃ w, s = w ++ rest ∧ k.Spelled w := by
  constructor
  · rintro ⟨hle, h⟩
    unfold readKey at h
    split at h
    · cases h
    · rename_i r hr
      split at h
      · cases h
      · rename_i k' hk
        cases h
        obtain ⟨w, hs, hw⟩ := readVarint_iff.1 (Reads.of_eq hr)
        obtain ⟨hn, hpos, hlt⟩ := Key.ofNat_eq_ok_iff.1 hk
        exact ⟨w, hs, hn ▸ hw, hpos, hlt⟩
  · rintro ⟨w, hs, hw, hpos, hlt⟩
    obtain ⟨hle, hr⟩ := readVarint_iff.2 ⟨w, hs, hw⟩
    refine ⟨hle, ?_⟩
    simp only [readKey, hr, Key.ofNat_eq_ok_iff.2 ⟨rfl, hpos, hlt⟩, Read.map]

theorem readBytes_iff {n : Nat} {s bs rest : Bytes} :
    Reads (readBytes n s) bs rest ↔ s = bs ++ rest ∧ bs.length = n := by
  constructor
  · rintro ⟨hle, h⟩
    unfold readBytes at h
    split at h
    · rename_i hn
      cases h
      exact ⟨(List.take_append_drop n s).symm, List.length_take_of_le hn⟩
    · cases h
  · rintro ⟨rfl, rfl⟩
    refine ⟨by simp, ?_⟩
    rw [readBytes, if_pos (by simp)]
    simp

/-- Bytes with their length before them. -/
def IsDelimited (w : Bytes) : Prop := ∃ len bs, w = len ++ bs ∧ Varint.IsNumber len bs.length

theorem readDelimited_iff {s content rest : Bytes} :
    Reads (readDelimited s) content rest ↔
      ∃ w, s = w ++ content ++ rest ∧ Varint.IsNumber w content.length := by
  constructor
  · rintro ⟨hle, h⟩
    unfold readDelimited at h
    split at h
    · cases h
    · rename_i n hn
      split at h
      · cases h
      · rename_i b hb
        cases h
        obtain ⟨w, hs, hw⟩ := readVarint_iff.1 (Reads.of_eq hn)
        obtain ⟨hrest, hlen⟩ := readBytes_iff.1 (Reads.of_eq hb)
        refine ⟨w, ?_, hlen ▸ hw⟩
        calc s = w ++ n.rest := hs
          _ = w ++ b.value ++ b.rest := by rw [List.append_assoc, ← hrest]
  · rintro ⟨w, rfl, hw⟩
    rw [List.append_assoc]
    obtain ⟨hle, hn⟩ := readVarint_iff.2 ⟨w, rfl, hw⟩
    obtain ⟨hle', hb⟩ : Reads (readBytes content.length (content ++ rest)) content rest :=
      readBytes_iff.2 ⟨rfl, rfl⟩
    exact ⟨Nat.le_trans hle' hle, by simp only [readDelimited, hn, hb, Read.widen]⟩

/-! ## Skipped fields -/

/-- The rest of a group: complete fields up to the key that ends the group of this number. -/
inductive IsGroup (content : Key → Bytes → Prop) (number : Nat) : Bytes → Prop
  | ends {w : Bytes} (hw : Key.Spelled ⟨number, .endGroup⟩ w) : IsGroup content number w
  | field {k : Key} {w c rest : Bytes} (hw : k.Spelled w) (hk : k.wireType ≠ .endGroup)
    (hc : content k c) (hrest : IsGroup content number rest) :
    IsGroup content number (w ++ c ++ rest)

/-- The complete content of a field with this key, whatever the field means, where groups nest no
deeper than `levels` allow. -/
def IsContent : (levels : Nat) → Key → Bytes → Prop
  | 0, _, _ => False
  | levels + 1, k, c =>
    match k.wireType with
    | .varint => ∃ n, Varint.IsNumber c n
    | .sixtyFourBit => c.length = 8
    | .thirtyTwoBit => c.length = 4
    | .lengthDelimited => IsDelimited c
    | .startGroup => IsGroup (IsContent levels) k.number c
    | .endGroup => False

section

variable {number : Nat} {skip : Key → (s : Bytes) → Except Cause (Read Unit s)}

/-- The key that ends the group, or a field and the rest of the group. -/
theorem skipGroup_iff_key {s rest : Bytes} :
    Reads (skipGroup number skip s) () rest ↔ ∃ k t, Reads (readKey s) k t ∧
      ((k = ⟨number, .endGroup⟩ ∧ t = rest) ∨
        (k.wireType ≠ .endGroup ∧ ∃ u, Reads (skip k t) () u ∧
          Reads (skipGroup number skip u) () rest)) := by
  constructor
  · rintro ⟨hle, h⟩
    rw [skipGroup] at h
    split at h
    · cases h
    · rename_i r hr
      refine ⟨r.value, r.rest, Reads.of_eq hr, ?_⟩
      split at h
      · rename_i hend
        split at h
        · rename_i hnum
          cases h
          exact .inl ⟨by rw [← hnum, ← hend], rfl⟩
        · cases h
      · rename_i hend
        split at h
        · cases h
        · rename_i u hu
          simp only at h
          split at h
          · cases h
          · rename_i e he
            cases h
            exact .inr ⟨hend, u.rest, Reads.of_eq hu, Reads.of_eq he⟩
  · rintro ⟨k, t, ⟨hle, hk⟩, h⟩
    rw [skipGroup]
    split
    · rename_i hr
      cases hk.symm.trans hr
    · rename_i r hr
      cases hk.symm.trans hr
      rcases h with ⟨rfl, rfl⟩ | ⟨hend, u, ⟨hle', hu⟩, ⟨hle'', hg⟩⟩
      · exact ⟨hle, by simp [Read.map]⟩
      · simp only [if_neg hend, hu, hg]
        exact ⟨_, rfl⟩

theorem skipGroup_iff {content : Key → Bytes → Prop}
    (hskip : ∀ k s rest, Reads (skip k s) () rest ↔ ∃ c, s = c ++ rest ∧ content k c)
    {s rest : Bytes} :
    Reads (skipGroup number skip s) () rest ↔ ∃ c, s = c ++ rest ∧ IsGroup content number c := by
  constructor
  · induction hlen : s.length using Nat.strongRecOn generalizing s with
    | ind n ih =>
      subst hlen
      intro h
      obtain ⟨k, t, hk, hcases⟩ := skipGroup_iff_key.1 h
      obtain ⟨w, rfl, hw⟩ := readKey_iff.1 hk
      rcases hcases with ⟨rfl, rfl⟩ | ⟨hend, u, hu, hg⟩
      · exact ⟨w, rfl, .ends hw⟩
      · obtain ⟨c, rfl, hc⟩ := (hskip _ _ _).1 hu
        have hpos := hw.number.spells.length_pos
        obtain ⟨g, rfl, hgroup⟩ := ih u.length (by simp only [List.length_append]; omega) rfl hg
        exact ⟨w ++ c ++ g, by simp, .field hw hend hc hgroup⟩
  · rintro ⟨c, rfl, hc⟩
    induction hc with
    | ends hw => exact skipGroup_iff_key.2 ⟨_, rest, readKey_iff.2 ⟨_, rfl, hw⟩, .inl ⟨rfl, rfl⟩⟩
    | @field k w c g hw hend hc _ ih =>
      refine skipGroup_iff_key.2 ⟨k, c ++ (g ++ rest), readKey_iff.2 ⟨w, by simp, hw⟩, .inr ⟨hend, ?_⟩⟩
      exact ⟨g ++ rest, (hskip _ _ _).2 ⟨c, rfl, hc⟩, ih⟩

end

/-- **What is skipped** is the complete content of the field, and nothing else. -/
theorem skipContent_iff : ∀ (levels : Nat) (k : Key) (s rest : Bytes),
    Reads (skipContent levels k s) () rest ↔ ∃ c, s = c ++ rest ∧ IsContent levels k c
  | 0, k, s, rest => by
    constructor
    · rintro ⟨hle, h⟩
      cases h
    · rintro ⟨c, -, hc⟩
      exact hc.elim
  | levels + 1, ⟨number, wireType⟩, s, rest => by
    cases wireType with
    | varint =>
      simp only [skipContent, IsContent, Reads.map_iff, and_true, readVarint_iff]
      exact ⟨fun ⟨n, w, hs, hw⟩ => ⟨w, hs, n, hw⟩, fun ⟨w, hs, n, hw⟩ => ⟨n, w, hs, hw⟩⟩
    | sixtyFourBit => simp only [skipContent, IsContent, Reads.map_iff, and_true, readBytes_iff]
    | thirtyTwoBit => simp only [skipContent, IsContent, Reads.map_iff, and_true, readBytes_iff]
    | lengthDelimited =>
      simp only [skipContent, IsContent, Reads.map_iff, and_true, readDelimited_iff]
      constructor
      · rintro ⟨bs, w, hs, hw⟩
        exact ⟨w ++ bs, hs, w, bs, rfl, hw⟩
      · rintro ⟨c, hs, w, bs, rfl, hw⟩
        exact ⟨bs, w, hs, hw⟩
    | startGroup =>
      simp only [skipContent, IsContent]
      exact skipGroup_iff (skipContent_iff levels)
    | endGroup =>
      constructor
      · rintro ⟨hle, h⟩
        cases h
      · rintro ⟨c, -, hc⟩
        exact hc.elim

/-- No content of a field is the beginning of another one. -/
theorem IsContent.unique {levels : Nat} {k : Key} {c c' rest rest' : Bytes}
    (h : IsContent levels k c) (h' : IsContent levels k c') (hs : c ++ rest = c' ++ rest') :
    c = c' ∧ rest = rest' := by
  have hread := (skipContent_iff levels k (c ++ rest) rest).2 ⟨c, rfl, h⟩
  have hread' := (skipContent_iff levels k (c ++ rest) rest').2 ⟨c', hs, h'⟩
  obtain ⟨-, rfl⟩ := hread.unique hread'
  exact ⟨List.append_cancel_right hs, rfl⟩

end TxLens.Wire

import TxLens.Key
import TxLens.Proofs.Wire.Object
import TxLens.Tx
/-!
# Transactions, results and keys through bytes

Every object of the transaction format is lawful, most of them field by field. A signing mode is the
exception: it holds one of several alternatives and further modes, so its laws go by recursion over
the mode and over the message it is read from.

From the laws follows the round trip of every object (`roundTrips_objects`): unpacking what was packed
gives the object back unless it nests too deep, and what was read from any bytes is read again from
its own.
-/

namespace TxLens

open Wire Wire.Object Wire.Message
open Wire.ObjectType (declares)

/-! ## Keys and events -/

instance : Lawful Envelope where
  conforms e := (conforms_ofText (declares rfl) _).append (conforms_ofByteString (declares rfl) _)
  ofMessage_toMessage e := by
    simp only [Object.ofMessage, Object.toMessage]
    simp [text, byteString]
  depth_le m := by
    simp only [Object.ofMessage, Object.toMessage]
    simp

instance : Lawful BitArray where
  conforms a := (conforms_ofUInt32 (declares rfl) _).append
    (conforms_ofByteString (declares rfl) _)
  ofMessage_toMessage a := by
    simp only [Object.ofMessage, Object.toMessage]
    simp [word, byteString]
  depth_le m := by
    simp only [Object.ofMessage, Object.toMessage]
    simp

instance : Lawful KeyBytes where
  conforms k := conforms_ofByteString (declares rfl) _
  ofMessage_toMessage k := by
    simp only [Object.ofMessage, Object.toMessage]
    simp [byteString]
  depth_le m := by
    simp only [Object.ofMessage, Object.toMessage]
    simp

instance : Lawful MultisigKey where
  conforms k := (conforms_ofUInt32 (declares rfl) _).append (conforms_ofSubs (declares rfl) _)
  ofMessage_toMessage k := by
    simp only [Object.ofMessage, Object.toMessage]
    simp [word]
  depth_le m := by
    simp only [Object.ofMessage, Object.toMessage]
    simp

instance : Lawful Attribute where
  conforms a := (conforms_ofText (declares rfl) _).append (conforms_ofText (declares rfl) _)
    |>.append (conforms_ofBool (declares rfl) _)
  ofMessage_toMessage a := by
    have hb : (a.indexed.toUInt64 != 0) = a.indexed := by cases a.indexed <;> rfl
    simp only [Object.ofMessage, Object.toMessage]
    simp [text, word, hb]
  depth_le m := by
    simp only [Object.ofMessage, Object.toMessage]
    simp

instance : Lawful Event where
  conforms e := (conforms_ofText (declares rfl) _).append (conforms_ofSubs (declares rfl) _)
  ofMessage_toMessage e := by
    simp only [Object.ofMessage, Object.toMessage]
    simp [text]
  depth_le m := by
    simp only [Object.ofMessage, Object.toMessage]
    simp

/-! ## Signing modes -/

namespace ModeInfo

theorem ofMessage_unset {m : Message} (h : m.lastChoice = none) : ofMessage m = .unset := by
  rw [ofMessage]
  split <;> simp_all

theorem ofMessage_single {m inner : Message} (h : m.lastChoice = some (1, inner)) :
    ofMessage m = .single (inner.word 1).toUInt32.toInt32 := by
  rw [ofMessage]
  split <;> simp_all

theorem ofMessage_multi {m inner : Message} {n : Nat} (h : m.lastChoice = some (n, inner))
    (hn : n ≠ 1) :
    ofMessage m = .multi (Object.sub? 1 inner) ((messages 2 inner).map ofMessage) := by
  rw [ofMessage]
  split
  · simp_all
  · simp_all
  · rename_i h'
    rw [h] at h'
    cases h'
    simp

theorem ofModes_eq (modes : List ModeInfo) : ofModes modes = ofMessages 2 (modes.map toMessage) := by
  induction modes with
  | nil => rfl
  | cons m ms ih => rw [ofModes, ih, ofMessages, ofMessages, List.map_cons, List.map_cons]

mutual

theorem ofMessage_toMessage : ∀ i : ModeInfo, ofMessage i.toMessage = i
  | .unset => ofMessage_unset (by rw [toMessage]; rfl)
  | .single mode => by
    rw [ofMessage_single (by rw [toMessage]; rfl)]
    simp [word, toInt32_toUInt64]
  | .multi bits modes => by
    rw [ofMessage_multi (n := 2) (by rw [toMessage]; rfl) (by decide), ofModes_eq]
    simpa using map_ofMessage_toMessage modes

theorem map_ofMessage_toMessage : ∀ modes : List ModeInfo,
    (modes.map toMessage).map ofMessage = modes
  | [] => rfl
  | m :: ms => by
    rw [List.map_cons, List.map_cons, ofMessage_toMessage m, map_ofMessage_toMessage ms]

end

mutual

theorem conforms_toMessage : ∀ i : ModeInfo, Conforms ObjectType.modeInfo.layout i.toMessage
  | .unset => by rw [toMessage]; trivial
  | .single mode => by
    rw [toMessage]
    exact ⟨⟨_, _, declares rfl, rfl, conforms_ofInt32 (declares rfl) mode⟩, trivial⟩
  | .multi bits modes => by
    rw [toMessage, ofModes_eq]
    refine ⟨⟨_, _, declares rfl, rfl, (conforms_ofSub? (declares rfl) bits).append ?_⟩, trivial⟩
    exact conforms_ofMessages (declares rfl) rfl (conforms_map_toMessage modes)

theorem conforms_map_toMessage : ∀ modes : List ModeInfo,
    ∀ m ∈ modes.map toMessage, Conforms ObjectType.modeInfo.layout m
  | [], m, hm => by simp at hm
  | i :: is, m, hm => by
    rcases List.mem_cons.1 hm with rfl | hm
    · exact conforms_toMessage i
    · exact conforms_map_toMessage is m hm

end

theorem depth_toMessage_ofMessage_le (m : Message) : depth (ofMessage m).toMessage ≤ depth m := by
  cases h : m.lastChoice with
  | none => simp [ofMessage_unset h, toMessage]
  | some c =>
    obtain ⟨n, inner⟩ := c
    have hinner := depth_lt_of_lastChoice h
    by_cases hn : n = 1
    · subst hn
      simp only [ofMessage_single h, toMessage, depth_cons, Record.depth, depth_ofWord, depth_nil]
      omega
    · simp only [ofMessage_multi h hn, toMessage, depth_cons, Record.depth, depth_append, depth_nil]
      have hbits := depth_ofSub?_sub? (α := BitArray) (n := 1) (k := 1) inner
      have hmodes : depth (ofModes ((messages 2 inner).map ofMessage)) ≤ depth inner := by
        rw [ofModes_eq]
        refine depth_ofMessages_le fun sub hs => ?_
        simp only [List.map_map, List.mem_map, Function.comp_apply] at hs
        obtain ⟨sub', hs', rfl⟩ := hs
        have hsize : size sub' < size m :=
          Nat.lt_trans (size_lt_of_mem_messages hs') (size_lt_of_lastChoice h)
        have := depth_lt_of_mem_messages hs'
        have := depth_toMessage_ofMessage_le sub'
        omega
      omega
termination_by size m

instance : Lawful ModeInfo where
  conforms := conforms_toMessage
  ofMessage_toMessage := ofMessage_toMessage
  depth_le := depth_toMessage_ofMessage_le

end ModeInfo

/-! ## Transactions -/

instance : Lawful Coin where
  conforms c := (conforms_ofText (declares rfl) _).append (conforms_ofText (declares rfl) _)
  ofMessage_toMessage c := by
    simp only [Object.ofMessage, Object.toMessage]
    simp [text]
  depth_le m := by
    simp only [Object.ofMessage, Object.toMessage]
    simp

instance : Lawful TxBody where
  conforms b := (conforms_ofSubs (declares rfl) _).append (conforms_ofText (declares rfl) _)
    |>.append (conforms_ofUInt64 (declares rfl) _)
  ofMessage_toMessage b := by
    simp only [Object.ofMessage, Object.toMessage]
    simp [text, word]
  depth_le m := by
    simp only [Object.ofMessage, Object.toMessage]
    simp

instance : Lawful SignerInfo where
  conforms s := (conforms_ofSub? (declares rfl) _).append (conforms_ofSub? (declares rfl) _)
    |>.append (conforms_ofUInt64 (declares rfl) _)
  ofMessage_toMessage s := by
    simp only [Object.ofMessage, Object.toMessage]
    simp [word]
  depth_le m := by
    simp only [Object.ofMessage, Object.toMessage, depth_append, Nat.max_le]
    simp

instance : Lawful FeeOffer where
  conforms f := (conforms_ofSubs (declares rfl) _).append (conforms_ofUInt64 (declares rfl) _)
    |>.append (conforms_ofText (declares rfl) _)
    |>.append (conforms_ofText (declares rfl) _)
  ofMessage_toMessage f := by
    simp only [Object.ofMessage, Object.toMessage]
    simp [text, word]
  depth_le m := by
    simp only [Object.ofMessage, Object.toMessage]
    simp

instance : Lawful AuthInfo where
  conforms a := (conforms_ofSubs (declares rfl) _).append (conforms_ofSub? (declares rfl) _)
  ofMessage_toMessage a := by
    simp only [Object.ofMessage, Object.toMessage]
    simp
  depth_le m := by
    simp only [Object.ofMessage, Object.toMessage, depth_append, Nat.max_le]
    simp

instance : Lawful Tx where
  conforms t := (conforms_ofSub? (declares rfl) _).append (conforms_ofSub? (declares rfl) _)
    |>.append (conforms_ofByteStrings (declares rfl) _)
  ofMessage_toMessage t := by
    simp only [Object.ofMessage, Object.toMessage]
    simp
  depth_le m := by
    simp only [Object.ofMessage, Object.toMessage, depth_append, Nat.max_le]
    simp

/-! ## Results -/

instance : Lawful MessageLog where
  conforms l := (conforms_ofUInt32 (declares rfl) _).append (conforms_ofText (declares rfl) _)
    |>.append (conforms_ofSubs (declares rfl) _)
  ofMessage_toMessage l := by
    simp only [Object.ofMessage, Object.toMessage]
    simp [text, word]
  depth_le m := by
    simp only [Object.ofMessage, Object.toMessage]
    simp

instance : Lawful TxResponse where
  conforms r := (conforms_ofInt64 (declares rfl) _).append (conforms_ofText (declares rfl) _)
    |>.append (conforms_ofText (declares rfl) _)
    |>.append (conforms_ofUInt32 (declares rfl) _)
    |>.append (conforms_ofText (declares rfl) _)
    |>.append (conforms_ofSubs (declares rfl) _)
    |>.append (conforms_ofInt64 (declares rfl) _)
    |>.append (conforms_ofInt64 (declares rfl) _)
    |>.append (conforms_ofSub? (declares rfl) _)
    |>.append (conforms_ofText (declares rfl) _)
    |>.append (conforms_ofSubs (declares rfl) _)
  ofMessage_toMessage r := by
    simp only [Object.ofMessage, Object.toMessage]
    simp [text, word]
  depth_le m := by
    simp only [Object.ofMessage, Object.toMessage, depth_append, Nat.max_le]
    simp

instance : Lawful GetTxResponse where
  conforms r := (conforms_ofSub? (declares rfl) _).append (conforms_ofSub? (declares rfl) _)
  ofMessage_toMessage r := by
    simp only [Object.ofMessage, Object.toMessage]
    simp
  depth_le m := by
    simp only [Object.ofMessage, Object.toMessage, depth_append, Nat.max_le]
    simp

/-! ## Levels of keys -/

theorem Envelope.levels_eq (e : Envelope) : levels e = 0 := by
  simp [levels, Object.toMessage]

theorem MultisigKey.levels_le (k : MultisigKey) : levels k ≤ 1 := by
  have hmembers : depth (ofSubs 2 k.members) ≤ 1 :=
    depth_ofSubs_le fun e _ => Nat.le_of_eq e.levels_eq
  simpa [levels, Object.toMessage] using hmembers

/-! ## Round trips -/

/-- What packing and unpacking make of every object of a type, as long as a length of 64 bits can count
its bytes. The budget counts the levels of messages below the object; reading never exceeds it, so
bytes that were read as an object are read as the same object once they are written anew. -/
structure RoundTrips (α : Type) [Object α] : Prop where
  unpack_pack : ∀ (typeUrl : String) (a : α), (encode a).length < 2 ^ 64 → levels a ≤ levelLimit →
    (Envelope.pack typeUrl a).unpack α = .ok a
  unpack_pack_deep : ∀ (typeUrl : String) (a : α), (encode a).length < 2 ^ 64 →
    levelLimit < levels a →
      ∃ f, (Envelope.pack typeUrl a).unpack α = .error f ∧ f.cause = .recursionLimit
  decode_encode_of_decode : ∀ (bs : Bytes) (a : α), decode α bs = .ok a →
    (encode a).length < 2 ^ 64 → decode α (encode a) = .ok a

theorem RoundTrips.of_lawful (α : Type) [Object α] [Lawful α] : RoundTrips α where
  unpack_pack _ a hlen hd := (decode_encode a hlen).1 hd
  unpack_pack_deep _ a hlen hd := (decode_encode a hlen).2 hd
  decode_encode_of_decode _ a h hlen := (decode_encode a hlen).1 (levels_le_of_decode h)

/-- **Decoding undoes encoding** over the whole transaction and key format, with the budget of levels
as the exact boundary. -/
theorem roundTrips_objects :
    (RoundTrips GetTxResponse ∧ RoundTrips Tx ∧ RoundTrips TxBody ∧ RoundTrips AuthInfo ∧
      RoundTrips SignerInfo ∧ RoundTrips ModeInfo ∧ RoundTrips FeeOffer ∧ RoundTrips Coin) ∧
    (RoundTrips TxResponse ∧ RoundTrips MessageLog ∧ RoundTrips Event ∧ RoundTrips Attribute) ∧
    (RoundTrips Envelope ∧ RoundTrips MultisigKey ∧ RoundTrips KeyBytes ∧ RoundTrips BitArray) := by
  refine ⟨⟨?_, ?_, ?_, ?_, ?_, ?_, ?_, ?_⟩, ⟨?_, ?_, ?_, ?_⟩, ⟨?_, ?_, ?_, ?_⟩⟩ <;>
    exact RoundTrips.of_lawful _

/-- A mode inside so many multisig modes, each of which adds two levels. -/
def ModeInfo.nested (i : ModeInfo) : Nat → ModeInfo
  | 0 => i
  | n + 1 => .multi none [nested i n]

/-- Fifty multisig modes around an empty one are at the limit; around a single one, past it. -/
theorem ModeInfo.unpack_nested :
    (Envelope.pack "mode" (nested .unset 50)).unpack ModeInfo = .ok (nested .unset 50) ∧
      ∃ f, (Envelope.pack "mode" (nested (.single (-1)) 50)).unpack ModeInfo = .error f ∧
        f.cause = .recursionLimit := by
  obtain ⟨⟨-, -, -, -, -, hmode, -, -⟩, -, -⟩ := roundTrips_objects
  constructor
  · exact hmode.unpack_pack "mode" _ (by decide +kernel) (by decide +kernel)
  · exact hmode.unpack_pack_deep "mode" _ (by decide +kernel) (by decide +kernel)

end TxLens

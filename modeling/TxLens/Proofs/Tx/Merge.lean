import TxLens.Proofs.Tx.RoundTrip
/-!
# Merged transactions, results and keys

Bytes of an object followed by bytes of another one of the same type are bytes of an object again.
`Mergeable.merge` says of which, field by field: a value that stands once is the later one unless
that is the default, repeated values follow each other, and a sub-object that both have is merged in
its turn. Only a signing mode does not merge field by field, since it holds one of several
alternatives; the same alternative merges and a different one replaces.

The records of a message merge by being appended, so each type needs one law about its records
(`LawfulMerge`), and what is proved for all bytes follows from it (`merges_objects`).
-/

namespace TxLens

open Wire Wire.Object Wire.Message

/-- The later of two values of a field that is not written where it holds its default. -/
def later {β : Type} [DecidableEq β] (default a b : β) : β := if b = default then a else b

/-- Objects that merge; the second one comes later. -/
class Mergeable (α : Type) where
  merge : α → α → α

open Mergeable

/-- Sub-objects merge where both are there. -/
instance {α : Type} [Mergeable α] : Mergeable (Option α) where
  merge := Option.merge merge

/-! ## Keys and events -/

instance : Mergeable Envelope where
  merge a b := ⟨later "" a.typeUrl b.typeUrl, later [] a.value b.value⟩

instance : Mergeable BitArray where
  merge a b := ⟨later 0 a.extra b.extra, later [] a.elems b.elems⟩

instance : Mergeable KeyBytes where
  merge a b := ⟨later [] a.key b.key⟩

instance : Mergeable MultisigKey where
  merge a b := ⟨later 0 a.threshold b.threshold, a.members ++ b.members⟩

instance : Mergeable Attribute where
  merge a b := ⟨later "" a.key b.key, later "" a.value b.value, later false a.indexed b.indexed⟩

instance : Mergeable Event where
  merge a b := ⟨later "" a.type b.type, a.attributes ++ b.attributes⟩

/-! ## Transactions -/

instance : Mergeable ModeInfo where
  merge
    | a, .unset => a
    | .single m, .single m' => .single (later 0 m m')
    | .multi bits modes, .multi bits' modes' => .multi (merge bits bits') (modes ++ modes')
    | _, b => b

instance : Mergeable Coin where
  merge a b := ⟨later "" a.denom b.denom, later "" a.amount b.amount⟩

instance : Mergeable TxBody where
  merge a b := ⟨a.messages ++ b.messages, later "" a.memo b.memo,
    later 0 a.timeoutHeight b.timeoutHeight⟩

instance : Mergeable SignerInfo where
  merge a b := ⟨merge a.publicKey b.publicKey, merge a.modeInfo b.modeInfo,
    later 0 a.sequence b.sequence⟩

instance : Mergeable FeeOffer where
  merge a b := ⟨a.amount ++ b.amount, later 0 a.gasLimit b.gasLimit, later "" a.payer b.payer,
    later "" a.granter b.granter⟩

instance : Mergeable AuthInfo where
  merge a b := ⟨a.signerInfos ++ b.signerInfos, merge a.fee b.fee⟩

instance : Mergeable Tx where
  merge a b := ⟨merge a.body b.body, merge a.authInfo b.authInfo, a.signatures ++ b.signatures⟩

/-! ## Results -/

instance : Mergeable MessageLog where
  merge a b := ⟨later 0 a.msgIndex b.msgIndex, later "" a.log b.log, a.events ++ b.events⟩

instance : Mergeable TxResponse where
  merge a b :=
    { height := later 0 a.height b.height
      txhash := later "" a.txhash b.txhash
      codespace := later "" a.codespace b.codespace
      code := later 0 a.code b.code
      rawLog := later "" a.rawLog b.rawLog
      logs := a.logs ++ b.logs
      gasWanted := later 0 a.gasWanted b.gasWanted
      gasUsed := later 0 a.gasUsed b.gasUsed
      tx := merge a.tx b.tx
      timestamp := later "" a.timestamp b.timestamp
      events := a.events ++ b.events }

instance : Mergeable GetTxResponse where
  merge a b := ⟨merge a.tx b.tx, merge a.txResponse b.txResponse⟩

/-! ## Views of two written fields -/

/-- A number that is written in another type is the later one there too. -/
theorem later_of_leftInverse {β γ : Type} [DecidableEq β] [DecidableEq γ] {f : β → γ} {g : γ → β}
    (h : ∀ c, f (g c) = c) (d a b : γ) : f (later (g d) (g a) (g b)) = later d a b := by
  unfold later
  rw [apply_ite f, h, h]
  by_cases hb : b = d
  · rw [hb, if_pos rfl, if_pos rfl]
  · rw [if_neg hb, if_neg fun hg => hb (by rw [← h b, hg, h])]

@[simp] theorem later_toUInt32 (a b : UInt32) :
    (later 0 a.toUInt64 b.toUInt64).toUInt32 = later 0 a b :=
  later_of_leftInverse UInt32.toUInt32_toUInt64 0 a b

@[simp] theorem later_toInt64 (a b : Int64) :
    (later 0 a.toUInt64 b.toUInt64).toInt64 = later 0 a b :=
  later_of_leftInverse Int64.toInt64_toUInt64 0 a b

@[simp] theorem later_toInt32 (a b : Int32) :
    (later 0 a.toInt64.toUInt64 b.toInt64.toUInt64).toUInt32.toInt32 = later 0 a b :=
  later_of_leftInverse (f := fun w : UInt64 => w.toUInt32.toInt32)
    (g := fun v : Int32 => v.toInt64.toUInt64) toInt32_toUInt64 0 a b

@[simp] theorem later_toBool (a b : Bool) :
    (later 0 a.toUInt64 b.toUInt64 != 0) = later false a b :=
  later_of_leftInverse (f := fun w : UInt64 => w != 0) (g := Bool.toUInt64)
    (by intro c; cases c <;> rfl) false a b

/-- A value is read where it was written, and otherwise what was there before. -/
@[simp] theorem getD_getLast?_later {β : Type} [DecidableEq β] (d a b : β) :
    (if b = d then ([] : List β) else [b]).getLast?.getD a = later d a b := by
  unfold later
  split <;> rfl

/-! ## The records of two objects -/

section

variable {α : Type} [Object α]

/-- The sub-object that all the occurrences of a field make together. -/
def joined? (ms : List Message) : Option α :=
  if ms.isEmpty then none else some (ofMessage ms.flatten)

/-- Two messages may both hold the field, so its occurrences are looked at together. -/
theorem sub?_eq_joined? (n : Nat) (m : Message) :
    sub? n m = (joined? (messages n m) : Option α) := by
  unfold sub? submessage? joined? submessage
  split <;> rfl

/-- The records of two objects, one after the other, are read as their merge. -/
class LawfulMerge (α : Type) [Object α] [Mergeable α] : Prop where
  ofMessage_append : ∀ a b : α, ofMessage (toMessage a ++ toMessage b) = merge a b

variable [Lawful α] [Mergeable α] [LawfulMerge α]

@[simp] theorem joined?_append (x y : Option α) :
    joined? ((x.map toMessage).toList ++ (y.map toMessage).toList) = merge x y := by
  cases x <;> cases y <;>
    simp [joined?, merge, Lawful.ofMessage_toMessage, LawfulMerge.ofMessage_append]

/-- The bytes of two objects, one after the other, are read as their merge when both nest within the
budget, and refused for the budget when one of them does not. -/
theorem decode_encode_append (a b : α) (hlen : (encode a ++ encode b).length < 2 ^ 64) :
    (levels a ≤ levelLimit → levels b ≤ levelLimit →
        decode α (encode a ++ encode b) = .ok (merge a b)) ∧
      (levelLimit < max (levels a) (levels b) →
        ∃ f, decode α (encode a ++ encode b) = .error f ∧ f.cause = .recursionLimit) := by
  have hprint : encode a ++ encode b = print (toMessage a ++ toMessage b) :=
    (print_append _ _).symm
  have hdepth : depth (toMessage a ++ toMessage b) = max (levels a) (levels b) := depth_append _ _
  rw [hprint] at hlen ⊢
  have hread := decode_print ((Lawful.conforms a).append (Lawful.conforms b)) hlen
  rwa [LawfulMerge.ofMessage_append, hdepth, Nat.max_le, and_imp] at hread

end

/-! ## Lawful merges -/

instance : LawfulMerge Envelope where
  ofMessage_append a b := by
    simp only [Object.ofMessage, Object.toMessage]
    simp [text, byteString, merge]

instance : LawfulMerge BitArray where
  ofMessage_append a b := by
    simp only [Object.ofMessage, Object.toMessage]
    simp [word, byteString, merge]

instance : LawfulMerge KeyBytes where
  ofMessage_append a b := by
    simp only [Object.ofMessage, Object.toMessage]
    simp [byteString, merge]

instance : LawfulMerge MultisigKey where
  ofMessage_append a b := by
    simp only [Object.ofMessage, Object.toMessage]
    simp [word, merge]

instance : LawfulMerge Attribute where
  ofMessage_append a b := by
    simp only [Object.ofMessage, Object.toMessage]
    simp [word, text, merge]

instance : LawfulMerge Event where
  ofMessage_append a b := by
    simp only [Object.ofMessage, Object.toMessage]
    simp [text, merge]

/-! ### Transactions -/

namespace ModeInfo

/-- A mode is read from the alternative that stands last. -/
theorem ofMessage_congr {m m' : Message} (h : m.lastChoice = m'.lastChoice) :
    ofMessage m = ofMessage m' := by
  cases hm : m'.lastChoice with
  | none => rw [ofMessage_unset (h.trans hm), ofMessage_unset hm]
  | some c =>
    obtain ⟨n, inner⟩ := c
    by_cases hn : n = 1
    · subst hn
      rw [ofMessage_single (h.trans hm), ofMessage_single hm]
    · rw [ofMessage_multi (h.trans hm) hn, ofMessage_multi hm hn]

theorem ofMessage_single_append (m m' : Int32) :
    ofMessage (toMessage (.single m) ++ toMessage (.single m')) = .single (later 0 m m') := by
  rw [toMessage, toMessage, ofMessage_single rfl]
  simp [word]

theorem ofMessage_multi_append (bits bits' : Option BitArray) (modes modes' : List ModeInfo) :
    ofMessage (toMessage (.multi bits modes) ++ toMessage (.multi bits' modes')) =
      .multi (merge bits bits') (modes ++ modes') := by
  rw [toMessage, toMessage, ofMessage_multi (n := 2) rfl (by decide), ofModes_eq, ofModes_eq]
  simp [sub?_eq_joined?, -List.map_map, map_ofMessage_toMessage]

/-- An alternative replaces a different one that stood before it. -/
theorem ofMessage_append_of_lastChoice {a b : ModeInfo}
    (h : (a.toMessage ++ b.toMessage).lastChoice = b.toMessage.lastChoice) :
    ofMessage (a.toMessage ++ b.toMessage) = b := by
  rw [ofMessage_congr h, ofMessage_toMessage]

instance : LawfulMerge ModeInfo where
  ofMessage_append
    | a, .unset => by
      simp only [Object.ofMessage, Object.toMessage]
      rw [toMessage.eq_1, List.append_nil, ofMessage_toMessage]
      cases a <;> rfl
    -- nothing is written for an unset mode
    | .unset, .single _ | .unset, .multi _ _ =>
      ofMessage_append_of_lastChoice (by rw [toMessage.eq_1, List.nil_append])
    | .single m, .single m' => ofMessage_single_append m m'
    | .multi bits modes, .multi bits' modes' => ofMessage_multi_append bits bits' modes modes'
    -- the alternative that was begun first is dropped
    | .single _, .multi _ _ | .multi _ _, .single _ =>
      ofMessage_append_of_lastChoice (by rw [toMessage, toMessage]; rfl)

end ModeInfo

instance : LawfulMerge Coin where
  ofMessage_append a b := by
    simp only [Object.ofMessage, Object.toMessage]
    simp [text, merge]

instance : LawfulMerge TxBody where
  ofMessage_append a b := by
    simp only [Object.ofMessage, Object.toMessage]
    simp [word, text, merge]

instance : LawfulMerge FeeOffer where
  ofMessage_append a b := by
    simp only [Object.ofMessage, Object.toMessage]
    simp [word, text, merge]

instance : LawfulMerge AuthInfo where
  ofMessage_append a b := by
    simp only [Object.ofMessage, Object.toMessage]
    simp [sub?_eq_joined?]
    -- `merge` stays folded so that optional parts are compared as such
    rfl

instance : LawfulMerge SignerInfo where
  ofMessage_append a b := by
    simp only [Object.ofMessage, Object.toMessage]
    simp [sub?_eq_joined?, word]
    rfl

instance : LawfulMerge Tx where
  ofMessage_append a b := by
    simp only [Object.ofMessage, Object.toMessage]
    simp [sub?_eq_joined?]
    rfl

instance : LawfulMerge MessageLog where
  ofMessage_append a b := by
    simp only [Object.ofMessage, Object.toMessage]
    simp [word, text, merge]

instance : LawfulMerge TxResponse where
  ofMessage_append a b := by
    simp only [Object.ofMessage, Object.toMessage]
    simp [sub?_eq_joined?, word, text]
    rfl

instance : LawfulMerge GetTxResponse where
  ofMessage_append a b := by
    simp only [Object.ofMessage, Object.toMessage]
    simp [sub?_eq_joined?]
    rfl

/-! ## Through bytes -/

/-- What reading makes of the bytes of two objects of a type, one after the other, as long as a length
of 64 bits can count them. -/
structure Merges (α : Type) [Object α] [Mergeable α] : Prop where
  decode_append : ∀ a b : α, (encode a ++ encode b).length < 2 ^ 64 → levels a ≤ levelLimit →
    levels b ≤ levelLimit → decode α (encode a ++ encode b) = .ok (merge a b)
  decode_append_deep : ∀ a b : α, (encode a ++ encode b).length < 2 ^ 64 →
    levelLimit < max (levels a) (levels b) →
      ∃ f, decode α (encode a ++ encode b) = .error f ∧ f.cause = .recursionLimit

theorem Merges.of_lawful (α : Type) [Object α] [Lawful α] [Mergeable α] [LawfulMerge α] :
    Merges α where
  decode_append a b hlen := (decode_encode_append a b hlen).1
  decode_append_deep a b hlen := (decode_encode_append a b hlen).2

/-- **Appending bytes merges objects** over the whole transaction and key format: what two encodings
say of one object is resolved field by field, with the budget of levels as the exact boundary. -/
theorem merges_objects :
    (Merges GetTxResponse ∧ Merges Tx ∧ Merges TxBody ∧ Merges AuthInfo ∧ Merges SignerInfo ∧
      Merges ModeInfo ∧ Merges FeeOffer ∧ Merges Coin) ∧
    (Merges TxResponse ∧ Merges MessageLog ∧ Merges Event ∧ Merges Attribute) ∧
    (Merges Envelope ∧ Merges MultisigKey ∧ Merges KeyBytes ∧ Merges BitArray) := by
  refine ⟨⟨?_, ?_, ?_, ?_, ?_, ?_, ?_, ?_⟩, ⟨?_, ?_, ?_, ?_⟩, ⟨?_, ?_, ?_, ?_⟩⟩ <;>
    exact Merges.of_lawful _

/-- A mode is merged with the same alternative, kept beside none and replaced by a different one. -/
theorem SignerInfo.decode_modes :
    let multi (bits : BitArray) (mode : Int32) : ModeInfo := .multi (some bits) [.single mode]
    let signer (mode : ModeInfo) : SignerInfo := ⟨none, some mode, 0⟩
    let read (i j : ModeInfo) := decode SignerInfo (encode (signer i) ++ encode (signer j))
    read (.single 127) (.single 0) = .ok (signer (.single 127)) ∧
      read (.single 127) .unset = .ok (signer (.single 127)) ∧
      read (.single 127) (multi ⟨2, [0xC0]⟩ 1) = .ok (signer (multi ⟨2, [0xC0]⟩ 1)) ∧
      read (multi ⟨2, [0xC0]⟩ 1) (multi ⟨3, []⟩ 127) =
        .ok (signer (.multi (some ⟨3, [0xC0]⟩) [.single 1, .single 127])) := by
  obtain ⟨⟨-, -, -, -, hsigner, -, -, -⟩, -, -⟩ := merges_objects
  refine ⟨?_, ?_, ?_, ?_⟩ <;>
    exact hsigner.decode_append _ _ (by decide +kernel) (by decide +kernel) (by decide +kernel)

/-- Signers follow each other, and a fee that is split over both parts is put together. -/
example :
    let signer (sequence : UInt64) : SignerInfo := ⟨none, some (.single 1), sequence⟩
    let first : AuthInfo := ⟨[signer 3], some ⟨[⟨"uatom", "5000"⟩], 200000, "", "granter"⟩⟩
    let second : AuthInfo := ⟨[signer 0], some ⟨[⟨"uosmo", "7"⟩], 0, "payer", ""⟩⟩
    decode AuthInfo (encode first ++ encode second) = .ok ⟨[signer 3, signer 0],
      some ⟨[⟨"uatom", "5000"⟩, ⟨"uosmo", "7"⟩], 200000, "payer", "granter"⟩⟩ :=
  (Merges.of_lawful AuthInfo).decode_append _ _ (by decide +kernel) (by decide +kernel)
    (by decide +kernel)

end TxLens

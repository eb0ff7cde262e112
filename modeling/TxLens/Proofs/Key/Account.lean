import TxLens.Proofs.Address.Grammar
import TxLens.Proofs.Key.Family
import TxLens.Proofs.Tx.RoundTrip
/-!
# The account of a key

Every key of every family has one identifier that its account is stored under, provided that its bytes
look like a key of the family. A key that does not is refused for what is wrong with it, whatever label
was asked for; a key that does is rendered under every label that can be rendered under. The identifiers
have the lengths that an address may have, so a rendering is never refused for its length
(`accountAddress_of_wellFormed`, `accountAddress_of_defective`). What follows for all four families is
stated together in `accountAddress_of_every_family`.
-/

namespace TxLens

open Wire Wire.Object Bech32

namespace Address

/-- A label of one letter case whose lower-case form can stand in an address. -/
def AcceptsLabel (hrp : String) : Prop := IsLabel hrp.toLower.toList ∧ OneCase hrp.toList

/-- With a length that an address may have, only the label can be refused. -/
theorem render_cases {r : Bytes} (h : IsLength r.length) (hrp : String) :
    (AcceptsLabel hrp ∧ ∃ t, render ⟨hrp, r⟩ = .ok t) ∨
      (¬ AcceptsLabel hrp ∧ render ⟨hrp, r⟩ = .error (.invalidLabel hrp)) := by
  have hok : (∃ t, render ⟨hrp, r⟩ = .ok t) ↔ AcceptsLabel hrp := by
    rw [AcceptsLabel, toList_toLower]
    constructor
    · rintro ⟨t, ht⟩
      obtain ⟨-, hlabel, hcase, -⟩ := render_eq_ok_iff.1 ht
      exact ⟨hlabel, hcase⟩
    · rintro ⟨hlabel, hcase⟩
      exact ⟨_, render_eq_ok_iff.2 ⟨h, hlabel, hcase, String.toList_ofList⟩⟩
  by_cases hl : AcceptsLabel hrp
  · exact .inl ⟨hl, hok.2 hl⟩
  · refine .inr ⟨hl, ?_⟩
    cases hencode : Bech32.encode hrp.toList (toSymbols r) with
    | error e => simp only [render, if_pos h, hencode]
    | ok cs =>
      refine absurd (hok.1 ⟨String.ofList cs, ?_⟩) hl
      simp only [render, if_pos h, hencode]

end Address

namespace PublicKey

/-! ## Keys with and without an account -/

/-- What the bytes of a key have to look like. A `secp256r1` key may be any bytes under any type, and
a multisig key anything at all. -/
def IsWellFormed : PublicKey → Prop
  | .secp256k1 key => key.length = 33 ∧ (key.head? = some 2 ∨ key.head? = some 3)
  | .secp256r1 _ _ => True
  | .ed25519 key => key.length = 32
  | .multisig _ => True

/-- What is wrong with the bytes of a key; the first byte is only looked at where the length is right. -/
inductive Defective : PublicKey → KeyDefect → Prop where
  | secp256k1Length {key : Bytes} : key.length ≠ 33 →
      Defective (.secp256k1 key) (.length 33 key.length)
  | secp256k1FirstByte {b : UInt8} {rest : Bytes} : (b :: rest).length = 33 → b ≠ 2 → b ≠ 3 →
      Defective (.secp256k1 (b :: rest)) (.firstByte b.toNat)
  | ed25519Length {key : Bytes} : key.length ≠ 32 →
      Defective (.ed25519 key) (.length 32 key.length)

/-- The bytes that the account of a key is stored under. -/
def accountIdentifier : PublicKey → Bytes
  | .secp256k1 key => Digest.ripemd160 (Digest.sha256 key)
  | .secp256r1 key typeId => Digest.sha256 (Digest.sha256 (Bytes.ofText typeId) ++ key)
  | .ed25519 key => (Digest.sha256 key).take 20
  | .multisig key => (Digest.sha256 (encode key)).take 20

variable {k : PublicKey} {d : KeyDefect}

theorem wellFormed_or_defective (k : PublicKey) : k.IsWellFormed ∨ ∃ d, k.Defective d := by
  cases k with
  | secp256k1 key =>
    by_cases hlen : key.length = 33
    · cases key with
      | nil => cases hlen
      | cons b rest =>
        by_cases hb : b = 2 ∨ b = 3
        · exact .inl ⟨hlen, by simpa using hb⟩
        · rw [not_or] at hb
          exact .inr ⟨_, .secp256k1FirstByte hlen hb.1 hb.2⟩
    · exact .inr ⟨_, .secp256k1Length hlen⟩
  | secp256r1 key typeId => exact .inl trivial
  | ed25519 key =>
    by_cases hlen : key.length = 32
    · exact .inl hlen
    · exact .inr ⟨_, .ed25519Length hlen⟩
  | multisig key => exact .inl trivial

theorem Defective.not_wellFormed (h : k.Defective d) : ¬ k.IsWellFormed := by
  cases h with
  | secp256k1Length hlen => exact fun hk => hlen hk.1
  | secp256k1FirstByte hlen h2 h3 => simp [IsWellFormed, h2, h3]
  | ed25519Length hlen => exact hlen

/-! ## Identifiers -/

theorem length_accountIdentifier (k : PublicKey) :
    k.accountIdentifier.length = if k.family = .secp256r1 then 32 else 20 := by
  cases k with
  | secp256k1 key => exact Digest.length_hash160 key
  | secp256r1 key typeId => exact Digest.length_sha256 _
  | ed25519 key => exact Digest.length_truncated key
  | multisig key => exact Digest.length_truncated _

theorem isLength_accountIdentifier (k : PublicKey) : Address.IsLength k.accountIdentifier.length := by
  rw [length_accountIdentifier]
  split
  · exact .inr rfl
  · exact .inl rfl

theorem identifier_of_wellFormed (h : k.IsWellFormed) (hk : k.family ≠ .multisig) :
    k.identifier = .ok k.accountIdentifier := by
  cases k with
  | secp256k1 key =>
    obtain ⟨hlen, hfirst⟩ := h
    cases key with
    | nil => cases hlen
    | cons b rest =>
      have hb : (b :: rest).headD 0 = 2 ∨ (b :: rest).headD 0 = 3 := by simpa using hfirst
      rw [identifier, if_neg (Decidable.not_not.2 hlen), if_pos hb]
      rfl
  | secp256r1 key typeId => rfl
  | ed25519 key =>
    have hlen : key.length = 32 := h
    rw [identifier, if_neg (Decidable.not_not.2 hlen)]
    rfl
  | multisig key => exact absurd rfl hk

theorem identifier_of_defective (h : k.Defective d) :
    k.identifier = .error (.invalidEncoding k.family d) := by
  cases h with
  | secp256k1Length hlen => rw [identifier, if_pos hlen, family]
  | @secp256k1FirstByte b rest hlen h2 h3 =>
    have hb : ¬ ((b :: rest).headD 0 = 2 ∨ (b :: rest).headD 0 = 3) := not_or.2 ⟨h2, h3⟩
    rw [identifier, if_neg (Decidable.not_not.2 hlen), if_neg hb, family, List.headD_cons]
  | ed25519Length hlen => rw [identifier, if_pos hlen, family]

/-! ## Addresses -/

theorem accountAddress_eq (hk : k.family ≠ .multisig) (hrp : String) :
    k.accountAddress hrp = (k.identifier >>= fun raw => renderAddress ⟨hrp, raw⟩) := by
  have hsigner : k.accountAddress hrp = k.signerAddress hrp := by
    cases k with
    | multisig key => exact absurd rfl hk
    | _ => rfl
  rw [hsigner, signerAddress, derive]
  cases k.identifier <;> rfl

theorem accountAddress_of_wellFormed (h : k.IsWellFormed) (hrp : String) :
    k.accountAddress hrp = renderAddress ⟨hrp, k.accountIdentifier⟩ := by
  by_cases hk : k.family = .multisig
  · cases k with
    | multisig key => rfl
    | _ => cases hk
  · rw [accountAddress_eq hk, identifier_of_wellFormed h hk]
    rfl

theorem accountAddress_of_defective (h : k.Defective d) (hrp : String) :
    k.accountAddress hrp = .error (.invalidEncoding k.family d) := by
  have hk : k.family ≠ .multisig := by cases h <;> simp [family]
  rw [accountAddress_eq hk, identifier_of_defective h]
  rfl

/-- All that asking for the address of an account can come to. -/
theorem accountAddress_cases (k : PublicKey) (hrp : String) :
    (∃ d, k.Defective d ∧ k.accountAddress hrp = .error (.invalidEncoding k.family d)) ∨
      (k.IsWellFormed ∧ ¬ Address.AcceptsLabel hrp ∧
        k.accountAddress hrp = .error (.address (.invalidLabel hrp))) ∨
      (k.IsWellFormed ∧ Address.AcceptsLabel hrp ∧
        ∃ t, Address.render ⟨hrp, k.accountIdentifier⟩ = .ok t ∧ k.accountAddress hrp = .ok t) := by
  rcases wellFormed_or_defective k with hk | ⟨d, hd⟩
  · rw [accountAddress_of_wellFormed hk, renderAddress]
    rcases Address.render_cases (isLength_accountIdentifier k) hrp with ⟨hl, t, ht⟩ | ⟨hl, he⟩
    · exact .inr (.inr ⟨hk, hl, t, ht, by rw [ht]; rfl⟩)
    · exact .inr (.inl ⟨hk, hl, by rw [he]; rfl⟩)
  · exact .inl ⟨d, hd, accountAddress_of_defective hd hrp⟩

/-- A packed multisig key is read back from its envelope. -/
theorem ofEnvelope?_pack {typeUrl : String} {key : MultisigKey}
    (h : KeyFamily.multisig.IsNamedBy typeUrl) (hlen : (encode key).length < 2 ^ 64) :
    ofEnvelope? (Envelope.pack typeUrl key) = .ok (some (.multisig key)) := by
  have hlevels : levels key ≤ levelLimit := Nat.le_trans key.levels_le (by decide)
  have hunpack : (Envelope.pack typeUrl key).unpack MultisigKey = .ok key :=
    (decode_encode key hlen).1 hlevels
  have hfamily : KeyFamily.ofTypeUrl? (Envelope.pack typeUrl key).typeUrl = some .multisig :=
    KeyFamily.ofTypeUrl?_eq_some_iff.2 h
  simp only [ofEnvelope?, hfamily, hunpack]

example : KeyFamily.ofTypeUrl? "/cosmos.crypto.multisig.LegacyAminoPubKey" = some .multisig := by
  decide

/-- **The address of an account** exists exactly under an acceptable label for a key whose bytes look
like a key of its family, and carries the identifier of that family. A multisig key, which signs for no
address of its own, has an account all the same, under a digest of the bytes it came in. -/
theorem accountAddress_of_every_family :
    -- when there is an address, and how it reads
    (∀ (k : PublicKey) hrp, (∃ t, k.accountAddress hrp = .ok t) ↔
      Address.AcceptsLabel hrp ∧ k.IsWellFormed) ∧
    (∀ (k : PublicKey) hrp t, k.accountAddress hrp = .ok t →
      Address.parse t = .ok ⟨hrp.toLower, k.accountIdentifier⟩) ∧
    (∀ k : PublicKey, k.accountIdentifier.length = if k.family = .secp256r1 then 32 else 20) ∧
    -- what is wrong with a key comes before what is wrong with a label, and nothing else can be wrong
    (∀ k : PublicKey, k.IsWellFormed ↔ ¬ ∃ d, k.Defective d) ∧
    (∀ (k : PublicKey) hrp d, k.Defective d →
      k.accountAddress hrp = .error (.invalidEncoding k.family d)) ∧
    (∀ (k : PublicKey) hrp, k.IsWellFormed → ¬ Address.AcceptsLabel hrp →
      k.accountAddress hrp = .error (.address (.invalidLabel hrp))) ∧
    (∀ (k : PublicKey) hrp n, k.accountAddress hrp ≠ .error (.address (.invalidLength n))) ∧
    -- a multisig key from an envelope
    (∀ (key : MultisigKey) (typeUrl : String), KeyFamily.multisig.IsNamedBy typeUrl →
      (encode key).length < 2 ^ 64 →
      ofEnvelope? (Envelope.pack typeUrl key) = .ok (some (.multisig key)) ∧
        ∀ hrp, (PublicKey.multisig key).accountAddress hrp =
          renderAddress ⟨hrp, (Digest.sha256 (Envelope.pack typeUrl key).value).take 20⟩) ∧
    (∀ (key : MultisigKey) hrp, (PublicKey.multisig key).derive hrp = .error .composite) := by
  refine ⟨fun k hrp => ?_, fun k hrp t h => ?_, length_accountIdentifier, fun k => ?_,
    fun k hrp d hd => accountAddress_of_defective hd hrp, fun k hrp hk hl => ?_, fun k hrp n => ?_,
    fun key typeUrl hurl hlen => ⟨ofEnvelope?_pack hurl hlen, fun hrp => rfl⟩, fun key hrp => rfl⟩
  · rcases accountAddress_cases k hrp with ⟨d, hd, h⟩ | ⟨-, hl, h⟩ | ⟨hk, hl, t, -, h⟩
    · simp [h, hd.not_wellFormed]
    · simp [h, hl]
    · simp [h, hk, hl]
  · rcases accountAddress_cases k hrp with ⟨d, -, h'⟩ | ⟨-, -, h'⟩ | ⟨-, -, t', ht, h'⟩
    · cases h'.symm.trans h
    · cases h'.symm.trans h
    · cases h'.symm.trans h
      exact Address.parse_of_render ht
  · constructor
    · rintro hk ⟨d, hd⟩
      exact hd.not_wellFormed hk
    · exact (wellFormed_or_defective k).resolve_right
  · rcases accountAddress_cases k hrp with ⟨d, hd, -⟩ | ⟨-, -, h⟩ | ⟨-, hl', -⟩
    · exact absurd hk hd.not_wellFormed
    · exact h
    · exact absurd hl' hl
  · rcases accountAddress_cases k hrp with ⟨d, -, h⟩ | ⟨-, -, h⟩ | ⟨-, -, t, -, h⟩ <;> simp [h]

/-- A label in upper case. -/
example : ((PublicKey.secp256k1 (2 :: List.replicate 32 0x11)).accountAddress "PB").toOption =
    some "pb14h7w2n6jnvs4fc7rvxa78a75rkcxx4chzw90zs" := by
  decide +kernel

end PublicKey

end TxLens

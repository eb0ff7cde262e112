import TxLens.Multisig
import TxLens.Proofs.BitArray
import TxLens.Proofs.Gathering
import TxLens.Proofs.Key.Account
/-!
# The members of a multisig key

A multisig key is broken down whenever its own address can be rendered, that is under every acceptable
label. What is said of a member follows from its own key, the label and its own bit (`IsSlot`), so
nothing that happens to another key, readable or not, can be seen in it. Counts and addresses of those
who signed are read off the slots, and with more bits set there are never fewer of them
(`setAmong_mono`). `breakdown_slots` puts this together.
-/

namespace TxLens

open Address (AcceptsLabel)

/-! ## One slot -/

namespace PublicKey

/-- The envelope holds a key whose account has this address. -/
def HasAddress (e : Envelope) (hrp t : String) : Prop :=
  ∃ k, ofEnvelope? e = .ok (some k) ∧ k.IsWellFormed ∧
    Address.render ⟨hrp, k.accountIdentifier⟩ = .ok t

/-- Why an envelope gives no address: its type is of no family, its content is not what the family
writes, or its bytes do not look like a key of the family. -/
inductive NoKey (e : Envelope) : Prop
  | unsupported (h : ∀ f : KeyFamily, ¬ f.IsNamedBy e.typeUrl)
  | undecodable {f : KeyFamily} (hf : f.IsNamedBy e.typeUrl) (h : ¬ f.Decodes e.value)
  | defective {k : PublicKey} {d : KeyDefect} (hk : ofEnvelope? e = .ok (some k)) (h : k.Defective d)

variable {e : Envelope} {hrp t : String}

theorem addressOf?_eq_some_iff :
    addressOf? e hrp = some t ↔ HasAddress e hrp t := by
  rw [addressOf?, HasAddress]
  split
  · rename_i k hk
    simp only [hk, Except.ok.injEq, Option.some.injEq, exists_eq_left']
    rcases accountAddress_cases k hrp with ⟨d, hd, h⟩ | ⟨hk, hl, h⟩ | ⟨hk, -, t', ht', h⟩
    · simp [h, Except.toOption, hd.not_wellFormed]
    · have hno : Address.render ⟨hrp, k.accountIdentifier⟩ ≠ .ok t := by
        rcases Address.render_cases (isLength_accountIdentifier k) hrp with ⟨hl', -⟩ | ⟨-, he⟩
        · exact absurd hl' hl
        · simp [he]
      simp [h, Except.toOption, hno]
    · simp [h, Except.toOption, hk, ht']
  · rename_i hno
    constructor
    · intro h
      cases h
    · rintro ⟨k, hk, -⟩
      exact absurd hk (hno k)

/-- Under an acceptable label an address is missing for what the envelope holds, and for nothing else. -/
theorem addressOf?_eq_none_iff (hl : AcceptsLabel hrp) : addressOf? e hrp = none ↔ NoKey e := by
  rw [Option.eq_none_iff_forall_ne_some]
  simp only [ne_eq, addressOf?_eq_some_iff]
  constructor
  · intro hno
    by_cases hu : IsUsable e
    · obtain ⟨k, hk⟩ := exists_ofEnvelope?_eq_some_iff.2 hu
      rcases wellFormed_or_defective k with hw | ⟨d, hd⟩
      · rcases Address.render_cases (isLength_accountIdentifier k) hrp with ⟨-, t, ht⟩ | ⟨hl', -⟩
        · exact absurd ⟨k, hk, hw, ht⟩ (hno t)
        · exact absurd hl hl'
      · exact .defective hk hd
    · by_cases hf : ∃ f : KeyFamily, f.IsNamedBy e.typeUrl
      · obtain ⟨f, hf⟩ := hf
        exact .undecodable hf fun hd => hu ⟨f, hf, hd⟩
      · exact .unsupported (not_exists.1 hf)
  · rintro hnokey t ⟨k, hk, hw, -⟩
    obtain ⟨f, hf, hd⟩ := exists_ofEnvelope?_eq_some_iff.1 ⟨k, hk⟩
    cases hnokey with
    | unsupported h => exact h f hf
    | undecodable hf' h =>
      have hsame := (KeyFamily.ofTypeUrl?_eq_some_iff.2 hf).symm.trans
        (KeyFamily.ofTypeUrl?_eq_some_iff.2 hf')
      cases hsame
      exact h hd
    | defective hk' h =>
      rw [hk] at hk'
      cases hk'
      exact h.not_wellFormed hw

end PublicKey

namespace MultisigKey

open PublicKey

/-- A bit is set, in bits that were given. -/
def IsSigned (bits : Option BitArray) (i : Nat) : Prop := ∃ a, bits = some a ∧ a.get i = true

/-- What is said of the key in an envelope that stands at a position. -/
structure IsSlot (hrp : String) (bits : Option BitArray) (i : Nat) (e : Envelope)
    (m : MultisigMember) : Prop where
  index : m.index = i
  named : ∀ f : KeyFamily, f.IsNamedBy e.typeUrl → m.keyType = f.label
  unnamed : (∀ f : KeyFamily, ¬ f.IsNamedBy e.typeUrl) → m.keyType = e.typeUrl
  address : ∀ t, m.address = some t ↔ HasAddress e hrp t
  signed : m.signed = true ↔ IsSigned bits i

variable {k : MultisigKey} {hrp : String} {bits : Option BitArray} {i : Nat} {e : Envelope}
  {m : MultisigMember}

theorem signed_member_iff : (member hrp bits i e).signed = true ↔ IsSigned bits i :=
  Option.any_eq_true _ _

theorem isSlot_member : IsSlot hrp bits i e (member hrp bits i e) where
  index := rfl
  named f hf := by rw [member, KeyFamily.ofTypeUrl?_eq_some_iff.2 hf]; rfl
  unnamed hno := by
    have hnone : KeyFamily.ofTypeUrl? e.typeUrl = none := by
      refine Option.eq_none_iff_forall_ne_some.2 fun f hf => ?_
      exact hno f (KeyFamily.ofTypeUrl?_eq_some_iff.1 hf)
    rw [member, hnone]
    rfl
  address _ := addressOf?_eq_some_iff
  signed := signed_member_iff

theorem IsSlot.unique {m' : MultisigMember} (h : IsSlot hrp bits i e m)
    (h' : IsSlot hrp bits i e m') : m = m' := by
  obtain ⟨index, keyType, address, signed⟩ := m
  obtain ⟨index', keyType', address', signed'⟩ := m'
  obtain rfl : index = index' := h.index.trans h'.index.symm
  obtain rfl : keyType = keyType' := by
    by_cases hf : ∃ f : KeyFamily, f.IsNamedBy e.typeUrl
    · obtain ⟨f, hf⟩ := hf
      exact (h.named f hf).trans (h'.named f hf).symm
    · have hno := not_exists.1 hf
      exact (h.unnamed hno).trans (h'.unnamed hno).symm
  obtain rfl : address = address' := Option.ext fun t => (h.address t).trans (h'.address t).symm
  obtain rfl : signed = signed' := Bool.eq_iff_iff.2 (h.signed.trans h'.signed.symm)
  rfl

theorem IsSlot.address_eq_none_iff (h : IsSlot hrp bits i e m) (hl : AcceptsLabel hrp) :
    m.address = none ↔ NoKey e := by
  rw [← addressOf?_eq_none_iff hl, Option.eq_none_iff_forall_ne_some,
    Option.eq_none_iff_forall_ne_some]
  simp only [ne_eq, h.address, addressOf?_eq_some_iff]

/-! ## All slots -/

variable {b : MultisigBreakdown}

theorem breakdown_eq_ok_iff : k.breakdown hrp bits = .ok b ↔
    ∃ t, (k.compositeAddress hrp).render = .ok t ∧
      b = ⟨k.threshold, t, k.members.zipIdx.map fun p => member hrp bits p.2 p.1⟩ := by
  rw [breakdown]
  cases (k.compositeAddress hrp).render with
  | error f => simp [Except.map]
  | ok t => simp [Except.map, eq_comm]

/-- A key can be broken down under every acceptable label, and under no other. -/
theorem breakdown_cases (k : MultisigKey) (hrp : String) (bits : Option BitArray) :
    (AcceptsLabel hrp ∧ ∃ b, k.breakdown hrp bits = .ok b) ∨
      (¬ AcceptsLabel hrp ∧ k.breakdown hrp bits = .error (.invalidLabel hrp)) := by
  have hlen := PublicKey.isLength_accountIdentifier (.multisig k)
  rcases Address.render_cases hlen hrp with ⟨hl, t, ht⟩ | ⟨hl, he⟩
  · exact .inl ⟨hl, _, breakdown_eq_ok_iff.2 ⟨t, ht, rfl⟩⟩
  · refine .inr ⟨hl, ?_⟩
    have hrender : (k.compositeAddress hrp).render = .error (.invalidLabel hrp) := he
    rw [breakdown, hrender]
    rfl

theorem exists_breakdown_iff : (∃ b, k.breakdown hrp bits = .ok b) ↔ AcceptsLabel hrp := by
  rcases breakdown_cases k hrp bits with ⟨hl, h⟩ | ⟨hl, h⟩
  · exact ⟨fun _ => hl, fun _ => h⟩
  · simp [hl, h]

theorem members_of_breakdown (h : k.breakdown hrp bits = .ok b) :
    b.members = k.members.zipIdx.map fun p => member hrp bits p.2 p.1 := by
  obtain ⟨t, -, rfl⟩ := breakdown_eq_ok_iff.1 h
  rfl

theorem getElem?_members (h : k.breakdown hrp bits = .ok b) (i : Nat) :
    b.members[i]? = k.members[i]?.map (member hrp bits i) := by
  rw [members_of_breakdown h, List.getElem?_map, List.getElem?_zipIdx, Option.map_map, Nat.zero_add]
  rfl

/-- The slots of a breakdown are those of the keys, position by position. -/
theorem getElem?_members_iff (h : k.breakdown hrp bits = .ok b) :
    b.members[i]? = some m ↔ ∃ e, k.members[i]? = some e ∧ IsSlot hrp bits i e m := by
  rw [getElem?_members h, Option.map_eq_some_iff]
  constructor
  · rintro ⟨e, he, rfl⟩
    exact ⟨e, he, isSlot_member⟩
  · rintro ⟨e, he, hm⟩
    exact ⟨e, he, isSlot_member.unique hm⟩

/-! ## Who signed -/

/-- The number of set bits among the first ones. -/
def setAmong (bits : Option BitArray) (n : Nat) : Nat :=
  (List.range n).countP fun i => bits.any fun a => a.get i

theorem setAmong_mono {bits' : Option BitArray} (h : ∀ i, IsSigned bits i → IsSigned bits' i)
    (n : Nat) : setAmong bits n ≤ setAmong bits' n := by
  refine List.countP_mono_left fun i _ hi => ?_
  exact (Option.any_eq_true _ _).2 (h i ((Option.any_eq_true _ _).1 hi))

theorem setAmong_le (bits : Option BitArray) (n : Nat) : setAmong bits n ≤ n :=
  Nat.le_trans List.countP_le_length (Nat.le_of_eq List.length_range)

/-- What an array claims beyond its bytes is not counted. -/
theorem setAmong_le_bytes (a : BitArray) (n : Nat) : setAmong (some a) n ≤ 8 * a.elems.length :=
  Nat.le_trans (Nat.le_trans (a.countP_get_le n) (Nat.min_le_right _ _)) a.count_le

theorem isSigned_setBit {a : BitArray} {i j : Nat} (h : IsSigned (some a) j) :
    IsSigned (some (a.setBit i)) j := by
  obtain ⟨_, ⟨⟩, hj⟩ := h
  exact ⟨_, rfl, by rw [BitArray.get_setBit, hj, Bool.true_or]⟩

theorem signatureCount_eq (h : k.breakdown hrp bits = .ok b) :
    b.signatureCount = setAmong bits k.members.length := by
  have hrange : List.range k.members.length = k.members.zipIdx.map Prod.snd := by
    rw [List.zipIdx_map_snd, List.range_eq_range']
  rw [MultisigBreakdown.signatureCount, members_of_breakdown h, ← List.countP_eq_length_filter,
    List.countP_map, setAmong, hrange, List.countP_map]
  rfl

theorem thresholdMet_iff (h : k.breakdown hrp bits = .ok b) :
    b.thresholdMet = true ↔ k.threshold.toNat ≤ b.signatureCount := by
  obtain ⟨t, -, rfl⟩ := breakdown_eq_ok_iff.1 h
  exact decide_eq_true_iff

theorem gathers_signingAddresses (h : k.breakdown hrp bits = .ok b) :
    Gathers (fun p t => IsSigned bits p.2 ∧ HasAddress p.1 hrp t) k.members.zipIdx
      b.signingAddresses := by
  rw [MultisigBreakdown.signingAddresses, members_of_breakdown h, List.filterMap_filter,
    List.filterMap_map]
  refine gathers_filterMap (fun p t => ?_) _
  rw [← addressOf?_eq_some_iff, ← @signed_member_iff hrp bits p.2 p.1, Function.comp_apply]
  split <;> simp_all [member]

/-! ## Other keys and other bits -/

/-- A slot says the same in every key that has this member there, as far as its bit is the same. -/
theorem getElem?_members_congr {k' : MultisigKey} {bits' : Option BitArray} {b' : MultisigBreakdown}
    (h : k.breakdown hrp bits = .ok b) (h' : k'.breakdown hrp bits' = .ok b')
    (hk : k'.members[i]? = k.members[i]?) (hbit : IsSigned bits' i ↔ IsSigned bits i) :
    b'.members[i]? = b.members[i]? := by
  refine Option.ext fun m => ?_
  rw [getElem?_members_iff h, getElem?_members_iff h', hk]
  refine exists_congr fun e => and_congr_right fun _ => ?_
  exact ⟨fun hm => { hm with signed := hm.signed.trans hbit },
    fun hm => { hm with signed := hm.signed.trans hbit.symm }⟩

theorem thresholdMet_mono {bits' : Option BitArray} {b' : MultisigBreakdown}
    (h : k.breakdown hrp bits = .ok b) (h' : k.breakdown hrp bits' = .ok b')
    (hmore : ∀ i, IsSigned bits i → IsSigned bits' i) (hmet : b.thresholdMet = true) :
    b'.thresholdMet = true := by
  rw [thresholdMet_iff h, signatureCount_eq h] at hmet
  rw [thresholdMet_iff h', signatureCount_eq h']
  exact Nat.le_trans hmet (setAmong_mono hmore _)

/-- **A multisig key is broken down** under every acceptable label, whatever its members are and whatever
a bit array claims. There is one slot for each key, in their order, which another key does not change,
and who signed is counted over the slots. -/
theorem breakdown_slots (k : MultisigKey) (hrp : String) (bits : Option BitArray) :
    (AcceptsLabel hrp → ∃ b, k.breakdown hrp bits = .ok b) ∧
    (¬ AcceptsLabel hrp → k.breakdown hrp bits = .error (.invalidLabel hrp)) ∧
    ∀ b, k.breakdown hrp bits = .ok b →
      b.threshold = k.threshold ∧
      Address.parse b.compositeAddress = .ok ⟨hrp.toLower, accountIdentifier (.multisig k)⟩ ∧
      -- the slots
      b.members.length = k.members.length ∧
      (∀ i m, b.members[i]? = some m ↔ ∃ e, k.members[i]? = some e ∧ IsSlot hrp bits i e m) ∧
      (∀ (i : Nat) (e : Envelope) (m : MultisigMember), k.members[i]? = some e →
        b.members[i]? = some m → (m.address = none ↔ NoKey e)) ∧
      -- other keys and other bits
      (∀ j e, ∃ b', MultisigKey.breakdown ⟨k.threshold, k.members.set j e⟩ hrp bits = .ok b' ∧
        ∀ i, i ≠ j → b'.members[i]? = b.members[i]?) ∧
      (∀ k' bits' b' i, MultisigKey.breakdown k' hrp bits' = .ok b' →
        k'.members[i]? = k.members[i]? → (IsSigned bits' i ↔ IsSigned bits i) →
        b'.members[i]? = b.members[i]?) ∧
      -- who signed
      b.signatureCount = setAmong bits k.members.length ∧
      b.signatureCount ≤ k.members.length ∧
      (bits = none → b.signatureCount = 0) ∧
      (∀ a, bits = some a → b.signatureCount ≤ 8 * a.elems.length) ∧
      Gathers (fun p t => IsSigned bits p.2 ∧ HasAddress p.1 hrp t) k.members.zipIdx
        b.signingAddresses ∧
      (b.thresholdMet = true ↔ k.threshold.toNat ≤ b.signatureCount) ∧
      -- more bits
      (∀ bits', (∀ i, IsSigned bits i → IsSigned bits' i) →
        ∃ b', k.breakdown hrp bits' = .ok b' ∧ (b.thresholdMet = true → b'.thresholdMet = true)) ∧
      (∀ a i, bits = some a →
        ∃ b', k.breakdown hrp (some (a.setBit i)) = .ok b' ∧
          (b.thresholdMet = true → b'.thresholdMet = true)) := by
  refine ⟨exists_breakdown_iff.2, fun hl => ?_, fun b h => ?_⟩
  · rcases breakdown_cases k hrp bits with ⟨hl', -⟩ | ⟨-, h⟩
    · exact absurd hl' hl
    · exact h
  have hl : AcceptsLabel hrp := exists_breakdown_iff.1 ⟨b, h⟩
  have hmore : ∀ bits', (∀ i, IsSigned bits i → IsSigned bits' i) →
      ∃ b', k.breakdown hrp bits' = .ok b' ∧ (b.thresholdMet = true → b'.thresholdMet = true) := by
    intro bits' hsub
    obtain ⟨b', h'⟩ := exists_breakdown_iff.2 hl
    exact ⟨b', h', thresholdMet_mono h h' hsub⟩
  have hcount := signatureCount_eq h
  obtain ⟨t, ht, hb⟩ := breakdown_eq_ok_iff.1 h
  refine ⟨by rw [hb], ?_, ?_, fun i m => getElem?_members_iff h, fun i e m he hm => ?_,
    fun j e => ?_, fun k' bits' b' i h' => getElem?_members_congr h h', hcount, ?_, ?_, ?_,
    gathers_signingAddresses h, thresholdMet_iff h, hmore, ?_⟩
  · rw [hb]
    exact Address.parse_of_render ht
  · rw [hb, List.length_map, List.length_zipIdx]
  · obtain ⟨e', he', hslot⟩ := (getElem?_members_iff h).1 hm
    obtain rfl : e = e' := Option.some.inj (he.symm.trans he')
    exact hslot.address_eq_none_iff hl
  · obtain ⟨b', h'⟩ := exists_breakdown_iff.2 hl
    refine ⟨b', h', fun i hi => getElem?_members_congr h h' ?_ Iff.rfl⟩
    exact List.getElem?_set_ne (Ne.symm hi)
  · exact hcount ▸ setAmong_le bits _
  · rintro rfl
    rw [hcount]
    exact List.countP_eq_zero.2 fun i _ => Bool.false_ne_true
  · rintro a rfl
    exact hcount ▸ setAmong_le_bytes a _
  · rintro a i rfl
    exact hmore _ fun j => isSigned_setBit

/-- An array that claims two hundred bits and holds eight, for nine members of which the first is of no
known family and the last has no bit. -/
theorem breakdown_of_short_array :
    let good := Envelope.pack "/ed25519.PubKey" (KeyBytes.mk (List.replicate 32 1))
    let k : MultisigKey := ⟨8, ⟨"/x", [1]⟩ :: List.replicate 8 good⟩
    ∃ b, k.breakdown "pb" (some ⟨200, [0xff]⟩) = .ok b ∧ b.members.length = 9 ∧
      (∃ m, b.members[0]? = some m ∧ m.address = none ∧ m.keyType = "/x" ∧ m.signed = true) ∧
      (∃ m, b.members[8]? = some m ∧ m.address ≠ none ∧ m.keyType = "ed25519" ∧ m.signed = false) ∧
      b.signatureCount = 8 ∧ b.thresholdMet = true := by
  intro good k
  have hlabel : AcceptsLabel "pb" := by
    rw [AcceptsLabel, Address.toList_toLower]
    decide
  have hnamed : KeyFamily.ed25519.IsNamedBy good.typeUrl :=
    KeyFamily.ofTypeUrl?_eq_some_iff.1 (by decide)
  have hunnamed : ∀ f : KeyFamily, ¬ f.IsNamedBy "/x" := by
    intro f hf
    cases KeyFamily.ofTypeUrl?_eq_some_iff.2 hf
  have hread : ofEnvelope? good = .ok (some (.ed25519 (List.replicate 32 1))) := by
    have hunpack := (RoundTrips.of_lawful KeyBytes).unpack_pack "/ed25519.PubKey"
      (KeyBytes.mk (List.replicate 32 1)) (by decide +kernel) (by decide +kernel)
    simp only [ofEnvelope?, KeyFamily.ofTypeUrl?_eq_some_iff.2 hnamed, good, hunpack]
  obtain ⟨t, ht⟩ : ∃ t, HasAddress good "pb" t := by
    rcases Address.render_cases (isLength_accountIdentifier (.ed25519 (List.replicate 32 1))) "pb" with
      ⟨-, t, ht⟩ | ⟨hno, -⟩
    · exact ⟨t, _, hread, List.length_replicate, ht⟩
    · exact absurd hlabel hno
  obtain ⟨hok, -, hall⟩ := breakdown_slots k "pb" (some ⟨200, [0xff]⟩)
  obtain ⟨b, hb⟩ := hok hlabel
  obtain ⟨-, -, hlen, hslots, haddress, -, -, hcount, -, -, -, -, hmet, -⟩ := hall b hb
  have hfirst := (hslots 0 _).2 ⟨_, rfl, isSlot_member⟩
  have hlast := (hslots 8 _).2 ⟨_, rfl, isSlot_member⟩
  have height : b.signatureCount = 8 := hcount.trans (by decide)
  refine ⟨b, hb, hlen.trans rfl, ⟨_, hfirst, ?_, ?_, ?_⟩, ⟨_, hlast, ?_, ?_, ?_⟩, height,
    hmet.2 (Nat.le_of_eq height.symm)⟩
  · exact (haddress 0 _ _ rfl hfirst).2 (.unsupported hunnamed)
  · exact isSlot_member.unnamed hunnamed
  · decide
  · rw [(isSlot_member.address t).2 ht]
    exact Option.some_ne_none t
  · exact isSlot_member.named _ hnamed
  · decide

end MultisigKey

end TxLens

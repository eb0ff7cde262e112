import TxLens.Proofs.Event.Message
import TxLens.Proofs.Json.Literal
import TxLens.Proofs.Key.Family
import TxLens.Signature
/-!
# Three views of who signed

The records of a transaction's signers, the addresses that actually signed and the first signer are
worked out from the same signers, each on its own. A single key has one address for its account and
for what it signs; a multisig key's account has an address exactly when the key can be broken down. So
the addresses that signed can be read off the records, signer by signer (`addressesOf_eq`), and the
first signer off the record of index zero, or off the events where that record gives no address
(`accountSequenceAddress?_eq_some_iff`). `signature_views_agree` says this of whole transactions.
-/

namespace TxLens

/-- A signer's key is given, supported and can be decoded. -/
def SignerInfo.HasUsableKey (s : SignerInfo) : Prop :=
  ∃ e, s.publicKey = some e ∧ PublicKey.IsUsable e

theorem SignerInfo.exists_key?_eq_some_iff {s : SignerInfo} :
    (∃ k, s.key? = some k) ↔ s.HasUsableKey := by
  rw [HasUsableKey, key?]
  cases hp : s.publicKey with
  | none => simp
  | some e =>
    simp only [Option.some.injEq, exists_eq_left', ← PublicKey.exists_ofEnvelope?_eq_some_iff]
    cases PublicKey.ofEnvelope? e <;> simp

/-! ## The address that events name -/

/-- What stands in a text before its first slash, and all of the text where it has none. -/
inductive BeforeSlash : String → String → Prop
  | slash {s : String} (rest : String) (h : '/' ∉ s.toList) : BeforeSlash (s ++ "/" ++ rest) s
  | whole {s : String} (h : '/' ∉ s.toList) : BeforeSlash s s

theorem beforeSlash_takeWhile (s : String) :
    BeforeSlash s (String.ofList (s.toList.takeWhile (· != '/'))) := by
  obtain ⟨t, ht⟩ : ∃ t : String, s.toList.takeWhile (· != '/') = t.toList :=
    ⟨.ofList _, String.toList_ofList.symm⟩
  have hbefore : '/' ∉ t.toList := by
    intro h
    rw [← ht] at h
    exact absurd (List.all_eq_true.1 List.all_takeWhile _ h) (by decide)
  have hsplit := @List.takeWhile_append_dropWhile _ (· != '/') s.toList
  rw [ht, String.ofList_toList]
  rw [ht] at hsplit
  cases hrest : s.toList.dropWhile (· != '/') with
  | nil =>
    rw [hrest, List.append_nil, String.toList_inj] at hsplit
    exact hsplit ▸ .whole hbefore
  | cons c rest =>
    have hc : (c != '/') = false := Json.stops_dropWhile _ s.toList c (by rw [hrest]; rfl)
    obtain rfl : c = '/' := by simpa using hc
    have hs : t ++ "/" ++ String.ofList rest = s := by
      rw [← String.toList_inj, ← hsplit, hrest]
      simp
    exact hs ▸ .slash _ hbefore

theorem BeforeSlash.takeWhile_eq {s t : String} (h : BeforeSlash s t) :
    String.ofList (s.toList.takeWhile (· != '/')) = t := by
  have hother : '/' ∉ t.toList → ∀ c ∈ t.toList, (c != '/') = true := by
    intro h c hc
    exact bne_iff_ne.2 fun hslash => h (hslash ▸ hc)
  cases h with
  | slash rest h =>
    have hlist : (t ++ "/" ++ rest).toList = t.toList ++ '/' :: rest.toList := by simp
    have hstops : Json.Stops (· != '/') ('/' :: rest.toList) := by
      rintro c ⟨⟩
      rfl
    rw [hlist, Json.takeWhile_append_of_stops (hother h) hstops, String.ofList_toList]
  | whole h =>
    have hstops : Json.Stops (· != '/') [] := nofun
    have hall := Json.takeWhile_append_of_stops (hother h) hstops
    rw [List.append_nil] at hall
    rw [hall, String.ofList_toList]

/-! ## One signer -/

namespace SignatureRecord

/-- The addresses that signed according to a record: those of the members that did where the key is
broken down, the record's own where it is not. -/
def signers (r : SignatureRecord) : List String :=
  match r.multisig with
  | some b => b.signingAddresses
  | none => r.address.toList

theorem index_of_ofSigner? {hrp : String} {i : Nat} {s : SignerInfo} {r : SignatureRecord}
    (h : ofSigner? hrp i s = some r) : r.index = i := by
  obtain ⟨k, -, rfl⟩ := Option.map_eq_some_iff.1 h
  rfl

theorem exists_ofSigner?_eq_some_iff {hrp : String} {i : Nat} {s : SignerInfo} :
    (∃ r, ofSigner? hrp i s = some r) ↔ s.HasUsableKey := by
  rw [← SignerInfo.exists_key?_eq_some_iff, ofSigner?]
  cases s.key? <;> simp

end SignatureRecord

namespace Outcome

open Events (FirstValue)

variable (hrp : String)

theorem addressesOf_eq (i : Nat) (s : SignerInfo) :
    addressesOf hrp s = (SignatureRecord.ofSigner? hrp i s).toList.flatMap SignatureRecord.signers := by
  rw [addressesOf, SignatureRecord.ofSigner?]
  cases hk : s.key? with
  | none => rfl
  | some k =>
    simp only [Option.map_some, Option.toList_some, List.flatMap_singleton, SignatureRecord.signers,
      SignatureRecord.ofKey]
    cases k with
    | multisig k =>
      -- the breakdown fails for one reason only, that the account has no address
      simp only [SignerInfo.breakdown?, MultisigKey.breakdown, PublicKey.accountAddress,
        PublicKey.renderAddress]
      cases (k.compositeAddress hrp).render <;> rfl
    | secp256k1 key => rfl
    | secp256r1 key typeId => rfl
    | ed25519 key => rfl

/-! ## The records in order -/

/-- The records of signers of which the first has index `n`. -/
def recordsFrom : Nat → List SignerInfo → List SignatureRecord
  | _, [] => []
  | n, s :: ss => (SignatureRecord.ofSigner? hrp n s).toList ++ recordsFrom (n + 1) ss

theorem signatures_eq (o : Outcome) : o.signatures hrp = recordsFrom hrp 0 o.signerInfos := by
  have hfrom : ∀ (ss : List SignerInfo) (n : Nat),
      (ss.zipIdx n).filterMap (fun p => SignatureRecord.ofSigner? hrp p.2 p.1) =
        recordsFrom hrp n ss := by
    intro ss
    induction ss with
    | nil => intro n; rfl
    | cons s ss ih =>
      intro n
      simp only [List.zipIdx_cons, List.filterMap_cons, recordsFrom, ← ih]
      cases SignatureRecord.ofSigner? hrp n s <;> rfl
  exact hfrom o.signerInfos 0

variable {hrp} {n : Nat} {ss : List SignerInfo} {r : SignatureRecord}

theorem mem_recordsFrom_iff : r ∈ recordsFrom hrp n ss ↔
    ∃ i s, ss[i]? = some s ∧ SignatureRecord.ofSigner? hrp (n + i) s = some r := by
  induction ss generalizing n with
  | nil => simp [recordsFrom]
  | cons s ss ih =>
    rw [recordsFrom, List.mem_append, Option.mem_toList, ih]
    constructor
    · rintro (h | ⟨i, s', hs', h⟩)
      · exact ⟨0, s, rfl, h⟩
      · exact ⟨i + 1, s', hs', by rwa [Nat.add_comm i 1, ← Nat.add_assoc]⟩
    · rintro ⟨i, s', hs', h⟩
      cases i with
      | zero =>
        cases hs'
        exact .inl h
      | succ i => exact .inr ⟨i, s', hs', by rwa [Nat.add_comm i 1, ← Nat.add_assoc] at h⟩

theorem le_index_of_mem_recordsFrom (h : r ∈ recordsFrom hrp n ss) : n ≤ r.index := by
  obtain ⟨i, s, -, hr⟩ := mem_recordsFrom_iff.1 h
  rw [SignatureRecord.index_of_ofSigner? hr]
  exact Nat.le_add_right n i

theorem pairwise_recordsFrom (n : Nat) (ss : List SignerInfo) :
    (recordsFrom hrp n ss).Pairwise fun r r' => r.index < r'.index := by
  induction ss generalizing n with
  | nil => exact .nil
  | cons s ss ih =>
    rw [recordsFrom]
    cases h : SignatureRecord.ofSigner? hrp n s with
    | none => exact ih (n + 1)
    | some r =>
      refine List.pairwise_cons.2 ⟨fun r' hr' => ?_, ih (n + 1)⟩
      rw [SignatureRecord.index_of_ofSigner? h]
      exact le_index_of_mem_recordsFrom hr'

theorem flatMap_signers_recordsFrom (n : Nat) (ss : List SignerInfo) :
    (recordsFrom hrp n ss).flatMap SignatureRecord.signers = ss.flatMap (addressesOf hrp) := by
  induction ss generalizing n with
  | nil => rfl
  | cons s ss ih =>
    rw [recordsFrom, List.flatMap_append, ih, List.flatMap_cons, ← addressesOf_eq]

/-- Only the record of the position where a signer is replaced can change. -/
theorem filter_recordsFrom_set (hrp : String) (n i : Nat) (ss : List SignerInfo) (s : SignerInfo) :
    (recordsFrom hrp n (ss.set i s)).filter (·.index ≠ n + i) =
      (recordsFrom hrp n ss).filter (·.index ≠ n + i) := by
  induction ss generalizing n i with
  | nil => rfl
  | cons t ss ih =>
    cases i with
    | zero =>
      have hown : ∀ u : SignerInfo,
          (SignatureRecord.ofSigner? hrp n u).toList.filter (·.index ≠ n + 0) = [] := by
        intro u
        rw [List.filter_eq_nil_iff]
        intro r hr
        simp [SignatureRecord.index_of_ofSigner? (Option.mem_toList.1 hr)]
      rw [List.set_cons_zero, recordsFrom, recordsFrom, List.filter_append, List.filter_append, hown,
        hown]
    | succ i =>
      have hi : n + (i + 1) = (n + 1) + i := by omega
      rw [List.set_cons_succ, recordsFrom, recordsFrom, List.filter_append, List.filter_append, hi, ih]

/-! ## Whole transactions -/

variable (o : Outcome)

/-- The address that the events name is what stands before the slash of the first value, if that is not
empty. -/
theorem accountSequenceAddress?_eq_some_iff {a : String} :
    o.accountSequenceAddress? = some a ↔
      a ≠ "" ∧ ∃ v, FirstValue o.events "tx" "acc_seq" v ∧ BeforeSlash v a := by
  simp only [accountSequenceAddress?, txEvent, accountSequenceKey, Option.filter_eq_some_iff,
    Option.map_eq_some_iff, Events.find?_eq_some_iff, bne_iff_ne]
  constructor
  · rintro ⟨⟨v, hv, rfl⟩, ha⟩
    exact ⟨ha, v, hv, beforeSlash_takeWhile v⟩
  · rintro ⟨ha, v, hv, hbefore⟩
    exact ⟨⟨v, hv, hbefore.takeWhile_eq⟩, ha⟩

theorem accountSequenceAddress?_eq_none_iff :
    o.accountSequenceAddress? = none ↔
      ∀ v, FirstValue o.events "tx" "acc_seq" v → BeforeSlash v "" := by
  rw [Option.eq_none_iff_forall_ne_some]
  simp only [ne_eq, accountSequenceAddress?_eq_some_iff, not_and, not_exists]
  constructor
  · intro h v hv
    have hbefore := beforeSlash_takeWhile v
    by_cases hempty : String.ofList (v.toList.takeWhile (· != '/')) = ""
    · rwa [hempty] at hbefore
    · exact absurd hbefore (h _ hempty v hv)
  · intro h a ha v hv hbefore
    exact ha (hbefore.takeWhile_eq.symm.trans (h v hv).takeWhile_eq)

theorem mem_signatures_iff : r ∈ o.signatures hrp ↔
    ∃ s, o.signerInfos[r.index]? = some s ∧ SignatureRecord.ofSigner? hrp r.index s = some r := by
  rw [signatures_eq, mem_recordsFrom_iff]
  simp only [Nat.zero_add]
  constructor
  · rintro ⟨i, s, hs, hr⟩
    rw [SignatureRecord.index_of_ofSigner? hr]
    exact ⟨s, hs, hr⟩
  · rintro ⟨s, hs, hr⟩
    exact ⟨r.index, s, hs, hr⟩

/-- A signer leaves a record of its own position exactly when its key is usable. -/
theorem exists_signature_iff {i : Nat} : (∃ r ∈ o.signatures hrp, r.index = i) ↔
    ∃ s, o.signerInfos[i]? = some s ∧ s.HasUsableKey := by
  simp only [mem_signatures_iff, ← @SignatureRecord.exists_ofSigner?_eq_some_iff hrp i]
  constructor
  · rintro ⟨r, ⟨s, hs, hr⟩, rfl⟩
    exact ⟨s, hs, r, hr⟩
  · rintro ⟨s, hs, r, hr⟩
    obtain rfl := SignatureRecord.index_of_ofSigner? hr
    exact ⟨r, ⟨s, hs, hr⟩, rfl⟩

/-- The address of the account of the first signer's key. -/
theorem firstSigner?_of_head {s : SignerInfo} (hs : o.signerInfos[0]? = some s)
    (hr : SignatureRecord.ofSigner? hrp 0 s = some r) :
    o.firstSigner? hrp = r.address.or o.accountSequenceAddress? := by
  obtain ⟨k, hk, rfl⟩ := Option.map_eq_some_iff.1 hr
  rw [firstSigner?, List.head?_eq_getElem?, hs]
  simp only [Option.bind_some, hk, SignatureRecord.ofKey]
  cases (k.accountAddress hrp).toOption <;> rfl

theorem firstSigner?_of_no_record (h : ∀ r ∈ o.signatures hrp, r.index ≠ 0) :
    o.firstSigner? hrp = o.accountSequenceAddress? := by
  have hkey : o.signerInfos.head?.bind SignerInfo.key? = none := by
    rw [Option.bind_eq_none_iff]
    intro s hs
    rw [List.head?_eq_getElem?] at hs
    cases hk : s.key? with
    | none => rfl
    | some k =>
      obtain ⟨r, hr, hi⟩ :=
        (exists_signature_iff o).2 ⟨s, hs, SignerInfo.exists_key?_eq_some_iff.1 ⟨k, hk⟩⟩
      exact absurd hi (h r hr)
  rw [firstSigner?, hkey]
  rfl

/-- The same transaction with one signer replaced; where there is no such signer nothing changes. -/
def withSigner (i : Nat) (s : SignerInfo) : Outcome :=
  { o with tx := { o.tx with
      authInfo := o.tx.authInfo.map fun a => { a with signerInfos := a.signerInfos.set i s } } }

theorem signerInfos_withSigner (i : Nat) (s : SignerInfo) :
    (o.withSigner i s).signerInfos = o.signerInfos.set i s := by
  simp only [signerInfos, withSigner]
  cases o.tx.authInfo <;> rfl

/-- **The views of who signed agree.** The addresses that signed are those that the records give, in
their order. The first signer is the account of the record of index zero, and the one that the events
name where there is no such record or it has no address: what stands before the slash of the first
account sequence, unless that is nothing. The indexes of the records increase, and are the positions of
the signers with a usable key; a signer that is replaced changes the record of its own position and no
other. -/
theorem signature_views_agree (hrp : String) :
    o.signerAddresses hrp = (o.signatures hrp).flatMap SignatureRecord.signers ∧
    (∀ r ∈ o.signatures hrp, r.index = 0 →
      ∀ a, r.address = some a → o.firstSigner? hrp = some a) ∧
    ((∀ r ∈ o.signatures hrp, r.index = 0 → r.address = none) →
      o.firstSigner? hrp = o.accountSequenceAddress?) ∧
    (∀ a, o.accountSequenceAddress? = some a ↔
      a ≠ "" ∧ ∃ v, FirstValue o.events "tx" "acc_seq" v ∧ BeforeSlash v a) ∧
    (o.accountSequenceAddress? = none ↔
      ∀ v, FirstValue o.events "tx" "acc_seq" v → BeforeSlash v "") ∧
    (o.signatures hrp).Pairwise (fun r r' => r.index < r'.index) ∧
    (∀ i, (∃ r ∈ o.signatures hrp, r.index = i) ↔
      ∃ s, o.signerInfos[i]? = some s ∧ s.HasUsableKey) ∧
    (∀ i s,
      ((o.withSigner i s).signatures hrp).filter (·.index ≠ i) =
        (o.signatures hrp).filter (·.index ≠ i) ∧
      ∀ r, r.index = i → (r ∈ (o.withSigner i s).signatures hrp ↔
        i < o.signerInfos.length ∧ SignatureRecord.ofSigner? hrp i s = some r)) := by
  have hfirst : ∀ r ∈ o.signatures hrp, r.index = 0 →
      o.firstSigner? hrp = r.address.or o.accountSequenceAddress? := by
    intro r hr hi
    obtain ⟨s, hs, hrec⟩ := (mem_signatures_iff o).1 hr
    rw [hi] at hs hrec
    exact firstSigner?_of_head o hs hrec
  refine ⟨?_, fun r hr hi a ha => ?_, fun hnone => ?_,
    fun a => accountSequenceAddress?_eq_some_iff o, accountSequenceAddress?_eq_none_iff o, ?_,
    fun i => exists_signature_iff o, fun i s => ⟨?_, fun r hi => ?_⟩⟩
  · rw [signatures_eq, flatMap_signers_recordsFrom, signerAddresses]
  · rw [hfirst r hr hi, ha, Option.some_or]
  · by_cases h : ∃ r ∈ o.signatures hrp, r.index = 0
    · obtain ⟨r, hr, hi⟩ := h
      rw [hfirst r hr hi, hnone r hr hi, Option.none_or]
    · exact firstSigner?_of_no_record o fun r hr hi => h ⟨r, hr, hi⟩
  · rw [signatures_eq]
    exact pairwise_recordsFrom 0 o.signerInfos
  · have hset := filter_recordsFrom_set hrp 0 i o.signerInfos s
    rw [Nat.zero_add] at hset
    rw [signatures_eq, signatures_eq, signerInfos_withSigner, hset]
  · subst hi
    rw [mem_signatures_iff, signerInfos_withSigner]
    by_cases hlt : r.index < o.signerInfos.length <;> simp [hlt]

/-- The first signer gives no key, so an event names it. The second signs for a multisig account with
two of three members, of which one has a key that nobody can read. -/
def unnamedPayer : Outcome :=
  let member := fun byte : UInt8 =>
    Envelope.pack "/cosmos.crypto.ed25519.PubKey" (KeyBytes.mk (List.replicate 32 byte))
  let key : MultisigKey := ⟨2, [member 1, member 2, ⟨"/x", []⟩]⟩
  { response := .ofEvents
      [⟨"tx", [⟨"fee", "5nhash", true⟩, ⟨"acc_seq", "\"pb1payer/17\"", true⟩]⟩]
    tx := ⟨none, some ⟨[⟨none, none, 17⟩,
      ⟨some (.pack "/cosmos.crypto.multisig.LegacyAminoPubKey" key),
        some (.multi (some ⟨3, [0xa0]⟩) []), 4⟩], none⟩, []⟩ }

theorem signature_views_of_unnamedPayer :
    let records : List SignatureRecord :=
      [⟨1, "LegacyAminoPubKey", some "pb1knl87pdt327hct2dyhhn429uwgxse4jeap3mvj", none, 4,
        some ⟨2, "pb1knl87pdt327hct2dyhhn429uwgxse4jeap3mvj",
          [⟨0, "ed25519", some "pb1wtxkappzcsrlkmgfs6g0zyct0hkhashh5hfnq9", true⟩,
            ⟨1, "ed25519", some "pb1wkrhhdqa8ya4lwz9tnnqanvdmgqp6p33fsf9up", false⟩,
            ⟨2, "/x", none, true⟩]⟩⟩]
    unnamedPayer.signatures "pb" = records ∧
      unnamedPayer.signerAddresses "pb" = ["pb1wtxkappzcsrlkmgfs6g0zyct0hkhashh5hfnq9"] ∧
      unnamedPayer.firstSigner? "pb" = some "pb1payer" := by
  intro records
  have hrecords : unnamedPayer.signatures "pb" = records := by decide +kernel
  obtain ⟨haddresses, -, hfallback, hnamed, -⟩ := signature_views_agree unnamedPayer "pb"
  have hvalue : FirstValue unnamedPayer.events "tx" "acc_seq" "pb1payer/17" :=
    ⟨[], _, [], rfl, nofun, rfl, [⟨"fee", "5nhash", true⟩], _, [], rfl, by decide, rfl,
      .quoted "pb1payer/17"⟩
  refine ⟨hrecords, ?_, (hfallback ?_).trans ((hnamed _).2 ?_)⟩
  · rw [haddresses, hrecords]
    rfl
  · rw [hrecords]
    decide
  · exact ⟨by decide, _, hvalue, .slash (s := "pb1payer") "17" (by decide)⟩

end Outcome

end TxLens

import TxLens.Proofs.Fee.Dependence
import TxLens.Proofs.Tx.RoundTrip
import TxLens.Summary
/-!
# The two copies of a transaction

A report may hold the transaction beside its result, packed inside the result, or both. The copy
beside the result is decoded along with the report, one level below it; the packed one is a byte
string of the report and is decoded only where the other is missing, with a budget of its own. Either
gives the same transaction as long as it leaves one level to the report, and nothing that is said about
a transaction looks at the packed copy (`Outcome.ofBytes_either_copy`).
-/

namespace TxLens

open Wire Wire.Object

/-! ## Levels of a report -/

theorem Attribute.levels_eq (a : Attribute) : levels a = 0 := by
  simp [levels, toMessage]

theorem Event.levels_le (e : Event) : levels e ≤ 1 := by
  have hattributes : Message.depth (ofSubs 2 e.attributes) ≤ 1 :=
    depth_ofSubs_le fun a _ => Nat.le_of_eq a.levels_eq
  simpa [levels, toMessage] using hattributes

theorem MessageLog.levels_le (l : MessageLog) : levels l ≤ 2 := by
  have hevents : Message.depth (ofSubs 3 l.events) ≤ 2 := depth_ofSubs_le fun e _ => e.levels_le
  simpa [levels, toMessage] using hevents

theorem TxResponse.levels_le (r : TxResponse) : levels r ≤ 3 := by
  have hlogs : Message.depth (ofSubs 7 r.logs) ≤ 3 := depth_ofSubs_le fun l _ => l.levels_le
  have htx : Message.depth (ofSub? 11 r.tx) ≤ 1 := depth_ofSub?_le fun e _ => Nat.le_of_eq e.levels_eq
  have hevents : Message.depth (ofSubs 13 r.events) ≤ 2 := depth_ofSubs_le fun e _ => e.levels_le
  simp only [levels, toMessage, Message.depth_append, Message.depth_ofWord, Message.depth_ofText]
  omega

namespace GetTxResponse

theorem levels_le {report : GetTxResponse} {n : Nat} (hn : 3 ≤ n)
    (h : ∀ t ∈ report.tx, levels t ≤ n) : levels report ≤ n + 1 := by
  have htx : Message.depth (ofSub? 1 report.tx) ≤ n + 1 := depth_ofSub?_le h
  have hresponse : Message.depth (ofSub? 2 report.txResponse) ≤ n + 1 :=
    depth_ofSub?_le fun r _ => Nat.le_trans r.levels_le hn
  simp only [levels, toMessage, Message.depth_append]
  omega

theorem lt_levels (t : Tx) (r : Option TxResponse) :
    levels t < levels (⟨some t, r⟩ : GetTxResponse) := by
  simp only [levels, toMessage, Message.depth_append, depth_ofSub?_some]
  omega

end GetTxResponse

/-! ## Reports with either copy -/

/-- The result with this packed copy of the transaction, or with none. -/
def TxResponse.withTx (r : TxResponse) (packed : Option Envelope) : TxResponse := { r with tx := packed }

namespace GetTxResponse

/-- The transaction stands beside its result. -/
def beside (r : TxResponse) (t : Tx) : GetTxResponse := ⟨some t, some r⟩

/-- The transaction stands packed inside its result and nowhere else. -/
def packing (r : TxResponse) (typeUrl : String) (t : Tx) : GetTxResponse :=
  ⟨none, some (r.withTx (some (Envelope.pack typeUrl t)))⟩

/-- A packed transaction is shorter than the report that holds it. -/
theorem length_encode_lt (r : TxResponse) (typeUrl : String) (t : Tx) :
    (encode t).length < (encode (packing r typeUrl t)).length := by
  have hvalue : Message.byteString 2 (toMessage (Envelope.pack typeUrl t)) = encode t := by
    simp [toMessage, Message.byteString, Envelope.pack]
  have henvelope : toMessage (Envelope.pack typeUrl t) ∈
      Message.messages 11 (toMessage (r.withTx (some (Envelope.pack typeUrl t)))) := by
    simp [toMessage, TxResponse.withTx]
  have hresponse : toMessage (r.withTx (some (Envelope.pack typeUrl t))) ∈
      Message.messages 2 (toMessage (packing r typeUrl t)) := by
    simp [toMessage, packing]
  calc (encode t).length
      ≤ Message.weight (toMessage (Envelope.pack typeUrl t)) :=
        hvalue ▸ Message.length_byteString_le 2 _
    _ < Message.weight (toMessage (r.withTx (some (Envelope.pack typeUrl t)))) :=
        Message.weight_lt_of_mem_messages henvelope
    _ < Message.weight (toMessage (packing r typeUrl t)) :=
        Message.weight_lt_of_mem_messages hresponse
    _ ≤ (encode (packing r typeUrl t)).length := Message.weight_le_length_print _

end GetTxResponse

open GetTxResponse (beside packing)

/-! ## Which outcome a report has -/

namespace Outcome

/-- What is made of a report: the transaction beside the result goes first, and only where it is
missing is the packed copy looked for and decoded. -/
inductive Reported : GetTxResponse → Except Fault Outcome → Prop
  | noResponse (tx : Option Tx) : Reported ⟨tx, none⟩ (.error .missingResponse)
  | beside (r : TxResponse) (t : Tx) : Reported ⟨some t, some r⟩ (.ok ⟨r, t⟩)
  | noCopy {r : TxResponse} (h : r.tx = none) : Reported ⟨none, some r⟩ (.error .missingTx)
  | packed {r : TxResponse} {e : Envelope} {t : Tx} (h : r.tx = some e) (ht : e.unpack Tx = .ok t) :
    Reported ⟨none, some r⟩ (.ok ⟨r, t⟩)
  | garbage {r : TxResponse} {e : Envelope} {f : Wire.Fault} (h : r.tx = some e)
    (hf : e.unpack Tx = .error f) : Reported ⟨none, some r⟩ (.error (.packedTx f))

theorem reported_ofReport (report : GetTxResponse) : Reported report (ofReport report) := by
  obtain ⟨tx, response⟩ := report
  cases response with
  | none => exact .noResponse tx
  | some r =>
    cases tx with
    | some t => exact .beside r t
    | none =>
      cases hr : r.tx with
      | none =>
        simp only [ofReport, hr]
        exact .noCopy hr
      | some e =>
        cases he : e.unpack Tx with
        | error f =>
          simp only [ofReport, hr, he]
          exact .garbage hr he
        | ok t =>
          simp only [ofReport, hr, he]
          exact .packed hr he

theorem ofReport_eq_iff {report : GetTxResponse} {x : Except Fault Outcome} :
    ofReport report = x ↔ Reported report x := by
  constructor
  · rintro rfl
    exact reported_ofReport report
  · intro h
    cases h with
    | noResponse | beside => rfl
    | noCopy h => simp only [ofReport, h]
    | packed h ht => simp only [ofReport, h, ht]
    | garbage h hf => simp only [ofReport, h, hf]

theorem ofBytes_eq_iff {bs : Bytes} {report : GetTxResponse}
    (h : decode GetTxResponse bs = .ok report) {x : Except Fault Outcome} :
    ofBytes bs = x ↔ Reported report x := by
  rw [ofBytes, h]
  exact ofReport_eq_iff

variable {r : TxResponse} {t : Tx}

theorem ofBytes_beside (ht : levels t ≤ 99) (hlen : (encode (beside r t)).length < 2 ^ 64) :
    ofBytes (encode (beside r t)) = .ok ⟨r, t⟩ := by
  have hlevels : levels (beside r t) ≤ levelLimit :=
    GetTxResponse.levels_le (by decide) fun t' ht' => by cases ht'; exact ht
  exact (ofBytes_eq_iff ((decode_encode _ hlen).1 hlevels)).2 (.beside r t)

theorem ofBytes_packing {typeUrl : String} (ht : levels t ≤ 100)
    (hlen : (encode (packing r typeUrl t)).length < 2 ^ 64) :
    ofBytes (encode (packing r typeUrl t)) =
      .ok ⟨r.withTx (some (Envelope.pack typeUrl t)), t⟩ := by
  have hlevels : levels (packing r typeUrl t) ≤ levelLimit :=
    Nat.le_trans (GetTxResponse.levels_le (n := 3) (by decide) fun t' ht' => by cases ht') (by decide)
  have hlen' := Nat.lt_trans (GetTxResponse.length_encode_lt r typeUrl t) hlen
  have hpacked : (Envelope.pack typeUrl t).unpack Tx = .ok t := (decode_encode t hlen').1 ht
  exact (ofBytes_eq_iff ((decode_encode _ hlen).1 hlevels)).2 (.packed rfl hpacked)

/-- With all the levels of the budget a transaction can be read from its packed copy only. -/
theorem ofBytes_full_depth {typeUrl : String} (ht : levels t = 100)
    (hlen : (encode (beside r t)).length < 2 ^ 64)
    (hlen' : (encode (packing r typeUrl t)).length < 2 ^ 64) :
    (∃ f, ofBytes (encode (beside r t)) = .error (.report f) ∧ f.cause = .recursionLimit) ∧
      ofBytes (encode (packing r typeUrl t)) =
        .ok ⟨r.withTx (some (Envelope.pack typeUrl t)), t⟩ := by
  refine ⟨?_, ofBytes_packing (Nat.le_of_eq ht) hlen'⟩
  have hlevels : levelLimit < levels (beside r t) := by
    have := GetTxResponse.lt_levels t (some r)
    rwa [ht] at this
  obtain ⟨f, hf, hcause⟩ := (decode_encode _ hlen).2 hlevels
  exact ⟨f, by rw [ofBytes, hf], hcause⟩

end Outcome

/-! ## The packed copy is not looked at -/

/-- Both outcomes have the same summary or the same fault, whatever registry, configuration and
schedule are used, and after the same questions to the schedule. -/
def Summary.Alike (o o' : Outcome) : Prop :=
  ∀ (m : Type → Type) [Monad m] (registry : Registry SignerRule) (c : Config) (lookup : FeeLookup m),
    ofOutcome registry c lookup o = ofOutcome registry c lookup o'

theorem Summary.alike_withTx (r : TxResponse) (t : Tx) (packed : Option Envelope) :
    Alike ⟨r, t⟩ ⟨r.withTx packed, t⟩ := by
  intro m _ registry c lookup
  have hsigners : signersOfMessages registry ⟨r, t⟩ = signersOfMessages registry ⟨r.withTx packed, t⟩ :=
    rfl
  have hsurcharges : Surcharge.identify lookup ⟨r, t⟩ (Outcome.height ⟨r, t⟩) =
      Surcharge.identify lookup ⟨r.withTx packed, t⟩ (Outcome.height ⟨r.withTx packed, t⟩) := rfl
  have hfee : ∀ hasSurcharges, resolveFee c.fees lookup ⟨r, t⟩ hasSurcharges =
      resolveFee c.fees lookup ⟨r.withTx packed, t⟩ hasSurcharges :=
    resolveFee_congr ⟨rfl, rfl, rfl, rfl, rfl, fun _ _ _ => Iff.rfl⟩
  have hrest : assemble c ⟨r, t⟩ = assemble c ⟨r.withTx packed, t⟩ := rfl
  rw [ofOutcome, ofOutcome, hsigners, hsurcharges, hrest]
  simp only [hfee]

/-- **Either copy will do**: a transaction that leaves a level to the report is read from beside its
result as from inside it, and the summary is the same, as long as a length of 64 bits can count the
report's bytes. Where it stands beside, the packed copy is not decoded and may be anything. In general
a report has the one outcome that `Outcome.Reported` says. -/
theorem Outcome.ofBytes_either_copy :
    (∀ (r : TxResponse) (t : Tx) (typeUrl : String), levels t ≤ 99 →
      (encode (beside r t)).length < 2 ^ 64 → (encode (packing r typeUrl t)).length < 2 ^ 64 →
        ∃ o o', ofBytes (encode (beside r t)) = .ok o ∧
          ofBytes (encode (packing r typeUrl t)) = .ok o' ∧
          o.tx = t ∧ o'.tx = t ∧ Summary.Alike o o') ∧
    (∀ (bs bs' : Bytes) (r : TxResponse) (t : Tx) (packed : Option Envelope),
      decode GetTxResponse bs = .ok (beside r t) →
      decode GetTxResponse bs' = .ok (beside (r.withTx packed) t) →
        ofBytes bs = .ok ⟨r, t⟩ ∧ ofBytes bs' = .ok ⟨r.withTx packed, t⟩ ∧
          Summary.Alike ⟨r, t⟩ ⟨r.withTx packed, t⟩) ∧
    (∀ (bs : Bytes) (report : GetTxResponse), decode GetTxResponse bs = .ok report →
      ∀ x, ofBytes bs = x ↔ Reported report x) := by
  refine ⟨?_, ?_, ?_⟩
  · intro r t typeUrl ht hlen hlen'
    exact ⟨_, _, ofBytes_beside ht hlen, ofBytes_packing (Nat.le_succ_of_le ht) hlen', rfl, rfl,
      Summary.alike_withTx r t _⟩
  · intro bs bs' r t packed h h'
    exact ⟨(ofBytes_eq_iff h).2 (.beside r t), (ofBytes_eq_iff h').2 (.beside _ t),
      Summary.alike_withTx r t packed⟩
  · intro bs report h x
    exact ofBytes_eq_iff h

/-- The result that a report of no bytes stands for. -/
def TxResponse.blank : TxResponse :=
  { height := 0, txhash := "", codespace := "", code := 0, rawLog := "", logs := [], gasWanted := 0,
    gasUsed := 0, tx := none, timestamp := "", events := [] }

/-- A transaction of 99 levels, 96 of them in the mode of its only signer. -/
def Tx.deep : Tx := ⟨none, some ⟨[⟨none, some (.nested .unset 48), 0⟩], none⟩, []⟩

/-- An envelope whose content is no message. -/
def Envelope.garbage : Envelope := ⟨"", [255]⟩

/-- The deepest transaction is read from both places, garbage beside an empty one changes nothing, and
each thing that is missing or garbled has a fault of its own. -/
theorem Outcome.ofBytes_deep_and_garbage :
    (∃ o o', ofBytes (encode (beside .blank .deep)) = .ok o ∧
      ofBytes (encode (packing .blank "tx" .deep)) = .ok o' ∧
      o.tx = .deep ∧ o'.tx = .deep ∧ Summary.Alike o o') ∧
    ofBytes [10, 0, 18, 5, 90, 3, 18, 1, 255] =
      .ok ⟨TxResponse.blank.withTx (some .garbage), ⟨none, none, []⟩⟩ ∧
    ofBytes [10, 0] = .error .missingResponse ∧
    ofBytes [18, 0] = .error .missingTx ∧
    ofBytes [18, 5, 90, 3, 18, 1, 255] = .error (.packedTx ⟨[], .invalidVarint⟩) := by
  obtain ⟨hcopies, hbeside, hreport⟩ := ofBytes_either_copy
  have hblank : decode GetTxResponse [10, 0, 18, 0] = .ok (beside .blank ⟨none, none, []⟩) := by
    with_unfolding_all rfl
  have hgarbage : decode GetTxResponse [10, 0, 18, 5, 90, 3, 18, 1, 255] =
      .ok (beside (TxResponse.blank.withTx (some .garbage)) ⟨none, none, []⟩) := by
    with_unfolding_all rfl
  refine ⟨?_, (hbeside _ _ _ _ _ hblank hgarbage).2.1, ?_, ?_, ?_⟩
  · exact hcopies .blank .deep "tx" (by decide +kernel) (by decide +kernel) (by decide +kernel)
  · have h : decode GetTxResponse [10, 0] = .ok ⟨some ⟨none, none, []⟩, none⟩ := by
      with_unfolding_all rfl
    exact (hreport _ _ h _).2 (.noResponse _)
  · have h : decode GetTxResponse [18, 0] = .ok ⟨none, some .blank⟩ := by with_unfolding_all rfl
    exact (hreport _ _ h _).2 (.noCopy rfl)
  · have h : decode GetTxResponse [18, 5, 90, 3, 18, 1, 255] =
        .ok ⟨none, some (TxResponse.blank.withTx (some .garbage))⟩ := by with_unfolding_all rfl
    have hf : Envelope.garbage.unpack Tx = .error ⟨[], .invalidVarint⟩ := by with_unfolding_all rfl
    exact (hreport _ _ h _).2 (.garbage rfl hf)

end TxLens

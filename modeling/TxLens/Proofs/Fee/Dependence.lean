import TxLens.Proofs.Fee.Tiers
import TxLens.Proofs.Insertion
/-!
# What a fee depends on

The fee of an outcome is a function of a few facts: the code and codespace, the height, the gas asked
for, the coins offered in the utility denomination, and the first value of each of four keys on
events. Outcomes that agree on these have the same fee, found in the same place after the same
questions to the schedule. So what else an outcome holds may change freely, and further events may be
put in where they hide no first value (`resolveFee_of_sameFeeFacts`).
-/

namespace TxLens

open Events (FirstValue)

variable {c : FeeConfig} {o o' : Outcome}

/-! ## The facts -/

/-- The types of events and the keys on them that may hold a fee. -/
def feePairs : List (String × String) :=
  [("tx", "basefee"), ("tx", "fee"), ("tx", "min_fee_charged"), ("coin_spent", "amount")]

/-- Two outcomes agree on all that their fees depend on. -/
structure SameFeeFacts (c : FeeConfig) (o o' : Outcome) : Prop where
  code : o.response.code = o'.response.code
  codespace : o.response.codespace = o'.response.codespace
  height : o.height = o'.height
  gasWanted : o.gasWanted = o'.gasWanted
  offered : (o.declaredFee.filter fun coin => coin.denom == c.utilityDenom) =
    o'.declaredFee.filter fun coin => coin.denom == c.utilityDenom
  values : ∀ p ∈ feePairs, ∀ v, FirstValue o.events p.1 p.2 v ↔ FirstValue o'.events p.1 p.2 v

/-! ## Each candidate depends on its facts -/

namespace Resolution

theorem eventFee?_congr {type key : String}
    (h : ∀ v, FirstValue o.events type key v ↔ FirstValue o'.events type key v) :
    eventFee? c o type key = eventFee? c o' type key := by
  have hfind : Events.find? o.events type key none = Events.find? o'.events type key none := by
    ext v
    rw [Events.find?_eq_some_iff, Events.find?_eq_some_iff]
    exact h v
  rw [eventFee?, eventFee?, hfind]

theorem declared_congr
    (h : (o.declaredFee.filter fun coin => coin.denom == c.utilityDenom) =
      o'.declaredFee.filter fun coin => coin.denom == c.utilityDenom) :
    declared c o = declared c o' := by
  rw [declared, declared, Outcome.declaredTotal, Outcome.declaredTotal, h]

variable {m : Type → Type} [Monad m] {lookup : FeeLookup m}

theorem defaultBaseFee_congr (hh : o.height = o'.height) (hg : o.gasWanted = o'.gasWanted) :
    defaultBaseFee c lookup o = defaultBaseFee c lookup o' := by
  rw [defaultBaseFee, defaultBaseFee, hh, hg]

theorem ofSuccess_congr (h : SameFeeFacts c o o') (hasSurcharges : Bool) :
    ofSuccess c lookup o hasSurcharges = ofSuccess c lookup o' hasSurcharges := by
  have hbase : eventFee? c o Outcome.txEvent baseFeeKey = eventFee? c o' Outcome.txEvent baseFeeKey :=
    eventFee?_congr (h.values ("tx", "basefee") (by simp [feePairs]))
  have hfee : eventFee? c o Outcome.txEvent feeKey = eventFee? c o' Outcome.txEvent feeKey :=
    eventFee?_congr (h.values ("tx", "fee") (by simp [feePairs]))
  rw [ofSuccess, ofSuccess, hbase, hfee, h.height, defaultBaseFee_congr h.height h.gasWanted,
    declared_congr h.offered]

theorem ofFailure_congr (h : SameFeeFacts c o o') :
    ofFailure c lookup o = ofFailure c lookup o' := by
  have hmin : eventFee? c o Outcome.txEvent minFeeChargedKey =
      eventFee? c o' Outcome.txEvent minFeeChargedKey :=
    eventFee?_congr (h.values ("tx", "min_fee_charged") (by simp [feePairs]))
  have hspent : eventFee? c o coinSpentEvent coinSpentKey =
      eventFee? c o' coinSpentEvent coinSpentKey :=
    eventFee?_congr (h.values ("coin_spent", "amount") (by simp [feePairs]))
  have hrejected : o.isNoChargeRejection = o'.isNoChargeRejection := by
    rw [Outcome.isNoChargeRejection, Outcome.isNoChargeRejection, h.code, h.codespace]
  rw [ofFailure, ofFailure, hmin, hspent, hrejected, h.height,
    defaultBaseFee_congr h.height h.gasWanted, declared_congr h.offered]

end Resolution

section

variable {m : Type → Type} [Monad m] {lookup : FeeLookup m}

theorem resolveFee_congr (h : SameFeeFacts c o o') (hasSurcharges : Bool) :
    resolveFee c lookup o hasSurcharges = resolveFee c lookup o' hasSurcharges := by
  rw [resolveFee, resolveFee, Outcome.isSuccess, Outcome.isSuccess, h.code,
    Resolution.ofSuccess_congr h, Resolution.ofFailure_congr h]

/-- Whether there are surcharges is asked only where a success falls into the bug window. -/
theorem resolveFee_flag (h : ¬ (o.response.code = 0 ∧ Tier.InBugWindow c o.height))
    (hasSurcharges hasSurcharges' : Bool) :
    resolveFee c lookup o hasSurcharges = resolveFee c lookup o hasSurcharges' := by
  unfold resolveFee
  by_cases hcode : o.response.code = 0
  · have hwindow : c.inBugWindow o.height = false := by
      rw [Bool.eq_false_iff, ne_eq, inBugWindow_iff]
      exact fun hw => h ⟨hcode, hw⟩
    simp only [Resolution.ofSuccess, hwindow, Bool.false_and]
  · simp only [Outcome.isSuccess, beq_iff_eq, hcode, ↓reduceIte]

end

/-! ## Further events -/

/-- Events put in behind others hide no first value, as long as each carries the key only where one
of those others does. -/
theorem Events.firstValue_inserted {kind : Event → Prop} {type key : String}
    {before after after' : List Event} (h : Inserted kind after after')
    (hkind : ∀ x, kind x → x.Carries type key → ∃ e ∈ before, e.Carries type key) (v : String) :
    FirstValue (before ++ after') type key v ↔ FirstValue (before ++ after) type key v := by
  have hevent : findEvent? (before ++ after') type key none =
      findEvent? (before ++ after) type key none := by
    rw [findEvent?, findEvent?, List.find?_append, List.find?_append]
    cases hfound : before.find? (isMatch type key none) with
    | some e => rfl
    | none =>
      -- none of the events in front carries the key, so neither does any that is put in
      refine congrArg (Option.or none) (h.find?_eq ?_)
      intro x hx
      rw [Bool.eq_false_iff, ne_eq, isMatch_none_iff]
      intro hcarries
      obtain ⟨e, he, hec⟩ := hkind x hx hcarries
      exact List.find?_eq_none.1 hfound e he (isMatch_none_iff.2 hec)
  rw [← find?_eq_some_iff, ← find?_eq_some_iff, find?, find?, hevent]

/-- An outcome with other events. -/
def Outcome.withEvents (o : Outcome) (es : List Event) : Outcome :=
  { o with response := { o.response with events := es } }

/-- An event that carries a fee only under a type and key under which one of these does already. -/
def Event.HidesNoFee (before : List Event) (x : Event) : Prop :=
  ∀ p ∈ feePairs, x.Carries p.1 p.2 → ∃ e ∈ before, e.Carries p.1 p.2

theorem SameFeeFacts.of_inserted {before after after' : List Event}
    (h : Inserted (Event.HidesNoFee before) after after') :
    SameFeeFacts c (o.withEvents (before ++ after')) (o.withEvents (before ++ after)) where
  code := rfl
  codespace := rfl
  height := rfl
  gasWanted := rfl
  offered := rfl
  values p hp v := Events.firstValue_inserted h (fun _ hx => hx p hp) v

/-- **What a fee depends on**: outcomes that agree on the facts have the same fee. Events that carry
no fee may be put in anywhere, and events that carry one behind those that carry it already; hash,
logs, gas used, packed copy and all of the transaction but the offered fee do not matter; and whether
there are surcharges matters only for a success in the bug window. -/
theorem resolveFee_of_sameFeeFacts {m : Type → Type} [Monad m] (c : FeeConfig) (lookup : FeeLookup m)
    (o : Outcome) (hasSurcharges : Bool) :
    (∀ o', SameFeeFacts c o o' →
      resolveFee c lookup o hasSurcharges = resolveFee c lookup o' hasSurcharges) ∧
    (∀ es, Inserted (fun x => ∀ p ∈ feePairs, ¬ x.Carries p.1 p.2) o.events es →
      resolveFee c lookup (o.withEvents es) hasSurcharges = resolveFee c lookup o hasSurcharges) ∧
    (∀ before after after', before ++ after = o.events →
      Inserted (Event.HidesNoFee before) after after' →
        resolveFee c lookup (o.withEvents (before ++ after')) hasSurcharges =
          resolveFee c lookup o hasSurcharges) ∧
    (∀ (txhash rawLog timestamp : String) (logs : List MessageLog) (gasUsed : Int64)
      (packed : Option Envelope) (tx : Tx),
      tx.authInfo.bind AuthInfo.fee = o.tx.authInfo.bind AuthInfo.fee →
        resolveFee c lookup
            ⟨{ o.response with txhash, rawLog, timestamp, logs, gasUsed, tx := packed }, tx⟩
            hasSurcharges =
          resolveFee c lookup o hasSurcharges) ∧
    (¬ (o.response.code = 0 ∧ Tier.InBugWindow c o.height) → ∀ hasSurcharges',
      resolveFee c lookup o hasSurcharges = resolveFee c lookup o hasSurcharges') := by
  have hinserted : ∀ before after after', before ++ after = o.events →
      Inserted (Event.HidesNoFee before) after after' →
        resolveFee c lookup (o.withEvents (before ++ after')) hasSurcharges =
          resolveFee c lookup o hasSurcharges := by
    intro before after after' hsplit h
    have hsame : SameFeeFacts c (o.withEvents (before ++ after')) (o.withEvents (before ++ after)) :=
      .of_inserted h
    rw [hsplit] at hsame
    exact resolveFee_congr hsame hasSurcharges
  refine ⟨?_, ?_, hinserted, ?_, ?_⟩
  · intro o' h
    exact resolveFee_congr h hasSurcharges
  · intro es h
    refine hinserted [] o.events es rfl ?_
    exact h.mono fun x hx p hp hc => absurd hc (hx p hp)
  · intro txhash rawLog timestamp logs gasUsed packed tx hfee
    refine resolveFee_congr (m := m) ?_ hasSurcharges
    refine ⟨rfl, rfl, rfl, rfl, ?_, fun _ _ _ => Iff.rfl⟩
    simp only [Outcome.declaredFee, hfee]
  · intro h
    exact resolveFee_flag h hasSurcharges

/-- A success whose only event reports a base fee. -/
def baseFeeReport : Outcome where
  response :=
    { height := 1, txhash := "A", codespace := "", code := 0, rawLog := "", logs := [],
      gasWanted := 0, gasUsed := 0, tx := none, timestamp := "",
      events := [⟨"tx", [⟨"basefee", "10nhash", false⟩]⟩] }
  tx := ⟨none, none, []⟩

/-- The fee stays with an offer in another denomination, an event in front that carries no fee, a
second base fee behind, another hash, and surcharges. -/
theorem fee_of_baseFeeReport :
    (resolveFee .standard FeeSchedule.empty.lookup
        ⟨baseFeeReport.response, ⟨none, some ⟨[], some ⟨[⟨"usd", "5"⟩], 0, "", ""⟩⟩, []⟩⟩ false).run =
      ⟨⟨10, "nhash"⟩, .baseFeeEvent⟩ ∧
    (resolveFee .standard FeeSchedule.empty.lookup
        (baseFeeReport.withEvents
          [⟨"transfer", [⟨"amount", "7nhash", false⟩]⟩, ⟨"tx", [⟨"basefee", "10nhash", false⟩]⟩])
        false).run = ⟨⟨10, "nhash"⟩, .baseFeeEvent⟩ ∧
    (resolveFee .standard FeeSchedule.empty.lookup
        (baseFeeReport.withEvents
          [⟨"tx", [⟨"basefee", "10nhash", false⟩]⟩, ⟨"tx", [⟨"basefee", "99nhash", false⟩]⟩])
        false).run = ⟨⟨10, "nhash"⟩, .baseFeeEvent⟩ ∧
    (resolveFee .standard FeeSchedule.empty.lookup
        ⟨{ baseFeeReport.response with txhash := "B" }, baseFeeReport.tx⟩ false).run =
      ⟨⟨10, "nhash"⟩, .baseFeeEvent⟩ ∧
    (resolveFee .standard FeeSchedule.empty.lookup baseFeeReport true).run =
      ⟨⟨10, "nhash"⟩, .baseFeeEvent⟩ := by
  have hfee : (resolveFee .standard FeeSchedule.empty.lookup baseFeeReport false).run =
      ⟨⟨10, "nhash"⟩, .baseFeeEvent⟩ := by decide +kernel
  obtain ⟨hfacts, hanywhere, hbehind, hrest, hflag⟩ :=
    resolveFee_of_sameFeeFacts .standard FeeSchedule.empty.lookup baseFeeReport false
  refine ⟨?_, ?_, ?_, ?_, ?_⟩
  · rw [← hfacts]
    · exact hfee
    · exact ⟨rfl, rfl, rfl, rfl, by decide, fun _ _ _ => Iff.rfl⟩
  · rw [hanywhere]
    · exact hfee
    · exact .put (by simp [feePairs, Event.Carries]) (.keep _ .nil)
  · have hhides : Event.HidesNoFee baseFeeReport.events ⟨"tx", [⟨"basefee", "99nhash", false⟩]⟩ := by
      simp [Event.HidesNoFee, feePairs, Event.Carries, baseFeeReport, Outcome.events]
    have hsecond := hbehind baseFeeReport.events [] [_] (List.append_nil _) (.put hhides .nil)
    exact (congrArg Id.run hsecond).trans hfee
  · rw [hrest _ _ _ _ _ _ _ rfl]
    exact hfee
  · rw [← hflag]
    · exact hfee
    · rintro ⟨-, w, hw, -⟩
      cases hw

end TxLens

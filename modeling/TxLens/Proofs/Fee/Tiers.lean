import Mathlib.Algebra.Group.Nat.Defs
import TxLens.Fee.Resolution
import TxLens.Proofs.Event.Lookup
import TxLens.Proofs.Money
/-!
# The tiers of a fee

The places where a fee may stand are tiers, tried in order: four for a transaction that succeeded,
five for one that failed. A tier says which fee it gives, if any, by what the events and the schedule
hold, and the first that gives one decides (`FirstTier`). The fee that is resolved is the one that
the tiers determine, and no other (`resolveFee_iff_firstTier`).
-/

namespace TxLens

/-! ## What a coin text is worth -/

/-- The fee that a coin text stands for: nothing at all where it names no amount, and in the utility
denomination where it names none. -/
inductive Worth (utility value : String) : Money → Prop where
  | unreadable (h : ¬ NamesAmount value) : Worth utility value ⟨0, utility⟩
  | bare (h : NamesAmount value) (hd : afterDigits value = "") :
    Worth utility value ⟨Text.numeralValue (leadingDigits value), utility⟩
  | coin (h : NamesAmount value) (hd : afterDigits value ≠ "") :
    Worth utility value ⟨Text.numeralValue (leadingDigits value), afterDigits value⟩

theorem Worth.unique {utility value : String} {m m' : Money} (h : Worth utility value m)
    (h' : Worth utility value m') : m = m' := by
  cases h with
  | unreadable hn =>
    cases h' with
    | unreadable => rfl
    | bare hr | coin hr => exact absurd hr hn
  | bare hr hd =>
    cases h' with
    | unreadable hn => exact absurd hr hn
    | bare => rfl
    | coin _ hd' => exact absurd hd hd'
  | coin hr hd =>
    cases h' with
    | unreadable hn => exact absurd hr hn
    | bare _ hd' => exact absurd hd' hd
    | coin => rfl

/-- The fee that is made of an event's value is what the value is worth. -/
theorem worth_of_ofText? (utility value : String) :
    Worth utility value (match Money.ofText? value with
      | none => ⟨0, utility⟩
      | some money => if money.denom = "" then ⟨money.amount, utility⟩ else money) := by
  rw [Money.ofText?_eq]
  by_cases h : NamesAmount value
  · rw [if_pos h]
    by_cases hd : afterDigits value = ""
    · simp only [hd, ↓reduceIte]
      exact .bare h hd
    · simp only [hd, ↓reduceIte]
      exact .coin h hd
  · rw [if_neg h]
    exact .unreadable h

/-! ## Tiers -/

/-- A place where a fee may stand, and the fee that it gives if it applies. -/
structure Tier where
  source : FeeSource
  Gives : Money → Prop

/-- The first tier of a list that gives a fee, with that fee. -/
inductive FirstTier : List Tier → Resolution → Prop where
  | here {t : Tier} {ts : List Tier} {m : Money} (h : t.Gives m) : FirstTier (t :: ts) ⟨m, t.source⟩
  | later {t : Tier} {ts : List Tier} {r : Resolution} (h : ∀ m, ¬ t.Gives m)
    (hr : FirstTier ts r) : FirstTier (t :: ts) r

namespace Tier

/-- An event fee: what the first value of a key on events of a type is worth. -/
def event (c : FeeConfig) (o : Outcome) (source : FeeSource) (type key : String) : Tier :=
  ⟨source, fun m => ∃ v, Events.FirstValue o.events type key v ∧ Worth c.utilityDenom v m⟩

/-- An amount in the utility denomination, under a condition. -/
def utility (c : FeeConfig) (source : FeeSource) (applies : Prop) (amount : Nat) : Tier :=
  ⟨source, fun m => applies ∧ m = ⟨amount, c.utilityDenom⟩⟩

/-- Whether a height lies in the configured bug window, if there is one and it is enabled. -/
def InBugWindow (c : FeeConfig) (height : Nat) : Prop :=
  ∃ w, c.bugWindow = some w ∧ w.start ≠ 0 ∧ w.start ≤ height ∧ height ≤ w.last

/-- Gas asked for times the floor price at the height, or the configured price where the schedule has
none; at most the largest amount. -/
def formula (c : FeeConfig) (lookup : FeeLookup Id) (o : Outcome) : Nat :=
  min (o.gasWanted * (lookup.floorPrice o.height).run.getD c.defaultGasPrice) (2 ^ 128 - 1)

def ofSuccess (c : FeeConfig) (lookup : FeeLookup Id) (o : Outcome) (hasSurcharges : Bool) :
    List Tier :=
  [utility c .bugWindowDefault (InBugWindow c o.height ∧ hasSurcharges = false) (formula c lookup o),
   event c o .baseFeeEvent "tx" "basefee",
   event c o .feeEvent "tx" "fee",
   utility c .declaredFee True (o.declaredTotal c.utilityDenom)]

def ofFailure (c : FeeConfig) (lookup : FeeLookup Id) (o : Outcome) : List Tier :=
  [event c o .minFeeChargedEvent "tx" "min_fee_charged",
   event c o .coinSpentEvent "coin_spent" "amount",
   utility c .noChargeRejection
     ((o.response.codespace, o.response.code) ∈ Outcome.noChargeRejections) 0,
   utility c .cappedDefault ((lookup.fees o.height).run ≠ [])
     (min (formula c lookup o) (o.declaredTotal c.utilityDenom)),
   utility c .declaredFee True (o.declaredTotal c.utilityDenom)]

/-- The tiers of a transaction, by its code. -/
def all (c : FeeConfig) (lookup : FeeLookup Id) (o : Outcome) (hasSurcharges : Bool) : List Tier :=
  if o.response.code = 0 then ofSuccess c lookup o hasSurcharges else ofFailure c lookup o

/-! ## Each tier gives one fee -/

def Functional (t : Tier) : Prop := ∀ m m', t.Gives m → t.Gives m' → m = m'

theorem functional_event (c : FeeConfig) (o : Outcome) (source : FeeSource) (type key : String) :
    (event c o source type key).Functional := by
  rintro m m' ⟨v, hv, hw⟩ ⟨v', hv', hw'⟩
  have e : v = v' := Option.some.inj
    ((Events.find?_eq_some_iff.2 hv).symm.trans (Events.find?_eq_some_iff.2 hv'))
  subst e
  exact hw.unique hw'

theorem functional_utility (c : FeeConfig) (source : FeeSource) (applies : Prop) (amount : Nat) :
    (utility c source applies amount).Functional := by
  rintro m m' ⟨-, rfl⟩ ⟨-, rfl⟩
  rfl

theorem functional_of_mem_all {c : FeeConfig} {lookup : FeeLookup Id} {o : Outcome}
    {hasSurcharges : Bool} {t : Tier} (h : t ∈ all c lookup o hasSurcharges) : t.Functional := by
  unfold all at h
  split at h
  · simp only [ofSuccess, List.mem_cons, List.not_mem_nil, or_false] at h
    rcases h with rfl | rfl | rfl | rfl
    · exact functional_utility _ _ _ _
    · exact functional_event _ _ _ _ _
    · exact functional_event _ _ _ _ _
    · exact functional_utility _ _ _ _
  · simp only [ofFailure, List.mem_cons, List.not_mem_nil, or_false] at h
    rcases h with rfl | rfl | rfl | rfl | rfl
    · exact functional_event _ _ _ _ _
    · exact functional_event _ _ _ _ _
    · exact functional_utility _ _ _ _
    · exact functional_utility _ _ _ _
    · exact functional_utility _ _ _ _

end Tier

theorem FirstTier.unique {ts : List Tier} {r r' : Resolution} (hts : ∀ t ∈ ts, t.Functional)
    (h : FirstTier ts r) (h' : FirstTier ts r') : r = r' := by
  induction h with
  | here hg =>
    cases h' with
    | here hg' => rw [hts _ List.mem_cons_self _ _ hg hg']
    | later hn => exact absurd hg (hn _)
  | later hn _ ih =>
    cases h' with
    | here hg' => exact absurd hg' (hn _)
    | later _ hr' => exact ih (fun t ht => hts t (List.mem_cons_of_mem _ ht)) hr'

/-! ## The resolved fee is the first tier's -/

theorem gives_of_eventFee? {c : FeeConfig} {o : Outcome} {type key : String} {m : Money}
    (source : FeeSource) (h : Resolution.eventFee? c o type key = some m) :
    (Tier.event c o source type key).Gives m := by
  simp only [Resolution.eventFee?, Option.map_eq_some_iff] at h
  obtain ⟨v, hv, rfl⟩ := h
  exact ⟨v, Events.find?_eq_some_iff.1 hv, worth_of_ofText? c.utilityDenom v⟩

theorem not_gives_of_eventFee? {c : FeeConfig} {o : Outcome} {type key : String}
    (source : FeeSource) (h : Resolution.eventFee? c o type key = none) (m : Money) :
    ¬ (Tier.event c o source type key).Gives m := by
  rintro ⟨v, hv, -⟩
  simp only [Resolution.eventFee?, Option.map_eq_none_iff] at h
  rw [Events.find?_eq_some_iff.2 hv] at h
  cases h

theorem not_gives_utility {c : FeeConfig} {source : FeeSource} {applies : Prop} {amount : Nat}
    (h : ¬ applies) (m : Money) : ¬ (Tier.utility c source applies amount).Gives m :=
  fun hg => h hg.1

theorem inBugWindow_iff {c : FeeConfig} {height : Nat} :
    c.inBugWindow height = true ↔ Tier.InBugWindow c height := by
  simp only [FeeConfig.inBugWindow, Tier.InBugWindow, HeightRange.contains, HeightRange.isEnabled,
    Option.any_eq_true, Bool.and_eq_true, bne_iff_ne, decide_eq_true_eq, and_assoc]

theorem defaultBaseFee_run (c : FeeConfig) (lookup : FeeLookup Id) (o : Outcome) :
    (Resolution.defaultBaseFee c lookup o).run = Tier.formula c lookup o := by
  have hmax : Amount.largest = 2 ^ 128 - 1 := by decide
  simp [Resolution.defaultBaseFee, Tier.formula, Amount.mul, hmax]

theorem firstTier_ofSuccess (c : FeeConfig) (lookup : FeeLookup Id) (o : Outcome)
    (hasSurcharges : Bool) :
    FirstTier (Tier.ofSuccess c lookup o hasSurcharges)
      (Resolution.ofSuccess c lookup o hasSurcharges).run := by
  unfold Tier.ofSuccess Resolution.ofSuccess
  by_cases hw : (c.inBugWindow o.height && !hasSurcharges) = true
  · rw [if_pos hw]
    simp only [Bool.and_eq_true, Bool.not_eq_true', inBugWindow_iff] at hw
    simp only [Id.run_bind, Id.run_pure, defaultBaseFee_run]
    exact .here ⟨hw, rfl⟩
  · rw [if_neg hw]
    simp only [Bool.and_eq_true, Bool.not_eq_true', inBugWindow_iff] at hw
    refine .later (not_gives_utility hw) ?_
    cases hb : Resolution.eventFee? c o Outcome.txEvent Resolution.baseFeeKey with
    | some fee => exact .here (gives_of_eventFee? _ hb)
    | none =>
      refine .later (not_gives_of_eventFee? _ hb) ?_
      cases hf : Resolution.eventFee? c o Outcome.txEvent Resolution.feeKey with
      | some fee => exact .here (gives_of_eventFee? _ hf)
      | none => exact .later (not_gives_of_eventFee? _ hf) (.here ⟨trivial, rfl⟩)

theorem firstTier_ofFailure (c : FeeConfig) (lookup : FeeLookup Id) (o : Outcome) :
    FirstTier (Tier.ofFailure c lookup o) (Resolution.ofFailure c lookup o).run := by
  unfold Tier.ofFailure Resolution.ofFailure
  cases hm : Resolution.eventFee? c o Outcome.txEvent Resolution.minFeeChargedKey with
  | some fee => exact .here (gives_of_eventFee? _ hm)
  | none =>
    refine .later (not_gives_of_eventFee? _ hm) ?_
    cases hs : Resolution.eventFee? c o Resolution.coinSpentEvent Resolution.coinSpentKey with
    | some fee => exact .here (gives_of_eventFee? _ hs)
    | none =>
      refine .later (not_gives_of_eventFee? _ hs) ?_
      by_cases hn : o.isNoChargeRejection = true
      · simp only [hn, ↓reduceIte, Id.run_pure]
        exact .here ⟨List.contains_iff_mem.1 hn, rfl⟩
      · simp only [hn, Bool.false_eq_true, ↓reduceIte, Id.run_bind]
        refine .later (not_gives_utility fun h => hn (List.contains_iff_mem.2 h)) ?_
        by_cases hf : (lookup.fees o.height).run = []
        · simp only [hf, List.isEmpty_nil, ↓reduceIte, Id.run_pure]
          exact .later (not_gives_utility fun h => h rfl) (.here ⟨trivial, rfl⟩)
        · simp only [List.isEmpty_iff, hf, ↓reduceIte, Id.run_bind, Id.run_pure, defaultBaseFee_run]
          exact .here ⟨hf, rfl⟩

theorem firstTier_resolveFee (c : FeeConfig) (lookup : FeeLookup Id) (o : Outcome)
    (hasSurcharges : Bool) :
    FirstTier (Tier.all c lookup o hasSurcharges) (resolveFee c lookup o hasSurcharges).run := by
  unfold Tier.all resolveFee
  by_cases h : o.response.code = 0
  · simp only [Outcome.isSuccess, h, beq_self_eq_true, ↓reduceIte]
    exact firstTier_ofSuccess c lookup o hasSurcharges
  · simp only [Outcome.isSuccess, beq_iff_eq, h, ↓reduceIte]
    exact firstTier_ofFailure c lookup o

theorem FirstTier.exists_tier {ts : List Tier} {r : Resolution} (h : FirstTier ts r) :
    ∃ t ∈ ts, t.Gives r.fee ∧ t.source = r.source := by
  induction h with
  | here hg => exact ⟨_, List.mem_cons_self, hg, rfl⟩
  | later _ _ ih =>
    obtain ⟨t, ht, hg, hs⟩ := ih
    exact ⟨t, List.mem_cons_of_mem _ ht, hg, hs⟩

/-- The places on events. -/
def FeeSource.onEvents : List FeeSource :=
  [.baseFeeEvent, .feeEvent, .minFeeChargedEvent, .coinSpentEvent]

/-- A tier that is not on events gives a fee in the utility denomination. -/
theorem Tier.denom_of_not_onEvents {c : FeeConfig} {lookup : FeeLookup Id} {o : Outcome}
    {hasSurcharges : Bool} {t : Tier} (ht : t ∈ Tier.all c lookup o hasSurcharges)
    (hs : t.source ∉ FeeSource.onEvents) {m : Money} (hm : t.Gives m) : m.denom = c.utilityDenom := by
  unfold Tier.all at ht
  split at ht
  · simp only [Tier.ofSuccess, List.mem_cons, List.not_mem_nil, or_false] at ht
    rcases ht with rfl | rfl | rfl | rfl
    · rw [hm.2]
    · exact absurd (by simp [Tier.event, FeeSource.onEvents]) hs
    · exact absurd (by simp [Tier.event, FeeSource.onEvents]) hs
    · rw [hm.2]
  · simp only [Tier.ofFailure, List.mem_cons, List.not_mem_nil, or_false] at ht
    rcases ht with rfl | rfl | rfl | rfl | rfl
    · exact absurd (by simp [Tier.event, FeeSource.onEvents]) hs
    · exact absurd (by simp [Tier.event, FeeSource.onEvents]) hs
    · rw [hm.2]
    · rw [hm.2]
    · rw [hm.2]

/-- A failure without fee events gives no more than was declared. -/
theorem Tier.amount_le_of_ofFailure {c : FeeConfig} {lookup : FeeLookup Id} {o : Outcome}
    (hmin : ∀ e ∈ o.events, ¬ e.Carries "tx" "min_fee_charged")
    (hspent : ∀ e ∈ o.events, ¬ e.Carries "coin_spent" "amount") {t : Tier}
    (ht : t ∈ Tier.ofFailure c lookup o) {m : Money} (hm : t.Gives m) :
    m.amount ≤ o.declaredTotal c.utilityDenom := by
  have absent : ∀ {type key : String}, (∀ e ∈ o.events, ¬ e.Carries type key) →
      ∀ v, ¬ Events.FirstValue o.events type key v := by
    intro type key h v hv
    have := Events.find?_eq_some_iff.2 hv
    rw [Events.find?_eq_none_iff.2 h] at this
    cases this
  simp only [Tier.ofFailure, List.mem_cons, List.not_mem_nil, or_false] at ht
  rcases ht with rfl | rfl | rfl | rfl | rfl
  · obtain ⟨v, hv, -⟩ := hm
    exact absurd hv (absent hmin v)
  · obtain ⟨v, hv, -⟩ := hm
    exact absurd hv (absent hspent v)
  · rw [hm.2]
    exact Nat.zero_le _
  · rw [hm.2]
    exact Nat.min_le_right _ _
  · exact Nat.le_of_eq (congrArg Money.amount hm.2)

/-- **The fee that is resolved is the first tier's**, and only that. Off events it is in the utility
denomination, and a failure without fee events costs no more than was declared. -/
theorem resolveFee_iff_firstTier (c : FeeConfig) (lookup : FeeLookup Id) (o : Outcome)
    (hasSurcharges : Bool) :
    (∀ r, (resolveFee c lookup o hasSurcharges).run = r ↔
      FirstTier (Tier.all c lookup o hasSurcharges) r) ∧
    ((resolveFee c lookup o hasSurcharges).run.source ∉ FeeSource.onEvents →
      (resolveFee c lookup o hasSurcharges).run.fee.denom = c.utilityDenom) ∧
    (o.response.code ≠ 0 → (∀ e ∈ o.events, ¬ e.Carries "tx" "min_fee_charged") →
      (∀ e ∈ o.events, ¬ e.Carries "coin_spent" "amount") →
      (resolveFee c lookup o hasSurcharges).run.fee.amount ≤ o.declaredTotal c.utilityDenom) := by
  have hfirst := firstTier_resolveFee c lookup o hasSurcharges
  obtain ⟨t, ht, hg, hs⟩ := hfirst.exists_tier
  refine ⟨fun r => ⟨?_, ?_⟩, ?_, ?_⟩
  · rintro rfl
    exact hfirst
  · exact hfirst.unique fun t ht => Tier.functional_of_mem_all ht
  · intro hoff
    rw [← hs] at hoff
    exact Tier.denom_of_not_onEvents ht hoff hg
  · intro hcode hmin hspent
    rw [Tier.all, if_neg hcode] at ht
    exact Tier.amount_le_of_ofFailure hmin hspent ht hg

/-- A successful transaction whose base fee is reported with a blank in front. -/
def blankBeforeFee : Outcome where
  response :=
    { height := 1, txhash := "", codespace := "", code := 0, rawLog := "", logs := [],
      gasWanted := 0, gasUsed := 0, tx := none, timestamp := "",
      events := [⟨"tx", [⟨"basefee", " 10nhash", false⟩]⟩] }
  tx := ⟨none, none, []⟩

/-- The value itself starts with no digit, but what it holds after the blank is the fee. -/
theorem fee_of_blankBeforeFee :
    Events.FirstValue blankBeforeFee.events "tx" "basefee" " 10nhash" ∧
      " 10nhash".toList.takeWhile Text.isDigit = [] ∧
      (resolveFee .standard FeeSchedule.empty.lookup blankBeforeFee false).run =
        ⟨⟨10, "nhash"⟩, .baseFeeEvent⟩ := by
  refine ⟨?_, by decide +kernel, by decide +kernel⟩
  exact Events.find?_eq_some_iff.1 (by decide +kernel)

end TxLens

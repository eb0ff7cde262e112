import TxLens.Config
/-!
# Which epoch of a schedule answers

At any height the epoch that should answer is the latest that has begun. A schedule looks at its epochs
from the back and takes the first that has begun, so it answers from the latest exactly when behind the
last epoch of every start there are only later ones (`current_epochAt?_iff`). Every way to a schedule
that arranges its epochs makes it so; a schedule that is read as it was written keeps whatever order it
was written in, and with it may answer from an epoch that is over (`price_of_ended_epoch`).
-/

namespace TxLens.FeeSchedule

/-! ## The epoch that should answer -/

/-- The epoch that is in force at a height: one that has begun, and none that has begun later; none
where all are yet to begin. -/
inductive IsCurrent (es : List FeeEpoch) (height : Nat) : Option FeeEpoch → Prop
  | none (h : ∀ e ∈ es, height < e.start) : IsCurrent es height none
  | some {e : FeeEpoch} (mem : e ∈ es) (begun : e.start ≤ height)
      (latest : ∀ e' ∈ es, e'.start ≤ height → e'.start ≤ e.start) : IsCurrent es height (some e)

/-- The schedule's answers at a height are those of this epoch; where there is none, there are no fees
and there is no price. -/
structure AnswersFrom (s : FeeSchedule) (height : Nat) (e : Option FeeEpoch) : Prop where
  fees : s.feesAt height = (e.map FeeEpoch.fees).getD []
  floorPrice : s.floorPriceAt height = e.bind FeeEpoch.floorPrice

theorem answersFrom_epochAt? (s : FeeSchedule) (height : Nat) :
    s.AnswersFrom height (s.epochAt? height) := ⟨rfl, rfl⟩

/-- Every epoch begins before all that stand behind it, unless one of those begins with it. -/
def InOrder : List FeeEpoch → Prop
  | [] => True
  | e :: es => ((∃ e' ∈ es, e'.start = e.start) ∨ ∀ e' ∈ es, e.start < e'.start) ∧ InOrder es

theorem inOrder_of_pairwise {es : List FeeEpoch} (h : es.Pairwise fun a b => a.start ≤ b.start) :
    InOrder es := by
  induction h with
  | nil => trivial
  | @cons e es hle _ ih =>
    refine ⟨?_, ih⟩
    by_cases heq : ∃ e' ∈ es, e'.start = e.start
    · exact .inl heq
    · refine .inr fun e' he' => Nat.lt_of_le_of_ne (hle e' he') fun hs => heq ⟨e', he', hs.symm⟩

/-! ## The epoch that answers -/

section
variable {e : FeeEpoch} {es : List FeeEpoch} {height : Nat}

/-- An epoch in front answers only where none behind it does. -/
theorem epochAt?_cons : (mk (e :: es)).epochAt? height =
    ((mk es).epochAt? height).or (if e.start ≤ height then some e else none) := by
  simp only [epochAt?, List.reverse_cons, List.find?_append, List.find?_singleton,
    decide_eq_true_eq]

theorem epochAt?_eq_none_iff : (mk es).epochAt? height = none ↔ ∀ e ∈ es, height < e.start := by
  simp [epochAt?]

theorem mem_of_epochAt? (h : (mk es).epochAt? height = some e) : e ∈ es ∧ e.start ≤ height := by
  refine ⟨List.mem_reverse.1 (List.mem_of_find?_eq_some h), ?_⟩
  simpa using List.find?_some h

theorem exists_epochAt? (he : e ∈ es) (hb : e.start ≤ height) :
    ∃ e', (mk es).epochAt? height = some e' := by
  cases h : (mk es).epochAt? height with
  | none => exact absurd (epochAt?_eq_none_iff.1 h e he) (Nat.not_lt.2 hb)
  | some e' => exact ⟨e', rfl⟩

theorem isCurrent_epochAt?_iff : IsCurrent es height ((mk es).epochAt? height) ↔
    ∀ e, (mk es).epochAt? height = some e → ∀ e' ∈ es, e'.start ≤ height → e'.start ≤ e.start := by
  cases h : (mk es).epochAt? height with
  | none => exact ⟨fun _ e he => (by cases he), fun _ => .none (epochAt?_eq_none_iff.1 h)⟩
  | some e =>
    obtain ⟨hmem, hbegun⟩ := mem_of_epochAt? h
    constructor
    · rintro (_ | ⟨-, -, hlatest⟩) e' he'
      cases he'
      exact hlatest
    · exact fun hlatest => .some hmem hbegun (hlatest e rfl)

end

/-- The schedule answers from the latest epoch at all heights exactly when its epochs are in order. -/
theorem current_epochAt?_iff (es : List FeeEpoch) :
    (∀ height, IsCurrent es height ((mk es).epochAt? height)) ↔ InOrder es := by
  simp only [isCurrent_epochAt?_iff]
  induction es with
  | nil => simp [InOrder]
  | cons e es ih =>
    rw [InOrder, ← ih]
    constructor
    · intro hall
      refine ⟨?_, fun height e₀ h₀ e' he' hb => ?_⟩
      · by_cases hlater : ∀ e' ∈ es, e.start < e'.start
        · exact .inr hlater
        · -- an epoch behind that begins no later than `e` answers at the start of `e`
          obtain ⟨e', he', hle⟩ : ∃ e' ∈ es, e'.start ≤ e.start := by simpa using hlater
          obtain ⟨e₀, h₀⟩ := exists_epochAt? he' hle
          obtain ⟨hmem, hbegun⟩ := mem_of_epochAt? h₀
          have hlatest := hall e.start e₀ (by rw [epochAt?_cons, h₀, Option.some_or]) e
            List.mem_cons_self (Nat.le_refl _)
          exact .inl ⟨e₀, hmem, Nat.le_antisymm hbegun hlatest⟩
      · exact hall height e₀ (by rw [epochAt?_cons, h₀, Option.some_or]) e'
          (List.mem_cons_of_mem e he') hb
    · rintro ⟨hfirst, hrest⟩ height e₀ h₀ e' he' hb
      rw [epochAt?_cons] at h₀
      cases hback : (mk es).epochAt? height with
      | none =>
        -- nothing behind has begun, so `e` answers
        rw [hback, Option.none_or] at h₀
        split at h₀
        · cases h₀
          rcases List.mem_cons.1 he' with rfl | he'
          · exact Nat.le_refl _
          · exact absurd (epochAt?_eq_none_iff.1 hback e' he') (Nat.not_lt.2 hb)
        · cases h₀
      | some e₁ =>
        rw [hback, Option.some_or] at h₀
        cases h₀
        rcases List.mem_cons.1 he' with rfl | he'
        · rcases hfirst with ⟨e'', he'', heq⟩ | hlater
          · rw [← heq]
            exact hrest height e₀ hback e'' he'' (by rwa [heq])
          · exact Nat.le_of_lt (hlater e₀ (mem_of_epochAt? hback).1)
        · exact hrest height e₀ hback e' he' hb

/-! ## Ways to a schedule -/

theorem start_le_trans (a b c : FeeEpoch) (hab : decide (a.start ≤ b.start) = true)
    (hbc : decide (b.start ≤ c.start) = true) : decide (a.start ≤ c.start) = true :=
  decide_eq_true (Nat.le_trans (of_decide_eq_true hab) (of_decide_eq_true hbc))

theorem start_le_total (a b : FeeEpoch) :
    (decide (a.start ≤ b.start) || decide (b.start ≤ a.start)) = true := by
  simp only [Bool.or_eq_true, decide_eq_true_eq]
  exact Nat.le_total a.start b.start

theorem pairwise_ofEpochs (es : List FeeEpoch) :
    (ofEpochs es).epochs.Pairwise fun a b => a.start ≤ b.start :=
  (List.pairwise_mergeSort start_le_trans start_le_total es).imp of_decide_eq_true

/-- The ways to a schedule that arrange its epochs: no epochs at all, a list of them in any order, one
for all heights, and the list that a text or a file holds. -/
inductive Arranged : FeeSchedule → Prop
  | empty : Arranged .empty
  | ofEpochs (es : List FeeEpoch) : Arranged (.ofEpochs es)
  | constant (floorPrice : Option Nat) (fees : List ScheduledFee) : Arranged (.constant floorPrice fees)
  | ofText {text : String} {s : FeeSchedule} (h : Config.scheduleOfText text = .ok s) : Arranged s
  | ofFile {files : Files} {path : String} {s : FeeSchedule}
      (h : Config.loadSchedule files path = .ok s) : Arranged s

theorem exists_ofEpochs_of_scheduleOfText {text : String} {s : FeeSchedule}
    (h : Config.scheduleOfText text = .ok s) : ∃ es, s = ofEpochs es := by
  rw [Config.scheduleOfText, Config.readDocument] at h
  split at h
  · cases h
  · rename_i s' hread
    cases h
    obtain ⟨j, -, hj⟩ := Option.bind_eq_some_iff.1 hread
    obtain ⟨es, -, rfl⟩ := Option.map_eq_some_iff.1 hj
    exact ⟨es, rfl⟩

theorem Arranged.exists_ofEpochs {s : FeeSchedule} (h : Arranged s) : ∃ es, s = .ofEpochs es := by
  cases h with
  | empty => exact ⟨[], by simp [FeeSchedule.ofEpochs, FeeSchedule.empty]⟩
  | ofEpochs es => exact ⟨es, rfl⟩
  | constant floorPrice fees => exact ⟨_, rfl⟩
  | ofText h => exact exists_ofEpochs_of_scheduleOfText h
  | @ofFile files path s h =>
    rw [Config.loadSchedule, Config.loadDocument] at h
    split at h
    · cases h
    · exact exists_ofEpochs_of_scheduleOfText h

theorem Arranged.inOrder {s : FeeSchedule} (h : Arranged s) : InOrder s.epochs := by
  obtain ⟨es, rfl⟩ := h.exists_ofEpochs
  exact inOrder_of_pairwise (pairwise_ofEpochs es)

/-- **Which epoch answers.** A schedule whose epochs were arranged answers at every height from the
latest epoch that has begun. Any other, such as one that is read as it was written, does so at all
heights exactly when its epochs are in order. -/
theorem answers_from_latest_epoch (s : FeeSchedule) :
    (Arranged s → ∀ height, ∃ e, IsCurrent s.epochs height e ∧ s.AnswersFrom height e) ∧
    (∀ height, s.AnswersFrom height (s.epochAt? height)) ∧
    ((∀ height, IsCurrent s.epochs height (s.epochAt? height)) ↔ InOrder s.epochs) := by
  refine ⟨fun h height => ?_, answersFrom_epochAt? s, current_epochAt?_iff s.epochs⟩
  exact ⟨s.epochAt? height, (current_epochAt?_iff s.epochs).2 h.inOrder height,
    answersFrom_epochAt? s height⟩

/-- A document with the epoch from height 5 on, in which gas costs 7, before the one from height 0 on:
at height 5 there is no price, as in the epoch that is over. -/
theorem price_of_ended_epoch :
    Config.readDocument ofJson? "\x7b\"epochs\":[[5,7],[0]]\x7d" =
      .ok ⟨[⟨5, some 7, []⟩, ⟨0, none, []⟩]⟩ ∧
    ¬ ∃ e, IsCurrent [⟨5, some 7, []⟩, ⟨0, none, []⟩] 5 e ∧
      AnswersFrom ⟨[⟨5, some 7, []⟩, ⟨0, none, []⟩]⟩ 5 e := by
  refine ⟨toOption_eq_some_iff.1 (by decide +kernel), ?_⟩
  rintro ⟨e, hcurrent, hanswers⟩
  cases hcurrent with
  | none h => exact absurd (h ⟨5, some 7, []⟩ (by simp)) (Nat.lt_irrefl 5)
  | @some e hmem hbegun hlatest =>
    have hstart := hlatest ⟨5, some 7, []⟩ (by simp) (Nat.le_refl 5)
    have hprice := hanswers.floorPrice
    rcases List.mem_cons.1 hmem with rfl | hmem
    · exact absurd hprice (by decide)
    · obtain rfl := List.mem_singleton.1 hmem
      exact absurd hstart (by decide)

end TxLens.FeeSchedule

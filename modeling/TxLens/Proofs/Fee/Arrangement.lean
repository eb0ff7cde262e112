import TxLens.Proofs.Fee.Documents
import TxLens.Proofs.Fee.Epochs
/-!
# Epochs in any order

A schedule may be given as a list of epochs in any order, and several may begin together. Arranging them
keeps those in the order in which they were given (`filter_ofEpochs`), so of the epochs that began last
it is the last one in the list that answers (`isLatest_epochAt?`). There is only one such epoch, and no
other has a say: what it leaves out is not taken from an earlier one. So neither the order in which
epochs with different starts are given nor the height within an epoch can be told from the answers
(`answers_of_any_order`).
-/

namespace TxLens.FeeSchedule

/-- The epoch that answers for a list in any order: of the epochs that have begun, the last in the list
among those that began last; none where all are yet to begin. -/
inductive IsLatest (es : List FeeEpoch) (height : Nat) : Option FeeEpoch → Prop
  | none (h : ∀ e ∈ es, height < e.start) : IsLatest es height none
  | some {before after : List FeeEpoch} {e : FeeEpoch} (hs : es = before ++ e :: after)
      (begun : e.start ≤ height) (latest : ∀ e' ∈ es, e'.start ≤ height → e'.start ≤ e.start)
      (last : ∀ e' ∈ after, e'.start ≠ e.start) : IsLatest es height (some e)

variable {es es' : List FeeEpoch} {height : Nat} {e : FeeEpoch} {o : Option FeeEpoch}

/-! ## Epochs that begin together -/

theorem mem_ofEpochs : e ∈ (ofEpochs es).epochs ↔ e ∈ es := List.mem_mergeSort

/-- Epochs that begin together stay in order. -/
theorem filter_ofEpochs (es : List FeeEpoch) (start : Nat) :
    (ofEpochs es).epochs.filter (·.start = start) = es.filter (·.start = start) := by
  have hstart : ∀ e ∈ es.filter (·.start = start), e.start = start := fun e he =>
    of_decide_eq_true (List.mem_filter.1 he).2
  have hsorted : (es.filter (·.start = start)).Pairwise fun a b => decide (a.start ≤ b.start) = true :=
    List.pairwise_of_forall_mem_list fun a ha b hb => by simp [hstart a ha, hstart b hb]
  have hsub : (es.filter (·.start = start)).Sublist (ofEpochs es).epochs :=
    List.sublist_mergeSort start_le_trans start_le_total hsorted List.filter_sublist
  have hperm : (ofEpochs es).epochs.Perm es := List.mergeSort_perm es _
  have hfilter := hsub.filter fun e => e.start = start
  rw [List.filter_filter] at hfilter
  simp only [Bool.and_self] at hfilter
  exact (hfilter.eq_of_length (hperm.filter _).length_eq.symm).symm

/-- The last epoch in a list of those that begin with it. -/
theorem getLast?_filter_iff : (es.filter (·.start = e.start)).getLast? = some e ↔
    ∃ before after, es = before ++ e :: after ∧ ∀ e' ∈ after, e'.start ≠ e.start := by
  rw [List.getLast?_eq_some_iff]
  constructor
  · rintro ⟨front, h⟩
    obtain ⟨before, rest, rfl, -, hrest⟩ := List.filter_eq_append_iff.1 h
    obtain ⟨between, after, rfl, -, -, hafter⟩ := List.filter_eq_cons_iff.1 hrest
    refine ⟨before ++ between, after, (List.append_assoc ..).symm, fun e' he' hs => ?_⟩
    exact List.filter_eq_nil_iff.1 hafter e' he' (decide_eq_true hs)
  · rintro ⟨before, after, rfl, hafter⟩
    refine ⟨before.filter (·.start = e.start), ?_⟩
    have hnil : after.filter (·.start = e.start) = [] :=
      List.filter_eq_nil_iff.2 fun e' he' hs => hafter e' he' (of_decide_eq_true hs)
    rw [List.filter_append, List.filter_cons, if_pos (decide_eq_true rfl), hnil]

/-! ## The epoch that answers -/

/-- What stands behind the epoch that answers is yet to begin. -/
theorem exists_split_of_epochAt? {s : FeeSchedule} (h : s.epochAt? height = some e) :
    ∃ before after, s.epochs = before ++ e :: after ∧ ∀ e' ∈ after, height < e'.start := by
  obtain ⟨-, behind, front, hrev, hbehind⟩ := List.find?_eq_some_iff_append.1 h
  refine ⟨front.reverse, behind.reverse, ?_, fun e' he' => ?_⟩
  · rw [← List.reverse_reverse s.epochs, hrev]
    simp
  · simpa using hbehind e' (List.mem_reverse.1 he')

theorem isLatest_epochAt? (es : List FeeEpoch) (height : Nat) :
    IsLatest es height ((ofEpochs es).epochAt? height) := by
  cases h : (ofEpochs es).epochAt? height with
  | none =>
    have hnone := epochAt?_eq_none_iff.1 h
    exact .none fun e he => hnone e (mem_ofEpochs.2 he)
  | some e =>
    have hbegun := (mem_of_epochAt? h).2
    have hlatest : ∀ e' ∈ es, e'.start ≤ height → e'.start ≤ e.start := by
      have hall := (current_epochAt?_iff _).2 (inOrder_of_pairwise (pairwise_ofEpochs es)) height
      intro e' he'
      exact isCurrent_epochAt?_iff.1 hall e h e' (mem_ofEpochs.2 he')
    -- the last of its start after arranging, so the last of its start before
    obtain ⟨before, after, hsplit, hafter⟩ := exists_split_of_epochAt? h
    have hlast : ((ofEpochs es).epochs.filter (·.start = e.start)).getLast? = some e :=
      getLast?_filter_iff.2 ⟨before, after, hsplit, fun e' he' hs => by
        have := hafter e' he'
        omega⟩
    rw [filter_ofEpochs, getLast?_filter_iff] at hlast
    obtain ⟨before, after, hs, hlast⟩ := hlast
    exact .some hs hbegun hlatest hlast

theorem IsLatest.unique {o' : Option FeeEpoch} (h : IsLatest es height o)
    (h' : IsLatest es height o') : o = o' := by
  cases h with
  | none hnone =>
    cases h' with
    | none => rfl
    | some hs begun => exact absurd (hnone _ (by simp [hs])) (Nat.not_lt.2 begun)
  | @some before after e hs begun latest last =>
    cases h' with
    | none hnone => exact absurd (hnone _ (by simp [hs])) (Nat.not_lt.2 begun)
    | @some before' after' e' hs' begun' latest' last' =>
      have hstart : e.start = e'.start :=
        Nat.le_antisymm (latest' e (by simp [hs]) begun) (latest e' (by simp [hs']) begun')
      have hlast := getLast?_filter_iff.2 ⟨before, after, hs, last⟩
      rw [hstart] at hlast
      exact hlast.symm.trans (getLast?_filter_iff.2 ⟨before', after', hs', last'⟩)

theorem IsLatest.epochAt?_eq (h : IsLatest es height o) : (ofEpochs es).epochAt? height = o :=
  (isLatest_epochAt? es height).unique h

/-! ## What the answers depend on -/

/-- Where no two epochs begin together, their order does not matter. -/
theorem IsLatest.of_perm (hperm : es.Perm es') (hstarts : (es.map FeeEpoch.start).Nodup)
    (h : IsLatest es height o) : IsLatest es' height o := by
  cases h with
  | none hnone => exact .none fun e he => hnone e (hperm.mem_iff.2 he)
  | @some before after e hs begun latest last =>
    obtain ⟨before', after', hs'⟩ := List.append_of_mem (hperm.mem_iff.1 (by simp [hs] : e ∈ es))
    refine .some hs' begun (fun e' he' => latest e' (hperm.mem_iff.2 he')) fun e' he' heq => ?_
    have hnodup : (es'.map FeeEpoch.start).Nodup := (hperm.map FeeEpoch.start).nodup_iff.1 hstarts
    rw [hs', List.map_append, List.map_cons] at hnodup
    have hnot := (List.nodup_cons.1 (List.nodup_append.1 hnodup).2.1).1
    exact hnot (heq ▸ List.mem_map_of_mem he')

/-- Between two heights no epoch begins. -/
def Calm (es : List FeeEpoch) (low high : Nat) : Prop := ∀ e ∈ es, low < e.start → high < e.start

theorem IsLatest.of_calm {low high : Nat} (hle : low ≤ high) (hcalm : Calm es low high)
    (h : IsLatest es low o) : IsLatest es high o := by
  cases h with
  | none hnone => exact .none fun e he => hcalm e he (hnone e he)
  | @some before after e hs begun latest last =>
    refine .some hs (Nat.le_trans begun hle) (fun e' he' hb => latest e' he' ?_) last
    exact Nat.le_of_not_lt fun hlt => Nat.not_lt.2 hb (hcalm e' he' hlt)

theorem answers_congr {s s' : FeeSchedule} {height' : Nat}
    (h : s.epochAt? height = s'.epochAt? height') :
    s.feesAt height = s'.feesAt height' ∧ s.floorPriceAt height = s'.floorPriceAt height' := by
  rw [feesAt, feesAt, floorPriceAt, floorPriceAt, h]
  exact ⟨rfl, rfl⟩

/-- **Which epoch of a list answers**, whatever order the list is in: the last of those that began
last, with its own price and fees. Any document of the list gives the same schedule. Lists with the same
epochs, no two of which begin together, give the same answers at all heights, and so do all heights
between two starts. -/
theorem answers_of_any_order (es : List FeeEpoch) :
    (∀ height, ∃! o, IsLatest es height o) ∧
    (∀ height o, IsLatest es height o → (ofEpochs es).AnswersFrom height o) ∧
    -- documents of the list
    ((∀ e ∈ es, e.Fits) → ∀ s, FeeEpoch.IsDocument es s →
      Config.scheduleOfText s = .ok (ofEpochs es)) ∧
    FeeEpoch.IsDocument es (Json.list (es.map FeeEpoch.toJson)).toText ∧
    -- other lists and other heights
    (∀ es', es.Perm es' → (es.map FeeEpoch.start).Nodup → ∀ height,
      (ofEpochs es).feesAt height = (ofEpochs es').feesAt height ∧
      (ofEpochs es).floorPriceAt height = (ofEpochs es').floorPriceAt height) ∧
    (∀ low high, low ≤ high → Calm es low high →
      (ofEpochs es).feesAt low = (ofEpochs es).feesAt high ∧
      (ofEpochs es).floorPriceAt low = (ofEpochs es).floorPriceAt high) := by
  refine ⟨fun height => ⟨_, isLatest_epochAt? es height, fun o h => h.epochAt?_eq.symm⟩,
    fun height o h => ?_, fun hfits s hs => FeeEpoch.scheduleOfText_of_isDocument hfits hs,
    FeeEpoch.isDocument_toText es, fun es' hperm hstarts height => ?_, fun low high hle hcalm => ?_⟩
  · rw [← h.epochAt?_eq]
    exact answersFrom_epochAt? _ height
  · exact answers_congr ((isLatest_epochAt? es height).of_perm hperm hstarts).epochAt?_eq.symm
  · exact answers_congr ((isLatest_epochAt? es low).of_calm hle hcalm).epochAt?_eq.symm

/-- Two epochs begin together in a list that is not in order; the one that stands last has neither a
price nor fees. -/
theorem answers_of_tied_epochs :
    let es : List FeeEpoch := [⟨5, some 7, [⟨"/a", 1, "x"⟩]⟩, ⟨0, some 3, []⟩, ⟨5, none, []⟩]
    let s := "[[5,7,[[\"/a\",1,\"x\"]]], \x7b\"floor_gas_price\":3,\"start_height\":0\x7d, [5,null]]"
    (∀ e ∈ es, e.Fits) ∧ FeeEpoch.IsDocument es s ∧ Config.scheduleOfText s = .ok (ofEpochs es) ∧
      IsLatest es 5 (some ⟨5, none, []⟩) ∧ (ofEpochs es).floorPriceAt 5 = none ∧
      (ofEpochs es).feesAt 5 = [] ∧ (ofEpochs es).floorPriceAt 4 = some 3 := by
  intro es s
  have hfits : ∀ e ∈ es, e.Fits := by
    have hsmall : ∀ e ∈ es, e.start < heightBound ∧ (∀ p ∈ e.floorPrice, p ≤ Amount.largest) ∧
        ∀ f ∈ e.fees, f.amount ≤ Amount.largest := by decide
    exact fun e he => ⟨(hsmall e he).1, (hsmall e he).2.1, (hsmall e he).2.2⟩
  have hparse : Json.parse? s.toList = some (.list [
      .list [.natural 5, .natural 7, .list [.list [.ofText "/a", .natural 1, .ofText "x"]]],
      .ofMembers [("floor_gas_price", .natural 3), ("start_height", .natural 0)],
      .list [.natural 5, .null]]) := by
    decide +kernel
  have hfee : Json.IsRecord (ScheduledFee.fields ⟨"/a", 1, "x"⟩)
      (.list [.ofText "/a", .natural 1, .ofText "x"]) :=
    .list (List.append_nil _).symm (.cons rfl (.cons rfl (.cons rfl .nil))) (by simp)
  have hlisted : Json.IsRecord (FeeEpoch.fields ⟨5, some 7, [⟨"/a", 1, "x"⟩]⟩)
      (.list [.natural 5, .natural 7, .list [.list [.ofText "/a", .natural 1, .ofText "x"]]]) :=
    .list (List.append_nil _).symm
      (.cons rfl (.cons rfl (.cons (.mk (.cons hfee .nil)) .nil))) (by simp)
  have hmembers : Json.IsRecord (FeeEpoch.fields ⟨0, some 3, []⟩)
      (.ofMembers [("floor_gas_price", .natural 3), ("start_height", .natural 0)]) := by
    refine .object ⟨?_, ?_, ?_⟩ <;> simp [FeeEpoch.fields, Json.ofOption]
  have hshort : Json.IsRecord (FeeEpoch.fields ⟨5, none, []⟩) (.list [.natural 5, .null]) :=
    .list (rfl : _ = [_, _] ++ [_]) (.cons rfl (.cons rfl .nil)) (by simp)
  have hdocument : FeeEpoch.IsDocument es s :=
    ⟨_, .mk (.cons hlisted (.cons hmembers (.cons hshort .nil))), Json.parse?_eq_some_iff.1 hparse⟩
  have hthird : es = es.take 2 ++ ⟨5, none, []⟩ :: [] := rfl
  have hlatest : IsLatest es 5 (some ⟨5, none, []⟩) :=
    .some hthird (Nat.le_refl 5) (by decide) (by simp)
  have hsecond : es = es.take 1 ++ ⟨0, some 3, []⟩ :: es.drop 2 := rfl
  have hearlier : IsLatest es 4 (some ⟨0, some 3, []⟩) :=
    .some hsecond (by decide) (by decide) (by decide)
  obtain ⟨-, hanswers, htext, -⟩ := answers_of_any_order es
  exact ⟨hfits, hdocument, htext hfits s hdocument, hlatest, (hanswers 5 _ hlatest).floorPrice,
    (hanswers 5 _ hlatest).fees, (hanswers 4 _ hearlier).floorPrice⟩

end TxLens.FeeSchedule

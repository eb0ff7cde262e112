import TxLens.Proofs.Fee.Inquiry
import TxLens.Proofs.Keyed
/-!
# What the memory of a schedule holds

Fees and floor prices are remembered alike, so looking up and remembering are stated for any question.
A memory stays in agreement with a schedule as long as only its answers are put in (`Agrees.insert`),
and the look-up that remembers asks only for what is missing (`run_lookup_answer_of_known`,
`run_lookup_answer_of_unknown`).
-/

namespace TxLens

namespace Memo

/-! ## Answers by height -/

section
variable {α : Type} {known : List (Nat × α)} {height : Nat} {a : α}

theorem mem_remember_iff {e : Nat × α} :
    e ∈ remember known height a ↔ e = (height, a) ∨ e ∈ known ∧ e.1 ≠ height := by
  simp [remember]

theorem mem_heights_remember_iff {h : Nat} :
    h ∈ (remember known height a).map Prod.fst ↔ h = height ∨ h ∈ known.map Prod.fst := by
  simp only [List.mem_map, mem_remember_iff]
  constructor
  · rintro ⟨e, rfl | ⟨he, -⟩, rfl⟩
    · exact .inl rfl
    · exact .inr ⟨e, he, rfl⟩
  · rintro (rfl | ⟨e, he, rfl⟩)
    · exact ⟨_, .inl rfl, rfl⟩
    · by_cases hh : e.1 = height
      · exact ⟨_, .inl rfl, hh.symm⟩
      · exact ⟨e, .inr ⟨he, hh⟩, rfl⟩

theorem nodup_heights_remember (h : (known.map Prod.fst).Nodup) :
    ((remember known height a).map Prod.fst).Nodup := by
  have hSub : ((known.filter fun e => e.1 != height).map Prod.fst).Nodup :=
    h.sublist (List.filter_sublist.map Prod.fst)
  refine List.nodup_cons.2 ⟨fun hm => ?_, hSub⟩
  obtain ⟨e, he, hh⟩ := List.mem_map.1 hm
  simpa [hh] using (List.mem_filter.1 he).2

end

/-! ## Answers to any question -/

def answer? (memo : Memo) : (q : Question) → Option q.Answer
  | .fees height => memo.fees? height
  | .floorPrice height => memo.price? height

def insert (memo : Memo) : (q : Question) → q.Answer → Memo
  | .fees height, fees => memo.rememberFees height fees
  | .floorPrice height, price => memo.rememberPrice height price

section
variable {m : Type → Type} [Monad m] [LawfulMonad m] {inner : FeeLookup m} {memo : Memo}
  {q : Question}

/-- What is known is not asked for again. -/
theorem run_lookup_answer_of_known {a : q.Answer} (h : memo.answer? q = some a) :
    ((lookup inner).answer q).run memo = pure (a, memo) := by
  cases q with
  | fees height =>
    change memo.fees? height = some a at h
    simp [FeeLookup.answer, lookup, h]
  | floorPrice height =>
    change memo.price? height = some a at h
    simp [FeeLookup.answer, lookup, h]

theorem run_lookup_answer_of_unknown (h : memo.answer? q = none) :
    ((lookup inner).answer q).run memo = (fun a => (a, memo.insert q a)) <$> inner.answer q := by
  cases q with
  | fees height =>
    change memo.fees? height = none at h
    simp [FeeLookup.answer, lookup, h, insert]
  | floorPrice height =>
    change memo.price? height = none at h
    simp [FeeLookup.answer, lookup, h, insert]

end

/-- The heights whose fees are remembered. -/
def heights (memo : Memo) : List Nat := memo.fees.map Prod.fst

theorem length_heights (memo : Memo) : memo.heights.length = memo.cachedHeights :=
  List.length_map Prod.fst

theorem mem_heights_of_answer? {memo : Memo} {height : Nat} {a : List ScheduledFee}
    (h : memo.answer? (.fees height) = some a) : height ∈ memo.heights :=
  List.mem_map.2 ⟨_, mem_of_lookup h, rfl⟩

theorem mem_heights_insert_iff {memo : Memo} {q : Question} {a : q.Answer} {height : Nat} :
    height ∈ (memo.insert q a).heights ↔ Question.fees height = q ∨ height ∈ memo.heights := by
  cases q with
  | fees h =>
    rw [Question.fees.injEq]
    exact mem_heights_remember_iff
  | floorPrice h => simp [insert, rememberPrice, heights]

theorem nodup_heights_insert {memo : Memo} (h : memo.heights.Nodup) (q : Question) (a : q.Answer) :
    (memo.insert q a).heights.Nodup := by
  cases q with
  | fees height => exact nodup_heights_remember h
  | floorPrice height => exact h

/-! ## Agreement with a schedule -/

/-- Everything remembered is what `inner` answers, an absent price or an empty list included. -/
structure Agrees (memo : Memo) (inner : FeeLookup Id) : Prop where
  fees : ∀ e ∈ memo.fees, e.2 = inner.fees e.1
  prices : ∀ e ∈ memo.prices, e.2 = inner.floorPrice e.1

variable {memo : Memo} {inner : FeeLookup Id}

theorem agrees_empty (inner : FeeLookup Id) : Memo.empty.Agrees inner :=
  ⟨fun _ h => absurd h List.not_mem_nil, fun _ h => absurd h List.not_mem_nil⟩

theorem Agrees.answer (h : memo.Agrees inner) {q : Question} {a : q.Answer}
    (ha : memo.answer? q = some a) : a = inner.answer q := by
  cases q with
  | fees height => exact h.fees _ (mem_of_lookup ha)
  | floorPrice height => exact h.prices _ (mem_of_lookup ha)

theorem Agrees.insert (h : memo.Agrees inner) (q : Question) :
    (memo.insert q (inner.answer q)).Agrees inner := by
  cases q with
  | fees height =>
    refine ⟨fun e he => ?_, h.prices⟩
    obtain rfl | ⟨he, -⟩ := mem_remember_iff.1 he
    · rfl
    · exact h.fees e he
  | floorPrice height =>
    refine ⟨h.fees, fun e he => ?_⟩
    obtain rfl | ⟨he, -⟩ := mem_remember_iff.1 he
    · rfl
    · exact h.prices e he

end Memo

end TxLens

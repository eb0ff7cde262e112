import Mathlib.Algebra.GroupWithZero.Nat
import Mathlib.Algebra.Order.BigOperators.Group.List
import Mathlib.Algebra.Order.Group.Nat
import TxLens.Fee.Resolution
import TxLens.Proofs.Event.Message
import TxLens.Proofs.Money
/-!
# Sums and products that stop at the largest amount

What is offered in one denomination is added up coin by coin, and the sum stays at the largest amount
once it gets there. As no amount is negative it is then the exact sum cut off at the end
(`foldl_add_eq`): the order of the coins does not matter, a further coin never lowers the total, and
coins of other denominations do not count (`declaredTotal_saturates`). The default fee is one product,
cut off in the same way.
-/

namespace TxLens

/-! ## What an amount text counts as -/

/-- One digit or more, a plus sign before them allowed, whose number fits 128 bits. -/
def IsAmount (t : List Char) (n : Nat) : Prop :=
  ∃ ds, Json.Digits ds ∧ (t = ds ∨ t = '+' :: ds) ∧ n = Text.numeralValue ds ∧ n < 2 ^ 128

/-- The number of a text that is an amount between blanks; any other text counts as nothing. -/
inductive CountsAs (s : String) : Nat → Prop where
  | amount {t : List Char} {n : Nat} (ht : Text.IsTrimmed s.toList t) (hn : IsAmount t n) :
    CountsAs s n
  | nothing {t : List Char} (ht : Text.IsTrimmed s.toList t) (hn : ∀ n, ¬ IsAmount t n) :
    CountsAs s 0

namespace Amount

theorem natOfNumeral?_eq_some_iff {ds : List Char} {n : Nat} :
    Text.natOfNumeral? ds = some n ↔ Json.Digits ds ∧ n = Text.numeralValue ds := by
  simp only [Text.natOfNumeral?, Json.Digits, List.all_eq_true, Option.ite_none_right_eq_some,
    Option.some.injEq, eq_comm (a := n)]

theorem ofText?_eq_some_iff_isAmount {s : String} {n : Nat} :
    ofText? s = some n ↔ IsAmount (Text.trim s.toList) n := by
  have hfits : n ≤ largest ↔ n < 2 ^ 128 := by
    rw [show (2 ^ 128 : Nat) = largest + 1 by decide, Nat.lt_succ_iff]
  simp only [ofText?, Option.filter_eq_some_iff, natOfNumeral?_eq_some_iff, decide_eq_true_iff, hfits,
    IsAmount]
  split
  · rename_i ds hs
    rw [hs]
    constructor
    · rintro ⟨⟨hds, hn⟩, hlt⟩
      exact ⟨ds, hds, .inr rfl, hn, hlt⟩
    · rintro ⟨ds', hds, rfl | hsplit, hn, hlt⟩
      · -- a plus sign is no digit
        exact absurd (hds.2 '+' List.mem_cons_self) (by decide)
      · obtain rfl := (List.cons.inj hsplit).2
        exact ⟨⟨hds, hn⟩, hlt⟩
  · rename_i hs
    constructor
    · rintro ⟨⟨hds, hn⟩, hlt⟩
      exact ⟨_, hds, .inl rfl, hn, hlt⟩
    · rintro ⟨ds, hds, rfl | hsplit, hn, hlt⟩
      · exact ⟨⟨hds, hn⟩, hlt⟩
      · exact (hs ds hsplit).elim

/-- A text counts as one number, whatever it is. -/
theorem countsAs_iff {s : String} {n : Nat} : CountsAs s n ↔ (ofText? s).getD 0 = n := by
  constructor
  · intro h
    cases h with
    | amount ht hn =>
      obtain rfl := Text.trim_eq_iff.2 ht
      rw [ofText?_eq_some_iff_isAmount.2 hn, Option.getD_some]
    | nothing ht hn =>
      obtain rfl := Text.trim_eq_iff.2 ht
      rw [Option.eq_none_iff_forall_ne_some.2 fun k hk => hn k (ofText?_eq_some_iff_isAmount.1 hk),
        Option.getD_none]
  · rintro rfl
    cases h : ofText? s with
    | some k => exact .amount (Text.isTrimmed_trim _) (ofText?_eq_some_iff_isAmount.1 h)
    | none =>
      refine .nothing (Text.isTrimmed_trim _) fun k hk => ?_
      rw [ofText?_eq_some_iff_isAmount.2 hk] at h
      cases h

/-! ## Sums -/

/-- A sum that stays at the largest amount is the exact one, cut off there. -/
theorem foldl_add_eq (amounts : List Nat) {a : Nat} (ha : a ≤ largest) :
    amounts.foldl add a = min (a + amounts.sum) largest := by
  induction amounts generalizing a with
  | nil => simp only [List.foldl_nil, List.sum_nil, Nat.add_zero, Nat.min_eq_left ha]
  | cons b amounts ih =>
    have hadd : add a b ≤ largest := Nat.min_le_right _ _
    rw [List.foldl_cons, List.sum_cons, ih hadd, add]
    omega

end Amount

/-! ## Totals -/

/-- What a coin counts as. -/
def Coin.worth (c : Coin) : Nat := (Amount.ofText? c.amount).getD 0

/-- What each of the coins in a denomination counts as, in order. -/
def AreAmounts (denom : String) (coins : List Coin) (amounts : List Nat) : Prop :=
  List.Forall₂ (fun (c : Coin) n => CountsAs c.amount n) (coins.filter fun c => c.denom == denom) amounts

theorem areAmounts_iff {denom : String} {coins : List Coin} {amounts : List Nat} :
    AreAmounts denom coins amounts ↔
      (coins.filter fun c => c.denom == denom).map Coin.worth = amounts := by
  simp only [AreAmounts, Amount.countsAs_iff, ← List.forall₂_eq_eq_eq, List.forall₂_map_left_iff]
  rfl

namespace Outcome

/-- The exact sum of what is offered in a denomination. -/
def exactTotal (o : Outcome) (denom : String) : Nat :=
  ((o.declaredFee.filter fun c => c.denom == denom).map Coin.worth).sum

theorem declaredTotal_eq (o : Outcome) (denom : String) :
    o.declaredTotal denom = min (2 ^ 128 - 1) (o.exactTotal denom) := by
  have hmax : Amount.largest = 2 ^ 128 - 1 := by decide
  rw [declaredTotal, Amount.foldl_add_eq _ (Nat.zero_le _), Nat.zero_add, hmax, Nat.min_comm]
  rfl

section

variable {o o' : Outcome} {denom : String}

theorem exactTotal_of_perm (h : o.declaredFee.Perm o'.declaredFee) :
    o.exactTotal denom = o'.exactTotal denom :=
  ((h.filter _).map _).sum_eq

theorem exactTotal_le_of_sublist (h : o.declaredFee.Sublist o'.declaredFee) :
    o.exactTotal denom ≤ o'.exactTotal denom :=
  ((h.filter _).map _).sum_le_sum fun _ _ => Nat.zero_le _

theorem exactTotal_of_inserted
    (h : Inserted (fun c => c.denom ≠ denom) o.declaredFee o'.declaredFee) :
    o'.exactTotal denom = o.exactTotal denom := by
  rw [exactTotal, exactTotal, h.filter_eq fun c hc => beq_eq_false_iff_ne.2 hc]

end

end Outcome

/-! ## The default fee -/

/-- The schedule is asked once, and only the answer's price decides. -/
theorem Resolution.defaultBaseFee_eq_map {m : Type → Type} [Monad m] [LawfulMonad m] (c : FeeConfig)
    (lookup : FeeLookup m) (o : Outcome) :
    defaultBaseFee c lookup o =
      (fun price => min (2 ^ 128 - 1) (o.gasWanted * price.getD c.defaultGasPrice)) <$>
        lookup.floorPrice o.height := by
  have hmax : Amount.largest = 2 ^ 128 - 1 := by decide
  simp only [defaultBaseFee, Amount.mul, hmax, Nat.min_comm (2 ^ 128 - 1), map_eq_pure_bind]

/-- **Fees never wrap.** The total in a denomination is the exact sum of what its coins count as, cut
off at the largest amount; so neither the order of the coins nor those of other denominations matter,
and further coins never lower it. The default fee is the gas asked for times the price at the height,
cut off in the same way; what is negative counts as zero. -/
theorem Outcome.declaredTotal_saturates :
    (∀ (o : Outcome) (denom : String),
      (∃ amounts, AreAmounts denom o.declaredFee amounts) ∧
      ∀ amounts, AreAmounts denom o.declaredFee amounts →
        o.declaredTotal denom = min (2 ^ 128 - 1) amounts.sum) ∧
    (∀ (o o' : Outcome) (denom : String),
      (o.declaredFee.Perm o'.declaredFee → o.declaredTotal denom = o'.declaredTotal denom) ∧
      (o.declaredFee.Sublist o'.declaredFee → o.declaredTotal denom ≤ o'.declaredTotal denom) ∧
      (Inserted (fun c => c.denom ≠ denom) o.declaredFee o'.declaredFee →
        o'.declaredTotal denom = o.declaredTotal denom)) ∧
    (∀ (m : Type → Type) [Monad m] [LawfulMonad m] (c : FeeConfig) (lookup : FeeLookup m)
      (o : Outcome),
        Resolution.defaultBaseFee c lookup o =
          (fun price => min (2 ^ 128 - 1)
            ((max o.response.gasWanted.toInt 0).toNat * price.getD c.defaultGasPrice)) <$>
              lookup.floorPrice (max o.response.height.toInt 0).toNat) := by
  refine ⟨fun o denom => ⟨⟨_, areAmounts_iff.2 rfl⟩, fun amounts h => ?_⟩, fun o o' denom => ?_, ?_⟩
  · rw [o.declaredTotal_eq, ← areAmounts_iff.1 h, exactTotal]
  · rw [o.declaredTotal_eq, o'.declaredTotal_eq]
    refine ⟨fun h => ?_, fun h => ?_, fun h => ?_⟩
    · rw [exactTotal_of_perm h]
    · have hle : o.exactTotal denom ≤ o'.exactTotal denom := exactTotal_le_of_sublist h
      omega
    · rw [exactTotal_of_inserted h]
  · intro m _ _ c lookup o
    have hclamp : ∀ n : Int, (max n 0).toNat = n.toNat := fun n => by omega
    rw [hclamp, hclamp, Resolution.defaultBaseFee_eq_map, gasWanted, height]

/-- An outcome that offers these coins and asks for the most gas, at a height below zero. -/
def Outcome.offering (coins : List Coin) : Outcome where
  response := { TxResponse.ofEvents [] with gasWanted := Int64.maxValue, height := -1 }
  tx := ⟨none, some ⟨[], some ⟨coins, 0, "", ""⟩⟩, []⟩

/-- The largest amount with a plus sign and leading zeros between blanks, one that does not fit, a
small one, and one in another denomination. -/
def Coin.samples : List Coin :=
  [⟨"nhash", " +00340282366920938463463374607431768211455\n"⟩,
    ⟨"nhash", "340282366920938463463374607431768211456"⟩, ⟨"uusd", "7"⟩, ⟨"nhash", "2"⟩]

/-- The samples exceed the largest amount in either order, and the coin in the other denomination may be
left out; so does the fee for the most gas at the highest price. -/
theorem Outcome.declaredTotal_of_samples :
    AreAmounts "nhash" (offering Coin.samples).declaredFee [2 ^ 128 - 1, 0, 2] ∧
      (offering Coin.samples).declaredTotal "nhash" = 2 ^ 128 - 1 ∧
      (offering Coin.samples.reverse).declaredTotal "nhash" = 2 ^ 128 - 1 ∧
      (offering (Coin.samples.eraseIdx 2)).declaredTotal "nhash" = 2 ^ 128 - 1 ∧
      (offering (Coin.samples.drop 3)).declaredTotal "nhash" ≤ 2 ^ 128 - 1 ∧
      (Resolution.defaultBaseFee .standard (FeeSchedule.lookup ⟨[⟨0, some (2 ^ 128 - 1), []⟩]⟩)
        (offering Coin.samples)).run = 2 ^ 128 - 1 := by
  obtain ⟨htotal, hcoins, hfee⟩ := declaredTotal_saturates
  have hamounts : AreAmounts "nhash" (offering Coin.samples).declaredFee [2 ^ 128 - 1, 0, 2] :=
    areAmounts_iff.2 (by decide +kernel)
  have hsum := (htotal _ _).2 _ hamounts
  have hperm : (offering Coin.samples).declaredFee.Perm (offering Coin.samples.reverse).declaredFee :=
    (List.reverse_perm _).symm
  have hfewer : (offering (Coin.samples.drop 3)).declaredFee.Sublist
      (offering Coin.samples).declaredFee := List.drop_sublist 3 _
  have hother : Inserted (fun c => c.denom ≠ "nhash")
      (offering (Coin.samples.eraseIdx 2)).declaredFee (offering Coin.samples).declaredFee :=
    .keep _ (.keep _ (.put (by decide) (.keep _ .nil)))
  have hlargest : (offering Coin.samples).declaredTotal "nhash" = 2 ^ 128 - 1 := hsum
  refine ⟨hamounts, hlargest, ?_, ?_, ?_, ?_⟩
  · rw [← (hcoins _ _ _).1 hperm, hlargest]
  · rw [← (hcoins _ _ _).2.2 hother, hlargest]
  · rw [← hlargest]
    exact (hcoins _ _ _).2.1 hfewer
  · rw [hfee Id]
    decide +kernel

end TxLens

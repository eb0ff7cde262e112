import Mathlib.Algebra.Group.Nat.Defs
import TxLens.Money
import TxLens.Proofs.Json.Literal
import TxLens.Proofs.Text.Blank
/-!
# Coin texts

A coin text is a number directly followed by a denomination, with blanks around the two allowed. The
number is one digit or more, the denomination anything that does not go on with the number, and nothing
at all is a denomination too. Where the number fits 128 bits such a text is read, and no other text is
(`ofText?_grammar`).
-/

namespace TxLens

/-! ## Digits and what follows them -/

/-- The digits that a coin text starts with; blanks around the text do not belong to it. -/
def leadingDigits (value : String) : List Char := (Text.trim value.toList).takeWhile Text.isDigit

/-- What follows the leading digits. -/
def afterDigits (value : String) : String :=
  String.ofList ((Text.trim value.toList).dropWhile Text.isDigit)

/-- Whether a coin text names an amount: it starts with digits, and their number fits 128 bits. -/
def NamesAmount (value : String) : Prop :=
  leadingDigits value ≠ [] ∧ Text.numeralValue (leadingDigits value) ≤ 2 ^ 128 - 1

instance (value : String) : Decidable (NamesAmount value) :=
  inferInstanceAs (Decidable (_ ∧ _))

theorem Money.ofText?_eq (value : String) :
    Money.ofText? value =
      if NamesAmount value then
        some ⟨Text.numeralValue (leadingDigits value), afterDigits value⟩
      else none := by
  have hall : ((Text.trim value.toList).takeWhile Text.isDigit).all Text.isDigit = true :=
    List.all_takeWhile
  have hmax : Amount.largest = 2 ^ 128 - 1 := by decide
  simp only [Money.ofText?, Text.natOfNumeral?, NamesAmount, leadingDigits, afterDigits, hall,
    and_true, hmax]
  by_cases hd : (Text.trim value.toList).takeWhile Text.isDigit = []
  · simp [hd]
  · simp only [ne_eq, hd, not_false_eq_true, ↓reduceIte, true_and]

/-! ## The grammar -/

open Json (Digits Stops)

/-- A number that fits 128 bits, leading zeros allowed, and then a denomination, which does not begin
with a digit. -/
def IsCoin (t : List Char) (money : Money) : Prop :=
  ∃ ds, Digits ds ∧ Stops Text.isDigit money.denom.toList ∧ t = ds ++ money.denom.toList ∧
    money.amount = Text.numeralValue ds ∧ money.amount < 2 ^ 128

namespace Money

/-- A text is cut into number and denomination where its first digits end. -/
theorem isCoin_trim_iff {s : String} {money : Money} : IsCoin (Text.trim s.toList) money ↔
    NamesAmount s ∧ money.amount = Text.numeralValue (leadingDigits s) ∧
      money.denom = afterDigits s := by
  constructor
  · rintro ⟨ds, hds, hstops, ht, hamount, hfits⟩
    have hleading : leadingDigits s = ds := by
      rw [leadingDigits, ht, Json.takeWhile_append_of_stops hds.2 hstops]
    have hafter : afterDigits s = money.denom := by
      rw [afterDigits, ht, Json.dropWhile_append_of_stops hds.2 hstops, String.ofList_toList]
    rw [NamesAmount, hleading, ← hamount, hafter]
    exact ⟨⟨hds.1, Nat.le_pred_of_lt hfits⟩, rfl, rfl⟩
  · rintro ⟨⟨hne, hfits⟩, hamount, hdenom⟩
    have htoList : money.denom.toList = (Text.trim s.toList).dropWhile Text.isDigit := by
      rw [hdenom, afterDigits, String.toList_ofList]
    refine ⟨leadingDigits s, ⟨hne, List.all_eq_true.1 List.all_takeWhile⟩, ?_, ?_, hamount, ?_⟩
    · rw [htoList]
      exact Json.stops_dropWhile Text.isDigit _
    · rw [htoList, leadingDigits, List.takeWhile_append_dropWhile]
    · rw [hamount]
      exact Nat.lt_of_le_pred (by decide) hfits

theorem ofText?_eq_some_iff_isCoin {s : String} {money : Money} :
    ofText? s = some money ↔ IsCoin (Text.trim s.toList) money := by
  obtain ⟨amount, denom⟩ := money
  rw [ofText?_eq, isCoin_trim_iff, Option.ite_none_right_eq_some, Option.some.injEq, mk.injEq,
    eq_comm (a := amount), eq_comm (a := denom)]

/-- The numeral of a number and a denomination behind it, with blanks around them. -/
theorem ofText?_written {n : Nat} (hn : n < 2 ^ 128) {d : String} (hd : Stops Text.isDigit d.toList)
    (hend : Stops Text.isBlank d.toList.reverse) {v w : List Char} (hv : Text.Blanks v)
    (hw : Text.Blanks w) :
    ofText? (String.ofList (v ++ (Text.numeral n ++ d.toList ++ w))) = some ⟨n, d⟩ := by
  have hdigits := Json.digits_numeral n
  have hfront : Stops Text.isBlank (Text.numeral n ++ d.toList) := by
    obtain ⟨c, ds, hds, hc⟩ := hdigits.head
    rw [hds]
    rintro _ ⟨⟩
    exact Text.isBlank_eq_false_of_isDigit hc
  have hback : Stops Text.isBlank (Text.numeral n ++ d.toList).reverse := by
    rw [List.reverse_append]
    refine Json.stops_append hend fun c hc => Text.isBlank_eq_false_of_isDigit ?_
    exact hdigits.2 c (List.mem_reverse.1 (List.mem_of_mem_head? hc))
  rw [ofText?_eq_some_iff_isCoin, String.toList_ofList,
    Text.trim_of_isTrimmed ⟨v, w, hv, hw, hfront, hback, rfl⟩]
  exact ⟨Text.numeral n, hdigits, hd, rfl, (Text.numeralValue_numeral n).symm, hn⟩

/-- **The grammar of coin texts.** What stands between the blanks at its ends decides what a text is
read as: a coin that it is, and nothing where it is none. So a number that fits 128 bits and a
denomination come back from the text that is written of them, whatever blanks are put around it. -/
theorem ofText?_grammar :
    (∀ s : String, (∃ t, Text.IsTrimmed s.toList t) ∧ ∀ t, Text.IsTrimmed s.toList t →
      (∀ money, ofText? s = some money ↔ IsCoin t money) ∧
      (ofText? s = none ↔ ∀ money, ¬ IsCoin t money)) ∧
    (∀ n < 2 ^ 128, ∀ d : String, Stops Text.isDigit d.toList → Stops Text.isBlank d.toList.reverse →
      ∀ v w, Text.Blanks v → Text.Blanks w →
        ofText? (String.ofList (v ++ (Text.numeral n ++ d.toList ++ w))) = some ⟨n, d⟩) := by
  refine ⟨fun s => ⟨⟨_, Text.isTrimmed_trim s.toList⟩, fun t ht => ?_⟩, ?_⟩
  · obtain rfl := Text.trim_eq_iff.2 ht
    refine ⟨fun money => ofText?_eq_some_iff_isCoin, ?_⟩
    simp only [Option.eq_none_iff_forall_ne_some, ne_eq, ofText?_eq_some_iff_isCoin]
  · intro n hn d hd hend v w hv hw
    exact ofText?_written hn hd hend hv hw

/-- The largest amount is read between a blank of another script and a line break. -/
theorem ofText?_largest :
    340282366920938463463374607431768211455 < 2 ^ 128 ∧
      Stops Text.isDigit "nhash".toList ∧ Stops Text.isBlank "nhash".toList.reverse ∧
      Text.Blanks ['\u3000'] ∧ Text.Blanks ['\n'] ∧
      ofText? "\u3000340282366920938463463374607431768211455nhash\n" =
        some ⟨340282366920938463463374607431768211455, "nhash"⟩ := by
  have hd : Stops Text.isDigit "nhash".toList := by simp [Stops, Text.isDigit]
  have hend : Stops Text.isBlank "nhash".toList.reverse := by simp [Stops, Text.isBlank]
  have hfits : 340282366920938463463374607431768211455 < 2 ^ 128 := by decide
  have hfront : Text.Blanks ['\u3000'] := by simp [Text.Blanks, Text.isBlank]
  have hback : Text.Blanks ['\n'] := by simp [Text.Blanks, Text.isBlank]
  have hread := ofText?_grammar.2 _ hfits _ hd hend _ _ hfront hback
  have htext : String.ofList (['\u3000'] ++
      (Text.numeral 340282366920938463463374607431768211455 ++ "nhash".toList ++ ['\n'])) =
        "\u3000340282366920938463463374607431768211455nhash\n" := by decide +kernel
  rw [htext] at hread
  exact ⟨hfits, hd, hend, hfront, hback, hread⟩

end Money

end TxLens

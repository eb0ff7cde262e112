import Mathlib.Data.List.Basic
import Mathlib.Data.List.TakeDrop
import TxLens.Event.Lookup
/-!
# Looking up event attributes

A look-up of one value takes what stands first: the first event of the type that carries the key, and
on it the first attribute with the key (`FirstValue`). A look-up of all values goes through all events
of the type, but takes from each only what stands first there. So it gives every value exactly where
no event repeats the key, and elsewhere drops the repetitions (`values_eq_allValues_iff`).
-/

namespace TxLens

/-! ## The first value -/

/-- An event of a type that has a key among its attributes. -/
def Event.Carries (type key : String) (e : Event) : Prop :=
  e.type = type ∧ ∃ a ∈ e.attributes, a.key = key

/-- `value` is what stands, quotes stripped, at the first occurrence of a key on the first event of a
type that carries the key. -/
def Events.FirstValue (es : List Event) (type key value : String) : Prop :=
  ∃ before e after, es = before ++ e :: after ∧ (∀ b ∈ before, ¬ b.Carries type key) ∧
    e.type = type ∧
    ∃ pre a post, e.attributes = pre ++ a :: post ∧ (∀ b ∈ pre, b.key ≠ key) ∧ a.key = key ∧
      Unquoted a.value value

theorem Event.hasAttribute_iff {e : Event} {key : String} :
    e.hasAttribute key = true ↔ ∃ a ∈ e.attributes, a.key = key := by
  simp [hasAttribute]

theorem Event.attribute?_eq_some_iff {e : Event} {key v : String} :
    e.attribute? key = some v ↔
      ∃ pre a post, e.attributes = pre ++ a :: post ∧ (∀ b ∈ pre, b.key ≠ key) ∧ a.key = key ∧
        a.value = v := by
  simp only [attribute?, Option.map_eq_some_iff, List.find?_eq_some_iff_append, beq_iff_eq,
    Bool.not_eq_true', beq_eq_false_iff_ne]
  constructor
  · rintro ⟨a, ⟨hk, pre, post, hsplit, hpre⟩, hv⟩
    exact ⟨pre, a, post, hsplit, hpre, hk, hv⟩
  · rintro ⟨pre, a, post, hsplit, hpre, hk, hv⟩
    exact ⟨a, ⟨hk, pre, post, hsplit, hpre⟩, hv⟩

/-- `value` is what stands, quotes stripped, at the first occurrence of a key on an event. -/
def Event.ReadsFirst (e : Event) (key value : String) : Prop :=
  ∃ pre a post, e.attributes = pre ++ a :: post ∧ (∀ b ∈ pre, b.key ≠ key) ∧ a.key = key ∧
    Unquoted a.value value

theorem Event.map_attribute?_eq_some_iff {e : Event} {key value : String} :
    (e.attribute? key).map unquote = some value ↔ e.ReadsFirst key value := by
  simp only [Option.map_eq_some_iff, attribute?_eq_some_iff, ReadsFirst, ← unquote_eq_iff]
  constructor
  · rintro ⟨_, ⟨pre, a, post, hsplit, hpre, hk, rfl⟩, hv⟩
    exact ⟨pre, a, post, hsplit, hpre, hk, hv⟩
  · rintro ⟨pre, a, post, hsplit, hpre, hk, hv⟩
    exact ⟨a.value, ⟨pre, a, post, hsplit, hpre, hk, rfl⟩, hv⟩

theorem Event.attribute?_eq_none_iff {e : Event} {key : String} :
    e.attribute? key = none ↔ ∀ a ∈ e.attributes, a.key ≠ key := by
  simp only [attribute?, Option.map_eq_none_iff, List.find?_eq_none, beq_iff_eq, ne_eq]

namespace Events

theorem isMatch_none_iff {type key : String} {e : Event} :
    isMatch type key none e = true ↔ e.Carries type key := by
  simp [isMatch, Event.Carries, Event.hasAttribute_iff]

theorem find?_eq_none_iff {es : List Event} {type key : String} :
    find? es type key none = none ↔ ∀ e ∈ es, ¬ e.Carries type key := by
  have hattr : ∀ e : Event, e.Carries type key → e.attribute? key ≠ none := by
    rintro e ⟨-, a, ha, hk⟩ hn
    exact Event.attribute?_eq_none_iff.1 hn a ha hk
  simp only [find?, findEvent?, Option.map_eq_none_iff]
  constructor
  · intro h e he hc
    cases hf : es.find? (isMatch type key none) with
    | none => exact List.find?_eq_none.1 hf e he (isMatch_none_iff.2 hc)
    | some e' =>
      rw [hf, Option.bind_some] at h
      exact hattr e' (isMatch_none_iff.1 (List.find?_some hf)) h
  · intro h
    rw [List.find?_eq_none.2 fun e he hm => h e he (isMatch_none_iff.1 hm)]
    rfl

theorem find?_eq_some_iff {es : List Event} {type key v : String} :
    find? es type key none = some v ↔ FirstValue es type key v := by
  have hmatch : ∀ e : Event, (!isMatch type key none e) = true ↔ ¬ e.Carries type key := by
    intro e
    rw [← isMatch_none_iff, Bool.not_eq_true', Bool.not_eq_true]
  simp only [find?, findEvent?, Option.map_eq_some_iff, Option.bind_eq_some_iff,
    List.find?_eq_some_iff_append, isMatch_none_iff, hmatch, Event.attribute?_eq_some_iff, FirstValue,
    ← unquote_eq_iff]
  constructor
  · rintro ⟨w, ⟨e, ⟨hc, before, after, hsplit, hb⟩, pre, a, post, hattr, hpre, hk, hw⟩, hv⟩
    exact ⟨before, e, after, hsplit, hb, hc.1, pre, a, post, hattr, hpre, hk, by rw [hw, hv]⟩
  · rintro ⟨before, e, after, hsplit, hb, ht, pre, a, post, hattr, hpre, hk, hv⟩
    refine ⟨a.value, ⟨e, ⟨⟨ht, a, by rw [hattr]; simp, hk⟩, before, after, hsplit, hb⟩, ?_⟩, hv⟩
    exact ⟨pre, a, post, hattr, hpre, hk, rfl⟩

end Events

/-! ## Tags -/

theorem Text.numeralText_injective {m n : Nat} (h : numeralText m = numeralText n) : m = n := by
  have hvalue := congrArg (fun s => numeralValue s.toList) h
  simpa only [numeralText, String.toList_ofList, numeralValue_numeral] using hvalue

/-- One of the event's tags is the index of this message. -/
def Event.IsTagged (i : Nat) (e : Event) : Prop :=
  ∃ a ∈ e.attributes, a.key = "msg_index" ∧ Unquoted a.value (Text.numeralText i)

instance (i : Nat) (e : Event) : Decidable (e.IsTagged i) :=
  inferInstanceAs (Decidable (∃ a ∈ e.attributes, _))

namespace Events

theorem hasMessageIndex_iff {i : Nat} {e : Event} : hasMessageIndex i e = true ↔ e.IsTagged i := by
  simp only [hasMessageIndex, messageIndexKey, Event.IsTagged, List.any_eq_true, Bool.and_eq_true,
    beq_iff_eq, unquote_eq_iff]

theorem isMatch_iff {type key : String} {index : Option Nat} {e : Event} :
    isMatch type key index e = true ↔
      e.type = type ∧ e.hasAttribute key = true ∧ ∀ i ∈ index, e.IsTagged i := by
  simp only [isMatch, Bool.and_eq_true, beq_iff_eq, Option.all_eq_true, hasMessageIndex_iff,
    Option.mem_def, and_assoc]

theorem isMatch_some_iff {type key : String} {i : Nat} {e : Event} :
    isMatch type key (some i) e = true ↔ e.type = type ∧ e.hasAttribute key = true ∧ e.IsTagged i := by
  simp [isMatch_iff]

end Events

/-! ## Fronts of lists -/

/-- Elements taken off the front of each of some lists are in the order of all their elements. -/
theorem flatMap_take_sublist {α β : Type} (f : α → List β) (n : Nat) (as : List α) :
    (as.flatMap fun a => (f a).take n).Sublist (as.flatMap f) := by
  induction as with
  | nil => exact .slnil
  | cons a as ih => exact (List.take_sublist n (f a)).append ih

/-- Nothing is left behind exactly where no list is longer than what is taken off it. -/
theorem flatMap_take_eq_iff {α β : Type} (f : α → List β) (n : Nat) (as : List α) :
    (as.flatMap fun a => (f a).take n) = as.flatMap f ↔ ∀ a ∈ as, (f a).length ≤ n := by
  induction as with
  | nil => simp
  | cons a as ih =>
    rw [List.forall_mem_cons, ← ih, ← List.take_eq_self_iff, List.flatMap_cons, List.flatMap_cons]
    constructor
    · intro h
      -- neither part is longer than its counterpart, so together they are as long only if both are
      have hfirst := (List.take_sublist n (f a)).length_le
      have hrest := (flatMap_take_sublist f n as).length_le
      have hlength := congrArg List.length h
      rw [List.length_append, List.length_append] at hlength
      exact ⟨(List.take_sublist n (f a)).eq_of_length (by omega),
        (flatMap_take_sublist f n as).eq_of_length (by omega)⟩
    · rintro ⟨hfirst, hrest⟩
      rw [hfirst, hrest]

/-! ## All values -/

theorem Event.length_attributeValues (e : Event) (key : String) :
    (e.attributeValues key).length = e.attributes.countP fun a => a.key == key := by
  rw [attributeValues, List.length_map, List.countP_eq_length_filter]

/-- What stands first under a key is the first of its values. -/
theorem Event.attributeValues_take_one (e : Event) (key : String) :
    (e.attributeValues key).take 1 = ((e.attribute? key).map unquote).toList := by
  rw [List.take_one, attributeValues, List.head?_map, List.head?_filter, attribute?, Option.map_map]
  rfl

namespace Events

/-- The values of a key on all events of a type, also where one event has several, without quotes. -/
def allValues (es : List Event) (type key : String) : List String :=
  (es.filter fun e => e.type == type).flatMap fun e => e.attributeValues key

/-- Of every event of the type, what stands first under the key. -/
theorem values_eq_flatMap (es : List Event) (type key : String) :
    values es type key =
      (es.filter fun e => e.type == type).flatMap fun e => (e.attributeValues key).take 1 := by
  rw [values, List.map_filterMap, List.filterMap_eq_flatMap_toList]
  simp only [Event.attributeValues_take_one]

theorem length_allValues (es : List Event) (type key : String) :
    (allValues es type key).length =
      ((es.filter fun e => e.type == type).flatMap Event.attributes).countP fun a => a.key == key := by
  simp only [allValues, List.length_flatMap, List.countP_flatMap, Event.length_attributeValues,
    Function.comp_def]

/-- No event of a type has a key more than once. -/
def NoRepeats (es : List Event) (type key : String) : Prop :=
  ∀ e ∈ es, e.type = type → (e.attributes.countP fun a => a.key == key) ≤ 1

/-- **All values of a key.** A look-up of all values gives the first value on each event of the type,
in order. These are all the values, and as many as there are attributes with the key on events of the
type, exactly where no such event repeats the key. -/
theorem values_eq_allValues_iff (es : List Event) (type key : String) :
    values es type key =
      ((es.filter fun e => e.type == type).flatMap fun e => (e.attributeValues key).take 1) ∧
    (values es type key).Sublist (allValues es type key) ∧
    (values es type key = allValues es type key ↔ NoRepeats es type key) ∧
    ((values es type key).length =
        (((es.filter fun e => e.type == type).flatMap Event.attributes).countP fun a => a.key == key) ↔
      NoRepeats es type key) := by
  have hvalues := values_eq_flatMap es type key
  have hsublist : (values es type key).Sublist (allValues es type key) := by
    rw [hvalues]
    exact flatMap_take_sublist _ 1 _
  have hall : values es type key = allValues es type key ↔ NoRepeats es type key := by
    rw [hvalues, allValues, flatMap_take_eq_iff]
    simp only [List.mem_filter, beq_iff_eq, and_imp, Event.length_attributeValues, NoRepeats]
  refine ⟨hvalues, hsublist, hall, ?_⟩
  rw [← length_allValues, ← hall]
  exact ⟨hsublist.eq_of_length, congrArg List.length⟩

/-- Of two amounts on one event only the first is given. -/
theorem values_of_repeatedKey :
    values [⟨"transfer", [⟨"amount", "1nhash", false⟩, ⟨"amount", "2nhash", false⟩]⟩]
        "transfer" "amount" = ["1nhash"] ∧
      allValues [⟨"transfer", [⟨"amount", "1nhash", false⟩, ⟨"amount", "2nhash", false⟩]⟩]
        "transfer" "amount" = ["1nhash", "2nhash"] := by
  decide

end Events

end TxLens

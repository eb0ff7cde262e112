import Mathlib.Data.List.Forall2
import TxLens.Fee.Memo
import TxLens.Proofs.Fee.Surcharge
import TxLens.Proofs.Gathering
/-!
# Surcharges that an event lists

The first list of surcharges on an event is reported element by element, without a question to the
schedule. An element for the message type that lets callers set fees comes with the fees set for its
recipient. These stand on events of their own, where names, amounts and recipients belong together by
position. Every position where all three stand and the amount can be read gives one fee to its own
recipient, in the order of the events and of the positions on each (`identify_listed`).
-/

namespace TxLens

/-- A coin text is read as what it is worth where a missing denomination stays empty. -/
theorem Money.ofText?_eq_some_iff {text : String} {money : Money} :
    ofText? text = some money ↔ NamesAmount text ∧ Worth "" text money := by
  rw [ofText?_eq]
  constructor
  · intro hm
    split at hm
    · rename_i h
      cases hm
      refine ⟨h, ?_⟩
      by_cases hd : afterDigits text = ""
      · rw [hd]
        exact .bare h hd
      · exact .coin h hd
    · cases hm
  · rintro ⟨h, hw⟩
    rw [if_pos h]
    cases hw with
    | unreadable hn => exact absurd h hn
    | bare _ hd => rw [hd]
    | coin _ _ => rfl

namespace CustomFee

/-! ## Fees by position -/

/-- A fee stands at a position of an event: a name, an amount that can be read, and a recipient. -/
structure StandsAt (e : Event) (i : Nat) (f : CustomFee) : Prop where
  name : (e.attributeValues "name")[i]? = some f.name
  amount : ∃ text, (e.attributeValues "amount")[i]? = some text ∧ NamesAmount text ∧
    Worth "" text ⟨f.amount, f.denom⟩
  recipient : (e.attributeValues "recipient")[i]? = some f.recipient

/-- All positions of names on the events of fees that callers set, event by event. -/
def positions (es : List Event) : List (Event × Nat) :=
  (es.filter fun e => e.type == event).flatMap fun e =>
    (List.range (e.attributeValues "name").length).map fun i => (e, i)

/-- The fee that a name, an amount and a recipient make, if the amount can be read. -/
def ofTriple? (triple : String × String × String) : Option CustomFee :=
  (Money.ofText? triple.2.1).map fun money => ⟨triple.1, money.amount, money.denom, triple.2.2⟩

/-- The fee at a position, if one stands there. -/
def feeAt? (p : Event × Nat) : Option CustomFee :=
  ((p.1.attributeValues "name").zip
    ((p.1.attributeValues "amount").zip (p.1.attributeValues "recipient")))[p.2]?.bind ofTriple?

theorem feeAt?_eq_some_iff {p : Event × Nat} {f : CustomFee} :
    feeAt? p = some f ↔ StandsAt p.1 p.2 f := by
  simp only [feeAt?, Option.bind_eq_some_iff, ofTriple?, Option.map_eq_some_iff, Prod.exists,
    List.getElem?_zip_eq_some]
  constructor
  · rintro ⟨name, amount, recipient, ⟨hn, ha, hr⟩, money, hm, rfl⟩
    exact ⟨hn, ⟨amount, ha, Money.ofText?_eq_some_iff.1 hm⟩, hr⟩
  · rintro ⟨hn, ⟨amount, ha, hm⟩, hr⟩
    exact ⟨f.name, amount, f.recipient, ⟨hn, ha, hr⟩, _, Money.ofText?_eq_some_iff.2 hm, rfl⟩

/-- A list position by position. -/
theorem filterMap_eq_range {α β : Type} (f : α → Option β) (as : List α) {n : Nat}
    (h : as.length ≤ n) : as.filterMap f = (List.range n).filterMap fun i => as[i]?.bind f := by
  induction as generalizing n with
  | nil => simp
  | cons a as ih =>
    obtain ⟨n, rfl⟩ := Nat.exists_eq_add_one.2 (Nat.lt_of_lt_of_le (Nat.succ_pos _) h)
    rw [List.range_succ_eq_map, List.filterMap_cons, List.filterMap_cons, List.filterMap_map]
    have hrest := ih (Nat.le_of_succ_le_succ h)
    simp only [List.getElem?_cons_zero, Option.bind_some, Function.comp_def, List.getElem?_cons_succ,
      ← hrest]

theorem ofEvents_eq_filterMap (es : List Event) : ofEvents es = (positions es).filterMap feeAt? := by
  have htypes : Events.ofTypes es [event] = es.filter fun e => e.type == event := by
    simp only [Events.ofTypes, List.contains_cons, List.contains_nil, Bool.or_false]
  rw [ofEvents, htypes, positions, List.filterMap_flatMap]
  congr 1
  funext e
  rw [List.filterMap_map]
  exact filterMap_eq_range ofTriple? _ (List.length_zip ▸ Nat.min_le_left _ _)

/-- The fees are those for one recipient: one from every position where a fee for the recipient
stands, in the order of the positions. -/
def AreFor (es : List Event) (recipient : String) (fs : List CustomFee) : Prop :=
  Gathers (fun p f => StandsAt p.1 p.2 f ∧ f.recipient = recipient) (positions es) fs

theorem areFor_forRecipient (es : List Event) (recipient : String) :
    AreFor es recipient (forRecipient es recipient) := by
  rw [forRecipient, ofEvents_eq_filterMap, List.filter_filterMap]
  refine gathers_filterMap (fun p f => ?_) (positions es)
  rw [Option.filter_eq_some_iff, feeAt?_eq_some_iff, beq_iff_eq]

/-! ## Groups -/

/-- Fees put one by one behind those for the same recipient. -/
def groups (fs : List CustomFee) : Std.HashMap String (List CustomFee) :=
  fs.foldl (fun groups f => groups.insert f.recipient (groups.getD f.recipient [] ++ [f])) ∅

theorem getD_foldl_insert (fs : List CustomFee) (known : Std.HashMap String (List CustomFee))
    (recipient : String) :
    (fs.foldl (fun groups f => groups.insert f.recipient (groups.getD f.recipient [] ++ [f]))
      known).getD recipient [] =
      known.getD recipient [] ++ fs.filter fun f => f.recipient == recipient := by
  induction fs generalizing known with
  | nil => simp
  | cons f fs ih =>
    rw [List.foldl_cons, ih, Std.HashMap.getD_insert, List.filter_cons]
    by_cases h : f.recipient = recipient
    · simp [h]
    · simp [h]

/-- The group of a recipient is what its fees are without any grouping. -/
theorem getD_groups (es : List Event) (recipient : String) :
    (groups (ofEvents es)).getD recipient [] = forRecipient es recipient := by
  rw [groups, getD_foldl_insert, Std.HashMap.getD_empty, List.nil_append, forRecipient]

end CustomFee

namespace Surcharge

/-! ## The list -/

/-- A text is the JSON of a list with these elements. -/
def IsListOf (list : String) (ls : List Listed) : Prop :=
  ∃ j, Json.parse? list.toList = some j ∧ Json.list? Listed.ofJson? j = some ls

/-- What is reported of an element of the list. -/
structure Reports (es : List Event) (l : Listed) (s : Surcharge) : Prop where
  typeUrl : s.typeUrl = l.typeUrl
  typeName : s.typeName = typeNameOf l.typeUrl
  /-- An unreadable total is nothing of no denomination. -/
  money : Worth "" l.total ⟨s.amount, s.denom⟩
  recipient : ∀ r, s.recipient = some r ↔ r = l.recipient ∧ r ≠ ""
  plain : l.typeUrl ≠ customTypeUrl → s.customFees = []
  custom : l.typeUrl = customTypeUrl → CustomFee.AreFor es l.recipient s.customFees

theorem worth_getD_ofText? (total : String) :
    Worth "" total ((Money.ofText? total).getD ⟨0, ""⟩) := by
  cases h : Money.ofText? total with
  | some money => exact (Money.ofText?_eq_some_iff.1 h).2
  | none =>
    rw [Money.ofText?_eq] at h
    split at h
    · cases h
    · rename_i hn
      exact .unreadable hn

theorem reports_ofListed (es : List Event) (l : Listed) : Reports es l (ofListed es l) where
  typeUrl := rfl
  typeName := rfl
  money := worth_getD_ofText? l.total
  recipient r := by
    simp only [ofListed]
    split
    · rename_i h
      refine ⟨fun hr => (by cases hr), ?_⟩
      rintro ⟨rfl, hne⟩
      exact absurd h hne
    · rename_i h
      rw [Option.some.injEq]
      exact ⟨fun hr => ⟨hr.symm, hr ▸ h⟩, fun hr => hr.1.symm⟩
  plain h := if_neg h
  custom h := by
    have hfees : (ofListed es l).customFees = CustomFee.forRecipient es l.recipient := if_pos h
    rw [hfees]
    exact CustomFee.areFor_forRecipient es l.recipient

theorem ofList_eq_ok {list : String} {ls : List Listed} (h : IsListOf list ls) (es : List Event) :
    ofList es list = .ok (ls.map (ofListed es)) := by
  obtain ⟨j, hj, hls⟩ := h
  rw [ofList, hj, Option.bind_some, hls]

/-- **Surcharges that an event lists.** Where the first list can be read there is one surcharge for
each of its elements, in their order, whatever the schedule says and without a question to it. The
fees that callers set come with the elements for their recipients; put one by one behind those for the
same recipient, every fee lands once and in order in the group of its own recipient. -/
theorem identify_listed {o : Outcome} {list : String} {ls : List Listed}
    (h : Events.FirstValue o.events listEvent listKey list) (hls : IsListOf list ls) :
    ∃ ss, List.Forall₂ (Reports o.events) ls ss ∧
      (∀ (m : Type → Type) [Monad m] (lookup : FeeLookup m) (height : Nat),
        identify lookup o height = pure (.ok ss)) ∧
      ∀ recipient, CustomFee.AreFor o.events recipient
        ((CustomFee.groups (CustomFee.ofEvents o.events)).getD recipient []) := by
  refine ⟨ls.map (ofListed o.events), ?_, fun m _ lookup height => ?_, fun recipient => ?_⟩
  · exact List.forall₂_map_right_iff.2 (List.forall₂_same.2 fun l _ => reports_ofListed o.events l)
  · rw [identify_of_list h, ofList_eq_ok hls]
  · rw [CustomFee.getD_groups]
    exact CustomFee.areFor_forRecipient o.events recipient

/-- The JSON of a list of two elements, the second of which says nothing. -/
def listText : String :=
  "[[\"/provenance.msgfees.v1.MsgAssessCustomMsgFeeRequest\",\"7usd\",\"bob\"],[]]"

/-- The list, and two events with fees that callers set: on the first the third amount cannot be read,
on the second a name has no partners. -/
def listedFees : List Event :=
  [⟨listEvent, [⟨listKey, listText, false⟩]⟩,
   ⟨CustomFee.event,
    [⟨"name", "a", false⟩, ⟨"name", "b", false⟩, ⟨"name", "c", false⟩,
     ⟨"amount", "1usd", false⟩, ⟨"amount", "\"2usd\"", false⟩, ⟨"amount", "usd", false⟩,
     ⟨"recipient", "alice", false⟩, ⟨"recipient", "bob", false⟩, ⟨"recipient", "bob", false⟩]⟩,
   ⟨CustomFee.event,
    [⟨"recipient", "bob", false⟩, ⟨"amount", "4", false⟩, ⟨"name", "d", false⟩,
     ⟨"name", "e", false⟩]⟩]

/-- What cannot be read or has no partners is left out and disturbs no other fee, and the schedule is
not asked. -/
theorem surcharges_of_listedFees :
    Events.FirstValue (Outcome.reporting listedFees).events listEvent listKey listText ∧
    IsListOf listText [⟨customTypeUrl, "7usd", "bob"⟩, ⟨"", "", ""⟩] ∧
    (identify (FeeLookup.counting FeeSchedule.empty.lookup) (.reporting listedFees) 1).run 0 =
      (.ok [⟨customTypeUrl, "custom_fee", 7, "usd", some "bob", [⟨"b", 2, "usd", "bob"⟩,
        ⟨"d", 4, "", "bob"⟩]⟩, ⟨"", "custom_fee", 0, "", none, []⟩], 0) := by
  have hvalue : Events.FirstValue (Outcome.reporting listedFees).events listEvent listKey listText :=
    Events.find?_eq_some_iff.1 (by decide +kernel)
  have hlist : IsListOf listText [⟨customTypeUrl, "7usd", "bob"⟩, ⟨"", "", ""⟩] :=
    Option.bind_eq_some_iff.1 (by decide +kernel)
  obtain ⟨ss, -, hidentify, -⟩ := identify_listed hvalue hlist
  have hss : ofList listedFees listText = .ok ss := by
    have hrun := congrArg Id.run (hidentify Id FeeSchedule.empty.lookup 1)
    rwa [identify_of_list hvalue] at hrun
  have hsurcharges : [⟨customTypeUrl, "7usd", "bob"⟩, ⟨"", "", ""⟩].map (ofListed listedFees) =
      [⟨customTypeUrl, "custom_fee", 7, "usd", some "bob", [⟨"b", 2, "usd", "bob"⟩,
        ⟨"d", 4, "", "bob"⟩]⟩, ⟨"", "custom_fee", 0, "", none, []⟩] := by decide +kernel
  rw [ofList_eq_ok hlist, hsurcharges] at hss
  rw [hidentify, ← Except.ok.inj hss]
  exact ⟨hvalue, hlist, rfl⟩

end Surcharge

end TxLens

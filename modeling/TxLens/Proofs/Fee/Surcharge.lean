import TxLens.Fee.Surcharge
import TxLens.Proofs.Fee.Tiers
/-!
# Where surcharges come from

The first list of surcharges on an event decides, and the schedule is asked only where no event
carries one (`identify_of_list`, `identify_run_of_no_list`). So the surcharges are known unless that
list cannot be read, which is the only fault (`identify_eq_error_iff`).
-/

namespace TxLens

/-- A success at height one with these events and no message. -/
def Outcome.reporting (es : List Event) : Outcome where
  response :=
    { height := 1, txhash := "", codespace := "", code := 0, rawLog := "", logs := [],
      gasWanted := 0, gasUsed := 0, tx := none, timestamp := "", events := es }
  tx := ⟨none, none, []⟩

namespace Surcharge

/-- Whether a text is a list of surcharges in JSON. -/
def IsList (list : String) : Prop :=
  ∃ j ls, Json.parse? list.toList = some j ∧ Json.list? Listed.ofJson? j = some ls

theorem isList_iff {list : String} :
    IsList list ↔ ∃ ls, (Json.parse? list.toList).bind (Json.list? Listed.ofJson?) = some ls := by
  simp only [IsList, Option.bind_eq_some_iff]
  exact exists_comm

theorem exists_ofList_eq_ok_iff {es : List Event} {list : String} :
    (∃ ss, ofList es list = .ok ss) ↔ IsList list := by
  rw [isList_iff, ofList]
  cases (Json.parse? list.toList).bind (Json.list? Listed.ofJson?) <;> simp

/-- Whatever the schedule is, and however it is asked, a list leaves no question to it. -/
theorem identify_of_list {m : Type → Type} [Monad m] {o : Outcome} {list : String}
    (h : Events.FirstValue o.events listEvent listKey list) (lookup : FeeLookup m) (height : Nat) :
    identify lookup o height = pure (ofList o.events list) := by
  rw [identify, list?, Events.find?_eq_some_iff.2 h]

theorem identify_run_of_no_list {o : Outcome} (h : ∀ e ∈ o.events, ¬ e.Carries listEvent listKey)
    (lookup : FeeLookup Id) (height : Nat) :
    (identify lookup o height).run = .ok (ofSchedule o.events (lookup.fees height).run) := by
  rw [identify, list?, Events.find?_eq_none_iff.2 h]
  rfl

/-- An event carries the key, and then there is a first value of it, or none does. -/
theorem no_list_or_exists_list (o : Outcome) :
    (∀ e ∈ o.events, ¬ e.Carries listEvent listKey) ∨
      ∃ list, Events.FirstValue o.events listEvent listKey list := by
  cases h : Events.find? o.events listEvent listKey none with
  | none => exact .inl (Events.find?_eq_none_iff.1 h)
  | some list => exact .inr ⟨list, Events.find?_eq_some_iff.1 h⟩

variable {lookup : FeeLookup Id} {o : Outcome} {height : Nat}

theorem exists_identify_eq_ok_iff :
    (∃ ss, (identify lookup o height).run = .ok ss) ↔
      (∀ e ∈ o.events, ¬ e.Carries listEvent listKey) ∨
        ∃ list, Events.FirstValue o.events listEvent listKey list ∧ IsList list := by
  constructor
  · intro h
    refine (no_list_or_exists_list o).imp_right ?_
    rintro ⟨list, hlist⟩
    rw [identify_of_list hlist, Id.run_pure, exists_ofList_eq_ok_iff] at h
    exact ⟨list, hlist, h⟩
  · rintro (h | ⟨list, hlist, h⟩)
    · exact ⟨_, identify_run_of_no_list h lookup height⟩
    · rwa [identify_of_list hlist, Id.run_pure, exists_ofList_eq_ok_iff]

/-- There is one way to fail: the list that is there cannot be read. -/
theorem identify_eq_error_iff {f : Fault} :
    (identify lookup o height).run = .error f ↔
      ∃ list, Events.FirstValue o.events listEvent listKey list ∧ ¬ IsList list := by
  constructor
  · intro h
    rcases no_list_or_exists_list o with hno | ⟨list, hlist⟩
    · rw [identify_run_of_no_list hno] at h
      cases h
    · refine ⟨list, hlist, fun hread => ?_⟩
      rw [identify_of_list hlist, Id.run_pure] at h
      obtain ⟨ss, hss⟩ := exists_ofList_eq_ok_iff.2 hread
      rw [hss] at h
      cases h
  · rintro ⟨list, hlist, hread⟩
    rw [identify_of_list hlist, Id.run_pure]
    cases f
    cases h : ofList o.events list with
    | error f => cases f; rfl
    | ok ss => exact absurd (exists_ofList_eq_ok_iff.1 ⟨ss, h⟩) hread

end Surcharge

end TxLens

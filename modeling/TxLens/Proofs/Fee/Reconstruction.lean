import Mathlib.Data.List.Nodup
import TxLens.Proofs.Fee.Surcharge
/-!
# Surcharges worked out from the schedule

Where no event lists the surcharges, they are gathered event by event: each adds its actions to the
surcharge of its type, or begins one. In the end there is one surcharge for every charged type with a
scheduled fee and an event, in the order of the first events, and it is the fee for all the actions on
whichever events they stand (`Reconstructed`). Every event keeps this of the events before it
(`Reconstructed.exists_charge`), so it holds of all of them. The order of the events and the way in
which actions are spread over them change no surcharge (`identify_reconstructs`).
-/

namespace TxLens

namespace Surcharge

/-! ## What is worked out -/

namespace ChargedType

/-- Some event is of the type that the actions of this charged type leave. -/
def OccursIn (t : ChargedType) (es : List Event) : Prop := ∃ e ∈ es, e.type = t.event

/-- Where the first event of that type stands. -/
def firstIn (t : ChargedType) (es : List Event) : Nat := (es.map Event.type).idxOf t.event

/-- The actions recorded on all events of that type, each by one attribute. -/
def actionsIn (t : ChargedType) (es : List Event) : Nat :=
  ((es.filter fun e => e.type == t.event).flatMap Event.attributes).countP fun a => a.key == t.key

end ChargedType

/-- The first fee that is scheduled for a message type. -/
def IsFirstFee (fees : List ScheduledFee) (typeUrl : String) (fee : ScheduledFee) : Prop :=
  ∃ before after, fees = before ++ fee :: after ∧ fee.typeUrl = typeUrl ∧
    ∀ f ∈ before, f.typeUrl ≠ typeUrl

/-- The scheduled fee for every action, at most the largest amount. -/
def ofActions (es : List Event) (t : ChargedType) (fee : ScheduledFee) : Surcharge :=
  { typeUrl := t.typeUrl
    typeName := typeNameOf t.typeUrl
    amount := min (2 ^ 128 - 1) (fee.amount * t.actionsIn es)
    denom := fee.denom
    recipient := none
    customFees := [] }

/-- The surcharges that events and scheduled fees amount to: one for every charged type that has an
event and a fee, in the order of the first events. -/
structure Reconstructed (es : List Event) (fees : List ScheduledFee)
    (charged : List (ChargedType × ScheduledFee)) (ss : List Surcharge) : Prop where
  mem_iff : ∀ t fee, (t, fee) ∈ charged ↔
    t ∈ chargedTypes ∧ t.OccursIn es ∧ IsFirstFee fees t.typeUrl fee
  ordered : charged.Pairwise fun c d => c.1.firstIn es < d.1.firstIn es
  surcharges : ss = charged.map fun c => ofActions es c.1 c.2

/-! ## Charged types and their fees -/

section

variable {t u : ChargedType} {fees : List ScheduledFee} {fee : ScheduledFee}

theorem chargedType_eq_of_event (ht : t ∈ chargedTypes) (hu : u ∈ chargedTypes)
    (h : t.event = u.event) : t = u :=
  List.inj_on_of_nodup_map (f := ChargedType.event) (by decide) ht hu h

theorem chargedType_eq_of_typeUrl (ht : t ∈ chargedTypes) (hu : u ∈ chargedTypes)
    (h : t.typeUrl = u.typeUrl) : t = u :=
  List.inj_on_of_nodup_map (f := ChargedType.typeUrl) (by decide) ht hu h

theorem isFirstFee_iff {typeUrl : String} :
    IsFirstFee fees typeUrl fee ↔ fees.find? (fun f => f.typeUrl == typeUrl) = some fee := by
  simp only [IsFirstFee, List.find?_eq_some_iff_append, beq_iff_eq, Bool.not_eq_true',
    beq_eq_false_iff_ne]
  constructor
  · rintro ⟨before, after, hsplit, hfee, hbefore⟩
    exact ⟨hfee, before, after, hsplit, hbefore⟩
  · rintro ⟨hfee, before, after, hsplit, hbefore⟩
    exact ⟨before, after, hsplit, hfee, hbefore⟩

theorem IsFirstFee.typeUrl_eq {typeUrl : String} (h : IsFirstFee fees typeUrl fee) :
    fee.typeUrl = typeUrl := by
  obtain ⟨-, -, -, htypeUrl, -⟩ := h
  exact htypeUrl

theorem IsFirstFee.unique {typeUrl : String} {fee' : ScheduledFee} (h : IsFirstFee fees typeUrl fee)
    (h' : IsFirstFee fees typeUrl fee') : fee = fee' :=
  Option.some.inj ((isFirstFee_iff.1 h).symm.trans (isFirstFee_iff.1 h'))

/-- An event charges for the one charged type that leaves such events, if that type has a fee. -/
theorem chargeOf?_eq_some_iff {e : Event} {n : Nat} : chargeOf? fees e = some (fee, n) ↔
    ∃ t ∈ chargedTypes, e.type = t.event ∧ IsFirstFee fees t.typeUrl fee ∧
      n = e.attributes.countP fun a => a.key == t.key := by
  rw [chargeOf?]
  split
  · rename_i hnone
    simp only [List.find?_eq_none, beq_iff_eq] at hnone
    refine ⟨fun h => (by cases h), ?_⟩
    rintro ⟨t, ht, he, -, -⟩
    exact absurd he.symm (hnone t ht)
  · rename_i t hsome
    have ht := List.mem_of_find?_eq_some hsome
    have he : t.event = e.type := by simpa using List.find?_some hsome
    split
    · rename_i hnone
      refine ⟨fun h => (by cases h), ?_⟩
      rintro ⟨u, hu, hue, hfee, -⟩
      rw [← chargedType_eq_of_event ht hu (he.trans hue), isFirstFee_iff, hnone] at hfee
      cases hfee
    · rename_i fee' hfee'
      rw [← isFirstFee_iff] at hfee'
      rw [Option.some.injEq, Prod.mk.injEq, ← List.countP_eq_length_filter]
      constructor
      · rintro ⟨rfl, rfl⟩
        exact ⟨t, ht, he.symm, hfee', rfl⟩
      · rintro ⟨u, hu, hue, hfee, rfl⟩
        obtain rfl := chargedType_eq_of_event ht hu (he.trans hue)
        exact ⟨hfee'.unique hfee, rfl⟩

end

/-! ## One more event -/

section

variable {t : ChargedType} {es : List Event} {e : Event}

theorem ChargedType.occursIn_append :
    t.OccursIn (es ++ [e]) ↔ t.OccursIn es ∨ e.type = t.event := by
  simp only [OccursIn, List.mem_append, List.mem_singleton, or_and_right, exists_or,
    exists_eq_left]

theorem ChargedType.firstIn_append_of_occursIn (h : t.OccursIn es) :
    t.firstIn (es ++ [e]) = t.firstIn es := by
  rw [firstIn, List.map_append]
  exact List.idxOf_append_of_mem (List.mem_map.2 h)

theorem ChargedType.firstIn_lt (h : t.OccursIn es) : t.firstIn es < es.length := by
  have hlt := List.idxOf_lt_length_of_mem (List.mem_map.2 h)
  rwa [List.length_map] at hlt

theorem ChargedType.firstIn_append_of_not_occursIn (h : ¬ t.OccursIn es) :
    es.length ≤ t.firstIn (es ++ [e]) := by
  have hnew : t.event ∉ es.map Event.type := fun hm => h (List.mem_map.1 hm)
  rw [firstIn, List.map_append, List.idxOf_append_of_notMem hnew, List.length_map]
  exact Nat.le_add_right _ _

theorem ChargedType.actionsIn_append : t.actionsIn (es ++ [e]) =
    t.actionsIn es + if e.type = t.event then e.attributes.countP fun a => a.key == t.key else 0 := by
  simp only [actionsIn, List.filter_append, List.flatMap_append, List.countP_append]
  by_cases h : e.type = t.event <;> simp [h]

theorem ChargedType.actionsIn_of_not_occursIn (h : ¬ t.OccursIn es) : t.actionsIn es = 0 := by
  have hnone : es.filter (fun e => e.type == t.event) = [] :=
    List.filter_eq_nil_iff.2 fun e he hte => h ⟨e, he, beq_iff_eq.1 hte⟩
  rw [actionsIn, hnone]
  rfl

theorem ofActions_append_of_ne (h : e.type ≠ t.event) (fee : ScheduledFee) :
    ofActions (es ++ [e]) t fee = ofActions es t fee := by
  simp only [ofActions, ChargedType.actionsIn_append, if_neg h, Nat.add_zero]

/-- Amounts that are kept at the largest one add up to what all actions amount to. -/
theorem ofActions_append_of_eq (h : e.type = t.event) (fee : ScheduledFee) :
    ofActions (es ++ [e]) t fee =
      { ofActions es t fee with
        amount := Amount.add (ofActions es t fee).amount
          (Amount.mul fee.amount (e.attributes.countP fun a => a.key == t.key)) } := by
  have hmax : Amount.largest = 2 ^ 128 - 1 := by decide
  simp only [ofActions, ChargedType.actionsIn_append, if_pos h, Amount.add, Amount.mul, hmax,
    Nat.mul_add, Surcharge.mk.injEq, true_and, and_true]
  omega

end

/-! ## Gathering -/

section

variable {ss before after : List Surcharge} {s : Surcharge} {fee : ScheduledFee} {amount : Nat}

theorem addTo_of_new (h : ∀ s ∈ ss, s.typeUrl ≠ fee.typeUrl) : addTo ss fee amount =
    ss ++ [⟨fee.typeUrl, typeNameOf fee.typeUrl, amount, fee.denom, none, []⟩] := by
  induction ss with
  | nil => rfl
  | cons s ss ih =>
    rw [addTo, if_neg (h s List.mem_cons_self), ih fun s' hs' => h s' (List.mem_cons_of_mem s hs')]
    rfl

theorem addTo_of_known (h : ∀ s ∈ before, s.typeUrl ≠ fee.typeUrl) (hs : s.typeUrl = fee.typeUrl) :
    addTo (before ++ s :: after) fee amount =
      before ++ { s with amount := Amount.add s.amount amount } :: after := by
  induction before with
  | nil => rw [List.nil_append, addTo, if_pos hs, List.nil_append]
  | cons b before ih =>
    rw [List.cons_append, addTo, if_neg (h b List.mem_cons_self),
      ih fun s' hs' => h s' (List.mem_cons_of_mem b hs')]
    rfl

end

/-- What an event makes of the surcharges gathered so far. -/
def charge (fees : List ScheduledFee) (ss : List Surcharge) (e : Event) : List Surcharge :=
  match chargeOf? fees e with
  | none => ss
  | some (fee, n) => addTo ss fee (Amount.mul fee.amount n)

theorem ofSchedule_eq_foldl (es : List Event) (fees : List ScheduledFee) :
    ofSchedule es fees = es.foldl (charge fees) [] := by
  rw [ofSchedule, List.foldl_filterMap]
  congr 1
  funext ss e
  rw [charge]
  cases chargeOf? fees e <;> rfl

namespace Reconstructed

variable {es : List Event} {fees : List ScheduledFee} {charged : List (ChargedType × ScheduledFee)}
  {ss : List Surcharge}

theorem nil (fees : List ScheduledFee) : Reconstructed [] fees [] [] :=
  ⟨by simp [ChargedType.OccursIn], .nil, rfl⟩

/-- The types that have an event keep their order when one more event follows. -/
theorem ordered_append (h : Reconstructed es fees charged ss) (e : Event) :
    charged.Pairwise fun c d => c.1.firstIn (es ++ [e]) < d.1.firstIn (es ++ [e]) := by
  refine h.ordered.imp_of_mem fun {c d} hc hd hlt => ?_
  rwa [ChargedType.firstIn_append_of_occursIn ((h.mem_iff c.1 c.2).1 hc).2.1,
    ChargedType.firstIn_append_of_occursIn ((h.mem_iff d.1 d.2).1 hd).2.1]

theorem nodup (h : Reconstructed es fees charged ss) : charged.Nodup := by
  refine h.ordered.imp fun {c d} hlt => ?_
  rintro rfl
  exact Nat.lt_irrefl _ hlt

/-- An event that nothing is charged for. -/
theorem of_uncharged (h : Reconstructed es fees charged ss) {e : Event}
    (he : chargeOf? fees e = none) : Reconstructed (es ++ [e]) fees charged ss := by
  have hne : ∀ t fee, t ∈ chargedTypes → IsFirstFee fees t.typeUrl fee → e.type ≠ t.event := by
    intro t fee ht hfee htype
    have hsome := chargeOf?_eq_some_iff.2 ⟨t, ht, htype, hfee, rfl⟩
    rw [he] at hsome
    cases hsome
  refine ⟨fun t fee => ?_, h.ordered_append e, ?_⟩
  · rw [h.mem_iff, ChargedType.occursIn_append]
    constructor
    · rintro ⟨ht, ho, hfee⟩
      exact ⟨ht, .inl ho, hfee⟩
    · rintro ⟨ht, ho | htype, hfee⟩
      · exact ⟨ht, ho, hfee⟩
      · exact absurd htype (hne t fee ht hfee)
  · rw [h.surcharges]
    refine List.map_congr_left fun c hc => ?_
    obtain ⟨ht, -, hfee⟩ := (h.mem_iff c.1 c.2).1 hc
    exact (ofActions_append_of_ne (hne c.1 c.2 ht hfee) c.2).symm

variable {e : Event} {t : ChargedType} {fee : ScheduledFee}

/-- The first event of a charged type begins its surcharge. -/
theorem of_first (h : Reconstructed es fees charged ss) (ht : t ∈ chargedTypes)
    (he : e.type = t.event) (hfee : IsFirstFee fees t.typeUrl fee) (ho : ¬ t.OccursIn es) :
    Reconstructed (es ++ [e]) fees (charged ++ [(t, fee)])
      (addTo ss fee (Amount.mul fee.amount (e.attributes.countP fun a => a.key == t.key))) := by
  have hother : ∀ c ∈ charged, c.1 ≠ t := by
    rintro c hc rfl
    exact ho ((h.mem_iff c.1 c.2).1 hc).2.1
  have htypeUrl : fee.typeUrl = t.typeUrl := hfee.typeUrl_eq
  refine ⟨fun u g => ?_, ?_, ?_⟩
  · rw [List.mem_append, List.mem_singleton, h.mem_iff, ChargedType.occursIn_append, Prod.mk.injEq]
    constructor
    · rintro (⟨hu, hou, hg⟩ | ⟨rfl, rfl⟩)
      · exact ⟨hu, .inl hou, hg⟩
      · exact ⟨ht, .inr he, hfee⟩
    · rintro ⟨hu, hou | heu, hg⟩
      · exact .inl ⟨hu, hou, hg⟩
      · obtain rfl := chargedType_eq_of_event ht hu (he.symm.trans heu)
        exact .inr ⟨rfl, hg.unique hfee⟩
  · refine List.pairwise_append.2 ⟨h.ordered_append e, List.pairwise_singleton _ _, ?_⟩
    intro c hc d hd
    have hoc := ((h.mem_iff c.1 c.2).1 hc).2.1
    rw [List.mem_singleton.1 hd, ChargedType.firstIn_append_of_occursIn hoc]
    exact Nat.lt_of_lt_of_le (ChargedType.firstIn_lt hoc)
      (ChargedType.firstIn_append_of_not_occursIn ho)
  · have hnew : ∀ s ∈ ss, s.typeUrl ≠ fee.typeUrl := by
      rw [h.surcharges, htypeUrl]
      intro s hs hsu
      obtain ⟨c, hc, rfl⟩ := List.mem_map.1 hs
      exact hother c hc (chargedType_eq_of_typeUrl ((h.mem_iff c.1 c.2).1 hc).1 ht hsu)
    have hnone : t.actionsIn es = 0 := ChargedType.actionsIn_of_not_occursIn ho
    rw [addTo_of_new hnew, List.map_append, List.map_singleton, ofActions_append_of_eq he, h.surcharges]
    congr 1
    · refine List.map_congr_left fun c hc => (ofActions_append_of_ne (fun hce => ?_) c.2).symm
      exact hother c hc
        (chargedType_eq_of_event ((h.mem_iff c.1 c.2).1 hc).1 ht (hce.symm.trans he))
    · simp only [ofActions, hnone, htypeUrl, Amount.add, Amount.mul]
      simp

/-- A further event of a charged type adds to its surcharge, wherever that stands. -/
theorem of_further (h : Reconstructed es fees charged ss) (ht : t ∈ chargedTypes)
    (he : e.type = t.event) (hfee : IsFirstFee fees t.typeUrl fee) (ho : t.OccursIn es) :
    Reconstructed (es ++ [e]) fees charged
      (addTo ss fee (Amount.mul fee.amount (e.attributes.countP fun a => a.key == t.key))) := by
  refine ⟨fun u g => ?_, h.ordered_append e, ?_⟩
  · rw [h.mem_iff, ChargedType.occursIn_append]
    refine and_congr_right fun hu => and_congr_left fun _ => ⟨.inl, ?_⟩
    rintro (hou | heu)
    · exact hou
    · rwa [← chargedType_eq_of_event ht hu (he.symm.trans heu)]
  · have htypeUrl : fee.typeUrl = t.typeUrl := hfee.typeUrl_eq
    have hkept : ∀ c ∈ charged, c.1 ≠ t → ofActions (es ++ [e]) c.1 c.2 = ofActions es c.1 c.2 :=
      fun c hc hne => ofActions_append_of_ne (fun hce => hne
        (chargedType_eq_of_event ((h.mem_iff c.1 c.2).1 hc).1 ht (hce.symm.trans he))) c.2
    -- all others stand before or behind, as their first events do
    obtain ⟨before, after, rfl⟩ := List.append_of_mem ((h.mem_iff t fee).2 ⟨ht, ho, hfee⟩)
    have hordered := h.ordered
    simp only [List.pairwise_append, List.pairwise_cons, List.mem_cons] at hordered
    obtain ⟨-, ⟨hafter, -⟩, hbefore⟩ := hordered
    have hbefore : ∀ c ∈ before, c.1 ≠ t := by
      rintro c hc rfl
      exact Nat.lt_irrefl _ (hbefore c hc (c.1, fee) (.inl rfl))
    have hafter : ∀ c ∈ after, c.1 ≠ t := by
      rintro c hc rfl
      exact Nat.lt_irrefl _ (hafter c hc)
    have hknown : ∀ s ∈ before.map fun c => ofActions es c.1 c.2, s.typeUrl ≠ fee.typeUrl := by
      rw [htypeUrl]
      intro s hs hsu
      obtain ⟨c, hc, rfl⟩ := List.mem_map.1 hs
      have hmem := (h.mem_iff c.1 c.2).1 (List.mem_append_left _ hc)
      exact hbefore c hc (chargedType_eq_of_typeUrl hmem.1 ht hsu)
    rw [h.surcharges, List.map_append, List.map_cons, addTo_of_known hknown htypeUrl.symm,
      List.map_append, List.map_cons, ofActions_append_of_eq he]
    congr 1
    · exact List.map_congr_left fun c hc =>
        (hkept c (List.mem_append_left _ hc) (hbefore c hc)).symm
    · congr 1
      exact List.map_congr_left fun c hc =>
        (hkept c (List.mem_append_right _ (List.mem_cons_of_mem _ hc)) (hafter c hc)).symm

/-- What has been gathered is what the events so far amount to, and stays so with every event. -/
theorem exists_charge (h : Reconstructed es fees charged ss) (e : Event) :
    ∃ charged', Reconstructed (es ++ [e]) fees charged' (charge fees ss e) := by
  rw [charge]
  cases hc : chargeOf? fees e with
  | none => exact ⟨charged, h.of_uncharged hc⟩
  | some added =>
    obtain ⟨fee, n⟩ := added
    obtain ⟨t, ht, he, hfee, rfl⟩ := chargeOf?_eq_some_iff.1 hc
    by_cases ho : t.OccursIn es
    · exact ⟨charged, h.of_further ht he hfee ho⟩
    · exact ⟨_, h.of_first ht he hfee ho⟩

theorem exists_foldl_charge (h : Reconstructed es fees charged ss) (more : List Event) :
    ∃ charged', Reconstructed (es ++ more) fees charged' (more.foldl (charge fees) ss) := by
  induction more generalizing es charged ss with
  | nil => exact ⟨charged, by simpa using h⟩
  | cons e more ih =>
    obtain ⟨charged', h'⟩ := h.exists_charge e
    rw [List.foldl_cons, List.append_cons]
    exact ih h'

theorem exists_ofSchedule (es : List Event) (fees : List ScheduledFee) :
    ∃ charged, Reconstructed es fees charged (ofSchedule es fees) := by
  rw [ofSchedule_eq_foldl]
  exact (nil fees).exists_foldl_charge es

/-! ## What follows -/

theorem nodup_typeUrl (h : Reconstructed es fees charged ss) : (ss.map Surcharge.typeUrl).Nodup := by
  rw [h.surcharges, List.map_map, List.Nodup, List.pairwise_map]
  refine h.ordered.imp_of_mem fun {c d} hc hd hlt heq => ?_
  have hsame := chargedType_eq_of_typeUrl ((h.mem_iff c.1 c.2).1 hc).1 ((h.mem_iff d.1 d.2).1 hd).1 heq
  rw [hsame] at hlt
  exact Nat.lt_irrefl _ hlt

theorem eq_nil_of_no_fees (h : Reconstructed es [] charged ss) : ss = [] := by
  have hnone : charged = [] := List.eq_nil_iff_forall_not_mem.2 fun c hc => by
    obtain ⟨before, after, hsplit, -⟩ := ((h.mem_iff c.1 c.2).1 hc).2.2
    exact List.append_ne_nil_of_right_ne_nil before (List.cons_ne_nil _ after) hsplit.symm
  rw [h.surcharges, hnone, List.map_nil]

end Reconstructed

/-- The same charged types have events, and each has as many actions. -/
def SameActions (es es' : List Event) : Prop :=
  ∀ t ∈ chargedTypes, (t.OccursIn es ↔ t.OccursIn es') ∧ t.actionsIn es = t.actionsIn es'

theorem sameActions_of_perm {es es' : List Event} (h : es.Perm es') : SameActions es es' := by
  intro t _
  refine ⟨exists_congr fun e => and_congr_left fun _ => h.mem_iff, ?_⟩
  exact (((h.filter _).flatMap_right _).countP_eq _)

theorem Reconstructed.perm {es es' : List Event} {fees : List ScheduledFee}
    {charged charged' : List (ChargedType × ScheduledFee)} {ss ss' : List Surcharge}
    (h : Reconstructed es fees charged ss) (h' : Reconstructed es' fees charged' ss')
    (hsame : SameActions es es') : ss.Perm ss' := by
  have hcharged : charged.Perm charged' := by
    refine (List.perm_ext_iff_of_nodup h.nodup h'.nodup).2 fun c => ?_
    rw [h.mem_iff, h'.mem_iff]
    exact and_congr_right fun ht => and_congr_left fun _ => (hsame c.1 ht).1
  have hentries : charged.map (fun c => ofActions es c.1 c.2) =
      charged.map fun c => ofActions es' c.1 c.2 := by
    refine List.map_congr_left fun c hc => ?_
    rw [ofActions, ofActions, (hsame c.1 ((h.mem_iff c.1 c.2).1 hc).1).2]
  rw [h.surcharges, h'.surcharges, hentries]
  exact hcharged.map _

/-- **Surcharges worked out from the schedule.** Where no event lists them there is one for each charged
type with an event and a fee, none without scheduled fees and no type twice, in the order of the first
events, each for all the actions on its type's events. Other events with the same actions, such as the
same events in another order, give the same surcharges, in the order of their own first events. -/
theorem identify_reconstructs {o : Outcome} (h : ∀ e ∈ o.events, ¬ e.Carries listEvent listKey)
    (lookup : FeeLookup Id) (height : Nat) :
    ∃ charged ss, (identify lookup o height).run = .ok ss ∧
      Reconstructed o.events (lookup.fees height).run charged ss ∧
      ((lookup.fees height).run = [] → ss = []) ∧
      (ss.map Surcharge.typeUrl).Nodup ∧
      (∀ o' : Outcome, (∀ e ∈ o'.events, ¬ e.Carries listEvent listKey) →
        SameActions o.events o'.events →
          ∃ ss', (identify lookup o' height).run = .ok ss' ∧ ss.Perm ss') ∧
      ∀ o' : Outcome, o.events.Perm o'.events →
        ∃ ss', (identify lookup o' height).run = .ok ss' ∧ ss.Perm ss' := by
  obtain ⟨charged, hgathered⟩ := Reconstructed.exists_ofSchedule o.events (lookup.fees height).run
  have hsame : ∀ o' : Outcome, (∀ e ∈ o'.events, ¬ e.Carries listEvent listKey) →
      SameActions o.events o'.events → ∃ ss', (identify lookup o' height).run = .ok ss' ∧
        (ofSchedule o.events (lookup.fees height).run).Perm ss' := by
    intro o' h' hactions
    obtain ⟨charged', hgathered'⟩ := Reconstructed.exists_ofSchedule o'.events (lookup.fees height).run
    exact ⟨_, identify_run_of_no_list h' lookup height, hgathered.perm hgathered' hactions⟩
  refine ⟨charged, _, identify_run_of_no_list h lookup height, hgathered, fun hnone => ?_,
    hgathered.nodup_typeUrl, hsame, fun o' hperm => ?_⟩
  · rw [hnone] at hgathered ⊢
    exact hgathered.eq_nil_of_no_fees
  · exact hsame o' (fun e he => h e (hperm.mem_iff.2 he)) (sameActions_of_perm hperm)

/-- Three markers added, recorded on two events, and a proposal whose event records no action. -/
def threeMarkers : List Event :=
  [⟨"provenance.marker.v1.EventMarkerAdd", [⟨"denom", "a", false⟩, ⟨"denom", "b", false⟩]⟩,
   ⟨"submit_proposal", [⟨"proposal_type", "Text", false⟩]⟩,
   ⟨"provenance.marker.v1.EventMarkerAdd", [⟨"manager", "m", false⟩, ⟨"denom", "c", false⟩]⟩]

/-- Two fees for markers, of which the first counts and goes past the largest amount when it is charged
twice, and one for proposals. -/
def markerFees : FeeSchedule :=
  ⟨[⟨0, none, [⟨"/provenance.marker.v1.MsgAddMarkerRequest", 2 ^ 127, "nhash"⟩,
    ⟨"/provenance.marker.v1.MsgAddMarkerRequest", 1, "usd"⟩,
    ⟨"/cosmos.gov.v1beta1.MsgSubmitProposal", 5, "usd"⟩]⟩]⟩

/-- The amount for the markers stays at the largest one and the proposal costs nothing; with the
events the other way round the surcharges are the same. -/
theorem surcharges_of_threeMarkers :
    ∃ ss ss', (identify markerFees.lookup (.reporting threeMarkers) 1).run = .ok ss ∧
      ss = [⟨"/provenance.marker.v1.MsgAddMarkerRequest", "add_marker", 2 ^ 128 - 1, "nhash", none, []⟩,
        ⟨"/cosmos.gov.v1beta1.MsgSubmitProposal", "submit_proposal", 0, "usd", none, []⟩] ∧
      (identify markerFees.lookup (.reporting threeMarkers.reverse) 1).run = .ok ss' ∧
      ss.Perm ss' := by
  have hnone : ∀ e ∈ (Outcome.reporting threeMarkers).events, ¬ e.Carries listEvent listKey := by
    simp [Outcome.reporting, threeMarkers, Outcome.events, Event.Carries, listEvent]
  obtain ⟨-, ss, hss, -, -, -, -, hperm⟩ := identify_reconstructs hnone markerFees.lookup 1
  obtain ⟨ss', hss', hsame⟩ :=
    hperm (.reporting threeMarkers.reverse) (List.reverse_perm threeMarkers).symm
  refine ⟨ss, ss', hss, ?_, hss', hsame⟩
  rw [identify_run_of_no_list hnone] at hss
  rw [← Except.ok.inj hss]
  decide +kernel

end Surcharge

end TxLens

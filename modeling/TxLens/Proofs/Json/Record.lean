import TxLens.Json.Record
import TxLens.Proofs.Keyed
/-!
# Values that a record is written as

A record is known by its fields. Each has a name and the values it may be written as, and some may be
left out. Of an object only the fields count: they may stand in any order and anything else may stand
between them. A list holds the fields in their order and may end where all that follow can be left out.
Whichever it is, every field is found in it or can be left out (`record?_of_isRecord`), so each is read
as what was written (`required_of_carries`, `defaulted_of_carries`).
-/

namespace TxLens.Json

structure Field where
  name : String
  /-- The values that it may be written as. -/
  Writes : Json → Prop
  /-- Whether it may be left out. -/
  Omittable : Prop

/-- What may stand in an object for the record: no field twice, nothing but its values at a field, and
every field that cannot be left out. -/
structure AreMembers (fields : List Field) (ms : List (String × Json)) : Prop where
  once : ∀ f ∈ fields, (ms.map Prod.fst).count f.name ≤ 1
  written : ∀ f ∈ fields, ∀ j, (f.name, j) ∈ ms → f.Writes j
  omitted : ∀ f ∈ fields, (∀ j, (f.name, j) ∉ ms) → f.Omittable

/-- The values that a record with these fields may be written as. -/
inductive IsRecord (fields : List Field) : Json → Prop
  | object {ms : List (String × Json)} (h : AreMembers fields ms) : IsRecord fields (.ofMembers ms)
  | list {shown left : List Field} {js : List Json} (hf : fields = shown ++ left)
      (h : List.Forall₂ Field.Writes shown js) (hl : ∀ f ∈ left, f.Omittable) :
      IsRecord fields (.list js)

/-- A field is found among these, written as it may be, or it can be left out. -/
inductive Carries (r : List (String × Json)) (f : Field) : Prop
  | written {j : Json} (hj : r.lookup f.name = some j) (h : f.Writes j)
  | omitted (hj : r.lookup f.name = none) (h : f.Omittable)

variable {fields : List Field} {r : List (String × Json)} {f : Field}

/-! ## Look-up by name -/

/-- A field that is written as it may be wherever it stands, and stands somewhere or can be left out. -/
theorem Carries.of_mem (hw : ∀ j, (f.name, j) ∈ r → f.Writes j)
    (ho : (∀ j, (f.name, j) ∉ r) → f.Omittable) : Carries r f := by
  cases hj : r.lookup f.name with
  | none => exact .omitted hj (ho (not_mem_of_lookup hj))
  | some j => exact .written hj (hw j (mem_of_lookup hj))

/-! ## Objects -/

theorem keyed?_map (ms : List (String × Json)) : keyed? (ms.map fun m => (some m.1, m.2)) = some ms := by
  induction ms with
  | nil => rfl
  | cons m ms ih => rw [List.map_cons, keyed?, ih, Option.map_some]

/-- The members that are fields, in the order they stand in. -/
def known (names : List String) (ms : List (String × Json)) : List (String × Json) :=
  ms.filter fun m => names.contains m.1

theorem mem_known {names : List String} {ms : List (String × Json)} {m : String × Json} :
    m ∈ known names ms ↔ m ∈ ms ∧ m.1 ∈ names := by
  rw [known, List.mem_filter, List.contains_iff_mem]

theorem AreMembers.nodup_known {ms : List (String × Json)} (h : AreMembers fields ms) :
    ((known (fields.map Field.name) ms).map Prod.fst).Nodup := by
  rw [List.nodup_iff_count]
  intro name
  by_cases hname : name ∈ fields.map Field.name
  · obtain ⟨f, hf, rfl⟩ := List.mem_map.1 hname
    have hsub : ((known (fields.map Field.name) ms).map Prod.fst).Sublist (ms.map Prod.fst) :=
      List.filter_sublist.map Prod.fst
    exact Nat.le_trans (hsub.count_le f.name) (h.once f hf)
  · -- what is no field is not among them
    have hcount : ((known (fields.map Field.name) ms).map Prod.fst).count name = 0 := by
      rw [List.count_eq_zero]
      intro hmem
      obtain ⟨m, hm, rfl⟩ := List.mem_map.1 hmem
      exact hname (mem_known.1 hm).2
    omega

theorem AreMembers.carries {ms : List (String × Json)} (h : AreMembers fields ms) (hf : f ∈ fields) :
    Carries (known (fields.map Field.name) ms) f := by
  refine .of_mem (fun j hj => h.written f hf j (mem_known.1 hj).1) fun hno => ?_
  refine h.omitted f hf fun j hj => hno j (mem_known.2 ⟨hj, ?_⟩)
  exact List.mem_map_of_mem hf

/-! ## Lists -/

theorem mem_zip_of_forall₂ {shown : List Field} {js : List Json}
    (h : List.Forall₂ Field.Writes shown js) {name : String} {j : Json}
    (hj : (name, j) ∈ (shown.map Field.name).zip js) : ∃ f ∈ shown, f.name = name ∧ f.Writes j := by
  induction h with
  | nil => cases hj
  | @cons f k shown js hw _ ih =>
    rw [List.map_cons, List.zip_cons_cons] at hj
    rcases List.mem_cons.1 hj with heq | hj
    · cases heq
      exact ⟨f, List.mem_cons_self, rfl, hw⟩
    · obtain ⟨g, hg, hname, hw⟩ := ih hj
      exact ⟨g, List.mem_cons_of_mem f hg, hname, hw⟩

theorem exists_mem_zip_of_forall₂ {shown : List Field} {js : List Json}
    (h : List.Forall₂ Field.Writes shown js) (hf : f ∈ shown) :
    ∃ j, (f.name, j) ∈ (shown.map Field.name).zip js := by
  induction h with
  | nil => cases hf
  | @cons g k shown js _ _ ih =>
    rw [List.map_cons, List.zip_cons_cons]
    rcases List.mem_cons.1 hf with rfl | hf
    · exact ⟨k, List.mem_cons_self⟩
    · obtain ⟨j, hj⟩ := ih hf
      exact ⟨j, List.mem_cons_of_mem _ hj⟩

theorem zip_eq_of_forall₂ {shown left : List Field} {js : List Json}
    (h : List.Forall₂ Field.Writes shown js) :
    ((shown ++ left).map Field.name).zip js = (shown.map Field.name).zip js := by
  have hlen : (shown.map Field.name).length = js.length := by rw [List.length_map, h.length_eq]
  have hzip : (shown.map Field.name ++ left.map Field.name).zip (js ++ []) =
      (shown.map Field.name).zip js ++ (left.map Field.name).zip [] := List.zip_append hlen
  rwa [List.append_nil, List.zip_nil_right, List.append_nil, ← List.map_append] at hzip

theorem carries_zip {shown left : List Field} {js : List Json}
    (hnames : ((shown ++ left).map Field.name).Nodup) (h : List.Forall₂ Field.Writes shown js)
    (hl : ∀ f ∈ left, f.Omittable) (hf : f ∈ shown ++ left) :
    Carries ((shown.map Field.name).zip js) f := by
  refine .of_mem (fun j hj => ?_) fun hno => ?_
  · -- names differ, so what stands under the name of `f` is `f`
    obtain ⟨g, hg, hname, hw⟩ := mem_zip_of_forall₂ h hj
    obtain rfl := List.inj_on_of_nodup_map hnames (List.mem_append_left left hg) hf hname
    exact hw
  · rcases List.mem_append.1 hf with hf | hf
    · obtain ⟨j, hj⟩ := exists_mem_zip_of_forall₂ h hf
      exact absurd hj (hno j)
    · exact hl f hf

/-- A record may be written as an object with all its fields in order. -/
theorem isRecord_ofMembers_zip (js : List Json) (hnames : (fields.map Field.name).Nodup)
    (h : List.Forall₂ Field.Writes fields js) :
    IsRecord fields (.ofMembers ((fields.map Field.name).zip js)) := by
  have hlen : (fields.map Field.name).length ≤ js.length :=
    Nat.le_of_eq (by rw [List.length_map, h.length_eq])
  refine .object ⟨fun f _ => ?_, fun f hf j hj => ?_, fun f hf hno => ?_⟩
  · rw [List.map_fst_zip hlen]
    exact List.nodup_iff_count.1 hnames f.name
  · obtain ⟨g, hg, hname, hw⟩ := mem_zip_of_forall₂ h hj
    obtain rfl := List.inj_on_of_nodup_map hnames hg hf hname
    exact hw
  · obtain ⟨j, hj⟩ := exists_mem_zip_of_forall₂ h hf
    exact absurd hj (hno j)

/-! ## Reading a record -/

/-- A value that the record may be written as has every field, up to what can be left out. -/
theorem record?_of_isRecord (hnames : (fields.map Field.name).Nodup) {j : Json}
    (h : IsRecord fields j) :
    ∃ r, record? (fields.map Field.name) j = some r ∧ ∀ f ∈ fields, Carries r f := by
  cases h with
  | @object ms h =>
    refine ⟨known (fields.map Field.name) ms, ?_, fun f hf => h.carries hf⟩
    rw [ofMembers, record?, keyed?_map]
    exact if_pos h.nodup_known
  | @list shown left js hf h hl =>
    subst hf
    have hlen : js.length ≤ ((shown ++ left).map Field.name).length := by
      rw [← h.length_eq, List.length_map, List.length_append]
      omega
    refine ⟨(shown.map Field.name).zip js, ?_, fun f hf => carries_zip hnames h hl hf⟩
    rw [record?, if_pos hlen, zip_eq_of_forall₂ h]

theorem required_of_carries {α : Type} {read : Json → Option α} {a : α} (h : Carries r f)
    (hf : ¬ f.Omittable) (hread : ∀ j, f.Writes j → read j = some a) :
    required r f.name read = some a := by
  cases h with
  | written hj hw =>
    rw [required, hj]
    exact hread _ hw
  | omitted hj ho => exact absurd ho hf

theorem defaulted_of_carries {α : Type} {read : Json → Option α} {a default : α} (h : Carries r f)
    (hf : f.Omittable → a = default) (hread : ∀ j, f.Writes j → read j = some a) :
    defaulted r f.name read default = some a := by
  cases h with
  | written hj hw =>
    rw [defaulted, hj]
    exact hread _ hw
  | omitted hj ho => rw [defaulted, hj, hf ho]

/-! ## Values of fields -/

theorem text?_ofText (s : String) : text? (ofText s) = some s := rfl

theorem below?_natural {bound n : Nat} (h : n < bound) : below? bound (.natural n) = some n :=
  if_pos h

/-- A list is written as the list of what its elements are written as. -/
inductive WritesList {α : Type} (Writes : α → Json → Prop) (as : List α) : Json → Prop
  | mk {js : List Json} (h : List.Forall₂ Writes as js) : WritesList Writes as (.list js)

section

variable {α : Type} {Writes : α → Json → Prop} {as : List α}

theorem list?_of_writesList {read : Json → Option α} {j : Json}
    (hread : ∀ a ∈ as, ∀ j, Writes a j → read j = some a) (h : WritesList Writes as j) :
    list? read j = some as := by
  obtain ⟨h⟩ := h
  rw [list?]
  induction h with
  | nil => rfl
  | @cons a j as js hw _ ih =>
    have hrest := ih fun b hb => hread b (List.mem_cons_of_mem a hb)
    rw [all?, hread a List.mem_cons_self j hw]
    simp only [hrest, Option.map_some]

theorem writesList_map {toJson : α → Json} (h : ∀ a, Writes a (toJson a)) (as : List α) :
    WritesList Writes as (.list (as.map toJson)) := by
  refine .mk ?_
  induction as with
  | nil => exact .nil
  | cons a as ih => exact .cons (h a) ih

end

end TxLens.Json

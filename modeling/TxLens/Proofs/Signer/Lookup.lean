import TxLens.Proofs.Keyed
import TxLens.Signer.Catalog
/-!
# Looking up message types

A registry built from a list answers with the last value listed under a key (`get?_ofList`), and where
no key is listed twice it is that list, backwards (`ofList_eq`). A key
that stands at the end of a type name decides the look-up as soon as no registered key is a longer
name that ends in it (`lookup?_of_mem_nameSuffixes`).
-/

namespace TxLens

/-! ## Suffixes of names -/

theorem mem_dotTails_iff {t cs : List Char} : t ∈ dotTails cs ↔ ∃ p, cs = p ++ '.' :: t := by
  induction cs with
  | nil => simp [dotTails]
  | cons c cs ih =>
    rw [dotTails]
    constructor
    · intro h
      split at h
      · rename_i hc
        rcases List.mem_cons.1 h with rfl | h
        · exact ⟨[], by rw [hc]; rfl⟩
        · obtain ⟨p, hp⟩ := ih.1 h
          exact ⟨c :: p, by rw [hp]; rfl⟩
      · obtain ⟨p, hp⟩ := ih.1 h
        exact ⟨c :: p, by rw [hp]; rfl⟩
    · rintro ⟨p, hp⟩
      cases p with
      | nil =>
        simp only [List.nil_append, List.cons.injEq] at hp
        obtain ⟨rfl, rfl⟩ := hp
        simp
      | cons d p =>
        simp only [List.cons_append, List.cons.injEq] at hp
        have ht := ih.2 ⟨p, hp.2⟩
        split
        · exact List.mem_cons_of_mem _ ht
        · exact ht

theorem length_lt_of_mem_dotTails {t cs : List Char} (h : t ∈ dotTails cs) :
    t.length < cs.length := by
  obtain ⟨p, rfl⟩ := mem_dotTails_iff.1 h
  simp only [List.length_append, List.length_cons]
  omega

/-- The suffixes after one of them are its own proper suffixes. -/
theorem dotTails_of_split : ∀ {cs s : List Char} {before after : List (List Char)},
    dotTails cs = before ++ s :: after → after = dotTails s
  | [], _, _, _, h => by simp [dotTails] at h
  | c :: cs, s, before, after, h => by
    rw [dotTails] at h
    split at h
    · cases before with
      | nil =>
        simp only [List.nil_append, List.cons.injEq] at h
        obtain ⟨rfl, rfl⟩ := h
        rfl
      | cons b before => exact dotTails_of_split (List.cons.inj h).2
    · exact dotTails_of_split h

theorem nameSuffixes_of_split {name s : List Char} {before after : List (List Char)}
    (h : nameSuffixes name = before ++ s :: after) : after = dotTails s := by
  unfold nameSuffixes at h
  cases before with
  | nil =>
    simp only [List.nil_append, List.cons.injEq] at h
    obtain ⟨rfl, rfl⟩ := h
    rfl
  | cons b before => exact dotTails_of_split (List.cons.inj h).2

/-- A proper suffix of a name ends it, bytes and all. -/
theorem ofText_isSuffix_of_mem_dotTails {key : String} {s : List Char}
    (h : key.toList ∈ dotTails s) : Bytes.ofText key <:+ Bytes.ofText (String.ofList s) := by
  obtain ⟨p, rfl⟩ := mem_dotTails_iff.1 h
  refine ⟨Bytes.ofText (String.ofList (p ++ ['.'])), ?_⟩
  have e : String.ofList (p ++ '.' :: key.toList) = String.ofList (p ++ ['.']) ++ key := by
    rw [← String.ofList_toList (s := key), ← String.ofList_append]
    simp
  rw [e]
  simp [Bytes.ofText, String.toByteArray_append]

namespace Registry

variable {α : Type}

/-! ## Keys -/

theorem get?_insert (r : Registry α) (key : String) (a : α) (k : String) :
    (r.insert key a).get? k = if k = key then some a else r.get? k := by
  unfold get? insert
  rw [List.lookup_cons]
  by_cases hk : k = key
  · simp [hk]
  · rw [if_neg hk, show (k == key) = false by simpa using hk]
    simp only
    induction r.entries with
    | nil => rfl
    | cons e es ih =>
      by_cases he : e.1 = key
      · have hke : (k == e.1) = false := by rw [he]; simpa using hk
        rw [List.filter_cons_of_neg (by simpa using he), ih, List.lookup_cons, hke]
      · rw [List.filter_cons_of_pos (by simpa using he), List.lookup_cons, List.lookup_cons, ih]

theorem get?_foldl_insert (es : List (String × α)) (r : Registry α) (k : String) :
    (es.foldl (fun r e => r.insert e.1 e.2) r).get? k = (es.reverse.lookup k).or (r.get? k) := by
  induction es generalizing r with
  | nil => simp
  | cons e es ih =>
    rw [List.foldl_cons, ih, get?_insert, List.reverse_cons, List.lookup_append, Option.or_assoc]
    obtain ⟨key, a⟩ := e
    by_cases hk : k = key
    · simp [hk]
    · have hb : (k == key) = false := by simpa using hk
      simp [List.lookup_cons, hk, hb]

/-- The last value listed under a key is the one that counts. -/
theorem get?_ofList (es : List (String × α)) (k : String) :
    (ofList es).get? k = es.reverse.lookup k := by
  rw [ofList, get?_foldl_insert]
  simp [get?, empty]

/-- A value under a new key is put in front of the others. -/
theorem entries_insert_of_notMem {r : Registry α} {key : String} (h : key ∉ r.entries.map Prod.fst)
    (a : α) : (r.insert key a).entries = (key, a) :: r.entries := by
  refine congrArg _ (List.filter_eq_self.2 fun e he => bne_iff_ne.2 fun hk => h ?_)
  exact hk ▸ List.mem_map_of_mem he

theorem entries_foldl_insert {es : List (String × α)} {r : Registry α}
    (h : (es.reverse.map Prod.fst ++ r.entries.map Prod.fst).Nodup) :
    (es.foldl (fun r e => r.insert e.1 e.2) r).entries = es.reverse ++ r.entries := by
  induction es generalizing r with
  | nil => rfl
  | cons e es ih =>
    rw [List.reverse_cons, List.map_append, List.append_assoc] at h
    have hnew := entries_insert_of_notMem (List.nodup_cons.1 (List.nodup_append.1 h).2.1).1 e.2
    rw [List.foldl_cons, ih (by rw [hnew]; exact h), hnew, List.reverse_cons, List.append_assoc]
    rfl

/-- Under keys of which none is listed twice every value stays, the last one in front. -/
theorem ofList_eq {es : List (String × α)} (h : (es.reverse.map Prod.fst).Nodup) :
    ofList es = ⟨es.reverse, h⟩ := by
  have hentries : (ofList es).entries = es.reverse := by
    rw [ofList, entries_foldl_insert (by simpa [empty] using h), empty, List.append_nil]
  cases hr : ofList es
  rw [hr] at hentries
  cases hentries
  rfl

/-! ## Names -/

/-- A registered suffix decides the look-up when no longer one that ends in it is registered. -/
theorem lookup?_of_mem_nameSuffixes {r : Registry α} {typeUrl key : String} {a : α}
    (hkey : key.toList ∈ nameSuffixes (Envelope.afterSlash typeUrl.toList))
    (ha : r.get? key = some a)
    (hlong : ∀ s, key.toList ∈ dotTails s → r.get? (String.ofList s) = none) :
    r.lookup? typeUrl = some a := by
  unfold lookup?
  cases hf : (nameSuffixes (Envelope.afterSlash typeUrl.toList)).findSome?
      fun s => r.get? (String.ofList s) with
  | none =>
    have := List.findSome?_eq_none_iff.1 hf _ hkey
    rw [String.ofList_toList, ha] at this
    cases this
  | some b =>
    obtain ⟨before, s, after, hsplit, hs, hbefore⟩ := List.findSome?_eq_some_iff.1 hf
    have hafter := nameSuffixes_of_split hsplit
    rw [hsplit, List.mem_append, List.mem_cons] at hkey
    rcases hkey with hk | hk | hk
    · have := hbefore _ hk
      rw [String.ofList_toList, ha] at this
      cases this
    · rw [← hk, String.ofList_toList, ha] at hs
      exact hs.symm
    · rw [hlong s (hafter ▸ hk)] at hs
      cases hs

/-- What a look-up finds is registered under a suffix of the name. -/
theorem exists_of_lookup? {r : Registry α} {typeUrl : String} {a : α}
    (h : r.lookup? typeUrl = some a) :
    ∃ s ∈ nameSuffixes (Envelope.afterSlash typeUrl.toList), r.get? (String.ofList s) = some a := by
  obtain ⟨before, s, after, hsplit, hs, -⟩ := List.findSome?_eq_some_iff.1 h
  exact ⟨s, by rw [hsplit]; simp, hs⟩

end Registry

end TxLens

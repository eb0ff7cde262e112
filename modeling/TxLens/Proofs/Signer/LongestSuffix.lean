import Mathlib.Data.Finset.Card
import TxLens.Proofs.Signer.Lookup
/-!
# The longest registered suffix decides

A key matches a type URL when it stands at the end of the URL's name, as all of it or after one of
its dots. Among the matching keys that were ever registered the longest decides, and under it what was
registered last (`lookup?_ofList_iff_longest`). A registry is therefore known by what it holds under each
key: neither the order of registrations nor what they replaced can be seen from its answers.
-/

namespace TxLens

/-! ## Names and their suffixes -/

/-- A name in a URL is free of slashes and follows one, unless it is the whole URL. -/
def IsNameOf (name url : List Char) : Prop :=
  '/' ∉ name ∧ (url = name ∨ ∃ p, url = p ++ '/' :: name)

theorem isNameOf_iff {name url : List Char} : IsNameOf name url ↔ Envelope.afterSlash url = name := by
  unfold IsNameOf
  induction url with
  | nil =>
    constructor
    · rintro ⟨-, h | ⟨p, h⟩⟩
      · exact h
      · simp at h
    · rintro rfl
      exact ⟨by simp [Envelope.afterSlash], .inl rfl⟩
  | cons c cs ih =>
    rw [Envelope.afterSlash]
    by_cases hc : '/' ∈ c :: cs
    · rw [if_pos hc, ← ih]
      refine and_congr_right fun hn => ?_
      -- a slash that is left in the URL ends the part before the name
      constructor
      · rintro (h | ⟨p, h⟩)
        · exact absurd (h ▸ hc) hn
        · cases p with
          | nil => exact .inl (List.cons.inj h).2
          | cons d p => exact .inr ⟨p, (List.cons.inj h).2⟩
      · rintro (rfl | ⟨p, rfl⟩)
        · rcases List.mem_cons.1 hc with rfl | hc
          · exact .inr ⟨[], rfl⟩
          · exact absurd hc hn
        · exact .inr ⟨c :: p, rfl⟩
    · rw [if_neg hc]
      constructor
      · rintro ⟨-, h | ⟨p, h⟩⟩
        · exact h
        · exact absurd (h ▸ by simp) hc
      · rintro rfl
        exact ⟨hc, .inl rfl⟩

/-- A key that is all of a name or stands after one of its dots. -/
def DotAligned (key name : List Char) : Prop := name = key ∨ ∃ p, name = p ++ '.' :: key

theorem mem_nameSuffixes_iff {key name : List Char} :
    key ∈ nameSuffixes name ↔ DotAligned key name := by
  rw [nameSuffixes, List.mem_cons, mem_dotTails_iff, DotAligned, eq_comm]

/-- The empty key is at the end of empty names and of names that end in a dot. -/
theorem dotAligned_nil_iff {name : List Char} :
    DotAligned [] name ↔ name = [] ∨ name.getLast? = some '.' := by
  rw [DotAligned, List.getLast?_eq_some_iff]

theorem DotAligned.isSuffix {key name : List Char} (h : DotAligned key name) : key <:+ name := by
  rcases h with rfl | ⟨p, rfl⟩
  · exact List.suffix_refl _
  · exact ⟨p ++ ['.'], by simp⟩

/-- Two keys of one length at the end of the same name are one key. -/
theorem DotAligned.eq_of_length {key key' name : List Char} (h : DotAligned key name)
    (h' : DotAligned key' name) (hlen : key.length = key'.length) : key = key' :=
  (List.suffix_of_suffix_length_le h.isSuffix h'.isSuffix (Nat.le_of_eq hlen)).eq_of_length hlen

theorem pairwise_dotTails (cs : List Char) :
    (dotTails cs).Pairwise fun s t => t.length < s.length := by
  induction cs with
  | nil => exact .nil
  | cons c cs ih =>
    rw [dotTails]
    split
    · exact List.pairwise_cons.2 ⟨fun t ht => length_lt_of_mem_dotTails ht, ih⟩
    · exact ih

/-- The suffixes of a name are listed from long to short. -/
theorem pairwise_nameSuffixes (name : List Char) :
    (nameSuffixes name).Pairwise fun s t => t.length < s.length :=
  List.pairwise_cons.2 ⟨fun _ ht => length_lt_of_mem_dotTails ht, pairwise_dotTails name⟩

namespace Registry

variable {α : Type}

/-! ## What a look-up finds -/

/-- A key stands at the end of a type URL's name. -/
def Matches (key typeUrl : String) : Prop :=
  ∃ name, IsNameOf name typeUrl.toList ∧ DotAligned key.toList name

theorem matches_iff {key typeUrl : String} :
    Matches key typeUrl ↔ key.toList ∈ nameSuffixes (Envelope.afterSlash typeUrl.toList) := by
  simp only [Matches, isNameOf_iff, mem_nameSuffixes_iff]
  constructor
  · rintro ⟨name, rfl, h⟩
    exact h
  · intro h
    exact ⟨_, rfl, h⟩

theorem Matches.eq_of_length {key key' typeUrl : String} (h : Matches key typeUrl)
    (h' : Matches key' typeUrl) (hlen : key.length = key'.length) : key = key' := by
  rw [matches_iff, mem_nameSuffixes_iff] at h h'
  exact String.toList_injective (h.eq_of_length h' (by rwa [String.length_toList, String.length_toList]))

/-- The longest among keys that match a type URL. -/
def LongestOf (keys : List String) (key typeUrl : String) : Prop :=
  key ∈ keys ∧ Matches key typeUrl ∧ ∀ k ∈ keys, Matches k typeUrl → k.length ≤ key.length

theorem LongestOf.unique {keys : List String} {key key' typeUrl : String}
    (h : LongestOf keys key typeUrl) (h' : LongestOf keys key' typeUrl) : key = key' :=
  h.2.1.eq_of_length h'.2.1 (Nat.le_antisymm (h'.2.2 key h.1 h.2.1) (h.2.2 key' h'.1 h'.2.1))

theorem LongestOf.congr {keys keys' : List String} (hk : ∀ k, k ∈ keys ↔ k ∈ keys')
    {key typeUrl : String} : LongestOf keys key typeUrl ↔ LongestOf keys' key typeUrl := by
  simp only [LongestOf, hk]

def keys (r : Registry α) : List String := r.entries.map Prod.fst

theorem mem_keys_iff {r : Registry α} {key : String} : key ∈ r.keys ↔ r.get? key ≠ none :=
  lookup_ne_none_iff.symm

theorem size_eq_card (r : Registry α) : r.size = r.keys.toFinset.card :=
  (List.length_map Prod.fst).symm.trans (List.toFinset_card_of_nodup r.nodup).symm

theorem lookup?_eq_none_iff {r : Registry α} {typeUrl : String} :
    r.lookup? typeUrl = none ↔ ∀ key ∈ r.keys, ¬ Matches key typeUrl := by
  simp only [lookup?, List.findSome?_eq_none_iff, matches_iff, mem_keys_iff]
  constructor
  · intro h key hget hkey
    have hnone := h _ hkey
    rw [String.ofList_toList] at hnone
    exact hget hnone
  · intro h s hs
    by_contra hget
    exact h _ hget (by rwa [String.toList_ofList])

theorem exists_longestOf {r : Registry α} {typeUrl : String} {a : α}
    (h : r.lookup? typeUrl = some a) :
    ∃ key, LongestOf r.keys key typeUrl ∧ r.get? key = some a := by
  obtain ⟨before, s, after, hsplit, hs, hbefore⟩ := List.findSome?_eq_some_iff.1 h
  have hpw := pairwise_nameSuffixes (Envelope.afterSlash typeUrl.toList)
  rw [hsplit] at hpw
  refine ⟨String.ofList s, ⟨mem_keys_iff.2 (by simp [hs]), matches_iff.2 (by simp [hsplit]), ?_⟩, hs⟩
  intro k hget hk
  rw [mem_keys_iff] at hget
  rw [matches_iff, hsplit, List.mem_append, List.mem_cons] at hk
  -- what stands before the suffix found is not registered, what stands after it is shorter
  rcases hk with hk | hk | hk
  · have hnone := hbefore _ hk
    rw [String.ofList_toList] at hnone
    exact absurd hnone hget
  · rw [← hk, String.ofList_toList]
  · have hlt := (List.pairwise_cons.1 (List.pairwise_append.1 hpw).2.1).1 _ hk
    rw [String.length_toList] at hlt
    rw [String.length_ofList]
    exact Nat.le_of_lt hlt

/-- A look-up finds what is held under the longest matching key. -/
theorem lookup?_eq_some_iff {r : Registry α} {typeUrl : String} {a : α} :
    r.lookup? typeUrl = some a ↔ ∃ key, LongestOf r.keys key typeUrl ∧ r.get? key = some a := by
  refine ⟨exists_longestOf, ?_⟩
  rintro ⟨key, hkey, ha⟩
  cases hl : r.lookup? typeUrl with
  | none => exact absurd hkey.2.1 (lookup?_eq_none_iff.1 hl key hkey.1)
  | some b =>
    obtain ⟨key', hkey', hb⟩ := exists_longestOf hl
    rw [hkey.unique hkey'] at ha
    exact hb.symm.trans ha

theorem isKnown_iff {r : Registry α} {typeUrl : String} :
    r.isKnown typeUrl = true ↔ ∃ key ∈ r.keys, Matches key typeUrl := by
  rw [isKnown, Option.isSome_iff_ne_none, ne_eq, lookup?_eq_none_iff]
  simp

/-! ## Registering one value after the other -/

/-- What was registered last under a key. -/
def LastUnder (entries : List (String × α)) (key : String) (a : α) : Prop :=
  ∃ before after, entries = before ++ (key, a) :: after ∧ ∀ e ∈ after, e.1 ≠ key

theorem get?_ofList_eq_some_iff {entries : List (String × α)} {key : String} {a : α} :
    (ofList entries).get? key = some a ↔ LastUnder entries key a := by
  rw [get?_ofList, List.lookup_eq_some_iff]
  constructor
  · rintro ⟨after, before, h, hafter⟩
    refine ⟨before.reverse, after.reverse, by simpa using congrArg List.reverse h, fun e he => ?_⟩
    have := hafter e (List.mem_reverse.1 he)
    simp only [bne_iff_ne, ne_eq] at this
    exact Ne.symm this
  · rintro ⟨before, after, rfl, hafter⟩
    refine ⟨after.reverse, before.reverse, by simp, fun e he => ?_⟩
    simpa using Ne.symm (hafter e (List.mem_reverse.1 he))

theorem mem_keys_ofList {entries : List (String × α)} {key : String} :
    key ∈ (ofList entries).keys ↔ key ∈ entries.map Prod.fst := by
  rw [mem_keys_iff, get?_ofList, lookup_ne_none_iff, List.map_reverse, List.mem_reverse]

theorem size_ofList (entries : List (String × α)) :
    (ofList entries).size = (entries.map Prod.fst).toFinset.card := by
  have hkeys : (ofList entries).keys.toFinset = (entries.map Prod.fst).toFinset := by
    ext key
    rw [List.mem_toFinset, List.mem_toFinset, mem_keys_ofList]
  rw [size_eq_card, hkeys]

theorem ofList_concat (entries : List (String × α)) (key : String) (a : α) :
    ofList (entries ++ [(key, a)]) = (ofList entries).insert key a := by
  rw [ofList, List.foldl_append]
  rfl

theorem mem_keys_insert {r : Registry α} {key : String} {a : α} {k : String} :
    k ∈ (r.insert key a).keys ↔ k = key ∨ k ∈ r.keys := by
  rw [mem_keys_iff, mem_keys_iff, get?_insert]
  by_cases hk : k = key <;> simp [hk]

theorem isKnown_insert {r : Registry α} {typeUrl : String} (h : r.isKnown typeUrl = true)
    (key : String) (a : α) : (r.insert key a).isKnown typeUrl = true := by
  obtain ⟨k, hk, hm⟩ := isKnown_iff.1 h
  exact isKnown_iff.2 ⟨k, mem_keys_insert.2 (.inr hk), hm⟩

/-- A new value is only found where its key is the longest that matches. -/
theorem longestOf_of_lookup?_insert_ne {r : Registry α} {key typeUrl : String} {a : α}
    (h : (r.insert key a).lookup? typeUrl ≠ r.lookup? typeUrl) :
    LongestOf (key :: r.keys) key typeUrl := by
  have hkeys : ∀ k, k ∈ (r.insert key a).keys ↔ k ∈ key :: r.keys := by
    intro k
    rw [mem_keys_insert, List.mem_cons]
  cases hl : (r.insert key a).lookup? typeUrl with
  | none =>
    -- with fewer keys nothing would have been found either
    refine absurd ?_ h
    rw [hl, eq_comm, lookup?_eq_none_iff]
    exact fun k hk => lookup?_eq_none_iff.1 hl k (mem_keys_insert.2 (.inr hk))
  | some b =>
    obtain ⟨k, hk, hb⟩ := exists_longestOf hl
    rw [LongestOf.congr hkeys] at hk
    by_cases hkey : k = key
    · rwa [hkey] at hk
    · rw [get?_insert, if_neg hkey] at hb
      refine absurd ?_ h
      rw [hl, eq_comm, lookup?_eq_some_iff]
      refine ⟨k, ⟨?_, hk.2.1, fun k' hk' => hk.2.2 k' (List.mem_cons_of_mem _ hk')⟩, hb⟩
      exact (List.mem_cons.1 hk.1).resolve_left hkey

/-! ## What can be seen of a registry -/

/-- Signers by registered values of any kind: `act` says how a value finds the signers of a message,
from where the message stands, what the registry answers to other type URLs and the signers of messages
one level below. -/
def signersBy (act : α → Visit → (String → Option α) → (Envelope → Except SignerFault (List String)) →
    Envelope → Except SignerFault (List String)) (r : Registry α) :
    (levels : Nat) → Envelope → Except SignerFault (List String)
  | 0, e => .error (.nestingTooDeep e.typeUrl)
  | levels + 1, e =>
    match r.lookup? e.typeUrl with
    | none => .ok []
    | some a => act a ⟨depthLimit - levels, r.size⟩ r.lookup? (signersBy act r levels) e

/-- The rules of the chain do not ask the registry again. -/
theorem signersBy_rules (r : Registry SignerRule) (levels : Nat) :
    signersBy (fun rule visit _ => rule.signers visit) r levels = r.signersAt levels := by
  induction levels with
  | zero => rfl
  | succ levels ih =>
    funext e
    rw [signersBy, signersAt, ih]
    cases r.lookup? e.typeUrl <;> rfl

section

variable {r r' : Registry α}

theorem lookup?_congr (h : ∀ key, r.get? key = r'.get? key) : r.lookup? = r'.lookup? := by
  funext typeUrl
  simp only [lookup?, h]

theorem size_congr (h : ∀ key, r.get? key = r'.get? key) : r.size = r'.size := by
  have hkeys : r.keys.toFinset = r'.keys.toFinset := by
    ext key
    rw [List.mem_toFinset, List.mem_toFinset, mem_keys_iff, mem_keys_iff, h]
  rw [size_eq_card, size_eq_card, hkeys]

theorem signersBy_congr (h : ∀ key, r.get? key = r'.get? key)
    (act : α → Visit → (String → Option α) → (Envelope → Except SignerFault (List String)) →
      Envelope → Except SignerFault (List String)) (levels : Nat) :
    signersBy act r levels = signersBy act r' levels := by
  induction levels with
  | zero => rfl
  | succ levels ih =>
    funext e
    rw [signersBy, signersBy, lookup?_congr h, size_congr h, ih]

end

/-- **What a sequence of registrations answers**: the value registered last under the longest key
that matches, nothing where no key does, and as many types as keys. Sequences that agree on what is
last under each key cannot be told apart; one more registration keeps every known type known, and
changes only what is found where its own key is the longest that matches. -/
theorem lookup?_ofList_iff_longest (entries : List (String × α)) (typeUrl : String) :
    (∀ a, (ofList entries).lookup? typeUrl = some a ↔
      ∃ key, LongestOf (entries.map Prod.fst) key typeUrl ∧ LastUnder entries key a) ∧
    ((ofList entries).lookup? typeUrl = none ↔
      ∀ key ∈ entries.map Prod.fst, ¬ Matches key typeUrl) ∧
    (∀ name, IsNameOf name typeUrl.toList →
      (Matches "" typeUrl ↔ name = [] ∨ name.getLast? = some '.')) ∧
    (ofList entries).size = (entries.map Prod.fst).toFinset.card ∧
    (∀ entries' : List (String × α),
      (∀ key a, LastUnder entries key a ↔ LastUnder entries' key a) →
        (ofList entries).isKnown typeUrl = (ofList entries').isKnown typeUrl ∧
        ∀ act levels,
          (∀ e, signersBy act (ofList entries) levels e = signersBy act (ofList entries') levels e) ∧
          ∀ es, collect (signersBy act (ofList entries) levels) es =
            collect (signersBy act (ofList entries') levels) es) ∧
    (∀ rules rules' : List (String × SignerRule),
      (∀ key rule, LastUnder rules key rule ↔ LastUnder rules' key rule) →
        (∀ e, (ofList rules).signersOf e = (ofList rules').signersOf e) ∧
        ∀ es, (ofList rules).signersOfEmbedded es = (ofList rules').signersOfEmbedded es) ∧
    (∀ key a,
      ((ofList entries).isKnown typeUrl = true →
        (ofList (entries ++ [(key, a)])).isKnown typeUrl = true) ∧
      ((ofList (entries ++ [(key, a)])).lookup? typeUrl ≠ (ofList entries).lookup? typeUrl →
        LongestOf (key :: entries.map Prod.fst) key typeUrl)) := by
  have hget : ∀ {β : Type} {es es' : List (String × β)},
      (∀ key b, LastUnder es key b ↔ LastUnder es' key b) →
        ∀ key, (ofList es).get? key = (ofList es').get? key := by
    intro β es es' h key
    ext b
    rw [get?_ofList_eq_some_iff, get?_ofList_eq_some_iff, h]
  refine ⟨fun a => ?_, ?_, fun name hname => ?_, size_ofList entries, fun entries' h => ⟨?_, ?_⟩, ?_,
    fun key a => ⟨fun h => ?_, fun h => ?_⟩⟩
  · simp only [lookup?_eq_some_iff, LongestOf.congr fun k => mem_keys_ofList, get?_ofList_eq_some_iff]
  · simp only [lookup?_eq_none_iff, mem_keys_ofList]
  · rw [isNameOf_iff] at hname
    rw [matches_iff, mem_nameSuffixes_iff, hname, String.toList_empty, dotAligned_nil_iff]
  · rw [isKnown, isKnown, lookup?_congr (hget h)]
  · intro act levels
    rw [signersBy_congr (hget h)]
    exact ⟨fun e => rfl, fun es => rfl⟩
  · intro rules rules' h
    simp only [signersOf, signersOfEmbedded, ← signersBy_rules, signersBy_congr (hget h)]
    exact ⟨fun e => trivial, fun es => trivial⟩
  · rw [ofList_concat]
    exact isKnown_insert h key a
  · rw [ofList_concat] at h
    refine (LongestOf.congr fun k => ?_).1 (longestOf_of_lookup?_insert_ne h)
    rw [List.mem_cons, List.mem_cons, mem_keys_ofList]

end Registry

end TxLens

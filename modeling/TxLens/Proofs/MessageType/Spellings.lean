import TxLens.MessageType
import TxLens.Proofs.Key.Family
import TxLens.Proofs.Signer.LongestSuffix
/-!
# One type name, several type URLs

The name of a type is written into a URL as it is, after a slash or after a host. A registry only
looks at what follows the last slash, so it finds the same under every spelling. How a type is shown
depends on the spelling: marks are set by what the URL begins with, and a host brings dots of its own,
so that only names of the host's own module are shown alike under all spellings
(`spellings_alike_iff`).
-/

namespace TxLens

/-! ## Pieces of a text -/

namespace Text

variable {sep : Char}

theorem splitOn_ne_nil (cs : List Char) : splitOn sep cs ≠ [] := by
  cases cs with
  | nil => simp [splitOn]
  | cons c cs =>
    rw [splitOn]
    split
    · simp
    · split <;> simp

/-- What is written in front without a separator belongs to the first piece. -/
theorem splitOn_append_of_notMem {p : List Char} (h : sep ∉ p) (cs : List Char) :
    splitOn sep (p ++ cs) = (splitOn sep cs).modifyHead (p ++ ·) := by
  induction p with
  | nil => cases hs : splitOn sep cs <;> simp [hs]
  | cons c p ih =>
    obtain ⟨hc, hp⟩ := not_or.1 (mt List.mem_cons.2 h)
    rw [List.cons_append, splitOn, if_neg (Ne.symm hc), ih hp]
    cases hs : splitOn sep cs with
    | nil => exact absurd hs (splitOn_ne_nil cs)
    | cons piece pieces => rfl

theorem splitOn_append_cons {p : List Char} (h : sep ∉ p) (cs : List Char) :
    splitOn sep (p ++ sep :: cs) = p :: splitOn sep cs := by
  rw [splitOn_append_of_notMem h, splitOn, if_pos rfl]
  simp

end Text

/-! ## Spellings -/

/-- The type URLs that a type name is written as. -/
def spellings (name : String) : List String :=
  [name, "/" ++ name, "type.googleapis.com/" ++ name]

theorem isNameOf_of_mem_spellings {name url : String} (h : '/' ∉ name.toList)
    (hu : url ∈ spellings name) : IsNameOf name.toList url.toList := by
  simp only [spellings, List.mem_cons, List.not_mem_nil, or_false] at hu
  refine ⟨h, ?_⟩
  rcases hu with rfl | rfl | rfl
  · exact .inl rfl
  · exact .inr ⟨[], by simp⟩
  · exact .inr ⟨"type.googleapis.com".toList, by simp⟩

/-! ### Looking up -/

namespace Registry

/-- A look-up depends on the name in a URL. -/
theorem lookup?_congr_name {α : Type} (r : Registry α) {name : List Char} {u v : String}
    (hu : IsNameOf name u.toList) (hv : IsNameOf name v.toList) : r.lookup? u = r.lookup? v := by
  rw [lookup?, lookup?, isNameOf_iff.1 hu, isNameOf_iff.1 hv]

/-- The signers do so as well; a fault says the URL as it was written. -/
theorem signersOf_congr_name (r : Registry SignerRule) {name : List Char} {u v : String}
    (hu : IsNameOf name u.toList) (hv : IsNameOf name v.toList) (value : Bytes) :
    (r.signersOf ⟨u, value⟩).toOption = (r.signersOf ⟨v, value⟩).toOption := by
  rw [signersOf, signersOf, signersAt, signersAt, r.lookup?_congr_name hu hv]
  cases r.lookup? v with
  | none => rfl
  | some rule =>
    cases rule with
    | custom signers => rfl
    | payload layout parts =>
      simp only [SignerRule.signers]
      cases layout.decode value <;> rfl

end Registry

/-! ### Showing -/

namespace MessageType

/-- The module and the action that a type URL is shown as. -/
def shown (typeUrl : String) : String × String :=
  ((ofTypeUrl typeUrl).moduleName, (ofTypeUrl typeUrl).action)

/-- What stands after so many dots of a name, up to the next one. -/
def segment (i : Nat) (name : String) : List Char := (Text.splitOn '.' name.toList).getD i []

/-- The short name, which stands in the last segment. -/
def short (name : String) : List Char := shortName ((Text.splitOn '.' name.toList).getLastD [])

variable {name : String}

theorem toList_relaying : "/ibc".toList = '/' :: "ibc".toList := by decide

theorem toList_group : "/cosmos.group.v1".toList = '/' :: "cosmos.group.v1".toList := by decide

/-! #### URLs that do not begin with a slash -/

section

variable {cs : List Char} (h : cs.head? ≠ some '/')

include h

theorem not_prefix_of_head? (p : List Char) : ¬ '/' :: p <+: cs := by
  rintro ⟨t, rfl⟩
  exact h rfl

theorem dropWhile_of_head? : cs.dropWhile (· == '/') = cs := by
  cases cs with
  | nil => rfl
  | cons c cs =>
    rw [List.dropWhile_cons_of_neg]
    simpa using h

theorem moduleOf_of_head? (parts : List (List Char)) : moduleOf cs parts = parts.getD 1 [] := by
  rw [moduleOf, toList_relaying,
    if_neg fun hp => not_prefix_of_head? h _ (List.isPrefixOf_iff_prefix.1 hp)]

theorem actionOf_of_head? (parts : List (List Char)) :
    actionOf cs parts = Text.snakeCase (shortName (parts.getLastD [])) := by
  simp only [actionOf, toList_group, Bool.and_eq_true, List.isPrefixOf_iff_prefix]
  rw [if_neg fun hp => not_prefix_of_head? h _ hp.1]

end

/-- Without a slash at its beginning nothing is marked. -/
theorem shown_of_head? {url : String} (h : url.toList.head? ≠ some '/') :
    shown url = (String.ofList (segment 1 url), String.ofList (Text.snakeCase (short url))) := by
  simp only [shown, ofTypeUrl, dropWhile_of_head? h, moduleOf_of_head? h, actionOf_of_head? h]
  rfl

theorem head?_ne_of_notMem {c : Char} {cs : List Char} (h : c ∉ cs) : cs.head? ≠ some c :=
  fun hc => h (List.mem_of_mem_head? hc)

/-! #### After a slash -/

theorem moduleOf_slash (cs : List Char) (parts : List (List Char)) :
    moduleOf ('/' :: cs) parts =
      if "ibc".toList <+: cs then parts.getD 0 [] ++ '_' :: parts.getD 2 []
      else parts.getD 1 [] := by
  simp only [moduleOf, toList_relaying, List.isPrefixOf_iff_prefix, List.cons_prefix_cons, true_and]

theorem actionOf_slash (cs : List Char) (parts : List (List Char)) :
    actionOf ('/' :: cs) parts = Text.snakeCase (shortName (parts.getLastD [])) ++
      if "cosmos.group.v1".toList <+: cs ∧ ¬ "Group".toList <:+: shortName (parts.getLastD [])
      then "_for_group".toList else [] := by
  simp only [actionOf, toList_group, Bool.and_eq_true, List.isPrefixOf_iff_prefix,
    List.cons_prefix_cons, true_and, Bool.not_eq_true', ← Bool.not_eq_true, Text.contains_iff]
  split
  · rfl
  · rw [List.append_nil]

/-- After a slash, names of relaying between chains and of groups bear their marks. -/
theorem shown_slash (h : '/' ∉ name.toList) :
    shown ("/" ++ name) =
      (String.ofList
        (if "ibc".toList <+: name.toList then segment 0 name ++ '_' :: segment 2 name
          else segment 1 name),
       String.ofList (Text.snakeCase (short name) ++
        if "cosmos.group.v1".toList <+: name.toList ∧ ¬ "Group".toList <:+: short name
          then "_for_group".toList else [])) := by
  have hurl : ("/" ++ name).toList = '/' :: name.toList := by simp
  have hdrop : ('/' :: name.toList).dropWhile (· == '/') = name.toList := by
    rw [List.dropWhile_cons_of_pos (by rfl), dropWhile_of_head? (head?_ne_of_notMem h)]
  simp only [shown, ofTypeUrl, hurl, hdrop, moduleOf_slash, actionOf_slash]
  rfl

/-! #### After a host -/

theorem splitOn_host (name : String) :
    Text.splitOn '.' ("type.googleapis.com/" ++ name).toList =
      "type".toList :: "googleapis".toList ::
        (Text.splitOn '.' name.toList).modifyHead ("com/".toList ++ ·) := by
  have hurl : ("type.googleapis.com/" ++ name).toList =
      "type".toList ++ '.' :: ("googleapis".toList ++ '.' :: ("com/".toList ++ name.toList)) := by
    simp
  rw [hurl, Text.splitOn_append_cons (by decide), Text.splitOn_append_cons (by decide),
    Text.splitOn_append_of_notMem (by decide)]

/-- After a host, the host's own module is shown in place of the name's. -/
theorem shown_host (name : String) :
    shown ("type.googleapis.com/" ++ name) = ("googleapis",
      String.ofList (Text.snakeCase (short ("type.googleapis.com/" ++ name)))) := by
  rw [shown_of_head? (by simp), segment, splitOn_host]
  simp

/-- The last segment of a name with a dot is the last one after a host too. -/
theorem short_host (h : segment 1 name ≠ []) :
    short ("type.googleapis.com/" ++ name) = short name := by
  rw [short, short, splitOn_host]
  cases hs : Text.splitOn '.' name.toList with
  | nil => exact absurd hs (Text.splitOn_ne_nil _)
  | cons piece pieces =>
    cases pieces with
    | nil => exact absurd (by rw [segment, hs]; rfl) h
    | cons => rfl

/-! #### Shown alike -/

theorem segment_of_group (h : "cosmos.group.v1".toList <+: name.toList) :
    segment 1 name = "group".toList := by
  obtain ⟨rest, hrest⟩ := h
  have hname : name.toList =
      "cosmos".toList ++ '.' :: ("group".toList ++ '.' :: ("v1".toList ++ rest)) := by
    rw [← hrest]
    simp
  rw [segment, hname, Text.splitOn_append_cons (by decide), Text.splitOn_append_cons (by decide)]
  rfl

/-- A slash in front of a name is not seen where it sets no mark. -/
theorem shown_slash_eq_iff (h : '/' ∉ name.toList) :
    shown ("/" ++ name) = shown name ↔
      ("ibc".toList <+: name.toList → segment 0 name ++ '_' :: segment 2 name = segment 1 name) ∧
      ("cosmos.group.v1".toList <+: name.toList → "Group".toList <:+: short name) := by
  rw [shown_slash h, shown_of_head? (head?_ne_of_notMem h), Prod.mk.injEq, String.ofList_inj,
    String.ofList_inj]
  refine and_congr ?_ ?_
  · by_cases hibc : "ibc".toList <+: name.toList
    · rw [if_pos hibc, forall_prop_of_true hibc]
    · rw [if_neg hibc, iff_true_left rfl]
      exact fun h => absurd h hibc
  · by_cases hmark : "cosmos.group.v1".toList <+: name.toList ∧ ¬ "Group".toList <:+: short name
    · rw [if_pos hmark, List.append_right_eq_self, iff_false_left (by decide)]
      exact fun hg => hmark.2 (hg hmark.1)
    · rw [if_neg hmark, List.append_nil, iff_true_left rfl]
      exact fun hg => by_contra fun hn => hmark ⟨hg, hn⟩

/-- A host in front of a name is not seen where the name is one of the host's own module. -/
theorem shown_host_eq_iff (h : '/' ∉ name.toList) :
    shown ("type.googleapis.com/" ++ name) = shown name ↔ segment 1 name = "googleapis".toList := by
  rw [shown_host, shown_of_head? (head?_ne_of_notMem h), Prod.mk.injEq]
  constructor
  · rintro ⟨hm, -⟩
    rw [hm, String.toList_ofList]
  · intro hm
    rw [hm, short_host (by rw [hm]; decide)]
    exact ⟨rfl, rfl⟩

theorem forall_shown_eq_iff (name : String) :
    (∀ u ∈ spellings name, ∀ v ∈ spellings name, shown u = shown v) ↔
      shown ("/" ++ name) = shown name ∧ shown ("type.googleapis.com/" ++ name) = shown name := by
  simp only [spellings, List.forall_mem_cons, List.not_mem_nil, false_implies, implies_true]
  constructor
  · intro hsame
    exact ⟨hsame.2.1.1, hsame.2.2.1.1⟩
  · rintro ⟨hslash, hhost⟩
    simp [hslash, hhost]

/-- No spelling is seen where the name is one of the host's own module and not of relaying. -/
theorem forall_shown_eq_iff_ownModule (h : '/' ∉ name.toList) :
    (∀ u ∈ spellings name, ∀ v ∈ spellings name, shown u = shown v) ↔
      segment 1 name = "googleapis".toList ∧ ¬ "ibc".toList <+: name.toList := by
  rw [forall_shown_eq_iff, shown_slash_eq_iff h, shown_host_eq_iff h, and_comm]
  refine and_congr_right fun hm => ?_
  constructor
  · rintro ⟨hmark, -⟩ hibc
    -- the mark stands in every module of relaying, and the host's own has none
    have hmarked : '_' ∈ "googleapis".toList := by
      rw [← hm, ← hmark hibc]
      simp
    exact absurd hmarked (by decide)
  · intro hibc
    refine ⟨fun h => absurd h hibc, fun hg => ?_⟩
    exact absurd ((segment_of_group hg).symm.trans hm) (by decide)

end MessageType

open MessageType

/-- **What a spelling decides.** A registry finds the same under every spelling of a type name, and so
the same signers. A slash is seen where it marks names of relaying between chains and of groups; all
spellings are shown alike only where the name is one of the host's own module. -/
theorem spellings_alike_iff (name : String) (h : '/' ∉ name.toList) :
    (∀ u ∈ spellings name, ∀ v ∈ spellings name,
      (∀ {α : Type} (r : Registry α), r.lookup? u = r.lookup? v) ∧
      ∀ (r : Registry SignerRule) (value : Bytes),
        (r.signersOf ⟨u, value⟩).toOption = (r.signersOf ⟨v, value⟩).toOption) ∧
    (shown ("/" ++ name) = shown name ↔
      ("ibc".toList <+: name.toList → segment 0 name ++ '_' :: segment 2 name = segment 1 name) ∧
      ("cosmos.group.v1".toList <+: name.toList → "Group".toList <:+: short name)) ∧
    ((∀ u ∈ spellings name, ∀ v ∈ spellings name, shown u = shown v) ↔
      segment 1 name = "googleapis".toList ∧ ¬ "ibc".toList <+: name.toList) := by
  refine ⟨fun u hu v hv => ?_, shown_slash_eq_iff h, forall_shown_eq_iff_ownModule h⟩
  have hname := isNameOf_of_mem_spellings h hu
  have hname' := isNameOf_of_mem_spellings h hv
  exact ⟨fun r => r.lookup?_congr_name hname hname',
    fun r value => r.signersOf_congr_name hname hname' value⟩

/-- A name that bears no mark: a slash is not seen, a host is. -/
theorem spellings_of_bankSend :
    let name := "cosmos.bank.v1beta1.MsgSend"
    '/' ∉ name.toList ∧ Registry.standard.lookup? "type.googleapis.com/cosmos.bank.v1beta1.MsgSend" =
      Registry.standard.lookup? name ∧
    shown "/cosmos.bank.v1beta1.MsgSend" = shown name ∧
    ¬ ∀ u ∈ spellings name, ∀ v ∈ spellings name, shown u = shown v := by
  intro name
  have h : '/' ∉ name.toList := by decide
  obtain ⟨hfound, hslash, hall⟩ := spellings_alike_iff name h
  refine ⟨h, (hfound _ (by decide) _ (by decide)).1 _, ?_, fun hsame => ?_⟩
  · exact hslash.2 ⟨fun hibc => absurd hibc (by decide), fun hg => absurd hg (by decide)⟩
  · exact absurd (hall.1 hsame).1 (by decide)

/-- The actions of groups are told apart from those of others only after a slash. -/
theorem shown_of_groupVote :
    '/' ∉ "cosmos.group.v1.MsgVote".toList ∧
      (spellings "cosmos.group.v1.MsgVote").map shown =
        [("group", "vote"), ("group", "vote_for_group"), ("googleapis", "vote")] := by
  decide +kernel

end TxLens

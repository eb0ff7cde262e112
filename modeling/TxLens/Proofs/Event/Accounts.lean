import Mathlib.Data.List.Basic
import TxLens.Event.Accounts
import TxLens.Proofs.Keyed
/-!
# The order of first mention

The accounts that a transaction touched are those that are mentioned and not empty, each where it was
mentioned first (`touched_isFirstMention`). Every account that is looked at keeps this of the accounts
seen so far (`addAccount_isFirstMention`). There is only one such list (`IsFirstMention.unique`), so a
further mention changes nothing and further events only add at the end (`touched_first_mentions`).
-/

namespace TxLens.Events

/-- The texts of a list that are not empty, each once, in the order of their first mention. -/
structure IsFirstMention (mentioned seen : List String) : Prop where
  mem_iff : ∀ a, a ∈ seen ↔ a ≠ "" ∧ a ∈ mentioned
  ordered : seen.Pairwise fun a b => mentioned.idxOf a < mentioned.idxOf b

namespace IsFirstMention

variable {mentioned seen : List String}

theorem nodup (h : IsFirstMention mentioned seen) : seen.Nodup := by
  refine h.ordered.imp fun {a b} hlt => ?_
  rintro rfl
  exact Nat.lt_irrefl _ hlt

/-- What has been mentioned before stays where it was when more is mentioned. -/
theorem ordered_append (h : IsFirstMention mentioned seen) (more : List String) :
    seen.Pairwise fun a b => (mentioned ++ more).idxOf a < (mentioned ++ more).idxOf b := by
  refine h.ordered.imp_of_mem fun {a b} ha hb hlt => ?_
  rwa [List.idxOf_append_of_mem ((h.mem_iff a).1 ha).2,
    List.idxOf_append_of_mem ((h.mem_iff b).1 hb).2]

end IsFirstMention

theorem addAccount_isFirstMention {mentioned seen : List String} (h : IsFirstMention mentioned seen)
    (a : String) : IsFirstMention (mentioned ++ [a]) (addAccount seen a) := by
  unfold addAccount
  by_cases hskip : a = "" ∨ a ∈ seen
  · rw [if_pos hskip]
    refine ⟨fun b => ?_, h.ordered_append [a]⟩
    rw [h.mem_iff, List.mem_append, List.mem_singleton]
    refine and_congr_right fun hb => ⟨.inl, ?_⟩
    -- an account that is passed over is empty or was mentioned before
    rintro (hm | rfl)
    · exact hm
    · exact ((h.mem_iff b).1 (hskip.resolve_left hb)).2
  · rw [if_neg hskip]
    obtain ⟨hne, hnew⟩ := not_or.1 hskip
    have hm : a ∉ mentioned := fun hm => hnew ((h.mem_iff a).2 ⟨hne, hm⟩)
    refine ⟨fun b => ?_, ?_⟩
    · rw [List.mem_append, List.mem_append, List.mem_singleton, h.mem_iff]
      by_cases hb : b = a
      · simp [hb, hne]
      · simp [hb]
    · refine List.pairwise_append.2 ⟨h.ordered_append [a], List.pairwise_singleton _ _, ?_⟩
      intro b hb c hc
      have hmb := ((h.mem_iff b).1 hb).2
      rw [List.mem_singleton.1 hc, List.idxOf_append_of_mem hmb, List.idxOf_append_of_notMem hm]
      exact Nat.lt_add_right _ (List.idxOf_lt_length_of_mem hmb)

theorem foldl_addAccount_isFirstMention (more : List String) {mentioned seen : List String}
    (h : IsFirstMention mentioned seen) :
    IsFirstMention (mentioned ++ more) (more.foldl addAccount seen) := by
  induction more generalizing mentioned seen with
  | nil => simpa using h
  | cons a more ih =>
    rw [List.foldl_cons, List.append_cons]
    exact ih (addAccount_isFirstMention h a)

theorem isFirstMention_foldl (mentioned : List String) :
    IsFirstMention mentioned (mentioned.foldl addAccount []) := by
  have hnone : IsFirstMention [] [] := ⟨by simp, .nil⟩
  exact foldl_addAccount_isFirstMention mentioned hnone

/-- **The accounts that a transaction touched, in the order of first mention.** -/
theorem touched_isFirstMention (signers : List String) (es : List Event) :
    IsFirstMention (signers ++ accounts es) (touched signers es) :=
  isFirstMention_foldl (signers ++ accounts es)

/-! ## Mentioned again -/

theorem nodup_pairwise_idxOf {seen : List String} (h : seen.Nodup) :
    seen.Pairwise fun a b => seen.idxOf a < seen.idxOf b := by
  rw [List.pairwise_iff_getElem]
  intro i j hi hj hij
  rwa [h.idxOf_getElem i hi, h.idxOf_getElem j hj]

namespace IsFirstMention

variable {mentioned seen seen' : List String}

/-- The order of first mention leaves no choice. -/
theorem unique (h : IsFirstMention mentioned seen) (h' : IsFirstMention mentioned seen') :
    seen = seen' := by
  have hperm : seen.Perm seen' := by
    rw [List.perm_ext_iff_of_nodup h.nodup h'.nodup]
    intro a
    rw [h.mem_iff, h'.mem_iff]
  refine hperm.eq_of_pairwise (fun a b _ _ hab hba => ?_) h.ordered h'.ordered
  omega

/-- Accounts that stand each once are in the order of their own mention. -/
theorem self (h : IsFirstMention mentioned seen) : IsFirstMention seen seen := by
  refine ⟨fun a => ?_, nodup_pairwise_idxOf h.nodup⟩
  rw [iff_and_self]
  exact fun ha => ((h.mem_iff a).1 ha).1

/-- What was mentioned before is passed over. -/
theorem foldl_addAccount (h : IsFirstMention mentioned seen) {more : List String}
    (hmore : ∀ a ∈ more, a ∈ mentioned) : more.foldl addAccount seen = seen := by
  induction more with
  | nil => rfl
  | cons a more ih =>
    have hskip : a = "" ∨ a ∈ seen := by
      by_cases ha : a = ""
      · exact .inl ha
      · exact .inr ((h.mem_iff a).2 ⟨ha, hmore a List.mem_cons_self⟩)
    rw [List.foldl_cons, addAccount, if_pos hskip]
    exact ih fun b hb => hmore b (List.mem_cons_of_mem a hb)

end IsFirstMention

theorem prefix_foldl_addAccount (more seen : List String) : seen <+: more.foldl addAccount seen := by
  induction more generalizing seen with
  | nil => exact List.prefix_refl seen
  | cons a more ih =>
    have hstep : seen <+: addAccount seen a := by
      unfold addAccount
      split
      · exact List.prefix_refl seen
      · exact List.prefix_append seen [a]
    exact hstep.trans (ih (addAccount seen a))

theorem touched_append (signers : List String) (es more : List Event) :
    touched signers (es ++ more) = (accounts more).foldl addAccount (touched signers es) := by
  simp only [touched, accounts, List.flatMap_append, List.foldl_append]

/-- With the accounts themselves as signers, all that events name was mentioned before. -/
theorem touched_touched (signers : List String) (es : List Event) :
    touched (touched signers es) es = touched signers es := by
  have h := touched_isFirstMention signers es
  have hself : (touched signers es).foldl addAccount [] = touched signers es :=
    (isFirstMention_foldl (touched signers es)).unique h.self
  rw [touched, List.foldl_append, hself]
  exact h.foldl_addAccount fun a ha => List.mem_append_right signers ha

theorem touched_repeated {before : List String} {a : String} (ha : a ∈ before)
    (after : List String) (es : List Event) :
    touched (before ++ a :: after) es = touched (before ++ after) es := by
  have h := isFirstMention_foldl before
  have hagain : ∀ b ∈ [a], b ∈ before := by simpa using ha
  have hskip : addAccount (before.foldl addAccount []) a = before.foldl addAccount [] :=
    h.foldl_addAccount hagain
  simp only [touched, List.append_assoc, List.cons_append, List.foldl_append, List.foldl_cons, hskip]

/-! ## What events name -/

/-- Accounts stand under this key on events of this type. -/
def IsAccountKey (type key : String) : Prop := ∃ row ∈ accountKeys, row.1 = type ∧ key ∈ row.2

instance (type key : String) : Decidable (IsAccountKey type key) :=
  inferInstanceAs (Decidable (∃ row ∈ accountKeys, _))

/-- The values that stand on some events under keys of accounts, in order and without quotes. -/
def named (es : List Event) : List String :=
  es.flatMap fun e =>
    (e.attributes.filter fun a => IsAccountKey e.type a.key).map fun a => unquote a.value

theorem nodup_accountKeys : (accountKeys.map Prod.fst).Nodup := by decide +kernel

theorem isAccountKey_iff {type key : String} :
    IsAccountKey type key ↔ ∃ keys, accountKeys.lookup type = some keys ∧ key ∈ keys := by
  simp only [IsAccountKey, lookup_eq_some_iff_mem nodup_accountKeys]
  constructor
  · rintro ⟨⟨type, keys⟩, hrow, rfl, hkey⟩
    exact ⟨keys, hrow, hkey⟩
  · rintro ⟨keys, hrow, hkey⟩
    exact ⟨(type, keys), hrow, rfl, hkey⟩

/-- No type stands twice in the table, so the first row for it is the only one. -/
theorem accounts_eq_named (es : List Event) : accounts es = named es := by
  unfold accounts named
  congr 1
  funext e
  simp only [accountsOf, isAccountKey_iff]
  cases accountKeys.lookup e.type with
  | none => simp
  | some keys => simp

theorem mem_named_iff {es : List Event} {account : String} :
    account ∈ named es ↔
      ∃ e ∈ es, ∃ a ∈ e.attributes, IsAccountKey e.type a.key ∧ Unquoted a.value account := by
  simp only [named, List.mem_flatMap, List.mem_map, List.mem_filter, decide_eq_true_iff, and_assoc,
    unquote_eq_iff]

/-- **The accounts that a transaction touched** are the texts that are not empty among its signers and
what its events name under keys of accounts: each once, in the order of first mention, and no other list
is that. With these accounts as the signers nothing is added, a signer that was listed before may be left
out, and further events leave what was there at the front. -/
theorem touched_first_mentions (signers : List String) (es : List Event) :
    (touched signers es).Nodup ∧ "" ∉ touched signers es ∧
    (∀ account, account ∈ touched signers es ↔ account ≠ "" ∧ (account ∈ signers ∨
      ∃ e ∈ es, ∃ a ∈ e.attributes, IsAccountKey e.type a.key ∧ Unquoted a.value account)) ∧
    (∀ seen, IsFirstMention (signers ++ named es) seen ↔ seen = touched signers es) ∧
    touched (touched signers es) es = touched signers es ∧
    (∀ before after, ∀ a ∈ before, touched (before ++ a :: after) es = touched (before ++ after) es) ∧
    ∀ more, touched signers es <+: touched signers (es ++ more) := by
  have h := touched_isFirstMention signers es
  rw [accounts_eq_named] at h
  refine ⟨h.nodup, fun hempty => ((h.mem_iff "").1 hempty).1 rfl, fun account => ?_, fun seen => ?_,
    touched_touched signers es, fun before after a ha => touched_repeated ha after es, fun more => ?_⟩
  · rw [h.mem_iff, List.mem_append, mem_named_iff]
  · constructor
    · intro hseen
      exact hseen.unique h
    · rintro rfl
      exact h
  · rw [touched_append]
    exact prefix_foldl_addAccount _ _

/-- A quoted account that signed as well is listed once, and an empty one not at all. -/
example : touched ["pb1a", "", "pb1a"]
    [⟨"transfer", [⟨"sender", "\"pb1a\"", false⟩, ⟨"recipient", "pb1b", false⟩]⟩,
      ⟨"name_bound", [⟨"address", "\"\"", false⟩]⟩] = ["pb1a", "pb1b"] := by
  decide +kernel

end TxLens.Events

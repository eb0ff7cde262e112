import Mathlib.Algebra.Group.Nat.Defs
import Mathlib.Data.List.Nodup
import TxLens.Proofs.Event.Lookup
import TxLens.Proofs.Insertion
import TxLens.Proofs.Keyed
/-!
# Events of one message

The events of a message are those of its log, or where the logs do not reach so far, those events of
the transaction that are tagged with its index. Only the low 32 bits of the index are compared, so an
event that is tagged for one message is kept from all others but those whose index ends in the same 32
bits (`keptApart_iff_low_bits`). Of the events of a message the first of a type is looked at, and on it the
first value of every key that is asked for (`messageAttributes_firstEvent`).
-/

namespace TxLens

/-! ## Where the events of a message stand -/

namespace Event

/-- All of the event's tags, if there are any, are the index of this message. -/
def OnlyTagged (i : Nat) (e : Event) : Prop :=
  ∀ a ∈ e.attributes, a.key = "msg_index" → Unquoted a.value (Text.numeralText i)

theorem OnlyTagged.isTagged_iff {m i : Nat} {e : Event} (h : e.OnlyTagged m) :
    e.IsTagged i ↔ e.hasAttribute "msg_index" = true ∧ i = m := by
  rw [hasAttribute_iff]
  constructor
  · rintro ⟨a, ha, hk, hv⟩
    have hi : Text.numeralText m = Text.numeralText i :=
      (unquote_eq_iff.2 (h a ha hk)).symm.trans (unquote_eq_iff.2 hv)
    exact ⟨⟨a, ha, hk⟩, (Text.numeralText_injective hi).symm⟩
  · rintro ⟨⟨a, ha, hk⟩, rfl⟩
    exact ⟨a, ha, hk, h a ha hk⟩

end Event

namespace TxResponse

/-- A response with other events. -/
def withEvents (r : TxResponse) (es : List Event) : TxResponse := { r with events := es }

/-- A response that reports nothing but events. -/
def ofEvents (es : List Event) : TxResponse where
  height := 0
  txhash := ""
  codespace := ""
  code := 0
  rawLog := ""
  logs := []
  gasWanted := 0
  gasUsed := 0
  tx := none
  timestamp := ""
  events := es

section
variable {r : TxResponse} {n : Nat}

theorem eventsAt_of_log {log : MessageLog} (h : r.logs[n]? = some log) :
    r.eventsAt n = log.events := by
  rw [eventsAt, h]

theorem eventsAt_of_no_log (h : r.logs.length ≤ n) :
    r.eventsAt n = r.events.filter fun e => e.IsTagged (n % 2 ^ 32) := by
  rw [eventsAt, List.getElem?_eq_none h]
  refine List.filter_congr fun e _ => ?_
  rw [Bool.eq_iff_iff, decide_eq_true_iff]
  exact Events.hasMessageIndex_iff

theorem mem_eventsAt_iff {m : Nat} {e : Event} (h : r.logs.length ≤ n) (he : e.OnlyTagged m) :
    e ∈ r.eventsAt n ↔ e ∈ r.events ∧ e.hasAttribute "msg_index" = true ∧ n % 2 ^ 32 = m := by
  rw [eventsAt_of_no_log h, List.mem_filter, decide_eq_true_iff, he.isTagged_iff]

/-- Events that are tagged for another message may be put in anywhere. -/
theorem eventsAt_of_inserted {m : Nat} {es : List Event} (h : r.logs.length ≤ n)
    (hn : n % 2 ^ 32 ≠ m) (hes : Inserted (Event.OnlyTagged m) r.events es) :
    (r.withEvents es).eventsAt n = r.eventsAt n := by
  have h' : (r.withEvents es).logs.length ≤ n := h
  rw [eventsAt_of_no_log h, eventsAt_of_no_log h']
  refine hes.filter_eq fun e he => ?_
  rw [decide_eq_false_iff_not, he.isTagged_iff]
  exact fun htag => hn htag.2

end

/-! ## Messages apart -/

/-- Events that are tagged for message `m` alone are never among those of message `n`, and nothing that
is read for message `n` comes from them. -/
structure KeptApart (m n : Nat) : Prop where
  events : ∀ (r : TxResponse) (e : Event), r.logs = [] → e.OnlyTagged m → e ∉ r.eventsAt n
  attributes : ∀ (r : TxResponse) (es : List Event), r.logs = [] →
    Inserted (Event.OnlyTagged m) r.events es → ∀ (type : String) (keys : List String),
      (r.withEvents es).messageAttributes n type keys = r.messageAttributes n type keys

theorem length_le_of_no_logs {r : TxResponse} (h : r.logs = []) (n : Nat) : r.logs.length ≤ n := by
  rw [h]
  exact Nat.zero_le n

/-- An event that has nothing but its tag, in quotes. -/
def tagEvent (m : Nat) : Event :=
  ⟨"message", [⟨"msg_index", "\"" ++ Text.numeralText m ++ "\"", false⟩]⟩

theorem onlyTagged_tagEvent (m : Nat) : (tagEvent m).OnlyTagged m := by
  intro a ha _
  obtain rfl := List.mem_singleton.1 ha
  exact .quoted (Text.numeralText m)

theorem keptApart_iff (m n : Nat) : KeptApart m n ↔ n % 2 ^ 32 ≠ m := by
  constructor
  · intro h hmn
    have htag := onlyTagged_tagEvent m
    refine h.events (ofEvents [tagEvent m]) _ rfl htag ?_
    exact (mem_eventsAt_iff (length_le_of_no_logs rfl n) htag).2
      ⟨List.mem_singleton_self _, rfl, hmn⟩
  · intro hmn
    constructor
    · intro r e hlogs he hmem
      exact hmn ((mem_eventsAt_iff (length_le_of_no_logs hlogs n) he).1 hmem).2.2
    · intro r es hlogs hes type keys
      rw [messageAttributes, messageAttributes,
        eventsAt_of_inserted (length_le_of_no_logs hlogs n) hmn hes]

/-- **The events of two messages are kept apart** where the low 32 bits of one index are not the other
index, and only there: so among indexes below `2 ^ 32` they are. An event that is tagged for one message
alone is among those of all messages whose index ends in the bits of the tag. -/
theorem keptApart_iff_low_bits (m n : Nat) :
    (KeptApart m n ↔ n % 2 ^ 32 ≠ m) ∧
    (n < 2 ^ 32 → m ≠ n → KeptApart m n) ∧
    (∀ (r : TxResponse) (e : Event), r.logs = [] → e.OnlyTagged m →
      (e ∈ r.eventsAt n ↔ e ∈ r.events ∧ e.hasAttribute "msg_index" = true ∧ n % 2 ^ 32 = m)) := by
  refine ⟨keptApart_iff m n, ?_, ?_⟩
  · intro hn hmn
    rw [keptApart_iff, Nat.mod_eq_of_lt hn]
    exact hmn.symm
  · intro r e hlogs he
    exact mem_eventsAt_iff (length_le_of_no_logs hlogs n) he

/-- The first message has a sender. -/
def firstSender : Event := ⟨"message", [⟨"sender", "pb1zero", false⟩, ⟨"msg_index", "0", false⟩]⟩

/-- An event of message 0 is among those of message 4294967296, and what is read for that message comes
from it. -/
theorem not_keptApart_wrapped :
    firstSender.OnlyTagged 0 ∧ firstSender ∈ (ofEvents [firstSender]).eventsAt 4294967296 ∧
      (ofEvents [firstSender]).messageAttributes 4294967296 "message" ["sender"] =
        [("sender", "pb1zero")] ∧
      ¬ KeptApart 0 4294967296 := by
  have htag : firstSender.OnlyTagged 0 := by
    unfold Event.OnlyTagged
    decide +kernel
  have hmem : firstSender ∈ (ofEvents [firstSender]).eventsAt 4294967296 := by decide +kernel
  exact ⟨htag, hmem, by decide +kernel, fun h => h.events _ _ rfl htag hmem⟩

end TxResponse

/-! ## The attributes that are read -/

namespace Events

/-- The attribute that stands first under a key, without quotes. -/
def firstIn? (as : List Attribute) (key : String) : Option String :=
  (as.find? fun a => a.key == key).map fun a => unquote a.value

/-- What was found of the requested keys among some attributes: every key at most once, and each
with what stands first under it. -/
structure AreFirst (keys : List String) (as : List Attribute) (found : List (String × String)) :
    Prop where
  nodup : (found.map Prod.fst).Nodup
  lookup_eq : ∀ k, found.lookup k = if k ∈ keys then firstIn? as k else none

/-- One more attribute counts if its key is requested and was not found before. -/
def addFirst (keys : List String) (found : List (String × String)) (a : Attribute) :
    List (String × String) :=
  if a.key ∈ keys ∧ a.key ∉ found.map Prod.fst then found ++ [(a.key, unquote a.value)] else found

theorem firstValues_eq_foldl (keys : List String) (as : List Attribute) :
    firstValues keys as = as.foldl (addFirst keys) [] := by
  unfold firstValues addFirst
  simp only [Bool.and_eq_true, List.contains_iff_mem, Bool.not_eq_true', Bool.eq_false_iff, ne_eq]

theorem firstIn?_concat (as : List Attribute) (a : Attribute) (k : String) :
    firstIn? (as ++ [a]) k = (firstIn? as k).or (if a.key = k then some (unquote a.value) else none) := by
  rw [firstIn?, List.find?_append, List.find?_singleton, Option.map_or, firstIn?]
  by_cases hk : a.key = k
  · simp [hk]
  · simp [hk]

theorem nodup_addFirst {keys : List String} {found : List (String × String)}
    (h : (found.map Prod.fst).Nodup) (a : Attribute) :
    ((addFirst keys found a).map Prod.fst).Nodup := by
  unfold addFirst
  split
  · rename_i hnew
    rw [List.map_append, List.map_singleton]
    refine List.nodup_append.2 ⟨h, List.nodup_singleton _, fun k hk k' hk' heq => ?_⟩
    rw [List.mem_singleton.1 hk'] at heq
    subst heq
    exact hnew.2 hk
  · exact h

/-- A requested key keeps what was found for it, and otherwise gets the value of the attribute if it is
the attribute's. -/
theorem lookup_addFirst (keys : List String) (found : List (String × String)) (a : Attribute)
    (k : String) : (addFirst keys found a).lookup k =
      (found.lookup k).or (if a.key = k ∧ k ∈ keys then some (unquote a.value) else none) := by
  unfold addFirst
  by_cases hk : a.key = k
  · subst hk
    by_cases hkey : a.key ∈ keys
    · by_cases hfound : a.key ∈ found.map Prod.fst
      · obtain ⟨v, hv⟩ := Option.ne_none_iff_exists'.1 (lookup_ne_none_iff.2 hfound)
        rw [if_neg fun hnew => hnew.2 hfound, hv, Option.some_or]
      · rw [if_pos ⟨hkey, hfound⟩, if_pos ⟨rfl, hkey⟩, List.lookup_append, List.lookup_singleton,
          if_pos (beq_self_eq_true _)]
    · rw [if_neg fun hnew => hkey hnew.1, if_neg fun hnew => hkey hnew.2, Option.or_none]
  · have hother : ¬ (a.key = k ∧ k ∈ keys) := fun h => hk h.1
    rw [if_neg hother, Option.or_none]
    split
    · rw [List.lookup_append, List.lookup_singleton, beq_false_of_ne (Ne.symm hk),
        if_neg Bool.false_ne_true, Option.or_none]
    · rfl

theorem AreFirst.addFirst {keys : List String} {as : List Attribute} {found : List (String × String)}
    (h : AreFirst keys as found) (a : Attribute) :
    AreFirst keys (as ++ [a]) (addFirst keys found a) := by
  refine ⟨nodup_addFirst h.nodup a, fun k => ?_⟩
  rw [lookup_addFirst, h.lookup_eq, firstIn?_concat]
  by_cases hkey : k ∈ keys
  · simp only [hkey, and_true, ↓reduceIte]
  · simp only [hkey, and_false, ↓reduceIte, Option.or_none]

theorem foldl_addFirst {keys : List String} (more : List Attribute) {as : List Attribute}
    {found : List (String × String)} (h : AreFirst keys as found) :
    AreFirst keys (as ++ more) (more.foldl (Events.addFirst keys) found) := by
  induction more generalizing as found with
  | nil => simpa using h
  | cons a more ih =>
    rw [List.foldl_cons, List.append_cons]
    exact ih (h.addFirst a)

theorem areFirst_firstValues (keys : List String) (as : List Attribute) :
    AreFirst keys as (firstValues keys as) := by
  have hnone : AreFirst keys [] [] := ⟨.nil, fun k => by simp [firstIn?]⟩
  rw [firstValues_eq_foldl]
  exact foldl_addFirst as hnone

theorem firstValues_congr {keys keys' : List String} (h : ∀ k, k ∈ keys' ↔ k ∈ keys)
    (as : List Attribute) : firstValues keys' as = firstValues keys as := by
  have hstep : addFirst keys' = addFirst keys := by
    funext found a
    simp only [addFirst, h]
  rw [firstValues_eq_foldl, firstValues_eq_foldl, hstep]

end Events

namespace TxResponse

/-! ## What is read of the first event of a type -/

/-- The events of a message: those of its log, or where there is no such log, those that are tagged
with it. -/
inductive AreEventsOf (r : TxResponse) (n : Nat) : List Event → Prop
  | logged {log : MessageLog} (h : r.logs[n]? = some log) : AreEventsOf r n log.events
  | tagged (h : r.logs.length ≤ n) : AreEventsOf r n (r.events.filter fun e => e.IsTagged n)

/-- The first event of a type. -/
def IsFirstOf (es : List Event) (type : String) (e : Event) : Prop :=
  ∃ before after, es = before ++ e :: after ∧ (∀ b ∈ before, b.type ≠ type) ∧ e.type = type

/-- What is found on an event of some requested keys: each key at most once, and exactly those that the
event carries, with the value that stands first. -/
structure IsReading (e : Event) (keys : List String) (found : List (String × String)) : Prop where
  nodup : (found.map Prod.fst).Nodup
  lookup_iff : ∀ k v, found.lookup k = some v ↔ k ∈ keys ∧ e.ReadsFirst k v
  lookup_eq : ∀ k ∈ keys, found.lookup k = (e.attribute? k).map unquote

theorem isReading_firstValues (e : Event) (keys : List String) :
    IsReading e keys (Events.firstValues keys e.attributes) := by
  have hfirst := Events.areFirst_firstValues keys e.attributes
  have hattribute : ∀ k, Events.firstIn? e.attributes k = (e.attribute? k).map unquote := by
    intro k
    rw [Events.firstIn?, Event.attribute?, Option.map_map]
    rfl
  refine ⟨hfirst.nodup, fun k v => ?_, fun k hk => ?_⟩
  · rw [hfirst.lookup_eq, Option.ite_none_right_eq_some, hattribute,
      Event.map_attribute?_eq_some_iff]
  · rw [hfirst.lookup_eq, if_pos hk, hattribute]

theorem isFirstOf_iff {es : List Event} {type : String} {e : Event} :
    IsFirstOf es type e ↔ (es.find? fun e => e.type == type) = some e := by
  simp only [IsFirstOf, List.find?_eq_some_iff_append, beq_iff_eq, Bool.not_eq_true',
    beq_eq_false_iff_ne]
  constructor
  · rintro ⟨before, after, hsplit, hbefore, htype⟩
    exact ⟨htype, before, after, hsplit, hbefore⟩
  · rintro ⟨htype, before, after, hsplit, hbefore⟩
    exact ⟨before, after, hsplit, hbefore, htype⟩

section
variable {r : TxResponse} {n : Nat} {type : String} {e : Event}

theorem areEventsOf_eventsAt (hn : n < 2 ^ 32) : AreEventsOf r n (r.eventsAt n) := by
  cases hlog : r.logs[n]? with
  | some log =>
    rw [eventsAt_of_log hlog]
    exact .logged hlog
  | none =>
    have hlen := List.getElem?_eq_none_iff.1 hlog
    rw [eventsAt_of_no_log hlen, Nat.mod_eq_of_lt hn]
    exact .tagged hlen

theorem messageAttributes_of_isFirstOf (h : IsFirstOf (r.eventsAt n) type e) (keys : List String) :
    r.messageAttributes n type keys = Events.firstValues keys e.attributes := by
  rw [messageAttributes, isFirstOf_iff.1 h]

theorem messageAttributes_of_no_event (h : ∀ e ∈ r.eventsAt n, e.type ≠ type) (keys : List String) :
    r.messageAttributes n type keys = [] := by
  have hnone : ((r.eventsAt n).find? fun e => e.type == type) = none :=
    List.find?_eq_none.2 fun e he => by simpa using h e he
  rw [messageAttributes, hnone]

theorem messageAttributes_congr {keys keys' : List String} (h : ∀ k, k ∈ keys' ↔ k ∈ keys) :
    r.messageAttributes n type keys' = r.messageAttributes n type keys := by
  unfold messageAttributes
  simp only [Events.firstValues_congr h]

/-- The first event of a type among the tagged ones is the first that is looked up by type, key and
tag, if it carries the key. -/
theorem findEvent?_of_isFirstOf {es : List Event} {k : String}
    (h : IsFirstOf (es.filter fun e => e.IsTagged n) type e) (hk : e.hasAttribute k = true) :
    Events.findEvent? es type k (some n) = some e := by
  rw [isFirstOf_iff, List.find?_filter, List.find?_eq_some_iff_append] at h
  simp only [Bool.not_eq_true', decide_eq_true_iff, decide_eq_false_iff_not, beq_iff_eq] at h
  obtain ⟨⟨htag, htype⟩, before, after, hsplit, hbefore⟩ := h
  rw [Events.findEvent?, List.find?_eq_some_iff_append]
  refine ⟨Events.isMatch_some_iff.2 ⟨htype, hk, htag⟩, before, after, hsplit, fun b hb => ?_⟩
  rw [Bool.not_eq_true', Bool.eq_false_iff, ne_eq, Events.isMatch_some_iff]
  rintro ⟨htype, -, htag⟩
  exact hbefore b hb ⟨htag, htype⟩

end

/-- **What is read for a message** is what the first event of the type among its events holds, and
nothing where there is none: of every key that is asked for, in whatever order and however often, the
value that stands first. Without a log it is also what a look-up by type, key and tag finds. -/
theorem messageAttributes_firstEvent (r : TxResponse) {n : Nat} (hn : n < 2 ^ 32) (type : String)
    (keys : List String) :
    ∃ es, AreEventsOf r n es ∧
      ((∀ e ∈ es, e.type ≠ type) → r.messageAttributes n type keys = []) ∧
      (∀ e, IsFirstOf es type e →
        IsReading e keys (r.messageAttributes n type keys) ∧
        (r.logs.length ≤ n → ∀ k ∈ keys, e.hasAttribute k = true →
          ∃ v, (r.messageAttributes n type keys).lookup k = some v ∧
            Events.find? r.events type k (some n) = some v)) ∧
      ∀ keys', (∀ k, k ∈ keys' ↔ k ∈ keys) →
        r.messageAttributes n type keys' = r.messageAttributes n type keys := by
  refine ⟨r.eventsAt n, areEventsOf_eventsAt hn, ?_, ?_, ?_⟩
  · intro h
    exact messageAttributes_of_no_event h keys
  · intro e he
    rw [messageAttributes_of_isFirstOf he]
    have hreading := isReading_firstValues e keys
    refine ⟨hreading, fun hlogs k hk hcarried => ?_⟩
    obtain ⟨w, hw⟩ : ∃ w, e.attribute? k = some w := by
      rw [← Option.ne_none_iff_exists', ne_eq, Event.attribute?_eq_none_iff]
      obtain ⟨a, ha, hak⟩ := Event.hasAttribute_iff.1 hcarried
      exact fun hnone => hnone a ha hak
    rw [eventsAt_of_no_log hlogs, Nat.mod_eq_of_lt hn] at he
    refine ⟨unquote w, ?_, ?_⟩
    · rw [hreading.lookup_eq k hk, hw, Option.map_some]
    · rw [Events.find?, findEvent?_of_isFirstOf he hcarried, Option.bind_some, hw, Option.map_some]
  · intro keys' h
    exact messageAttributes_congr h

/-- The second message has two senders and two tags. -/
def secondSenders : Event :=
  ⟨"message", [⟨"msg_index", "7", false⟩, ⟨"sender", "\"pb1one\"", false⟩,
    ⟨"sender", "pb1other", false⟩, ⟨"msg_index", "\"1\"", false⟩]⟩

/-- The first of the two senders is read, whether by the message or by the tag, and also where the keys
are asked for in another order. -/
theorem messageAttributes_of_secondSenders :
    1 < 2 ^ 32 ∧
      (ofEvents [firstSender, secondSenders]).messageAttributes 1 "message" ["sender", "module"] =
        [("sender", "pb1one")] ∧
      Events.find? [firstSender, secondSenders] "message" "sender" (some 1) = some "pb1one" ∧
      (ofEvents [firstSender, secondSenders]).messageAttributes 1 "message"
        ["module", "sender", "sender"] = [("sender", "pb1one")] := by
  have hn : 1 < 2 ^ 32 := by decide
  have hread : (ofEvents [firstSender, secondSenders]).messageAttributes 1 "message"
      ["sender", "module"] = [("sender", "pb1one")] := by decide +kernel
  obtain ⟨es, hes, -, hfirst, hkeys⟩ := messageAttributes_firstEvent
    (ofEvents [firstSender, secondSenders]) hn "message" ["sender", "module"]
  refine ⟨hn, hread, ?_, ?_⟩
  · cases hes with
    | logged h => cases h
    | tagged h =>
      obtain ⟨-, hfind⟩ := hfirst secondSenders ⟨[], [], by decide +kernel, by simp, rfl⟩
      obtain ⟨v, hv, hvalue⟩ := hfind h "sender" (by simp) rfl
      rw [hread] at hv
      cases hv
      exact hvalue
  · rw [hkeys _ (by simp [or_comm]), hread]

end TxResponse

end TxLens

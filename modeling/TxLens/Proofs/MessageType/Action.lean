import TxLens.Proofs.MessageType.Spellings
import TxLens.Proofs.Text.SnakeCase
/-!
# The action that a type's name says

Names of message types end in `Msg` and the name of the action, and some say `Request` after it. Both go
away, and what is left is shown in snake case (`shortName_msg`, `short_of_segments`). So a type is shown
as the same action with and without `Request`, marked where the URL is one of groups (`action_snakeCase`).
-/

namespace TxLens

/-! ## Cutting at known places -/

namespace Text

theorem splitFirst_append (needle cs : List Char) :
    splitFirst needle (needle ++ cs) = some ([], cs) := by
  cases needle with
  | nil => cases cs <;> simp [splitFirst]
  | cons c needle => simp [splitFirst]

theorem dropTail_append (cs tail : List Char) : dropTail tail (cs ++ tail) = cs := by
  rw [dropTail, if_pos (List.isSuffixOf_iff_suffix.2 (List.suffix_append cs tail))]
  simp

theorem dropTail_of_not_suffix {tail cs : List Char} (h : ¬ tail <:+ cs) : dropTail tail cs = cs := by
  rw [dropTail, if_neg fun hsuffix => h (List.isSuffixOf_iff_suffix.1 hsuffix)]

end Text

namespace MessageType

/-- What may follow the name of an action. -/
def endings : List String := ["", "Request"]

theorem shortName_msg {x : List Char} (h : ¬ "Request".toList <:+ x) {ending : String}
    (he : ending ∈ endings) : shortName ("Msg".toList ++ (x ++ ending.toList)) = x := by
  simp only [shortName, Text.splitFirst_append]
  simp only [endings, List.mem_cons, List.not_mem_nil, or_false] at he
  rcases he with rfl | rfl
  · simpa using Text.dropTail_of_not_suffix h
  · exact Text.dropTail_append x _

/-! ## Type URLs in segments -/

/-- Neither a dot nor a slash is in it. -/
def IsSegment (s : String) : Prop := '.' ∉ s.toList ∧ '/' ∉ s.toList

instance (s : String) : Decidable (IsSegment s) := inferInstanceAs (Decidable (_ ∧ _))

/-- The name of a message type in its module and version. -/
def messageName (a m v action : String) : String := a ++ "." ++ m ++ "." ++ v ++ ".Msg" ++ action

theorem toList_messageName (a m v action : String) :
    (messageName a m v action).toList =
      a.toList ++ '.' :: (m.toList ++ '.' :: (v.toList ++ '.' :: ("Msg".toList ++ action.toList))) := by
  simp [messageName]

section
variable {a m v action : String} (ha : IsSegment a) (hm : IsSegment m) (hv : IsSegment v)
  (haction : IsSegment action)

include ha hm hv haction

theorem slash_not_mem_messageName : '/' ∉ (messageName a m v action).toList := by
  rw [toList_messageName]
  simp [ha.2, hm.2, hv.2, haction.2]

theorem short_of_segments :
    short (messageName a m v action) = shortName ("Msg".toList ++ action.toList) := by
  have hlast : '.' ∉ "Msg".toList ++ action.toList := by simp [haction.1]
  have hname := Text.splitOn_append_of_notMem hlast []
  rw [List.append_nil, Text.splitOn, List.modifyHead_cons, List.append_nil] at hname
  rw [short, toList_messageName, Text.splitOn_append_cons ha.1, Text.splitOn_append_cons hm.1,
    Text.splitOn_append_cons hv.1, hname]
  rfl

theorem action_messageName :
    (ofTypeUrl ("/" ++ messageName a m v action)).action =
      String.ofList (Text.snakeCase (shortName ("Msg".toList ++ action.toList)) ++
        if "cosmos.group.v1".toList <+: (messageName a m v action).toList ∧
            ¬ "Group".toList <:+: shortName ("Msg".toList ++ action.toList)
          then "_for_group".toList else []) := by
  have hshown := shown_slash (slash_not_mem_messageName ha hm hv haction)
  rw [short_of_segments ha hm hv haction] at hshown
  exact congrArg Prod.snd hshown

end

/-! ## The action -/

theorem messageName_append (a m v action ending : String) :
    messageName a m v (action ++ ending) = messageName a m v action ++ ending := by
  simp only [messageName, String.append_assoc]

theorem isSegment_append {s t : String} (hs : IsSegment s) (ht : IsSegment t) :
    IsSegment (s ++ t) := by
  simp only [IsSegment, String.toList_append, List.mem_append, not_or]
  exact ⟨⟨hs.1, ht.1⟩, hs.2, ht.2⟩

theorem isSegment_of_isAlphanum {s : String} (h : s.toList.all Char.isAlphanum) : IsSegment s := by
  rw [List.all_eq_true] at h
  exact ⟨fun hdot => absurd (h '.' hdot) (by decide), fun hslash => absurd (h '/' hslash) (by decide)⟩

/-- The mark that tells actions of groups from those of other modules. -/
def groupMark (url : String) (action : List Char) : List Char :=
  if "/cosmos.group.v1".toList <+: url.toList ∧ ¬ "Group".toList <:+: action then "_for_group".toList
  else []

/-- Whether a URL is one of groups is seen before the capital of `Msg`. -/
theorem groupMark_append {url : String} (h : 'M' ∈ url.toList) (more : String) (action : List Char) :
    groupMark (url ++ more) action = groupMark url action := by
  have hgroup : "/cosmos.group.v1".toList <+: url.toList ++ more.toList ↔
      "/cosmos.group.v1".toList <+: url.toList := by
    constructor
    · intro hlong
      rcases List.prefix_or_prefix_of_prefix hlong (List.prefix_append _ more.toList) with hp | hp
      · exact hp
      · exact absurd (hp.subset h) (by decide)
    · intro hp
      exact hp.trans (List.prefix_append _ more.toList)
  simp only [groupMark, String.toList_append, hgroup]

section
variable {a m v x : String} (ha : IsSegment a) (hm : IsSegment m) (hv : IsSegment v)
  (hx : IsSegment x) (hrequest : ¬ "Request".toList <:+ x.toList)

include ha hm hv hx hrequest

theorem action_of_ending {ending : String} (he : ending ∈ endings) :
    (ofTypeUrl ("/" ++ messageName a m v (x ++ ending))).action =
      String.ofList (Text.snakeCase x.toList ++
        groupMark ("/" ++ messageName a m v (x ++ ending)) x.toList) := by
  have hending : ∀ ending ∈ endings, IsSegment ending := by decide
  have hlong := isSegment_append hx (hending ending he)
  have hcut : shortName ("Msg".toList ++ (x ++ ending).toList) = x.toList := by
    rw [String.toList_append]
    exact shortName_msg hrequest he
  have hurl : ("/" ++ messageName a m v (x ++ ending)).toList =
      '/' :: (messageName a m v (x ++ ending)).toList := by simp
  rw [action_messageName ha hm hv hlong, hcut, groupMark, hurl, toList_group]
  simp only [List.cons_prefix_cons, true_and]

end

/-- **The action of a message type.** Snake case puts underscores into the text in lower case and does
nothing else to it. Where `Msg` stands before a name of letters and digits, the action is the snake case
of the name, with the mark of groups where the URL is one of groups and the name does not say so, and it
is the same with `Request` after the name. -/
theorem action_snakeCase {x : String} (hascii : Text.IsAscii x.toList) :
    Text.IsSnakeCase x.toList (Text.snakeCase x.toList) ∧
    (x.toList.all Char.isAlphanum → ¬ "Request".toList <:+ x.toList →
      ∀ a m v, IsSegment a → IsSegment m → IsSegment v →
        (ofTypeUrl ("/" ++ messageName a m v (x ++ "Request"))).action =
          (ofTypeUrl ("/" ++ messageName a m v x)).action ∧
        ∀ ending ∈ endings,
          (ofTypeUrl ("/" ++ messageName a m v (x ++ ending))).action =
            String.ofList (Text.snakeCase x.toList ++
              groupMark ("/" ++ messageName a m v (x ++ ending)) x.toList)) := by
  refine ⟨Text.isSnakeCase_snakeCase hascii, fun hname hrequest a m v ha hm hv => ?_⟩
  have hactions := fun ending (he : ending ∈ endings) =>
    action_of_ending ha hm hv (isSegment_of_isAlphanum hname) hrequest he
  refine ⟨?_, hactions⟩
  have hM : 'M' ∈ ("/" ++ messageName a m v x).toList := by simp [toList_messageName]
  have hplain := hactions "" (by decide)
  rw [String.append_empty] at hplain
  rw [hactions "Request" (by decide), hplain, messageName_append, ← String.append_assoc,
    groupMark_append hM]

/-- An action of groups with an acronym and a digit in its name. -/
theorem action_of_groupPolicy :
    Text.IsAscii "UpdateDAOPolicyV2".toList ∧
      Text.IsSnakeCase "UpdateDAOPolicyV2".toList "update_dao_policy_v2".toList ∧
      (ofTypeUrl "/cosmos.group.v1.MsgUpdateDAOPolicyV2").action =
        "update_dao_policy_v2_for_group" ∧
      (ofTypeUrl "/cosmos.group.v1.MsgUpdateDAOPolicyV2Request").action =
        "update_dao_policy_v2_for_group" := by
  have hascii : Text.IsAscii "UpdateDAOPolicyV2".toList := by decide +kernel
  have hout : Text.snakeCase "UpdateDAOPolicyV2".toList = "update_dao_policy_v2".toList := by
    decide +kernel
  obtain ⟨hform, haction⟩ := action_snakeCase hascii
  obtain ⟨hsame, hactions⟩ := haction (by decide +kernel) (by decide +kernel) "cosmos" "group" "v1"
    (by decide) (by decide) (by decide)
  have hplain := hactions "" (by decide)
  rw [hout] at hform hplain
  refine ⟨hascii, hform, hplain.trans (by decide +kernel), ?_⟩
  exact hsame.trans (hplain.trans (by decide +kernel))

end MessageType

end TxLens

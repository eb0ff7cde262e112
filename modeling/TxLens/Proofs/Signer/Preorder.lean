import TxLens.Proofs.Signer.Catalog
import TxLens.Proofs.Wire.Extent
/-!
# Signers as a walk over embedded messages

A message with the messages embedded in it is a tree. The standard registry walks it in preorder,
from left to right: the first message on that walk that is too deep or does not decode is the fault
of the whole, and where there is none the signers are those of the tree, put together at each node as
its kind says (`signersOf_standard_iff`). Embedded payloads are shorter than the payload they stand
in (`length_lt_of_mem_children`), so the tree is finite whatever the bytes are.
-/

namespace TxLens

open Wire

/-! ## Kinds of messages -/

/-- The three kinds of messages that embed others, and all the rest. -/
inductive NodeKind where
  | execution
  | govProposal
  | groupProposal
  | leaf
  deriving DecidableEq

def Envelope.kind (e : Envelope) : NodeKind :=
  if e.IsType "authz.v1beta1.MsgExec" then .execution
  else if e.IsType "gov.v1.MsgSubmitProposal" then .govProposal
  else if e.IsType "group.v1.MsgSubmitProposal" then .groupProposal
  else .leaf

namespace NodeKind

/-- The messages that a payload embeds: `msgs` of an execution, `messages` of a proposal. -/
def embedded : NodeKind → Message → List Envelope
  | execution, m => embeddedIn 2 m
  | govProposal, m => embeddedIn 1 m
  | groupProposal, m => embeddedIn 4 m
  | leaf, _ => []

/-- The signers of a message: `below` are those of the messages it embeds, `fields` its own addresses
where it embeds none. An execution adds its grantee at the end; a government proposal puts its
proposer in front, a group proposal the policy address and the proposers. -/
def gather (fields : Message → List String) : NodeKind → Message → List String → List String
  | execution, m, below => below ++ [m.text 1]
  | govProposal, m, below => m.text 3 :: below
  | groupProposal, m, below => m.text 1 :: (m.texts 2 ++ below)
  | leaf, m, _ => fields m

end NodeKind

/-! ## The tree -/

def SignerRule.layout? : SignerRule → Option Layout
  | .payload layout _ => some layout
  | .custom _ => none

/-- The addresses that a rule names in a message itself. -/
def SignerRule.fields : SignerRule → Message → List String
  | .payload _ parts, m => parts.flatMap fun
    | .addresses source => source.read m
    | .embedded _ => []
  | .custom _, _ => []

namespace Tree

/-- The decoded payload of a message of known type. -/
def payload? (e : Envelope) : Option Message := do
  let rule ← Registry.standard.lookup? e.typeUrl
  let layout ← rule.layout?
  (layout.decode e.value).toOption

/-- The messages embedded in a message. -/
def children (e : Envelope) : List Envelope :=
  match payload? e with
  | some m => e.kind.embedded m
  | none => []

/-- The own addresses of a message that embeds no others. -/
def fields (e : Envelope) (m : Message) : List String :=
  match Registry.standard.lookup? e.typeUrl with
  | some rule => rule.fields m
  | none => []

theorem length_lt_of_mem_embeddedIn {n : Nat} {m : Message} {c : Envelope} (h : c ∈ embeddedIn n m) :
    c.value.length < Message.weight m := by
  obtain ⟨sub, hsub, rfl⟩ := List.mem_map.1 h
  exact Nat.lt_of_le_of_lt (Message.length_byteString_le 2 sub) (Message.weight_lt_of_mem_messages hsub)

theorem decode_of_payload? {e : Envelope} {m : Message} (h : payload? e = some m) :
    ∃ l : Layout, l.decode e.value = .ok m := by
  simp only [payload?, Option.bind_eq_bind, Option.bind_eq_some_iff] at h
  obtain ⟨rule, -, l, -, hm⟩ := h
  exact ⟨l, toOption_eq_some_iff.1 hm⟩

/-- An embedded payload is shorter than the one it stands in. -/
theorem length_lt_of_mem_children {e c : Envelope} (h : c ∈ children e) :
    c.value.length < e.value.length := by
  unfold children at h
  split at h
  · rename_i m hm
    obtain ⟨l, hl⟩ := decode_of_payload? hm
    refine Nat.lt_of_lt_of_le ?_ (Layout.weight_le_of_decode hl)
    cases hk : e.kind <;> rw [hk] at h
    · exact length_lt_of_mem_embeddedIn h
    · exact length_lt_of_mem_embeddedIn h
    · exact length_lt_of_mem_embeddedIn h
    · simp [NodeKind.embedded] at h
  · simp at h

/-- A message on the walk and the number of messages it is embedded in. -/
structure Visit where
  depth : Nat
  message : Envelope

/-- The walk: a message first, then its children from left to right, each with all below it. -/
def preorder (depth : Nat) (e : Envelope) : List Visit :=
  ⟨depth, e⟩ :: (children e).attach.flatMap fun ⟨c, hc⟩ =>
    have := length_lt_of_mem_children hc
    preorder (depth + 1) c
termination_by e.value.length

/-- What is wrong with a message on the walk. The depth is looked at before the type, and a message
of unknown type is not decoded. -/
def Visit.fault? (v : Visit) : Option SignerFault :=
  if depthLimit < v.depth then some (.nestingTooDeep v.message.typeUrl)
  else do
    let rule ← Registry.standard.lookup? v.message.typeUrl
    let layout ← rule.layout?
    match layout.decode v.message.value with
    | .error f => some (.decode v.message.typeUrl f)
    | .ok _ => none

/-- The signers of a message and of all below it; a message of unknown type has none. -/
def signers (e : Envelope) : List String :=
  match payload? e with
  | none => []
  | some m => e.kind.gather (fields e) m ((children e).attach.flatMap fun ⟨c, hc⟩ =>
      have := length_lt_of_mem_children hc
      signers c)
termination_by e.value.length

theorem preorder_eq (depth : Nat) (e : Envelope) :
    preorder depth e = ⟨depth, e⟩ :: (children e).flatMap (preorder (depth + 1)) := by
  rw [preorder]
  simp

theorem signers_eq (e : Envelope) :
    signers e = match payload? e with
      | none => []
      | some m => e.kind.gather (fields e) m ((children e).flatMap signers) := by
  rw [signers]
  simp

end Tree

/-! ## The rules behind the kinds -/

def RulePart.isAddresses : RulePart → Bool
  | .addresses _ => true
  | .embedded _ => false

/-- Whether a rule reads addresses of the message itself only. -/
def SignerRule.isPlain : SignerRule → Bool
  | .payload _ parts => parts.all RulePart.isAddresses
  | .custom _ => false

namespace Catalog

def executionRule : SignerRule :=
  rule "MsgExec" [text 1 "grantee", envelopes 2 "msgs"] [embedded 2, one 1]

def govProposalRule : SignerRule :=
  rule "MsgSubmitProposal" [envelopes 1 "messages", text 3 "proposer"] [one 3, embedded 1]

def groupProposalRule : SignerRule :=
  rule "MsgSubmitProposal"
    [text 1 "group_policy_address", text 2 "proposers", envelopes 4 "messages"]
    [one 1, each 2, embedded 4]

/-- The names under which messages that embed others are registered. -/
def nestedNames : List String :=
  ["authz.v1beta1.MsgExec", "gov.v1.MsgSubmitProposal", "group.v1.MsgSubmitProposal"]

/-- Under any other name a plain rule is registered. -/
theorem plain_or_mem_nestedNames :
    (all.all fun p => p.2.isPlain || nestedNames.contains p.1) = true := by rfl

theorem execution_mem : ("authz.v1beta1.MsgExec", executionRule) ∈ all := mem_of_lookup (by rfl)

theorem govProposal_mem : ("gov.v1.MsgSubmitProposal", govProposalRule) ∈ all :=
  mem_of_lookup (by rfl)

theorem groupProposal_mem : ("group.v1.MsgSubmitProposal", groupProposalRule) ∈ all :=
  mem_of_lookup (by rfl)

/-- The rule of a known message, by its kind. -/
theorem rule_of_kind {e : Envelope} {rule : SignerRule}
    (h : Registry.standard.lookup? e.typeUrl = some rule) :
    match e.kind with
    | .execution => rule = executionRule
    | .govProposal => rule = govProposalRule
    | .groupProposal => rule = groupProposalRule
    | .leaf => rule.isPlain = true := by
  have found : ∀ {name : String} {r : SignerRule}, (name, r) ∈ all → e.IsType name → rule = r :=
    fun hr ht => Option.some.inj (h.symm.trans (lookup?_of_isType hr ht))
  unfold Envelope.kind
  by_cases h1 : e.IsType "authz.v1beta1.MsgExec"
  · rw [if_pos h1]
    exact found execution_mem h1
  rw [if_neg h1]
  by_cases h2 : e.IsType "gov.v1.MsgSubmitProposal"
  · rw [if_pos h2]
    exact found govProposal_mem h2
  rw [if_neg h2]
  by_cases h3 : e.IsType "group.v1.MsgSubmitProposal"
  · rw [if_pos h3]
    exact found groupProposal_mem h3
  rw [if_neg h3]
  obtain ⟨name, hrule, ht⟩ := lookup?_standard_iff.1 h
  have hp := List.all_eq_true.1 plain_or_mem_nestedNames _ hrule
  simp only [Bool.or_eq_true, List.contains_iff_mem] at hp
  refine hp.resolve_right fun hn => ?_
  simp only [nestedNames, List.mem_cons, List.not_mem_nil, or_false] at hn
  rcases hn with rfl | rfl | rfl
  · exact h1 ht
  · exact h2 ht
  · exact h3 ht

/-- Every rule of the catalog decodes a payload. -/
theorem exists_payload {e : Envelope} {rule : SignerRule}
    (h : Registry.standard.lookup? e.typeUrl = some rule) :
    ∃ layout parts, rule = .payload layout parts := by
  have hk := rule_of_kind h
  cases rule with
  | payload layout parts => exact ⟨layout, parts, rfl⟩
  | custom signers => cases hkind : e.kind <;> rw [hkind] at hk <;> cases hk

end Catalog

/-! ## The walk finds what the registry answers -/

/-- The first fault, or the signers where there is none. -/
def verdict {ε β : Type} (fault? : Option ε) (signers : β) : Except ε β :=
  match fault? with
  | some f => .error f
  | none => .ok signers

theorem collect_verdict {ε α β : Type} {f : α → Except ε (List β)} {g : α → Option ε}
    {h : α → List β} {as : List α} (hf : ∀ a ∈ as, f a = verdict (g a) (h a)) :
    collect f as = verdict (as.findSome? g) (as.flatMap h) := by
  induction as with
  | nil => rfl
  | cons a as ih =>
    rw [collect, hf a List.mem_cons_self, ih fun b hb => hf b (List.mem_cons_of_mem _ hb),
      List.findSome?_cons]
    cases g a with
    | some f => rfl
    | none =>
      simp only [verdict, List.flatMap_cons]
      cases as.findSome? g <;> rfl

theorem findSome?_flatMap {α β γ : Type} (as : List α) (f : α → List β) (g : β → Option γ) :
    (as.flatMap f).findSome? g = as.findSome? fun a => (f a).findSome? g := by
  induction as with
  | nil => rfl
  | cons a as ih =>
    rw [List.flatMap_cons, List.findSome?_append, ih, List.findSome?_cons]
    cases (f a).findSome? g <;> rfl

/-- A plain rule reads its fields. -/
theorem signers_of_isPlain {layout : Layout} {parts : List RulePart} {m : Message} {e : Envelope}
    (hp : (SignerRule.payload layout parts).isPlain = true) (hm : layout.decode e.value = .ok m)
    (visit : Visit) (inner : Envelope → Except SignerFault (List String)) :
    (SignerRule.payload layout parts).signers visit inner e =
      .ok ((SignerRule.payload layout parts).fields m) := by
  have hparts : ∀ p ∈ parts, RulePart.signers inner m p = verdict none
      (match p with
        | .addresses source => source.read m
        | .embedded _ => []) := by
    intro p hmem
    have hp := List.all_eq_true.1 hp p hmem
    cases p with
    | addresses source => rfl
    | embedded n => cases hp
  have hnone : (parts.findSome? fun _ => (none : Option SignerFault)) = none :=
    List.findSome?_eq_none_iff.2 fun _ _ => rfl
  simp only [SignerRule.signers, hm, SignerRule.fields, collect_verdict hparts, hnone]
  rfl

namespace Tree

theorem payload?_of_decode {e : Envelope} {layout : Layout} {parts : List RulePart} {m : Message}
    (hr : Registry.standard.lookup? e.typeUrl = some (.payload layout parts))
    (hm : layout.decode e.value = .ok m) : payload? e = some m := by
  simp [payload?, hr, SignerRule.layout?, hm, Except.toOption]

theorem payload?_eq_some_iff {e : Envelope} {m : Message} :
    payload? e = some m ↔ ∃ layout parts,
      Registry.standard.lookup? e.typeUrl = some (.payload layout parts) ∧
        layout.decode e.value = .ok m := by
  constructor
  · intro h
    cases hr : Registry.standard.lookup? e.typeUrl with
    | none => simp [payload?, hr] at h
    | some rule =>
      obtain ⟨layout, parts, rfl⟩ := Catalog.exists_payload hr
      cases hm : layout.decode e.value with
      | error f => simp [payload?, hr, SignerRule.layout?, hm, Except.toOption] at h
      | ok m' =>
        rw [payload?_of_decode hr hm] at h
        cases h
        exact ⟨layout, parts, rfl, hm⟩
  · rintro ⟨layout, parts, hr, hm⟩
    exact payload?_of_decode hr hm

/-- The signers of a message that decodes, from the verdict on the messages it embeds. -/
theorem signers_of_payload? {e : Envelope} {layout : Layout} {parts : List RulePart} {m : Message}
    (hr : Registry.standard.lookup? e.typeUrl = some (.payload layout parts))
    (hm : layout.decode e.value = .ok m) (visit : TxLens.Visit)
    {inner : Envelope → Except SignerFault (List String)} {fault? : Option SignerFault}
    {below : List String} (hb : collect inner (children e) = verdict fault? below) :
    (SignerRule.payload layout parts).signers visit inner e =
      verdict fault? (e.kind.gather (fields e) m below) := by
  have hpay := payload?_of_decode hr hm
  have hc : children e = e.kind.embedded m := by simp [children, hpay]
  have hk := Catalog.rule_of_kind hr
  rw [hc] at hb
  cases hkind : e.kind <;> rw [hkind] at hk hb
  · cases hk
    simp only [NodeKind.embedded] at hb
    simp only [Catalog.embedded, Catalog.one, SignerRule.signers, collect, RulePart.signers, hm, hb]
    cases fault? <;> simp [verdict, NodeKind.gather, AddressSource.read]
  · cases hk
    simp only [NodeKind.embedded] at hb
    simp only [Catalog.embedded, Catalog.one, SignerRule.signers, collect, RulePart.signers, hm, hb]
    cases fault? <;> simp [verdict, NodeKind.gather, AddressSource.read]
  · cases hk
    simp only [NodeKind.embedded] at hb
    simp only [Catalog.embedded, Catalog.one, Catalog.each, SignerRule.signers, collect,
      RulePart.signers, hm, hb]
    cases fault? <;> simp [verdict, NodeKind.gather, AddressSource.read]
  · simp only [NodeKind.embedded, collect] at hb
    cases fault? with
    | some f => cases hb
    | none =>
      rw [signers_of_isPlain hk hm]
      simp [verdict, NodeKind.gather, fields, hr]

theorem fault?_unknown {d : Nat} {e : Envelope} (hd : d ≤ depthLimit)
    (hr : Registry.standard.lookup? e.typeUrl = none) : Visit.fault? ⟨d, e⟩ = none := by
  simp [Visit.fault?, Nat.not_lt.2 hd, hr]

theorem fault?_known {d : Nat} {e : Envelope} {layout : Layout} {parts : List RulePart}
    (hd : d ≤ depthLimit)
    (hr : Registry.standard.lookup? e.typeUrl = some (.payload layout parts)) :
    Visit.fault? ⟨d, e⟩ = match layout.decode e.value with
      | .error f => some (.decode e.typeUrl f)
      | .ok _ => none := by
  simp [Visit.fault?, Nat.not_lt.2 hd, hr, SignerRule.layout?]

/-- The answer with some levels left is the verdict of the walk that starts at the depth this makes. -/
theorem signersAt_eq_verdict : ∀ (levels : Nat) (e : Envelope), levels ≤ depthLimit + 1 →
    Registry.standard.signersAt levels e =
      verdict ((preorder (depthLimit + 1 - levels) e).findSome? Visit.fault?) (signers e)
  | 0, e, _ => by
    rw [preorder_eq, List.findSome?_cons]
    simp [Registry.signersAt, Visit.fault?, verdict]
  | levels + 1, e, h => by
    obtain ⟨d, hd⟩ : ∃ d, d = depthLimit - levels := ⟨_, rfl⟩
    have hle : d ≤ depthLimit := by omega
    have hbelow : depthLimit + 1 - levels = d + 1 := by omega
    -- the children are one deeper, so the induction covers them
    have hb : collect (Registry.standard.signersAt levels) (children e) = verdict
        (((children e).flatMap (preorder (d + 1))).findSome? Visit.fault?)
        ((children e).flatMap signers) := by
      rw [findSome?_flatMap]
      refine collect_verdict fun c _ => ?_
      rw [← hbelow]
      exact signersAt_eq_verdict levels c (by omega)
    rw [show depthLimit + 1 - (levels + 1) = d by omega, preorder_eq, List.findSome?_cons,
      Registry.signersAt]
    cases hr : Registry.standard.lookup? e.typeUrl with
    | none =>
      have hpay : payload? e = none := by simp [payload?, hr]
      rw [fault?_unknown hle hr]
      simp [children, hpay, signers_eq, verdict]
    | some rule =>
      obtain ⟨layout, parts, rfl⟩ := Catalog.exists_payload hr
      rw [fault?_known hle hr]
      cases hm : layout.decode e.value with
      | error f => simp [SignerRule.signers, hm, verdict]
      | ok m =>
        have hpay : payload? e = some m := payload?_of_decode hr hm
        simp only
        rw [signers_of_payload? hr hm _ hb, signers_eq e, hpay]

end Tree

theorem verdict_eq_error_iff {ε α β : Type} {vs : List α} {g : α → Option ε} {b : β} {f : ε} :
    verdict (vs.findSome? g) b = .error f ↔
      ∃ before v after, vs = before ++ v :: after ∧ (∀ w ∈ before, g w = none) ∧ g v = some f := by
  have hv : verdict (vs.findSome? g) b = .error f ↔ vs.findSome? g = some f := by
    cases vs.findSome? g <;> simp [verdict]
  rw [hv, List.findSome?_eq_some_iff]
  constructor
  · rintro ⟨before, v, after, hsplit, hf, hbefore⟩
    exact ⟨before, v, after, hsplit, hbefore, hf⟩
  · rintro ⟨before, v, after, hsplit, hbefore, hf⟩
    exact ⟨before, v, after, hsplit, hf, hbefore⟩

theorem verdict_eq_ok_iff {ε α β : Type} {vs : List α} {g : α → Option ε} {b b' : β} :
    verdict (vs.findSome? g) b = .ok b' ↔ (∀ v ∈ vs, g v = none) ∧ b' = b := by
  rw [← List.findSome?_eq_none_iff]
  cases vs.findSome? g <;> simp [verdict, eq_comm]

/-- **Signers are what the preorder walk gathers**: the fault is that of the first message on the walk
that has one; without any, the signers are those of the whole tree. Known are the types in the catalog,
executions and both kinds of proposals among them, each by the rule for its kind. -/
theorem signersOf_standard_iff (e : Envelope) :
    ((∃ f, Registry.standard.signersOf e = .error f) ↔
      ∃ v ∈ Tree.preorder 0 e, v.fault?.isSome = true) ∧
    (∀ f, Registry.standard.signersOf e = .error f ↔
      ∃ before v after, Tree.preorder 0 e = before ++ v :: after ∧
        (∀ w ∈ before, w.fault? = none) ∧ v.fault? = some f) ∧
    (∀ l, Registry.standard.signersOf e = .ok l ↔
      (∀ v ∈ Tree.preorder 0 e, v.fault? = none) ∧ l = Tree.signers e) ∧
    (∀ rule, Registry.standard.lookup? e.typeUrl = some rule ↔
      ∃ name, (name, rule) ∈ Catalog.all ∧ e.IsType name) ∧
    (e.IsType "authz.v1beta1.MsgExec" →
      Registry.standard.lookup? e.typeUrl = some Catalog.executionRule) ∧
    (e.IsType "gov.v1.MsgSubmitProposal" →
      Registry.standard.lookup? e.typeUrl = some Catalog.govProposalRule) ∧
    (e.IsType "group.v1.MsgSubmitProposal" →
      Registry.standard.lookup? e.typeUrl = some Catalog.groupProposalRule) := by
  have h : Registry.standard.signersOf e =
      verdict ((Tree.preorder 0 e).findSome? Tree.Visit.fault?) (Tree.signers e) := by
    have := Tree.signersAt_eq_verdict (depthLimit + 1) e (Nat.le_refl _)
    rwa [Nat.sub_self] at this
  rw [h]
  refine ⟨?_, fun f => verdict_eq_error_iff, fun l => verdict_eq_ok_iff,
    fun rule => Catalog.lookup?_standard_iff, Catalog.lookup?_of_isType Catalog.execution_mem,
    Catalog.lookup?_of_isType Catalog.govProposal_mem,
    Catalog.lookup?_of_isType Catalog.groupProposal_mem⟩
  rw [← List.findSome?_isSome_iff]
  cases (Tree.preorder 0 e).findSome? Tree.Visit.fault? <;> simp [verdict]

namespace Tree

/-- An execution of some messages. -/
def execution (grantee : String) (es : List Envelope) : Envelope :=
  ⟨"/cosmos.authz.v1beta1.MsgExec", Message.print (Message.ofText 1 grantee ++ Object.ofSubs 2 es)⟩

def transfer (source target : String) : Envelope :=
  ⟨"/cosmos.bank.v1beta1.MsgSend",
    Message.print (Message.ofText 1 source ++ Message.ofText 2 target)⟩

/-- An execution between two transfers, with a message of unknown type in it. -/
def nestedExecution : Envelope :=
  execution "f" [transfer "a" "b", execution "e" [⟨"/x", [0]⟩, transfer "c" "d"], transfer "a" "g"]

end Tree

/-- The grantees sign after those of the messages that they execute. -/
theorem signersOf_nestedExecution :
    let signers := ["a", "b", "c", "d", "e", "a", "g", "f"]
    Registry.standard.signersOf Tree.nestedExecution = .ok signers ∧
      (∀ v ∈ Tree.preorder 0 Tree.nestedExecution, v.fault? = none) ∧
      Tree.signers Tree.nestedExecution = signers ∧
      Registry.standard.lookup? Tree.nestedExecution.typeUrl = some Catalog.executionRule := by
  intro signers
  have hrun : Registry.standard.signersOf Tree.nestedExecution = .ok signers := by
    rw [← toOption_eq_some_iff, Catalog.standard_eq]
    decide +kernel
  obtain ⟨-, -, hok, -, hexecution, -⟩ := signersOf_standard_iff Tree.nestedExecution
  obtain ⟨hwalk, hsigners⟩ := (hok _).1 hrun
  exact ⟨hrun, hwalk, hsigners.symm, hexecution (by decide)⟩

end TxLens

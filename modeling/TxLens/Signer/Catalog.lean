import TxLens.Signer.Rule
/-!
# The message types known to the chain

Every row registers a suffix of a type name with the fields of its payload that matter here and the
rule for its signers. Types with the same fields share a layout, and with it the name under which
faults are reported.
-/

namespace TxLens.Catalog

open Wire

/-! ## Rows -/

def text (n : Nat) (name : String) : Wire.Field FieldType := ⟨n, name, .text⟩

def number (n : Nat) (name : String) : Wire.Field FieldType := ⟨n, name, .uint64⟩

def envelopes (n : Nat) (name : String) : Wire.Field FieldType := ⟨n, name, .object .envelope⟩

def record (n : Nat) (name type : String) (fields : List (Wire.Field FieldType)) : Wire.Field FieldType :=
  ⟨n, name, .payload type fields⟩

def one (n : Nat) : RulePart := .addresses (.one n)

def each (n : Nat) : RulePart := .addresses (.each n)

def inside (n : Nat) (source : AddressSource) : RulePart := .addresses (.inside n source)

def insideEach (n : Nat) (source : AddressSource) : RulePart := .addresses (.insideEach n source)

def embedded (n : Nat) : RulePart := .embedded n

def rule (type : String) (fields : List (Wire.Field FieldType)) (parts : List RulePart) : SignerRule :=
  .payload ⟨type, fields⟩ parts

/-! ## Modules of the chain -/

/-- Transfers between accounts. -/
def bank : List (String × SignerRule) :=
  [("bank.v1beta1.MsgSend", rule "MsgSend" [text 1 "from_address", text 2 "to_address"]
     [one 1, one 2]),
   ("MsgMultiSend", rule "MsgMultiSend"
     [record 1 "inputs" "Input" [text 1 "address"],
      record 2 "outputs" "Output" [text 1 "address"]]
     [insideEach 1 (.one 1), insideEach 2 (.one 1)])]

/-- Rewards, commissions and evidence. -/
def distribution : List (String × SignerRule) :=
  [("MsgSetWithdrawAddress", rule "MsgSetWithdrawAddress"
     [text 1 "delegator_address", text 2 "withdraw_address"] [one 1, one 2]),
   ("MsgWithdrawDelegatorReward", rule "MsgWithdrawDelegatorReward"
     [text 1 "delegator_address", text 2 "validator_address"] [one 1, one 2]),
   ("MsgWithdrawValidatorCommission", rule "MsgWithdrawValidatorCommission"
     [text 1 "validator_address"] [one 1]),
   ("MsgFundCommunityPool", rule "MsgFundCommunityPool" [text 2 "depositor"] [one 2]),
   ("MsgSubmitEvidence", rule "MsgSubmitEvidence" [text 1 "submitter"] [one 1])]

/-- Proposals, votes, deposits and upgrades. -/
def governance : List (String × SignerRule) :=
  [("gov.v1beta1.MsgSubmitProposal", rule "MsgSubmitProposal" [text 3 "proposer"] [one 3]),
   ("gov.v1.MsgSubmitProposal", rule "MsgSubmitProposal"
     [envelopes 1 "messages", text 3 "proposer"] [one 3, embedded 1]),
   ("MsgSoftwareUpgrade", rule "MsgSoftwareUpgrade" [text 1 "authority"] [one 1]),
   ("MsgCancelUpgrade", rule "MsgCancelUpgrade" [text 1 "authority"] [one 1]),
   ("gov.v1beta1.MsgVote", rule "MsgVote" [number 1 "proposal_id", text 2 "voter"] [one 2]),
   ("gov.v1.MsgVote", rule "MsgVote" [number 1 "proposal_id", text 2 "voter"] [one 2]),
   ("gov.v1beta1.MsgVoteWeighted", rule "MsgVoteWeighted" [number 1 "proposal_id", text 2 "voter"]
     [one 2]),
   ("gov.v1.MsgVoteWeighted", rule "MsgVoteWeighted" [number 1 "proposal_id", text 2 "voter"]
     [one 2]),
   ("gov.v1beta1.MsgDeposit", rule "MsgDeposit" [number 1 "proposal_id", text 2 "depositor"]
     [one 2]),
   ("gov.v1.MsgDeposit", rule "MsgDeposit" [number 1 "proposal_id", text 2 "depositor"] [one 2])]

/-- Validators and delegations. -/
def staking : List (String × SignerRule) :=
  [("MsgUnjail", rule "MsgUnjail" [text 1 "validator_addr"] [one 1]),
   ("MsgCreateValidator", rule "MsgCreateValidator"
     [text 4 "delegator_address", text 5 "validator_address"] [one 5, one 4]),
   ("MsgEditValidator", rule "MsgEditValidator" [text 2 "validator_address"] [one 2]),
   ("MsgDelegate", rule "MsgDelegate" [text 1 "delegator_address", text 2 "validator_address"]
     [one 2, one 1]),
   ("MsgBeginRedelegate", rule "MsgBeginRedelegate"
     [text 1 "delegator_address", text 2 "validator_src_address", text 3 "validator_dst_address"]
     [one 1, one 3, one 2]),
   ("MsgUndelegate", rule "MsgDelegate" [text 1 "delegator_address", text 2 "validator_address"]
     [one 1, one 2]),
   ("MsgCancelUnbondingDelegation", rule "MsgDelegate"
     [text 1 "delegator_address", text 2 "validator_address"] [one 1, one 2])]

/-- Accounts whose coins vest over time. -/
def vesting : List (String × SignerRule) :=
  [("MsgCreateVestingAccount", rule "MsgCreateVestingAccount"
     [text 1 "from_address", text 2 "to_address"] [one 1, one 2]),
   ("MsgCreatePermanentLockedAccount", rule "MsgCreateVestingAccount"
     [text 1 "from_address", text 2 "to_address"] [one 1, one 2]),
   ("MsgCreatePeriodicVestingAccount", rule "MsgCreateVestingAccount"
     [text 1 "from_address", text 2 "to_address"] [one 1, one 2])]

/-- Acting for another account, and paying its fees. -/
def authorisation : List (String × SignerRule) :=
  [("MsgGrant", rule "MsgGrant" [text 1 "granter", text 2 "grantee"] [one 1, one 2]),
   ("authz.v1beta1.MsgExec", rule "MsgExec" [text 1 "grantee", envelopes 2 "msgs"]
     [embedded 2, one 1]),
   ("MsgRevoke", rule "MsgGrant" [text 1 "granter", text 2 "grantee"] [one 1, one 2]),
   ("MsgGrantAllowance", rule "MsgGrantAllowance" [text 1 "granter", text 2 "grantee"]
     [one 1, one 2]),
   ("MsgRevokeAllowance", rule "MsgGrantAllowance" [text 1 "granter", text 2 "grantee"]
     [one 1, one 2])]

/-- Groups of accounts that decide together, and non-fungible tokens. -/
def group : List (String × SignerRule) :=
  [("group.v1.MsgCreateGroup", rule "MsgCreateGroup"
     [text 1 "admin", record 2 "members" "MemberRequest" [text 1 "address"]]
     [one 1, insideEach 2 (.one 1)]),
   ("group.v1.MsgUpdateGroupMembers", rule "MsgUpdateGroupMembers"
     [text 1 "admin", record 3 "member_updates" "MemberRequest" [text 1 "address"]]
     [one 1, insideEach 3 (.one 1)]),
   ("group.v1.MsgUpdateGroupAdmin", rule "MsgUpdateGroupAdmin"
     [text 1 "admin", text 3 "new_admin"] [one 1, one 3]),
   ("group.v1.MsgUpdateGroupMetadata", rule "MsgUpdateGroupMetadata" [text 1 "admin"] [one 1]),
   ("group.v1.MsgCreateGroupPolicy", rule "MsgUpdateGroupMetadata" [text 1 "admin"] [one 1]),
   ("group.v1.MsgCreateGroupWithPolicy", rule "MsgCreateGroup"
     [text 1 "admin", record 2 "members" "MemberRequest" [text 1 "address"]]
     [one 1, insideEach 2 (.one 1)]),
   ("group.v1.MsgUpdateGroupPolicyAdmin", rule "MsgUpdateGroupPolicyAdmin"
     [text 1 "admin", text 2 "group_policy_address", text 3 "new_admin"] [one 1, one 2, one 3]),
   ("group.v1.MsgUpdateGroupPolicyDecisionPolicy", rule "MsgUpdateGroupPolicyMetadata"
     [text 1 "admin", text 2 "group_policy_address"] [one 1, one 2]),
   ("group.v1.MsgUpdateGroupPolicyMetadata", rule "MsgUpdateGroupPolicyMetadata"
     [text 1 "admin", text 2 "group_policy_address"] [one 1, one 2]),
   ("group.v1.MsgSubmitProposal", rule "MsgSubmitProposal"
     [text 1 "group_policy_address", text 2 "proposers", envelopes 4 "messages"]
     [one 1, each 2, embedded 4]),
   ("group.v1.MsgWithdrawProposal", rule "MsgWithdrawProposal"
     [number 1 "proposal_id", text 2 "address"] [one 2]),
   ("group.v1.MsgVote", rule "MsgVote" [number 1 "proposal_id", text 2 "voter"] [one 2]),
   ("group.v1.MsgExec", rule "MsgExec" [number 1 "proposal_id", text 2 "executor"] [one 2]),
   ("group.v1.MsgLeaveGroup", rule "MsgLeaveGroup" [text 1 "address"] [one 1]),
   ("nft.v1beta1.MsgSend", rule "MsgSend" [text 3 "sender", text 4 "receiver"] [one 3, one 4])]

/-- Managed denominations. -/
def marker : List (String × SignerRule) :=
  [("MsgWithdrawRequest", rule "MsgWithdrawRequest" [text 2 "administrator", text 3 "to_address"]
     [one 3, one 2]),
   ("MsgAddMarkerRequest", rule "MsgAddMarkerRequest"
     [text 3 "manager", text 4 "from_address",
      record 7 "access_list" "AccessGrant" [text 1 "address"]]
     [one 4, one 3, insideEach 7 (.one 1)]),
   ("MsgAddAccessRequest", rule "MsgAddAccessRequest"
     [text 2 "administrator", record 3 "access" "AccessGrant" [text 1 "address"]]
     [insideEach 3 (.one 1), one 2]),
   ("MsgDeleteAccessRequest", rule "MsgDeleteAccessRequest"
     [text 2 "administrator", text 3 "removed_address"] [one 2, one 3]),
   ("MsgFinalizeRequest", rule "MsgFinalizeRequest" [text 2 "administrator"] [one 2]),
   ("MsgActivateRequest", rule "MsgFinalizeRequest" [text 2 "administrator"] [one 2]),
   ("MsgCancelRequest", rule "MsgFinalizeRequest" [text 2 "administrator"] [one 2]),
   ("MsgDeleteRequest", rule "MsgFinalizeRequest" [text 2 "administrator"] [one 2]),
   ("MsgMintRequest", rule "MsgFinalizeRequest" [text 2 "administrator"] [one 2]),
   ("MsgBurnRequest", rule "MsgFinalizeRequest" [text 2 "administrator"] [one 2]),
   ("MsgTransferRequest", rule "MsgTransferRequest"
     [text 3 "administrator", text 4 "from_address", text 5 "to_address"] [one 3, one 5, one 4]),
   ("MsgSetDenomMetadataRequest", rule "MsgFinalizeRequest" [text 2 "administrator"] [one 2]),
   ("MsgIbcTransferRequest", rule "MsgIbcTransferRequest"
     [record 1 "transfer" "MsgTransfer" [text 4 "sender"], text 2 "administrator"]
     [one 2, inside 1 (.one 4)]),
   ("MsgGrantAllowanceRequest", rule "MsgGrantAllowanceRequest"
     [text 2 "administrator", text 3 "grantee"] [one 2, one 3])]

/-- Names and the attributes of accounts. -/
def nameAndAttribute : List (String × SignerRule) :=
  [("MsgBindNameRequest", rule "MsgBindNameRequest"
     [record 1 "parent" "NameRecord" [text 1 "name", text 2 "address"],
      record 2 "record" "NameRecord" [text 1 "name", text 2 "address"]]
     [inside 1 (.one 2), inside 2 (.one 2)]),
   ("MsgDeleteNameRequest", rule "MsgDeleteNameRequest"
     [record 1 "record" "NameRecord" [text 1 "name", text 2 "address"]] [inside 1 (.one 2)]),
   ("MsgAddAttributeRequest", rule "MsgAddAttributeRequest" [text 4 "account", text 5 "owner"]
     [one 4, one 5]),
   ("MsgDeleteAttributeRequest", rule "MsgDeleteAttributeRequest"
     [text 2 "account", text 3 "owner"] [one 2, one 3]),
   ("MsgUpdateAttributeRequest", rule "MsgUpdateAttributeRequest"
     [text 6 "account", text 7 "owner"] [one 6, one 7]),
   ("MsgDeleteDistinctAttributeRequest", rule "MsgDeleteDistinctAttributeRequest"
     [text 3 "account", text 4 "owner"] [one 3, one 4])]

/-- Scopes, sessions, records, their specifications and object locators. -/
def metadata : List (String × SignerRule) :=
  [("MsgP8eMemorializeContractRequest", rule "MsgP8eMemorializeContractRequest" [text 7 "invoker"]
     [one 7]),
   ("MsgWriteP8eContractSpecRequest", rule "MsgDeleteScopeRequest" [text 2 "signers"] [each 2]),
   ("MsgWriteScopeRequest", rule "MsgWriteScopeRequest"
     [record 1 "scope" "Scope"
        [record 3 "owners" "Party" [text 1 "address"], text 4 "data_access",
         text 5 "value_owner_address"], text 2 "signers"]
     [each 2, inside 1 (.insideEach 3 (.one 1)), inside 1 (.one 5)]),
   ("MsgDeleteScopeRequest", rule "MsgDeleteScopeRequest" [text 2 "signers"] [each 2]),
   ("MsgWriteSessionRequest", rule "MsgWriteSessionRequest"
     [record 1 "session" "Session" [record 3 "parties" "Party" [text 1 "address"]],
      text 2 "signers"] [each 2, inside 1 (.insideEach 3 (.one 1))]),
   ("MsgWriteRecordRequest", rule "MsgWriteRecordRequest"
     [text 2 "signers", record 5 "parties" "Party" [text 1 "address"]]
     [each 2, insideEach 5 (.one 1)]),
   ("MsgDeleteRecordRequest", rule "MsgDeleteScopeRequest" [text 2 "signers"] [each 2]),
   ("MsgWriteScopeSpecificationRequest", rule "MsgWriteScopeSpecificationRequest"
     [record 1 "specification" "Specification" [text 3 "owner_addresses"], text 2 "signers"]
     [each 2, inside 1 (.each 3)]),
   ("MsgDeleteScopeSpecificationRequest", rule "MsgDeleteScopeRequest" [text 2 "signers"]
     [each 2]),
   ("MsgWriteContractSpecificationRequest", rule "MsgWriteScopeSpecificationRequest"
     [record 1 "specification" "Specification" [text 3 "owner_addresses"], text 2 "signers"]
     [each 2, inside 1 (.each 3)]),
   ("MsgDeleteContractSpecificationRequest", rule "MsgDeleteScopeRequest" [text 2 "signers"]
     [each 2]),
   ("MsgWriteRecordSpecificationRequest", rule "MsgDeleteScopeRequest" [text 2 "signers"]
     [each 2]),
   ("MsgDeleteRecordSpecificationRequest", rule "MsgDeleteScopeRequest" [text 2 "signers"]
     [each 2]),
   ("MsgBindOSLocatorRequest", rule "MsgBindOSLocatorRequest"
     [record 1 "locator" "ObjectStoreLocator" [text 1 "owner"]] [inside 1 (.one 1)]),
   ("MsgDeleteOSLocatorRequest", rule "MsgBindOSLocatorRequest"
     [record 1 "locator" "ObjectStoreLocator" [text 1 "owner"]] [inside 1 (.one 1)]),
   ("MsgModifyOSLocatorRequest", rule "MsgBindOSLocatorRequest"
     [record 1 "locator" "ObjectStoreLocator" [text 1 "owner"]] [inside 1 (.one 1)]),
   ("MsgAddScopeDataAccessRequest", rule "MsgAddScopeDataAccessRequest"
     [text 2 "data_access", text 3 "signers"] [each 3, each 2]),
   ("MsgDeleteScopeDataAccessRequest", rule "MsgAddScopeDataAccessRequest"
     [text 2 "data_access", text 3 "signers"] [each 3, each 2]),
   ("MsgAddScopeOwnerRequest", rule "MsgAddScopeOwnerRequest"
     [record 2 "owners" "Party" [text 1 "address"], text 3 "signers"]
     [insideEach 2 (.one 1), each 3]),
   ("MsgDeleteScopeOwnerRequest", rule "MsgDeleteScopeOwnerRequest"
     [text 2 "owners", text 3 "signers"] [each 2, each 3]),
   ("MsgAddContractSpecToScopeSpecRequest", rule "MsgAddContractSpecToScopeSpecRequest"
     [text 3 "signers"] [each 3]),
   ("MsgDeleteContractSpecFromScopeSpecRequest", rule "MsgAddContractSpecToScopeSpecRequest"
     [text 3 "signers"] [each 3])]

/-- Smart contracts; the two versions share their fields but are distinct types. -/
def contract : List (String × SignerRule) :=
  [("wasm.v1.MsgStoreCode", rule "MsgStoreCode" [text 1 "sender"] [one 1]),
   ("wasm.v1.MsgInstantiateContract", rule "MsgInstantiateContract"
     [text 1 "sender", text 2 "admin"] [one 1, one 2]),
   ("wasm.v1.MsgInstantiateContract2", rule "MsgInstantiateContract"
     [text 1 "sender", text 2 "admin"] [one 1, one 2]),
   ("wasm.v1.MsgExecuteContract", rule "MsgExecuteContract" [text 1 "sender"] [one 1]),
   ("wasm.v1.MsgMigrateContract", rule "MsgMigrateContract" [text 1 "sender"] [one 1]),
   ("wasm.v1.MsgUpdateAdmin", rule "MsgUpdateAdmin" [text 1 "sender", text 2 "new_admin"]
     [one 1, one 2]),
   ("wasm.v1.MsgClearAdmin", rule "MsgClearAdmin" [text 1 "sender"] [one 1]),
   ("wasm.v1beta1.MsgStoreCode", rule "MsgStoreCode" [text 1 "sender"] [one 1]),
   ("wasm.v1beta1.MsgInstantiateContract", rule "MsgInstantiateContract"
     [text 1 "sender", text 2 "admin"] [one 1, one 2]),
   ("wasm.v1beta1.MsgExecuteContract", rule "MsgExecuteContract" [text 1 "sender"] [one 1]),
   ("wasm.v1beta1.MsgMigrateContract", rule "MsgMigrateContract" [text 1 "sender"] [one 1]),
   ("wasm.v1beta1.MsgUpdateAdmin", rule "MsgUpdateAdmin" [text 1 "sender", text 2 "new_admin"]
     [one 1, one 2]),
   ("wasm.v1beta1.MsgClearAdmin", rule "MsgClearAdmin" [text 1 "sender"] [one 1])]

/-- Packets between chains and the fees for relaying them. -/
def relaying : List (String × SignerRule) :=
  [("MsgTransfer", rule "MsgTransfer" [text 4 "sender"] [one 4]),
   ("MsgChannelOpenInit", rule "MsgChannelOpenInit" [text 3 "signer"] [one 3]),
   ("MsgChannelOpenTry", rule "MsgChannelOpenTry" [text 7 "signer"] [one 7]),
   ("MsgChannelOpenAck", rule "MsgChannelOpenAck" [text 7 "signer"] [one 7]),
   ("MsgChannelOpenConfirm", rule "MsgChannelOpenConfirm" [text 5 "signer"] [one 5]),
   ("MsgChannelCloseInit", rule "MsgChannelCloseInit" [text 3 "signer"] [one 3]),
   ("MsgChannelCloseConfirm", rule "MsgChannelCloseConfirm" [text 5 "signer"] [one 5]),
   ("MsgRecvPacket", rule "MsgRecvPacket" [text 4 "signer"] [one 4]),
   ("MsgTimeout", rule "MsgTimeout" [text 5 "signer"] [one 5]),
   ("MsgTimeoutOnClose", rule "MsgTimeoutOnClose" [text 6 "signer"] [one 6]),
   ("MsgAcknowledgement", rule "MsgAcknowledgement" [text 5 "signer"] [one 5]),
   ("MsgCreateClient", rule "MsgCreateClient" [text 3 "signer"] [one 3]),
   ("MsgUpdateClient", rule "MsgUpdateClient" [text 3 "signer"] [one 3]),
   ("MsgUpgradeClient", rule "MsgUpgradeClient" [text 6 "signer"] [one 6]),
   ("MsgSubmitMisbehaviour", rule "MsgSubmitMisbehaviour" [text 3 "signer"] [one 3]),
   ("MsgConnectionOpenInit", rule "MsgConnectionOpenInit" [text 5 "signer"] [one 5]),
   ("MsgConnectionOpenTry", rule "MsgConnectionOpenTry" [text 12 "signer"] [one 12]),
   ("MsgConnectionOpenAck", rule "MsgConnectionOpenAck" [text 10 "signer"] [one 10]),
   ("MsgConnectionOpenConfirm", rule "MsgConnectionOpenConfirm" [text 4 "signer"] [one 4]),
   ("MsgRegisterPayee", rule "MsgRegisterPayee" [text 3 "relayer", text 4 "payee"]
     [one 3, one 4]),
   ("MsgRegisterCounterpartyPayee", rule "MsgRegisterCounterpartyPayee" [text 3 "relayer"]
     [one 3]),
   ("MsgPayPacketFee", rule "MsgPayPacketFee" [text 4 "signer", text 5 "relayers"]
     [one 4, each 5]),
   ("MsgPayPacketFeeAsync", rule "MsgPayPacketFeeAsync"
     [record 2 "packet_fee" "PacketFee" [text 2 "refund_address", text 3 "relayers"]]
     [inside 2 (.one 2), inside 2 (.each 3)])]

/-! ## The whole catalog -/

def all : List (String × SignerRule) :=
  bank ++ distribution ++ governance ++ staking ++ vesting ++ authorisation ++ group ++ marker ++
    nameAndAttribute ++ metadata ++ contract ++ relaying

end TxLens.Catalog

namespace TxLens

/-- The rules for all message types that the chain is known to emit. -/
def Registry.standard : Registry SignerRule := Registry.ofList Catalog.all

end TxLens

import TxLens.Event
/-!
# Accounts that a transaction touched

Some events name accounts in some of their attributes. A transaction touched those and the signers
of its messages.
-/

namespace TxLens.Events

/-- The event types that name accounts, and the keys of the attributes that do. -/
def accountKeys : List (String × List String) :=
  [("transfer", ["sender", "recipient"]),
   ("provenance.marker.v1.EventMarkerTransfer", ["administrator", "to_address", "from_address"]),
   ("provenance.marker.v1.EventMarkerAdd", ["manager"]),
   ("provenance.marker.v1.EventMarkerMint", ["administrator"]),
   ("provenance.marker.v1.EventMarkerWithdraw", ["administrator", "to_address"]),
   ("provenance.marker.v1.EventMarkerActivate", ["administrator"]),
   ("provenance.marker.v1.EventMarkerAddAccess", ["administrator"]),
   ("provenance.marker.v1.EventMarkerDeleteAccess", ["administrator", "remove_address"]),
   ("provenance.marker.v1.EventMarkerFinalize", ["administrator"]),
   ("provenance.marker.v1.EventMarkerCancel", ["administrator"]),
   ("provenance.marker.v1.EventMarkerBurn", ["administrator"]),
   ("provenance.marker.v1.EventMarkerDelete", ["administrator"]),
   ("fungible_token_packet", ["receiver"]),
   ("provenance.name.v1.EventNameBound", ["address"]),
   ("name_bound", ["address"]),
   ("cosmos.authz.v1beta1.EventGrant", ["granter", "grantee"]),
   ("cosmos.authz.v1beta1.EventRevoke", ["granter", "grantee"]),
   ("provenance.attribute.v1.EventAttributeAdd", ["account", "owner"]),
   ("provenance.attribute.v1.EventAttributeUpdate", ["account", "owner"]),
   ("provenance.attribute.v1.EventAttributeDelete", ["account", "owner"]),
   ("provenance.attribute.v1.EventAttributeDistinctDelete", ["account", "owner"]),
   ("cosmos.group.v1.EventCreateGroupPolicy", ["address"]),
   ("cosmos.group.v1.EventUpdateGroupPolicy", ["address"]),
   ("cosmos.group.v1.EventLeaveGroup", ["address"])]

/-- The accounts that one event names, in order, without quotes. -/
def accountsOf (e : Event) : List String :=
  match accountKeys.lookup e.type with
  | none => []
  | some keys => (e.attributes.filter fun a => keys.contains a.key).map fun a => unquote a.value

def accounts (es : List Event) : List String := es.flatMap accountsOf

/-- Adds an account at the end unless it is empty or there already. -/
def addAccount (seen : List String) (a : String) : List String :=
  if a = "" ∨ a ∈ seen then seen else seen ++ [a]

/-- The signers and the accounts that events name, each once, in the order of first mention. -/
def touched (signers : List String) (es : List Event) : List String :=
  (signers ++ accounts es).foldl addAccount []

end TxLens.Events

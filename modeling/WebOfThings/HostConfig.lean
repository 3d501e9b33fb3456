import WebOfThings.Credentials

/-!
# Configurations

What a host is set up with: its credentials, and how many notifications it keeps for a subscriber that lags
behind. This is `ServientConfig`. Both fields may be missing; the store is then empty and the capacity that
of a thing which is created on its own. The capacity is handed to every thing that the host produces, and a
host that is given a thing with its own live state leaves that as it is.

The configuration is a plain record: it reads from an object, whose other members are passed over, or from
the array of its fields in order. Reading it from its text, where a repeated field is a fault, stands with
the other texts of the vocabulary.
-/

namespace WebOfThings

/-- The configuration of a host. -/
structure HostConfig where
  credentials : CredentialStore := []
  channelCapacity : UInt64 := 64

namespace HostConfig

/-- The fields of a configuration, in order. -/
def fieldNames : List String := ["credentials", "channel_capacity"]

/-- The configuration that a value describes; both fields have defaults. -/
def ofJson? (v : Json) : Option HostConfig := do
  let members ← v.record? fieldNames 0
  let credentials ← Json.withDefault? CredentialStore.ofJson? [] "credentials" members
  let channelCapacity ← Json.withDefault? Json.asUInt64? 64 "channel_capacity" members
  return { credentials, channelCapacity }

/-- The configuration as a value. -/
def toJson (c : HostConfig) : Json :=
  .object [("credentials", c.credentials.toJson), ("channel_capacity", .ofUInt64 c.channelCapacity)]

end HostConfig
end WebOfThings

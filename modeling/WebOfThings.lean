import WebOfThings.Binary64.Basic
import WebOfThings.Binary64.Decimal
import WebOfThings.Binary64.Narrow
import WebOfThings.Binary64.Scaled
import WebOfThings.Dict
import WebOfThings.Json.Number
import WebOfThings.Json.Outline
import WebOfThings.Text.Blank
import WebOfThings.Text.Cut
import WebOfThings.Text.Hidden
import WebOfThings.Text.Hidden.Ranges
import WebOfThings.Text.Percent
import WebOfThings.Text.Quoted
import WebOfThings.Text.Utf8
import WebOfThings.Json.Basic
import WebOfThings.Json.Printer
import WebOfThings.Json.Token
import WebOfThings.Json.Reader
import WebOfThings.Cbor.Head
import WebOfThings.Cbor.Writer
import WebOfThings.Cbor.Reader
import WebOfThings.Json.Fields
import WebOfThings.Context
import WebOfThings.Labels
import WebOfThings.DataSchema
import WebOfThings.Form
import WebOfThings.Link
import WebOfThings.Security
import WebOfThings.Affordance
import WebOfThings.Thing.Basic
import WebOfThings.Codec.Basic
import WebOfThings.Codec.Numeral
import WebOfThings.Codec.PlainText
import WebOfThings.Codec.Registry
import WebOfThings.Form.InForce
import WebOfThings.Credentials
import WebOfThings.Query
import WebOfThings.HostConfig
import WebOfThings.Json.Beginning
import WebOfThings.Shape
import WebOfThings.Thing.Text
import WebOfThings.Draft.Affordance
import WebOfThings.Draft.Thing
import WebOfThings.Channel
import WebOfThings.LocalThing
import WebOfThings.Binding
import WebOfThings.Host.Basic
import WebOfThings.Host.Discovery
import WebOfThings.Host.Lifecycle
import WebOfThings.Remote
import WebOfThings.Draft.Script
import WebOfThings.Proofs.Json.Normal
import WebOfThings.Proofs.Json.Fields
import WebOfThings.Proofs.Json.Scalar
import WebOfThings.Proofs.Description.Record
import WebOfThings.Proofs.Description.Security
import WebOfThings.Proofs.Description.Timestamp
import WebOfThings.Proofs.Description.Vocabulary
import WebOfThings.Proofs.Description.Bindings
import WebOfThings.Proofs.Description.Schema
import WebOfThings.Proofs.Description.Affordance
import WebOfThings.Proofs.Description.Thing
import WebOfThings.Proofs.Remote.Selection
import WebOfThings.Proofs.Remote.Requests
import WebOfThings.Proofs.Remote.Stages
import WebOfThings.Proofs.LocalThing.Run
import WebOfThings.Proofs.Channel.Delivery
import WebOfThings.Proofs.LocalThing.Notifications
import WebOfThings.Proofs.LocalThing.Observers
import WebOfThings.Proofs.Binary64.Narrow
import WebOfThings.Proofs.Binary64.Rounding
import WebOfThings.Proofs.Binary64.Leading
import WebOfThings.Proofs.Cbor.RoundTrip
import WebOfThings.Proofs.Json.Numeral
import WebOfThings.Proofs.Json.FloatText
import WebOfThings.Proofs.Json.RoundTrip
import WebOfThings.Proofs.Codec.RoundTrip
import WebOfThings.Proofs.Codec.PlainText
import WebOfThings.Proofs.Codec.Acceptance
import WebOfThings.Proofs.Draft.Schema
import WebOfThings.Proofs.Draft.Thing
import WebOfThings.Proofs.Draft.Script
import WebOfThings.Proofs.Host.Calls
import WebOfThings.Proofs.Host.Lifecycle
import WebOfThings.Proofs.Host.Registry
import WebOfThings.Proofs.Template.Expansion
import WebOfThings.Proofs.Template.Escaping
import WebOfThings.Proofs.Href
import WebOfThings.Proofs.Remote.Scheme
import WebOfThings.Proofs.Description.Writable
import WebOfThings.Proofs.Draft.Tidy
import WebOfThings.Proofs.Draft.Export
import WebOfThings.Proofs.Credentials.Resolution
import WebOfThings.Proofs.Remote.Reexport
import WebOfThings.Proofs.Host.Alternation
import WebOfThings.Proofs.Description.Members
import WebOfThings.Proofs.Description.SchemaTypes
import WebOfThings.Proofs.Description.SchemaPlaces
import WebOfThings.Proofs.Description.SemanticTypes
import WebOfThings.Proofs.Query.Excerpt
import WebOfThings.Proofs.Query.SemanticType
import WebOfThings.Proofs.Codec.History
import WebOfThings.Proofs.Codec.Integers
import WebOfThings.Proofs.MediaType.Spelling
import WebOfThings.Proofs.MediaType.Quoted
import WebOfThings.Proofs.Turns
import WebOfThings.Proofs.LocalThing.Bulk
import WebOfThings.Proofs.Host.Discovery
import WebOfThings.Proofs.Template.Concatenation
import WebOfThings.Proofs.Query.Description
import WebOfThings.Proofs.Remote.Echo
import WebOfThings.Proofs.Remote.Bulk

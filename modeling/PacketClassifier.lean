import PacketClassifier.Address.Basic
import PacketClassifier.Address.Text
import PacketClassifier.Assoc
import PacketClassifier.Audit
import PacketClassifier.Baseline
import PacketClassifier.Binary64.Basic
import PacketClassifier.Binary64.Decimal
import PacketClassifier.CodePoint
import PacketClassifier.Command.Arguments
import PacketClassifier.Command.Run
import PacketClassifier.Config.Classifier
import PacketClassifier.Config.Rule
import PacketClassifier.DscpGroup
import PacketClassifier.Error
import PacketClassifier.Fetch
import PacketClassifier.Files
import PacketClassifier.Files.Node
import PacketClassifier.Files.Path
import PacketClassifier.Frame
import PacketClassifier.Icmp
import PacketClassifier.Instant.Basic
import PacketClassifier.Instant.Text
import PacketClassifier.Json.Basic
import PacketClassifier.Json.Printer
import PacketClassifier.Json.Reader
import PacketClassifier.Json.Skip
import PacketClassifier.Main
import PacketClassifier.Match.Predicate
import PacketClassifier.Match.Reader
import PacketClassifier.Model
import PacketClassifier.Protocol.Registry
import PacketClassifier.Provision.Controller
import PacketClassifier.Provision.Delivery
import PacketClassifier.Provision.Operation
import PacketClassifier.Provision.Plan
import PacketClassifier.Ruleset.Basic
import PacketClassifier.Ruleset.Text
import PacketClassifier.Schema.Mismatch
import PacketClassifier.Schema.Shape
import PacketClassifier.Schema.Text
import PacketClassifier.Service.Group
import PacketClassifier.Service.Model
import PacketClassifier.Settings
import PacketClassifier.Sha256
import PacketClassifier.Text.Blank
import PacketClassifier.Text.Hex
import PacketClassifier.Text.Hidden
import PacketClassifier.Text.Numeral
import PacketClassifier.Text.Utf8
import PacketClassifier.Wire.Field
import PacketClassifier.Wire.Ruleset
import PacketClassifier.Proofs.Text.Utf8
import PacketClassifier.Proofs.Text.Pieces
import PacketClassifier.Proofs.Wire.Varint
import PacketClassifier.Proofs.Wire.Field
import PacketClassifier.Proofs.Wire.Unknown
import PacketClassifier.Proofs.Wire.Layout
import PacketClassifier.Proofs.Wire.Ruleset
import PacketClassifier.Proofs.Wire.Padding
import PacketClassifier.Proofs.Wire.Truncated
import PacketClassifier.Proofs.Assoc
import PacketClassifier.Proofs.Json.Keyed
import PacketClassifier.Proofs.DscpGroup
import PacketClassifier.Proofs.Provision.Holds
import PacketClassifier.Proofs.Provision.Inventory
import PacketClassifier.Proofs.Provision.Plan
import PacketClassifier.Proofs.Files.Node
import PacketClassifier.Proofs.Json.RoundTrip
import PacketClassifier.Proofs.Files
import PacketClassifier.Proofs.Baseline
import PacketClassifier.Proofs.Provision.Delivery
import PacketClassifier.Proofs.Service.Group
import PacketClassifier.Proofs.Json.Reordered
import PacketClassifier.Proofs.Schema.Shape
import PacketClassifier.Proofs.Schema.Reordered
import PacketClassifier.Proofs.Schema.Text
import PacketClassifier.Proofs.Match.Walk
import PacketClassifier.Proofs.Match.Reordered
import PacketClassifier.Proofs.Model.Reordered
import PacketClassifier.Proofs.Frame
import PacketClassifier.Proofs.Files.Failure
import PacketClassifier.Proofs.Baseline.Failure
import PacketClassifier.Proofs.Json.Legible
import PacketClassifier.Proofs.Json.Compact
import PacketClassifier.Proofs.Service.Model
import PacketClassifier.Proofs.Service.Failure
import PacketClassifier.Proofs.Fetch
import PacketClassifier.Proofs.Frame.Limit
import PacketClassifier.Proofs.Provision.Retry
import PacketClassifier.Proofs.Service.Retry
import PacketClassifier.Proofs.Baseline.RoundTrip
import PacketClassifier.Proofs.Service.Session
import PacketClassifier.Proofs.Service.Refusal
import PacketClassifier.Proofs.Provision.Shape
import PacketClassifier.Proofs.Provision.Reordered
import PacketClassifier.Proofs.Provision.Lines
import PacketClassifier.Proofs.DscpGroup.Isolation
import PacketClassifier.Proofs.DscpGroup.Creation
import PacketClassifier.Proofs.Match.Kinds
import PacketClassifier.Proofs.Config.Rule
import PacketClassifier.Proofs.Config.Classifier
import PacketClassifier.Proofs.Json.Parallel
import PacketClassifier.Proofs.Uniform
import PacketClassifier.Proofs.Address.Network
import PacketClassifier.Proofs.Address.Sides
import PacketClassifier.Proofs.Match.WellFormed
import PacketClassifier.Proofs.Match.Names
import PacketClassifier.Proofs.Match.Spelling
import PacketClassifier.Proofs.Model.Entries
import PacketClassifier.Proofs.Model.WellFormed
import PacketClassifier.Proofs.Model.Modified
import PacketClassifier.Proofs.Audit
import PacketClassifier.Proofs.Text.Fields
import PacketClassifier.Proofs.Protocol.Registry
import PacketClassifier.Proofs.Protocol.Names
import PacketClassifier.Proofs.Written
import PacketClassifier.Proofs.Address.Groups
import PacketClassifier.Proofs.Address.RoundTrip
import PacketClassifier.Proofs.Match.Networks

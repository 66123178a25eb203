import TableMapper.Cache
import TableMapper.Calendar.Basic
import TableMapper.Calendar.Reader
import TableMapper.Code.Entity
import TableMapper.Code.Error
import TableMapper.Code.Generation
import TableMapper.Code.Identifier
import TableMapper.Code.Output
import TableMapper.Code.TypeSpelling
import TableMapper.Column.Kind
import TableMapper.Column.Type
import TableMapper.CommandLine.Arguments
import TableMapper.CommandLine.Help
import TableMapper.CommandLine.Inspection
import TableMapper.CommandLine.Program
import TableMapper.Config.Document
import TableMapper.Config.Entry
import TableMapper.Config.Fault
import TableMapper.Config.Format
import TableMapper.Config.Model
import TableMapper.Config.Resolution
import TableMapper.Entity.Basic
import TableMapper.Entity.Record
import TableMapper.Error
import TableMapper.Exchange.Basic
import TableMapper.Exchange.Query
import TableMapper.Exchange.Record
import TableMapper.Exchange.Settings
import TableMapper.Exchange.Table
import TableMapper.Exchange.Value
import TableMapper.Executor
import TableMapper.FieldType
import TableMapper.Files.Access
import TableMapper.Files.Path
import TableMapper.Files.Tree
import TableMapper.Json.Basic
import TableMapper.Json.Parser
import TableMapper.Json.Printer
import TableMapper.Main
import TableMapper.Mapper.Joined
import TableMapper.Mapper.Keyed
import TableMapper.Number.Decimal
import TableMapper.Number.Integer
import TableMapper.Pattern.Engine
import TableMapper.Pattern.Match
import TableMapper.Pattern.Native
import TableMapper.Pattern.Reader
import TableMapper.Proofs.Cache.Key
import TableMapper.Proofs.Code.Collisions
import TableMapper.Proofs.Code.Delivery
import TableMapper.Proofs.Code.Header
import TableMapper.Proofs.Code.Joins
import TableMapper.Proofs.Code.Options
import TableMapper.Proofs.Code.Rules
import TableMapper.Proofs.Code.Selection
import TableMapper.Proofs.Column.Descriptor
import TableMapper.Proofs.Config.Requirements
import TableMapper.Proofs.Config.Linking
import TableMapper.Proofs.Entity.Setters
import TableMapper.Proofs.Mapper.Cached
import TableMapper.Proofs.Mapper.Grouping
import TableMapper.Proofs.Mapper.Indexed
import TableMapper.Proofs.Mapper.JoinedColumns
import TableMapper.Proofs.Mapper.JoinedFields
import TableMapper.Proofs.Mapper.KeptKeys
import TableMapper.Proofs.Mapper.Race
import TableMapper.Proofs.Mapper.Regrouping
import TableMapper.Proofs.Mapper.Sending
import TableMapper.Proofs.Mapper.Writes
import TableMapper.Proofs.Pattern.Matching
import TableMapper.Proofs.Query.Allocation
import TableMapper.Proofs.Query.Assigned
import TableMapper.Proofs.Query.KeptValues
import TableMapper.Proofs.Query.Narrowing
import TableMapper.Proofs.Query.Pieces
import TableMapper.Proofs.Query.Placeholders
import TableMapper.Proofs.Query.QuotedNames
import TableMapper.Proofs.Query.Refusals
import TableMapper.Proofs.Query.Sharing
import TableMapper.Proofs.Query.Supplied
import TableMapper.Proofs.Query.ValueIndependence
import TableMapper.Proofs.Rule.Settled
import TableMapper.Proofs.Schema.KeyRoles
import TableMapper.Proofs.Settings.Failure
import TableMapper.Proofs.Shop.Setters
import TableMapper.Proofs.Wire.Parameters
import TableMapper.Proofs.Wire.Protocols
import TableMapper.Proofs.Wire.Received
import TableMapper.Proofs.Wire.RoundTrip
import TableMapper.Query.Bindings
import TableMapper.Query.Builder
import TableMapper.Query.Step
import TableMapper.Rule.Basic
import TableMapper.Rule.Boolean
import TableMapper.Rule.Check
import TableMapper.Schema.Column
import TableMapper.Schema.Live
import TableMapper.Schema.Table
import TableMapper.Settings.Basic
import TableMapper.Settings.DatabaseUrl
import TableMapper.Settings.Manifest
import TableMapper.Settings.Run
import TableMapper.Shop
import TableMapper.Sql.CreateTable
import TableMapper.Sql.DataType
import TableMapper.Sql.Script
import TableMapper.Text.Utf8
import TableMapper.Text.Words
import TableMapper.Toml.Reader
import TableMapper.Value
import TableMapper.Wire
import TableMapper.Yaml.Reader

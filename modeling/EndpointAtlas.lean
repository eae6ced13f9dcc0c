import EndpointAtlas.Calendar
import EndpointAtlas.Command.Arguments
import EndpointAtlas.Command.Glob
import EndpointAtlas.Command.Run
import EndpointAtlas.Command.Selection
import EndpointAtlas.Document.Address
import EndpointAtlas.Document.Directory
import EndpointAtlas.Document.FilePath
import EndpointAtlas.Document.Host
import EndpointAtlas.Document.Load
import EndpointAtlas.Document.Page
import EndpointAtlas.Document.Section
import EndpointAtlas.Endpoint.Body
import EndpointAtlas.Endpoint.Call
import EndpointAtlas.Endpoint.Check
import EndpointAtlas.Endpoint.Field
import EndpointAtlas.Endpoint.Media
import EndpointAtlas.Endpoint.Name
import EndpointAtlas.Endpoint.Operation
import EndpointAtlas.Endpoint.Parameter
import EndpointAtlas.Endpoint.Record
import EndpointAtlas.Endpoint.Table
import EndpointAtlas.Fault
import EndpointAtlas.Json.Plain
import EndpointAtlas.Json.Reader
import EndpointAtlas.Json.Writer
import EndpointAtlas.Log
import EndpointAtlas.Main
import EndpointAtlas.Numeric.Arithmetic
import EndpointAtlas.Numeric.Binary64
import EndpointAtlas.Numeric.Reading
import EndpointAtlas.Numeric.Shortest
import EndpointAtlas.Proofs.Checked
import EndpointAtlas.Proofs.Command.Listing
import EndpointAtlas.Proofs.Command.Selection
import EndpointAtlas.Proofs.Document.Agreement
import EndpointAtlas.Proofs.Document.Escape
import EndpointAtlas.Proofs.Document.Loading
import EndpointAtlas.Proofs.Endpoint.Accounting
import EndpointAtlas.Proofs.Endpoint.Arguments
import EndpointAtlas.Proofs.Endpoint.Body
import EndpointAtlas.Proofs.Endpoint.Call
import EndpointAtlas.Proofs.Endpoint.CamelCase
import EndpointAtlas.Proofs.Endpoint.Collecting
import EndpointAtlas.Proofs.Endpoint.Contribution
import EndpointAtlas.Proofs.Endpoint.Describe
import EndpointAtlas.Proofs.Endpoint.Isolation
import EndpointAtlas.Proofs.Endpoint.Misfit
import EndpointAtlas.Proofs.Endpoint.Nameless
import EndpointAtlas.Proofs.Endpoint.Override
import EndpointAtlas.Proofs.Endpoint.Parameter
import EndpointAtlas.Proofs.Endpoint.Rendering
import EndpointAtlas.Proofs.Endpoint.RoundTrip
import EndpointAtlas.Proofs.Endpoint.Run
import EndpointAtlas.Proofs.Endpoint.SchemaSource
import EndpointAtlas.Proofs.Endpoint.Schemas
import EndpointAtlas.Proofs.Endpoint.Shape
import EndpointAtlas.Proofs.Endpoint.Site
import EndpointAtlas.Proofs.Endpoint.WellFormed
import EndpointAtlas.Proofs.Json
import EndpointAtlas.Proofs.Json.Lines
import EndpointAtlas.Proofs.Json.Numbers
import EndpointAtlas.Proofs.Json.Reading
import EndpointAtlas.Proofs.Json.Spelling
import EndpointAtlas.Proofs.Members
import EndpointAtlas.Proofs.Outcome
import EndpointAtlas.Proofs.Reached
import EndpointAtlas.Proofs.Schema.Addressed
import EndpointAtlas.Proofs.Schema.Child
import EndpointAtlas.Proofs.Schema.Circle
import EndpointAtlas.Proofs.Schema.Conformance
import EndpointAtlas.Proofs.Schema.Conforming
import EndpointAtlas.Proofs.Schema.Depth
import EndpointAtlas.Proofs.Schema.ErrorLocation
import EndpointAtlas.Proofs.Schema.Expansion
import EndpointAtlas.Proofs.Schema.Extension
import EndpointAtlas.Proofs.Schema.Fuel
import EndpointAtlas.Proofs.Schema.Origin
import EndpointAtlas.Proofs.Schema.Preinlining
import EndpointAtlas.Proofs.Schema.Related
import EndpointAtlas.Proofs.Schema.SampleUnfolding
import EndpointAtlas.Proofs.Schema.Sampling
import EndpointAtlas.Proofs.Schema.SelfContained
import EndpointAtlas.Proofs.Schema.Session
import EndpointAtlas.Proofs.Schema.Trail
import EndpointAtlas.Proofs.Schema.Unfolding
import EndpointAtlas.Proofs.Schema.Untypable
import EndpointAtlas.Proofs.Schema.Visitor
import EndpointAtlas.Proofs.Schema.Visits
import EndpointAtlas.Proofs.Schema.Watch
import EndpointAtlas.Proofs.Text.Encoding
import EndpointAtlas.Proofs.Unrecorded
import EndpointAtlas.Proofs.Yaml.Building
import EndpointAtlas.Proofs.Yaml.Faults
import EndpointAtlas.Proofs.Yaml.Oversized
import EndpointAtlas.Proofs.Yaml.Plain
import EndpointAtlas.Proofs.Yaml.Position
import EndpointAtlas.Proofs.Yaml.Quoted
import EndpointAtlas.Proofs.Yaml.Relay
import EndpointAtlas.Proofs.Yaml.Scanning
import EndpointAtlas.Proofs.Yaml.Stepping
import EndpointAtlas.Proofs.Yaml.Unquoted
import EndpointAtlas.Schema.Error
import EndpointAtlas.Schema.Inline
import EndpointAtlas.Schema.Keyword
import EndpointAtlas.Schema.Location
import EndpointAtlas.Schema.Reference
import EndpointAtlas.Schema.Sample
import EndpointAtlas.Schema.Session
import EndpointAtlas.Text.Base64
import EndpointAtlas.Text.Blank
import EndpointAtlas.Text.Bytes
import EndpointAtlas.Text.Digit
import EndpointAtlas.Text.LabelChar
import EndpointAtlas.Text.Lower
import EndpointAtlas.Text.Printable
import EndpointAtlas.Text.Punycode
import EndpointAtlas.Text.Quoted
import EndpointAtlas.Text.Split
import EndpointAtlas.Text.Units
import EndpointAtlas.Text.Upper
import EndpointAtlas.Value.Basic
import EndpointAtlas.Value.Endless
import EndpointAtlas.Value.Equality
import EndpointAtlas.Value.Literal
import EndpointAtlas.Yaml.Cursor
import EndpointAtlas.Yaml.Document
import EndpointAtlas.Yaml.Node.Basic
import EndpointAtlas.Yaml.Node.Merge
import EndpointAtlas.Yaml.Node.Reading
import EndpointAtlas.Yaml.Scalar
import EndpointAtlas.Yaml.Tag
import EndpointAtlas.Yaml.Token

import Agentry.Artifact.Balanced
import Agentry.Artifact.Label
import Agentry.Artifact.Literal
import Agentry.Artifact.Parsed
import Agentry.Artifact.Template
import Agentry.Cli.Basic
import Agentry.Cli.Create
import Agentry.Cli.Grammar
import Agentry.Cli.Listing
import Agentry.Cli.Reply
import Agentry.Cli.Request
import Agentry.Cli.Surroundings
import Agentry.Decimal.Binary64
import Agentry.Decimal.Shortest
import Agentry.Error
import Agentry.Event
import Agentry.Files.Disk
import Agentry.Files.Error
import Agentry.Files.Path
import Agentry.Files.Tree
import Agentry.Gallery
import Agentry.Host.Basic
import Agentry.Host.Condition
import Agentry.Host.Expression
import Agentry.Host.Format
import Agentry.Host.Machine
import Agentry.Host.Numeral
import Agentry.Host.Octets
import Agentry.Host.Pattern
import Agentry.Host.Regular
import Agentry.Host.Search
import Agentry.Host.Shell.Builtin
import Agentry.Host.Shell.Command
import Agentry.Host.Shell.Expansion
import Agentry.Host.Shell.Fields
import Agentry.Host.Shell.Launch
import Agentry.Host.Shell.Lines
import Agentry.Host.Shell.Naming
import Agentry.Host.Shell.Program
import Agentry.Host.Shell.Reader
import Agentry.Host.Shell.Redirection
import Agentry.Host.Shell.Run
import Agentry.Host.Shell.Signals
import Agentry.Host.Shell.Simple
import Agentry.Host.Shell.State
import Agentry.Host.Shell.Variables
import Agentry.Host.Tool.Calculation
import Agentry.Host.Tool.EditScript
import Agentry.Host.Tool.Editing
import Agentry.Host.Tool.Files
import Agentry.Host.Tool.Lines
import Agentry.Host.Tool.Printing
import Agentry.Host.Tool.Selection
import Agentry.Host.Tool.Starting
import Agentry.Host.Tool.Work
import Agentry.Invocation.Behavior
import Agentry.Invocation.Coercion
import Agentry.Invocation.Input
import Agentry.Invocation.Result
import Agentry.Invocation.Run
import Agentry.Invocation.RunId
import Agentry.Invocation.State
import Agentry.Invocation.Timestamp
import Agentry.Json.Basic
import Agentry.Json.Canonical
import Agentry.Json.Decoder
import Agentry.Json.Document
import Agentry.Json.Number
import Agentry.Json.Printer
import Agentry.Json.Quote
import Agentry.Main
import Agentry.Registry
import Agentry.Response
import Agentry.Sandbox.Basic
import Agentry.Sandbox.Denylist
import Agentry.Sandbox.Directory
import Agentry.Sandbox.Record
import Agentry.Sha256
import Agentry.Slug
import Agentry.Spec.Basic
import Agentry.Spec.Codec
import Agentry.Spec.Digest
import Agentry.Spec.Error
import Agentry.Spec.FieldType
import Agentry.Spec.Schema
import Agentry.Store.Basic
import Agentry.Store.Policy
import Agentry.Text.Blank
import Agentry.Text.Glyphless
import Agentry.Text.Hex
import Agentry.Text.Lowercase
import Agentry.Text.Quoted
import Agentry.Text.Search
import Agentry.Text.Utf8
import Agentry.Proofs.Json.Grammar
import Agentry.Proofs.Artifact.Fence
import Agentry.Proofs.Artifact.Lines
import Agentry.Proofs.Artifact.Scan
import Agentry.Proofs.Json.Printer
import Agentry.Proofs.Artifact.Documents
import Agentry.Proofs.Artifact.Parts
import Agentry.Proofs.Spec.Codec
import Agentry.Proofs.Artifact.Header
import Agentry.Proofs.Artifact.Rendering
import Agentry.Proofs.Artifact.Rows
import Agentry.Proofs.Artifact.RoundTrip
import Agentry.Proofs.Json.Canonical
import Agentry.Proofs.Spec.Digest
import Agentry.Proofs.Artifact.Stamp
import Agentry.Proofs.Artifact.PromptIsolation
import Agentry.Proofs.Source.Reading
import Agentry.Proofs.Source.Literal
import Agentry.Proofs.Artifact.TypeName
import Agentry.Proofs.Slug
import Agentry.Proofs.Source.Program
import Agentry.Proofs.Store.Keeping
import Agentry.Proofs.Store.OneFile
import Agentry.Proofs.Cli.DisplayName
import Agentry.Proofs.Files.Paving
import Agentry.Proofs.Store.Failure
import Agentry.Proofs.Store.Effect
import Agentry.Proofs.Store.Rewriting
import Agentry.Proofs.Invocation.Lifecycle
import Agentry.Proofs.Registry
import Agentry.Proofs.Artifact.Produced
import Agentry.Proofs.Artifact.Canonical
import Agentry.Proofs.Files.Replacing
import Agentry.Proofs.Store.Again
import Agentry.Proofs.Cli.EditLoop
import Agentry.Invocation.Sharing
import Agentry.Proofs.Invocation.Isolation
import Agentry.Proofs.Artifact.Offsets
import Agentry.Proofs.Sandbox.Records
import Agentry.Proofs.Artifact.Degrading
import Agentry.Artifact.Slices
import Agentry.Proofs.Artifact.Octets
import Agentry.Proofs.Artifact.Slices
import Agentry.Proofs.Artifact.Reported
import Agentry.Proofs.Invocation.Coercion
import Agentry.Proofs.Artifact.Acceptance
import Agentry.Proofs.Artifact.Balance
import Agentry.Proofs.Artifact.DigestLines
import Agentry.Proofs.Decimal.Rounding
import Agentry.Proofs.Invocation.Integers
import Agentry.Proofs.Invocation.Lists
import Agentry.Proofs.Files.FileName
import Agentry.Proofs.Sandbox.Denylist
import Agentry.Proofs.Slug.Staged
import Agentry.Proofs.Spec.Members
import Agentry.Proofs.Spec.History
import Agentry.Proofs.Text.ByteOrder
import Agentry.Proofs.Json.NormalForm
import Agentry.Proofs.Store.Numbering
import Agentry.Proofs.Cli.TypedFields
import Agentry.Proofs.Cli.Listing
import Agentry.Proofs.Invocation.Reasons
import Agentry.Proofs.Artifact.Layout

import PolicyForge.Text.Category
import PolicyForge.Text.Blank
import PolicyForge.Text.Lines
import PolicyForge.Text.Quoted
import PolicyForge.Number.Style
import PolicyForge.Number.Decimal
import PolicyForge.Data.Json.Reader
import PolicyForge.Data.Record
import PolicyForge.Policy.Encode
import PolicyForge.Policy.Decode
import PolicyForge.Template.Basic
import PolicyForge.Source.Support
import PolicyForge.Host.Interrupt
import PolicyForge.Host.Disk
import PolicyForge.Host.Basic
import PolicyForge.Source.Rendering
import PolicyForge.Layout.Normalize
import PolicyForge.Build.Diagnostic
import PolicyForge.Framework.Identity
import PolicyForge.Package.Archive
import PolicyForge.Text.Utf8
import PolicyForge.Host.Script
import PolicyForge.Host.Unique
import PolicyForge.Package.Resolve
import PolicyForge.Build.Emit
import PolicyForge.Build.Companion
import PolicyForge.Data.Yaml.Cursor
import PolicyForge.Data.Yaml.Scalar
import PolicyForge.Data.Yaml.Token
import PolicyForge.Command.Run
import PolicyForge.Main
import PolicyForge.Proofs.Layout.Preservation
import PolicyForge.Proofs.Layout.Rules
import PolicyForge.Proofs.Layout.FixedPoint
import PolicyForge.Proofs.Layout.Regions
import PolicyForge.Proofs.Source.Standing
import PolicyForge.Proofs.Source.Balance
import PolicyForge.Proofs.Source.Meaning
import PolicyForge.Proofs.Source.Outcome
import PolicyForge.Proofs.Source.Members
import PolicyForge.Proofs.Source.Legality
import PolicyForge.Proofs.Source.Distinctness
import PolicyForge.Proofs.Source.LineBreaks
import PolicyForge.Proofs.Source.StrayBreaks
import PolicyForge.Proofs.Source.Quoting
import PolicyForge.Proofs.Source.ReadBack
import PolicyForge.Proofs.Source.DocLines
import PolicyForge.Proofs.Build.Compiler
import PolicyForge.Proofs.Build.Emission
import PolicyForge.Proofs.Build.Failure
import PolicyForge.Proofs.Build.Interruption
import PolicyForge.Proofs.Build.Shown
import PolicyForge.Proofs.Package.Cache
import PolicyForge.Proofs.Package.Filling
import PolicyForge.Proofs.Package.Stranded
import PolicyForge.Proofs.Package.Stability
import PolicyForge.Proofs.Policy.RoundTrip
import PolicyForge.Proofs.Build.Printed
import PolicyForge.Proofs.Text.ByteOrder
import PolicyForge.Proofs.Host.Listing
import PolicyForge.Proofs.Policy.Loading
import PolicyForge.Proofs.Command.Cancellation
import PolicyForge.Proofs.Build.Neighbours
import PolicyForge.Proofs.Build.Leftover
import PolicyForge.Proofs.Build.Companion
import PolicyForge.Proofs.Command.Setup
import PolicyForge.Proofs.Command.Outcome
import PolicyForge.Proofs.Source.NormalForms
import PolicyForge.Proofs.Package.Provenance
import PolicyForge.Proofs.Build.Overwriting
import PolicyForge.Proofs.Build.Documents
import PolicyForge.Proofs.Build.Linking
import PolicyForge.Proofs.Framework.Description
import PolicyForge.Proofs.Framework.Installed
import PolicyForge.Proofs.Host.Handles

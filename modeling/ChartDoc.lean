import ChartDoc.Compiler
import ChartDoc.Json.Writer
import ChartDoc.Proofs.Compiler.Blocks
import ChartDoc.Proofs.Compiler.Equality
import ChartDoc.Proofs.Compiler.Isolation
import ChartDoc.Proofs.Compiler.Labels
import ChartDoc.Proofs.Compiler.Resolution
import ChartDoc.Proofs.Compiler.Settings
import ChartDoc.Proofs.Compiler.Visible
import ChartDoc.Proofs.Renderer.Axes
import ChartDoc.Proofs.Renderer.Equality
import ChartDoc.Proofs.Schema.Dangling
import ChartDoc.Proofs.Schema.Registration
import ChartDoc.Proofs.Schema.SelfContained
import ChartDoc.Proofs.Table.Equality
import ChartDoc.Proofs.Table.Loading
import ChartDoc.Proofs.Table.Number
import ChartDoc.Proofs.Table.Records
import ChartDoc.Proofs.Validation.Agreement
import ChartDoc.Proofs.Validation.Edits
import ChartDoc.Proofs.Validation.Issues
import ChartDoc.Proofs.Validation.Publication
import ChartDoc.Proofs.Validation.RoundTrip
import ChartDoc.Proofs.Walk.Inlining
import ChartDoc.Proofs.Walk.Reachable
import ChartDoc.Proofs.Walk.Registered
import ChartDoc.Schema.Publication
import ChartDoc.Table.Records
import ChartDoc.Validation.Acceptance

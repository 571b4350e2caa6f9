import ResolutionPlan.Analysis
import ResolutionPlan.Cost.Loading
import ResolutionPlan.Cost.Table
import ResolutionPlan.Graph.Builder
import ResolutionPlan.Graph.Export
import ResolutionPlan.Json.Documents
import ResolutionPlan.Json.Lexeme
import ResolutionPlan.Json.Reader
import ResolutionPlan.Key
import ResolutionPlan.Plan
import ResolutionPlan.Proofs.Analysis.Composition
import ResolutionPlan.Proofs.Analysis.Interleaving
import ResolutionPlan.Proofs.Analysis.Totals
import ResolutionPlan.Proofs.Analysis.Trace
import ResolutionPlan.Proofs.Cost.Environment
import ResolutionPlan.Proofs.Cost.Isolation
import ResolutionPlan.Proofs.Cost.Loaders
import ResolutionPlan.Proofs.Cost.Objects
import ResolutionPlan.Proofs.Graph.BriefDocument
import ResolutionPlan.Proofs.Graph.Dot
import ResolutionPlan.Proofs.Graph.Layout
import ResolutionPlan.Proofs.Graph.Lossless
import ResolutionPlan.Proofs.Graph.Mermaid
import ResolutionPlan.Proofs.Graph.QuotedLabel
import ResolutionPlan.Proofs.Graph.RoundTrip
import ResolutionPlan.Proofs.Graph.Tree
import ResolutionPlan.Proofs.Json.AnyValue
import ResolutionPlan.Proofs.Json.Lexemes
import ResolutionPlan.Proofs.Json.Range
import ResolutionPlan.Proofs.Json.Reading
import ResolutionPlan.Proofs.Plan.Constructions
import ResolutionPlan.Proofs.Plan.Invocation
import ResolutionPlan.Proofs.Plan.Tree
import ResolutionPlan.Proofs.Text.ShortName
import ResolutionPlan.Text.Characters
import ResolutionPlan.Text.Notation
import ResolutionPlan.Usage
import ResolutionPlan.Yaml

import BuilderFields.Main
import BuilderFields.Proofs.Entries
import BuilderFields.Proofs.Term.Assignment
import BuilderFields.Proofs.Term.Resolve
import BuilderFields.Proofs.Term.Run
import BuilderFields.Proofs.Term.Soundness
import BuilderFields.Proofs.Term.Trail
import BuilderFields.Proofs.Term.Conflict
import BuilderFields.Proofs.Term.Completeness
import BuilderFields.Proofs.Term.Cycle
import BuilderFields.Proofs.Term.Ring
import BuilderFields.Proofs.Term.Descent
import BuilderFields.Proofs.Term.Matching
import BuilderFields.Proofs.Term.Relabel
import BuilderFields.Proofs.TypeExpr
import BuilderFields.Proofs.Registry
import BuilderFields.Proofs.Registry.Instance
import BuilderFields.Proofs.Inference.System
import BuilderFields.Proofs.Inference.Soundness
import BuilderFields.Proofs.Inference.Principality
import BuilderFields.Proofs.Inference.Matching
import BuilderFields.Proofs.Registry.Renaming
import BuilderFields.Proofs.Inference.Renaming
import BuilderFields.Proofs.Inference.Conflict
import BuilderFields.Proofs.Registry.Calls
import BuilderFields.Proofs.Registry.Tables
import BuilderFields.Proofs.Term.Passing
import BuilderFields.Proofs.Registry.Written
import BuilderFields.Proofs.Registry.RoundTrip
import BuilderFields.Proofs.Inference.Passing
import BuilderFields.Proofs.Style.Sorting
import BuilderFields.Proofs.Style.Builtin
import BuilderFields.Proofs.Token
import BuilderFields.Proofs.Token.Layout
import BuilderFields.Proofs.Token.Word
import BuilderFields.Proofs.Token.Coverage
import BuilderFields.Proofs.Rule
import BuilderFields.Proofs.TypeExpr.Grammar
import BuilderFields.Proofs.TypeExpr.Legible
import BuilderFields.Proofs.Signature.Grammar
import BuilderFields.Proofs.Signature.Legible
import BuilderFields.Proofs.Inference.Rendering
import BuilderFields.Proofs.Term.Alike
import BuilderFields.Proofs.Inference.Independence
import BuilderFields.Proofs.Plan
import BuilderFields.Proofs.Plan.Alignment
import BuilderFields.Proofs.Plan.Decoding
import BuilderFields.Proofs.Request
import BuilderFields.Proofs.CommandLine
import BuilderFields.Proofs.Json.Reading
import BuilderFields.Proofs.Json.Location
import BuilderFields.Proofs.Request.Requirement
import BuilderFields.Proofs.Request.Defect
import BuilderFields.Proofs.Request.Acceptance
import BuilderFields.Proofs.Request.OwnStyle
import BuilderFields.Proofs.Text.Utf8
import BuilderFields.Proofs.Log.Lineage
import BuilderFields.Proofs.Text.LetterCase
import BuilderFields.Proofs.Log.Filter
import BuilderFields.Proofs.Log.Setup

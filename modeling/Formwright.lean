import Formwright.Form.Navigation
import Formwright.Form.Text
import Formwright.Form.OfResult
import Formwright.Logging
import Formwright.Main
import Formwright.Proofs.Forest.Links
import Formwright.Proofs.Form.Flattening
import Formwright.Proofs.Batch.Recording
import Formwright.Proofs.Batch.Accounting
import Formwright.Proofs.Form.Mapping
import Formwright.Proofs.Value.Texts
import Formwright.Proofs.Form.Inspection
import Formwright.Proofs.Statistics.Collecting
import Formwright.Proofs.Batch.Isolation
import Formwright.Proofs.Value.Keys
import Formwright.Proofs.Statistics.Counts
import Formwright.Proofs.Statistics.Merge
import Formwright.Proofs.Batch.Completion
import Formwright.Proofs.Batch.Schedule
import Formwright.Proofs.Batch.Cancellation
import Formwright.Proofs.Value.Records
import Formwright.Proofs.Form.Record
import Formwright.Proofs.StableSort
import Formwright.Proofs.Sql.Scripts
import Formwright.Proofs.Sql.Ordering
import Formwright.Proofs.Text.Numerals
import Formwright.Proofs.Identifier
import Formwright.Proofs.Nintex.Layout
import Formwright.Proofs.Nintex.Building
import Formwright.Proofs.Json.Writing
import Formwright.Proofs.Form.Typed
import Formwright.Proofs.Nintex.Variables
import Formwright.Proofs.Nintex.Generating
import Formwright.Proofs.Nintex.Pages
import Formwright.Proofs.Analysis.Declared
import Formwright.Proofs.Nintex.References
import Formwright.Proofs.Sql.Columns
import Formwright.Proofs.Sql.Tokens
import Formwright.Proofs.Sql.Lookups
import Formwright.Proofs.Generation.Artifacts
import Formwright.Proofs.Sql.Names
import Formwright.Proofs.Sql.Comments
import Formwright.Proofs.Sql.Clauses
import Formwright.Proofs.Sql.References
import Formwright.Proofs.Sql.Sections
import Formwright.Proofs.Sql.Switches
import Formwright.Proofs.Nintex.Switches
import Formwright.Proofs.Forest.Rebuilding
import Formwright.Proofs.Form.Rebuilding
import Formwright.Proofs.Analysis.Schema
import Formwright.Proofs.Analysis.Correspondence
import Formwright.Proofs.Analysis.Spelling
import Formwright.Proofs.Form.Declared
import Formwright.Proofs.Statistics.Totals
import Formwright.Proofs.Nintex.Inventory
import Formwright.Proofs.Json.Strings
import Formwright.Proofs.Json.Numbers
import Formwright.Proofs.Json.Documents
import Formwright.Proofs.Value.Fields
import Formwright.Proofs.Json.Reading
import Formwright.Proofs.Json.Canonical
import Formwright.Proofs.Form.Alike
import Formwright.Proofs.Form.Encoding
import Formwright.Proofs.Forest.Unfolding
import Formwright.Proofs.Form.Sharing
import Formwright.Proofs.Nintex.Bindings
import Formwright.Proofs.Json.Expressible
import Formwright.Proofs.Form.Serialisable
import Formwright.Proofs.Generation.Renaming
import Formwright.Proofs.Batch.Renaming
import Formwright.Proofs.Forest.Subforests
import Formwright.Proofs.Form.Navigation
import Formwright.Proofs.Batch.Operations
import Formwright.Proofs.Batch.Outcomes
import Formwright.Proofs.Statistics.Laws
import Formwright.Proofs.Pointwise
import Formwright.Proofs.FreeName
import Formwright.Proofs.Form.Names
import Formwright.Proofs.Form.Results
import Formwright.Proofs.Text.Blanks
import Formwright.Proofs.Form.Flags
import Formwright.Proofs.Form.Warnings
import Formwright.Proofs.Form.Repeats
import Formwright.Proofs.Nintex.Rules
import Formwright.Proofs.Identifier.Shape
import Formwright.Proofs.Value.Comparing
import Formwright.Proofs.Options
import Formwright.Proofs.Sql.Lengths
import Formwright.Proofs.Batch.Outputs
import Formwright.Proofs.Text.Digits
import Formwright.Proofs.Grid

import SqlFragments.Inspect
import SqlFragments.Json.Binding
import SqlFragments.Json.Settings
import SqlFragments.Json.Write
import SqlFragments.Proofs.Builder.Separators
import SqlFragments.Proofs.Clause.Blankness
import SqlFragments.Proofs.Clause.ClauseOrder
import SqlFragments.Proofs.Clause.Meaning
import SqlFragments.Proofs.Clause.Nesting
import SqlFragments.Proofs.Clause.Precedence
import SqlFragments.Proofs.Clause.PredicateText
import SqlFragments.Proofs.Compiler.Collapsing
import SqlFragments.Proofs.Compiler.Commands
import SqlFragments.Proofs.Compiler.Decoding
import SqlFragments.Proofs.Identifier.Grammar
import SqlFragments.Proofs.Identifier.Quotes
import SqlFragments.Proofs.Json.Rereading
import SqlFragments.Proofs.Postgres.Acceptance
import SqlFragments.Proofs.Postgres.Integers
import SqlFragments.Proofs.Postgres.Narrowing
import SqlFragments.Proofs.Script.Separation
import SqlFragments.Proofs.Script.Splicing
import SqlFragments.Proofs.Template.Faults
import SqlFragments.Proofs.Template.Grammar
import SqlFragments.Proofs.Template.Weaving
import SqlFragments.Proofs.Text.Spacing
import SqlFragments.Script.Step
import SqlFragments.Toml.Read

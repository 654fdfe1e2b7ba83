import AccessRules.CommandLine.Machine
import AccessRules.Main
import AccessRules.Proofs.CommandLine.Evaluation
import AccessRules.Proofs.Permission.Noninterference
import AccessRules.Proofs.Permission.Totality
import AccessRules.Proofs.Rule.Canonical
import AccessRules.Proofs.Rule.Grammar.Exact
import AccessRules.Proofs.Rule.Grammar.Impossible
import AccessRules.Proofs.Rule.Interchange
import AccessRules.Proofs.Rule.Steep
import AccessRules.Proofs.Sql.Acceptance
import AccessRules.Proofs.Sql.Agreement
import AccessRules.Proofs.Sql.Caller
import AccessRules.Proofs.Sql.Grouping
import AccessRules.Proofs.Sql.Independence
import AccessRules.Proofs.Sql.Like
import AccessRules.Proofs.Sql.Placeholders
import AccessRules.Proofs.Sql.Sentence
import AccessRules.Proofs.Rule.Token.Written
import AccessRules.Proofs.Rule.Token.Layout
import AccessRules.Proofs.Rule.Grammar.Places
import AccessRules.Proofs.Rule.Token.Spacing
import AccessRules.Proofs.Sql.Binding
import AccessRules.Proofs.Number.Rounding
import AccessRules.Proofs.Number.Nearest
import AccessRules.Proofs.Number.Shortest
import AccessRules.Proofs.Rule.Token.FloatText
import AccessRules.Proofs.Value.Transitive
import AccessRules.Proofs.Rule.Strict
import AccessRules.Proofs.Sql.Words
import AccessRules.Proofs.Rule.Report
import AccessRules.Proofs.Schema.Loading
import AccessRules.Proofs.Schema.Fields
import AccessRules.Proofs.Schema.JsonForm
import AccessRules.Proofs.Rule.Resolution
import AccessRules.Proofs.Rule.Bracketing
import AccessRules.Proofs.Value.JsonForm

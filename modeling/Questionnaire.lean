import Questionnaire.Answers
import Questionnaire.Calendar
import Questionnaire.Expr.Basic
import Questionnaire.Expr.Evaluation
import Questionnaire.Expr.Memo
import Questionnaire.Expr.Metrics
import Questionnaire.Expr.Parser
import Questionnaire.Expr.Template
import Questionnaire.Expr.Token
import Questionnaire.Failure
import Questionnaire.Function.Builtin
import Questionnaire.Function.Library
import Questionnaire.Json.Printer
import Questionnaire.Json.Reader
import Questionnaire.Logic.Binding
import Questionnaire.Logic.Dependency
import Questionnaire.Logic.Diagnostic
import Questionnaire.Logic.Feedback
import Questionnaire.Names
import Questionnaire.Number.Basic
import Questionnaire.Number.Decimal
import Questionnaire.Number.Double
import Questionnaire.Number.Logarithm
import Questionnaire.Number.Numeral
import Questionnaire.Number.Power
import Questionnaire.Path
import Questionnaire.Proofs.Expr.Addresses
import Questionnaire.Proofs.Expr.Boundaries
import Questionnaire.Proofs.Expr.Completion
import Questionnaire.Proofs.Expr.Faults
import Questionnaire.Proofs.Expr.Grammar
import Questionnaire.Proofs.Expr.Locations
import Questionnaire.Proofs.Expr.Operations
import Questionnaire.Proofs.Expr.Parsing
import Questionnaire.Proofs.Expr.Printing
import Questionnaire.Proofs.Expr.Reading
import Questionnaire.Proofs.Expr.Remembering
import Questionnaire.Proofs.Expr.Spacing
import Questionnaire.Proofs.Expr.Templates
import Questionnaire.Proofs.Expr.Tiling
import Questionnaire.Proofs.Expr.Wholes
import Questionnaire.Proofs.Function.Aggregates
import Questionnaire.Proofs.Json.Quoted
import Questionnaire.Proofs.Json.RoundTrip
import Questionnaire.Proofs.Json.Tidy
import Questionnaire.Proofs.Legible
import Questionnaire.Proofs.Logic.Feedback
import Questionnaire.Proofs.Logic.Isolation
import Questionnaire.Proofs.Logic.Levels
import Questionnaire.Proofs.Logic.Loops
import Questionnaire.Proofs.Logic.Order
import Questionnaire.Proofs.Logic.Ranks
import Questionnaire.Proofs.Logic.Reach
import Questionnaire.Proofs.Logic.Rules
import Questionnaire.Proofs.Lookup
import Questionnaire.Proofs.Number.Comparison
import Questionnaire.Proofs.Number.Logarithm
import Questionnaire.Proofs.Number.Numerals
import Questionnaire.Proofs.Number.Rounding
import Questionnaire.Proofs.Number.Written
import Questionnaire.Proofs.Outcome
import Questionnaire.Proofs.Session.Act
import Questionnaire.Proofs.Session.Application
import Questionnaire.Proofs.Session.Cap
import Questionnaire.Proofs.Session.Dispatch
import Questionnaire.Proofs.Session.Downstream
import Questionnaire.Proofs.Session.Edges
import Questionnaire.Proofs.Session.Escapes
import Questionnaire.Proofs.Session.Evaluations
import Questionnaire.Proofs.Session.Formats
import Questionnaire.Proofs.Session.Freshness
import Questionnaire.Proofs.Session.History
import Questionnaire.Proofs.Session.Journey
import Questionnaire.Proofs.Session.Moments
import Questionnaire.Proofs.Session.Notices
import Questionnaire.Proofs.Session.Opening
import Questionnaire.Proofs.Session.Overrides
import Questionnaire.Proofs.Session.Paging
import Questionnaire.Proofs.Session.Reporting
import Questionnaire.Proofs.Session.Resets
import Questionnaire.Proofs.Session.Retention
import Questionnaire.Proofs.Session.Run
import Questionnaire.Proofs.Session.Settling
import Questionnaire.Proofs.Session.Steps
import Questionnaire.Proofs.Session.Sweep
import Questionnaire.Proofs.Session.Triggers
import Questionnaire.Proofs.Session.Turns
import Questionnaire.Proofs.Session.Validity
import Questionnaire.Proofs.Survey.Ancestry
import Questionnaire.Proofs.Survey.Containment
import Questionnaire.Proofs.Survey.Forecast
import Questionnaire.Proofs.Survey.Keeping
import Questionnaire.Proofs.Survey.RoundTrip
import Questionnaire.Proofs.Survey.Saved
import Questionnaire.Proofs.Survey.Uniqueness
import Questionnaire.Proofs.Value.Equality
import Questionnaire.Proofs.Value.Order
import Questionnaire.Proofs.Value.Proper
import Questionnaire.Proofs.Value.Written
import Questionnaire.Session.Basic
import Questionnaire.Session.Firing
import Questionnaire.Session.Navigation
import Questionnaire.Session.Propagation
import Questionnaire.Session.Settings
import Questionnaire.Session.Start
import Questionnaire.Session.Validation
import Questionnaire.Session.Writing
import Questionnaire.Survey.Basic
import Questionnaire.Survey.Document
import Questionnaire.Survey.Example
import Questionnaire.Survey.Format
import Questionnaire.Survey.Report
import Questionnaire.Table
import Questionnaire.Text.Blank
import Questionnaire.Text.Cased
import Questionnaire.Text.Digit
import Questionnaire.Text.LowerCase
import Questionnaire.Text.Pattern
import Questionnaire.Text.Printable
import Questionnaire.Text.Quoted
import Questionnaire.Value.Basic
import Questionnaire.Value.Coercion
import Questionnaire.Value.Equality
import Questionnaire.Value.Key
import Questionnaire.Value.Shown
import Questionnaire.Yaml.Node
import Questionnaire.Yaml.Plain
import Questionnaire.Yaml.Printer
import Questionnaire.Yaml.Reader
import Questionnaire.Yaml.Scalar
import Questionnaire.Proofs.Expr.Measures
import Questionnaire.Proofs.Number.LeadingDigits
import Questionnaire.Proofs.Number.Nearness

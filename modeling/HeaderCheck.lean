import HeaderCheck.Builtins
import HeaderCheck.Dict
import HeaderCheck.Header.Location
import HeaderCheck.Header.Lower
import HeaderCheck.Json.Double
import HeaderCheck.Json.Printer
import HeaderCheck.Json.Reader
import HeaderCheck.Json.Record
import HeaderCheck.Json.Token
import HeaderCheck.Json.Value
import HeaderCheck.Project.Compile
import HeaderCheck.Project.Error
import HeaderCheck.Project.Host
import HeaderCheck.Project.Options
import HeaderCheck.Project.Session
import HeaderCheck.Report.Diagnostic
import HeaderCheck.Report.Kind
import HeaderCheck.Scope.Arena
import HeaderCheck.Scope.Basic
import HeaderCheck.Scope.Error
import HeaderCheck.Script.Build
import HeaderCheck.Script.Decode
import HeaderCheck.Script.Encode
import HeaderCheck.Script.Query
import HeaderCheck.Script.Size
import HeaderCheck.Script.Stamp
import HeaderCheck.Script.Tree
import HeaderCheck.Signature.Build
import HeaderCheck.Signature.Decode
import HeaderCheck.Signature.Encode
import HeaderCheck.Signature.Size
import HeaderCheck.Signature.Tree
import HeaderCheck.Text.Path
import HeaderCheck.Text.Pool
import HeaderCheck.Text.Span
import HeaderCheck.Text.SpanForm
import HeaderCheck.Text.Template
import HeaderCheck.Types.Basic
import HeaderCheck.Types.Format
import HeaderCheck.Types.Narrow
import HeaderCheck.Types.Outline
import HeaderCheck.Types.Place
import HeaderCheck.Types.Subtype
import HeaderCheck.Types.Table
import HeaderCheck.Verify.Assign
import HeaderCheck.Verify.Branch
import HeaderCheck.Verify.Call
import HeaderCheck.Verify.Function
import HeaderCheck.Verify.Generic
import HeaderCheck.Verify.Infer
import HeaderCheck.Verify.Member
import HeaderCheck.Verify.Operator
import HeaderCheck.Verify.Report
import HeaderCheck.Verify.State
import HeaderCheck.Verify.Statement
import HeaderCheck.Verify.Visit
import HeaderCheck.Verify.Visitor
import HeaderCheck.Proofs.Builtins
import HeaderCheck.Proofs.Run
import HeaderCheck.Proofs.Types.Parts
import HeaderCheck.Proofs.Types.Reachable
import HeaderCheck.Proofs.Types.Rules
import HeaderCheck.Proofs.Types.Levels
import HeaderCheck.Proofs.Types.Join
import HeaderCheck.Proofs.Types.Transitive
import HeaderCheck.Proofs.Types.Narrowing
import HeaderCheck.Proofs.Types.Growth
import HeaderCheck.Proofs.Text.Path
import HeaderCheck.Proofs.Script.Mentions
import HeaderCheck.Proofs.Script.Nodes
import HeaderCheck.Proofs.Scope.Chain
import HeaderCheck.Proofs.Scope.Narrowed
import HeaderCheck.Proofs.Scope.Keeps
import HeaderCheck.Proofs.Scope.Operations
import HeaderCheck.Proofs.Header.Lower
import HeaderCheck.Proofs.Project.Keeps
import HeaderCheck.Proofs.Project.Session
import HeaderCheck.Proofs.Verify.Notes
import HeaderCheck.Proofs.Verify.Run
import HeaderCheck.Proofs.Verify.Frame
import HeaderCheck.Proofs.Verify.Narrowing
import HeaderCheck.Proofs.Verify.Sound
import HeaderCheck.Proofs.Verify.Entered
import HeaderCheck.Proofs.Verify.Runs
import HeaderCheck.Proofs.Verify.Visiting
import HeaderCheck.Proofs.Verify.Expressions
import HeaderCheck.Proofs.Verify.Functions
import HeaderCheck.Proofs.Verify.Calls
import HeaderCheck.Proofs.Verify.Statements
import HeaderCheck.Proofs.Verify.Source
import HeaderCheck.Proofs.Project.Imports
import HeaderCheck.Proofs.Project.Check
import HeaderCheck.Proofs.Project.Missing
import HeaderCheck.Proofs.Project.Refusals
import HeaderCheck.Proofs.Project.Termination
import HeaderCheck.Proofs.Project.Advance
import HeaderCheck.Proofs.Project.Collect
import HeaderCheck.Proofs.Project.Reported
import HeaderCheck.Proofs.Project.Known
import HeaderCheck.Proofs.Scope.Limits
import HeaderCheck.Proofs.Verify.Region
import HeaderCheck.Proofs.Verify.Region.Functions
import HeaderCheck.Proofs.Verify.Region.Expressions
import HeaderCheck.Proofs.Verify.Region.Statements
import HeaderCheck.Proofs.Project.Names
import HeaderCheck.Proofs.Verify.Assigned
import HeaderCheck.Proofs.Project.Assigned
import HeaderCheck.Proofs.Verify.Lexical
import HeaderCheck.Proofs.Project.Lexical
import HeaderCheck.Proofs.Verify.Like
import HeaderCheck.Proofs.Scope.Twins
import HeaderCheck.Proofs.Scope.Onward
import HeaderCheck.Proofs.Verify.Tandem
import HeaderCheck.Proofs.Verify.Tandem.Notes
import HeaderCheck.Proofs.Verify.Tandem.Functions
import HeaderCheck.Proofs.Verify.Tandem.Expressions
import HeaderCheck.Proofs.Verify.Tandem.Statements
import HeaderCheck.Proofs.Script.Unplaced
import HeaderCheck.Proofs.Verify.Alike
import HeaderCheck.Proofs.Verify.Tandem.Source
import HeaderCheck.Proofs.Project.Positions
import HeaderCheck.Proofs.Verify.Context
import HeaderCheck.Proofs.Project.Context
import HeaderCheck.Proofs.Project.Joins
import HeaderCheck.Proofs.Scope.Owners
import HeaderCheck.Proofs.Verify.Covers
import HeaderCheck.Proofs.Verify.Covers.Calls
import HeaderCheck.Proofs.Verify.Covers.Functions
import HeaderCheck.Proofs.Verify.Covers.Expressions
import HeaderCheck.Proofs.Verify.Covers.Statements
import HeaderCheck.Proofs.Verify.Covers.Source
import HeaderCheck.Proofs.Project.Covered
import HeaderCheck.Proofs.Header.Termination
import HeaderCheck.Proofs.Json.Record
import HeaderCheck.Proofs.Script.RoundTrip
import HeaderCheck.Proofs.Signature.RoundTrip
import HeaderCheck.Proofs.Types.Replacement
import HeaderCheck.Proofs.Header.Location
import HeaderCheck.Proofs.Types.Outline
import HeaderCheck.Proofs.Types.Same
import HeaderCheck.Proofs.Types.Independence
import HeaderCheck.Proofs.Header.Again
import HeaderCheck.Proofs.Header.Inline
import HeaderCheck.Proofs.Header.Scoping
import HeaderCheck.Proofs.Project.Imported
import HeaderCheck.Proofs.Scope.Lawful
import HeaderCheck.Proofs.Scope.Refused
import HeaderCheck.Proofs.Types.Meet
import HeaderCheck.Proofs.Types.Required
import HeaderCheck.Proofs.Types.Failure
import HeaderCheck.Proofs.Types.History
import HeaderCheck.Proofs.Types.Combination
import HeaderCheck.Proofs.Types.Lens
import HeaderCheck.Proofs.Types.Substitution
import HeaderCheck.Proofs.Types.Acceptance
import HeaderCheck.Proofs.Types.Filtering
import HeaderCheck.Proofs.Types.Alternatives
import HeaderCheck.Proofs.Verify.Comparison
import HeaderCheck.Proofs.Verify.Solutions
import HeaderCheck.Proofs.Lockstep
import HeaderCheck.Proofs.Types.Counterparts
import HeaderCheck.Proofs.Scope.Related
import HeaderCheck.Proofs.Scope.Parallel
import HeaderCheck.Proofs.Header.Parallel
import HeaderCheck.Proofs.Verify.Parallel
import HeaderCheck.Proofs.Verify.Parallel.Functions
import HeaderCheck.Proofs.Verify.Parallel.Access
import HeaderCheck.Proofs.Verify.Parallel.Calls
import HeaderCheck.Proofs.Verify.Parallel.Statements
import HeaderCheck.Proofs.Verify.Parallel.Sources
import HeaderCheck.Proofs.Project.Acyclic
import HeaderCheck.Proofs.Project.Start
import HeaderCheck.Proofs.Project.Order
import HeaderCheck.Proofs.Project.History
import HeaderCheck.Proofs.Project.Handles
import HeaderCheck.Proofs.Project.Grown
import HeaderCheck.Proofs.Project.Logical
import HeaderCheck.Proofs.Scope.Fields
import HeaderCheck.Proofs.Verify.Layout
import HeaderCheck.Proofs.Project.Layout
import HeaderCheck.Proofs.Verify.Arity
import HeaderCheck.Proofs.Scope.Observed
import HeaderCheck.Proofs.Signature.Occurrences
import HeaderCheck.Proofs.Header.Tally
import HeaderCheck.Proofs.Header.Unknown
import HeaderCheck.Proofs.Header.Resolution
import HeaderCheck.Proofs.Project.Spelling
import HeaderCheck.Proofs.Report.Message
import HeaderCheck.Proofs.Text.Span
import HeaderCheck.Proofs.Header.Grammar
import HeaderCheck.Proofs.Text.Pool
import HeaderCheck.Proofs.Script.Stamp

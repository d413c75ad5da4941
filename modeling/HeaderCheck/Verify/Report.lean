import HeaderCheck.Types.Subtype
import HeaderCheck.Verify.State

/-!
# HeaderCheck.Verify.Report

Diagnostics about the source at hand.

* `report`: record a diagnostic and go on.
* `checkFits`: record that a value does not fit where it goes.
-/

namespace HeaderCheck.Verify

open HeaderCheck.Report (Diagnostic Kind)
open HeaderCheck.Types (Failure TypeId)

namespace State

/-- A diagnostic about a place in the source. -/
def diagnostic (s : State) (kind : Kind) (span : Span) (fields : List (String × String)) :
    Diagnostic :=
  Diagnostic.of kind s.source.path (some span) fields

/-- The diagnostic that says why a type does not fit another one. -/
def failureDiagnostic (s : State) (span : Span) : Failure → Diagnostic
  | .typeClassMismatch expected actual =>
    s.diagnostic .typeClassMismatch span
      [("expected", s.format expected), ("actual", s.format actual)]
  | .missingObjectField field expected actual =>
    s.diagnostic .missingObjectField span
      [("fieldName", field), ("expected", s.format expected), ("actual", s.format actual)]
  | .brandMismatch expected actual =>
    s.diagnostic .brandMismatch span
      [("expected", s.format expected), ("actual", s.format actual)]
  | .functionArgCountMismatch expected actual =>
    s.diagnostic .functionArgCountMismatch span
      [("expected", s.format expected), ("actual", s.format actual)]

/-- What is wrong with a value of type `actual` where `expected` is required. -/
def mismatch? (s : State) (span : Span) (expected actual : TypeId) : Option Diagnostic :=
  match s.table.check expected actual with
  | .ok () => none
  | .error failure => some (s.failureDiagnostic span failure)

end State

/-- Record diagnostics. -/
def record (diagnostics : List Diagnostic) : Check Unit :=
  modify fun s => { s with diagnostics := s.diagnostics ++ diagnostics }

/-- Record a diagnostic about a place in the source. -/
def report (kind : Kind) (span : Span) (fields : List (String × String)) : Check Unit :=
  modify fun s => { s with diagnostics := s.diagnostics ++ [s.diagnostic kind span fields] }

/-- Whether a value of type `actual` may stand where `expected` is required; if not, record it. -/
def checkFits (span : Span) (expected actual : TypeId) : Check Bool := do
  match (← get).mismatch? span expected actual with
  | some diagnostic =>
    record [diagnostic]
    return false
  | none => return true

def reportUntypedFunction (span : Span) (name : String) : Check Unit :=
  report .untypedFunctionFound span [("funcName", name)]

def reportMissingField (span : Span) (field object : String) : Check Unit :=
  report .nonExistentField span [("fieldName", field), ("objName", object)]

/-- Record a wrong number of arguments or parameters. -/
def reportArity (kind : Kind) (span : Span) (name : String) (expected actual : Nat) : Check Unit :=
  report kind span
    [("funcName", name), ("expectedArgs", toString expected), ("actualArgs", toString actual)]

end HeaderCheck.Verify

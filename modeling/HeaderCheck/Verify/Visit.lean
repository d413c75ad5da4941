import HeaderCheck.Script.Size
import HeaderCheck.Verify.Assign
import HeaderCheck.Verify.Branch

/-!
# HeaderCheck.Verify.Visit

The verification of all expressions, statements and sources.

* `verifyExpr`, `verifyStmt`: one node, given the visitor of its parts.
* `visitor`: the visitor for trees of a bounded depth. What a call causes to be verified lies
  elsewhere in the tree, but each function is verified only once at a time, so no chain of
  visits is longer than the tree has nodes.
* `verifySource`: a whole source with the header beside it.
-/

namespace HeaderCheck.Verify

open HeaderCheck.Project (Host Options SessionM resolveHeader)
open HeaderCheck.Script (Expr Stmt)
open HeaderCheck.Types (TypeId)

/-- The type of an expression; `none` after a diagnostic. -/
def verifyExpr (v : Visitor) : Expr → Check (Option TypeId)
  | .identifier id => verifyIdentifier id
  | .literal literal => return some (literalType literal)
  | .this span => verifyThis span
  | .array elements _ => verifyArray v elements
  | .object properties _ => verifyObject v properties
  | .function f => verifyFunctionExpr v f
  | .assignment operator left right span => verifyAssignment v operator left right span
  | .member object property computed span => Access.verify v { object, property, computed, span }
  | .call callee arguments span => Call.verify v { callee, arguments, span }
  | .new callee arguments span => Call.verifyNew v { callee, arguments, span }
  | .binary operator left right span => verifyBinary v operator left right span
  | .logical operator left right _ => verifyLogical v operator left right
  | .unary operator argument _ span | .update operator argument _ span =>
    verifyUnary v operator argument span
  | .conditional test consequent alternate _ => verifyConditional v test consequent alternate

def verifyStmt (v : Visitor) : Stmt → Check Unit
  | .declaration declaration => verifyVariables v declaration
  | .function f => verifyDeclared v f
  | .expression e _ | .throws e _ => do
    let _ ← v.expr e
  | .block body _ => v.block body
  | .branch test consequent alternate _ => verifyIf v test consequent alternate
  | .whileLoop test body _ => verifyWhile v test body
  | .forLoop init test update body _ => verifyFor v init test update body
  | .returns argument span => verifyReturn v argument span
  | .empty _ => return ()

/-- The visitor that follows chains of at most `fuel` visits. -/
def visitor (require : (file request : String) → SessionM Required) : (fuel : Nat) → Visitor
  | 0 => { expr := fun _ => throw .outOfFuel, stmt := fun _ => throw .outOfFuel, require }
  | fuel + 1 =>
    { expr := fun e => verifyExpr (visitor require fuel) e
      stmt := fun stmt => verifyStmt (visitor require fuel) stmt
      require }

/-! ## Sources -/

/-- Bind names in the scope of the file. -/
def bindInFile : List (String × TypeId) → Check Unit
  | [] => return ()
  | (name, type) :: rest => do
    let scope := (← get).fileScope
    onArena fun a => a.addVar scope name type
    bindInFile rest

/-- Bind what every module finds in its scope. -/
def bindModuleNames : Check Unit := do
  let module ← onTable fun table => table.object [{ name := "exports", type := .moduleExports }]
  bindInFile [("module", module), ("__dirname", .string), ("__filename", .string)]

/-- Bind what the header beside the source assigns. -/
def bindHeader (host : Host) (options : Options) : Check Unit := do
  let path := options.headerPath (← get).source.path
  match ← onSession (resolveHeader host options path) with
  | none => return ()
  | some header =>
    record header.diagnostics
    bindInFile header.assignments

/-- Bind what is in sight before the first statement of a source. -/
def bindSource (host : Host) (options : Options) : Check Unit := do
  bindModuleNames
  registerFunctions (← get).source.program.body
  bindHeader host options

/-- Verify the source that a state was started with. -/
def verifySource (host : Host) (options : Options)
    (require : (file request : String) → SessionM Required) : Check Unit := do
  let program := (← get).source.program
  bindSource host options
  (visitor require (program.size + 1)).statements program.body

end HeaderCheck.Verify

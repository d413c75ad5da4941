import HeaderCheck.Script.Query
import HeaderCheck.Verify.Report

/-!
# HeaderCheck.Verify.Visitor

How the verification of a node reaches the parts of the node.

* `Visitor`: the verification of expressions and statements and the check of required modules.
  Each construct is verified by a function that takes the visitor for its parts.
* `Visitor.value`: the type of an expression without a context.
* `Visitor.into`: the type of a value that goes to a slot; an untyped function that is named
  there takes the type of the slot.
* `Visitor.statements`: a list of statements, the functions among them last.
-/

namespace HeaderCheck.Verify

open HeaderCheck.Project (SessionM)
open HeaderCheck.Script (Expr Stmt)
open HeaderCheck.Types (TypeId)

/-- What requiring a module gives. -/
inductive Required where
  | resolved (path : String) (exports : TypeId)
  /-- The module is being checked further up the chain of requires. -/
  | cyclic
  | notFound
deriving DecidableEq, Repr

/-- Verification of parts. An expression without a type gives `none`. -/
structure Visitor where
  expr : Expr → Check (Option TypeId)
  stmt : Stmt → Check Unit
  /-- What the module `request` gives to a file. -/
  require : (file request : String) → SessionM Required

/-- Give the untyped function that `e` names the function type `expected`. -/
def bindUntyped? (e : Expr) (expected : TypeId) : Check (Option TypeId) := do
  let s ← get
  match e with
  | .identifier id =>
    if s.table.isFunction expected && (s.lookup id.name).isNone && s.isUntyped id.name then
      let _ ← onArena fun a => a.updateFunction s.focus.scope id.name expected
      return some expected
    else return none
  | _ => return none

/-- Record the functions among `stmts` as functions without a type. -/
def registerFunctions : List Stmt → Check Unit
  | [] => return ()
  | .function f :: rest => do
    let scope := (← get).focus.scope
    onArena fun a => a.addFunction scope f.name f
    registerFunctions rest
  | _ :: rest => registerFunctions rest

namespace Visitor

/-- The type of an expression without a context. -/
def value (v : Visitor) (e : Expr) : Check (Option TypeId) :=
  expecting none (v.expr e)

/-- The type of a value that goes to a slot of type `expected`. -/
def into (v : Visitor) (e : Expr) : (expected : Option TypeId) → Check (Option TypeId)
  | none => v.value e
  | some expected => do
    match ← bindUntyped? e expected with
    | some bound => return some bound
    | none => expecting (some expected) (v.expr e)

/-- Verify statements in order. -/
def inOrder (v : Visitor) : List Stmt → Check Unit
  | [] => return ()
  | stmt :: rest => do
    v.stmt stmt
    v.inOrder rest

/-- Verify statements in order, the functions among them last. -/
def statements (v : Visitor) (stmts : List Stmt) : Check Unit := do
  v.inOrder (stmts.filter fun stmt => !stmt.isFunction)
  v.inOrder (stmts.filter fun stmt => stmt.isFunction)

/-- Verify the statements of a block: its functions are in sight from the beginning. -/
def block (v : Visitor) (stmts : List Stmt) : Check Unit := do
  registerFunctions stmts
  v.statements stmts

end Visitor

end HeaderCheck.Verify

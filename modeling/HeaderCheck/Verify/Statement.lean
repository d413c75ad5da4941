import HeaderCheck.Verify.Function

/-!
# HeaderCheck.Verify.Statement

Declarations of variables and return statements.

* `verifyDeclarator`: a variable without a declared type takes that of its initial value.
* `verifyReturn`: the type of a return statement is noted with the function around it.
-/

namespace HeaderCheck.Verify

open HeaderCheck.Script (Declaration Declarator Expr)
open HeaderCheck.Types (TypeId)

/-! ## Variables -/

/-- Whether an expression is the literal `null`. -/
def isNullLiteral : Expr → Bool
  | .literal literal => literal.kind = .null
  | _ => false

/-- A variable that has a declared type. -/
def verifyDeclaredVariable (v : Visitor) (name : String) (declared : TypeId) (init : Expr) :
    Check Unit := do
  match ← v.into init (some declared) with
  | none => return ()
  | some actual =>
    if declared.growsFreely then
      let owner := (← get).owner
      let _ ← onArena fun a => a.forceUpdateVar owner name actual
    else
      let _ ← checkFits init.span declared actual

/-- A variable whose type comes from its initial value. Reads of one whose value has no type are
not reported. -/
def verifyNewVariable (v : Visitor) (name : String) (init : Expr) : Check Unit := do
  let owner := (← get).owner
  if isNullLiteral init then onArena fun a => a.addVar owner name .nullDefault
  else
    match ← v.into init none with
    | some actual => onArena fun a => a.addVar owner name actual
    | none => modify fun s => { s with unknown := name :: s.unknown }

/-- The type that a variable has in the file or function that declares it. -/
def State.ownDeclaredType? (s : State) (name : String) : Option TypeId :=
  if s.arena.hasOwnVar s.owner name then s.typeIn s.owner name .writable else none

def verifyDeclarator (v : Visitor) (declarator : Declarator) : Check Unit := do
  let s ← get
  let name := declarator.id.name
  match s.ownDeclaredType? name, declarator.init with
  | some declared, some init => verifyDeclaredVariable v name declared init
  | some _, none => return ()
  | none, none => onArena fun a => a.addVar s.owner name .uninitialized
  | none, some init => verifyNewVariable v name init

def verifyDeclarators (v : Visitor) : List Declarator → Check Unit
  | [] => return ()
  | declarator :: rest => do
    verifyDeclarator v declarator
    verifyDeclarators v rest

def verifyVariables (v : Visitor) (declaration : Declaration) : Check Unit :=
  verifyDeclarators v declaration.declarators

/-! ## Return statements -/

/-- Run `m` for the argument of a return statement of a function with result `expected`. -/
def whileReturning {α : Type} (expected : TypeId) (m : Check α) : Check α := do
  let scope := (← get).focus.scope
  onArena fun a => a.enterReturn scope expected
  ExceptT.mk fun s =>
    let (result, after) := m.run s
    match onArena (fun a => a.exitReturn scope) |>.run after with
    | (.ok (), after) => (result, after)
    | (.error e, after) => (.error e, after)

/-- The type of what is returned; an argument without a type has been reported. -/
def returnedType (v : Visitor) : Option Expr → Check TypeId
  | some argument => return (← v.value argument).getD .any
  | none => return .void

def verifyReturn (v : Visitor) (argument : Option Expr) (span : Span) : Check Unit := do
  let s ← get
  match s.arena.functionInfo? s.focus.scope, argument with
  | none, some argument =>
    let _ ← v.expr argument
  | none, none => return ()
  | some info, argument =>
    let returned ← whileReturning info.returnType (returnedType v argument)
    onArena fun a => a.markReturnType s.focus.scope returned span

end HeaderCheck.Verify

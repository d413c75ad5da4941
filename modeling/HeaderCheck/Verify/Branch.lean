import HeaderCheck.Types.Narrow
import HeaderCheck.Verify.Statement

/-!
# HeaderCheck.Verify.Branch

Branches of the control flow and what their conditions say about types.

Each arm of a branch has a scope of its own. A condition narrows variables in the arm where it
holds and in the arm where it does not:

* `x` is not `null` or `undefined` in the one and has a falsy value in the other;
* `typeof x === "tag"`, `x === null` and `x === undefined` keep the members of a union that fit, or
  those that do not;
* `!c` exchanges the arms, `a && b` says both in the arm where it holds, and `a || b` says both in
  the other.

The main definitions are `narrow`, `mergeArms`, which keeps what both arms agree on, and one
function for each construct with branches.
-/

namespace HeaderCheck.Verify

open HeaderCheck.Scope (ScopeId)
open HeaderCheck.Script (Expr ForInit Stmt)
open HeaderCheck.Types (Table TypeId)

/-! ## Conditions -/

/-- Narrow a variable in a scope, starting from its type there. -/
def narrowIn (scope : ScopeId) (name : String)
    (change : Table → TypeId → Option (TypeId × Table)) : Check Unit := do
  match (← get).typeIn scope name .normal with
  | none => return ()
  | some current =>
    match ← onTable? fun table => change table current with
    | none => return ()
    | some narrowed => onArena fun a => a.restrict scope name narrowed

/-- The variable in `typeof x`. -/
def typeofOperand? : Expr → Option String
  | .unary "typeof" argument _ _ => argument.identifier?.map fun id => id.name
  | _ => none

def stringLiteral? : Expr → Option String
  | .literal literal => literal.string?
  | _ => none

/-- The variable that is compared with `null` or `undefined`. -/
def guarded? : Expr → Option String
  | .identifier id => if id.name = "undefined" then none else some id.name
  | _ => none

/-- The type of an expression that can only be `null` or only `undefined`. -/
def nullish? : Expr → Option TypeId
  | .literal literal => if literal.kind = .null then some .null else none
  | .identifier id => if id.name = "undefined" then some .undefined else none
  | _ => none

/-- What `f` and `g` say about two operands, in either order. -/
def eitherOrder {α β : Type} (f : Expr → Option α) (g : Expr → Option β) (left right : Expr) :
    Option (α × β) :=
  match f left, g right with
  | some a, some b => some (a, b)
  | _, _ =>
    match f right, g left with
    | some a, some b => some (a, b)
    | _, _ => none

/-- Whether an operator compares for equality or for difference. -/
def comparison? : String → Option Bool
  | "===" | "==" => some true
  | "!==" | "!=" => some false
  | _ => none

/-- Record what a comparison says in the scope where it holds and in the one where it does not. -/
def narrowComparison (operator : String) (left right : Expr) (holds fails : ScopeId) :
    Check Unit := do
  match comparison? operator with
  | none => return ()
  | some positive =>
    match eitherOrder typeofOperand? stringLiteral? left right with
    | some (name, tag) =>
      narrowIn holds name fun table type => table.narrowByTypeof? type tag positive
      narrowIn fails name fun table type => table.narrowByTypeof? type tag !positive
    | none =>
      match eitherOrder guarded? nullish? left right with
      | some (name, value) =>
        narrowIn holds name fun table type => table.narrowByValue? type value positive
        narrowIn fails name fun table type => table.narrowByValue? type value !positive
      | none => return ()

/-- Record what a condition says in the scope where it holds and in the one where it does not. -/
def narrow : Expr → (holds fails : ScopeId) → Check Unit
  | .identifier id, holds, fails => do
    narrowIn holds id.name Table.removeNullish?
    narrowIn fails id.name Table.falsyPart?
  | .unary operator argument _ _, holds, fails =>
    if operator = "!" then narrow argument fails holds else return ()
  | .binary operator left right _, holds, fails => narrowComparison operator left right holds fails
  | .logical operator left right _, holds, fails => do
    -- Where the operands are not known to agree, what they say is lost.
    let scratch ← openBranch
    if operator = "&&" then
      narrow left holds scratch
      narrow right holds scratch
    else if operator = "||" then
      narrow left scratch fails
      narrow right scratch fails
  | _, _, _ => return ()

/-! ## Arms -/

/-- Open the two arms of a condition and narrow variables in them. -/
def openArms (test : Expr) : Check (ScopeId × ScopeId) := do
  let holds ← openBranch
  let fails ← openBranch
  narrow test holds fails
  return (holds, fails)

/-- What both arms say of the same name. -/
def agreed (one other : List (String × TypeId)) : List (String × TypeId) :=
  one.filter fun (name, type) => name ≠ Scope.Arena.thisName && other.contains (name, type)

/-- Take over narrowed types into the current scope. A file or a function takes one narrowed type
for each name. -/
def settle : List (String × TypeId) → Check Unit
  | [] => return ()
  | (name, type) :: rest => do
    let s ← get
    let known := (s.arena.restrictions s.focus.scope).any fun (other, _) => other = name
    if s.lookup name ≠ some type && (s.inBranch || !known) then
      onArena fun a => a.restrict s.focus.scope name type
    settle rest

/-- Keep after a branch what both arms agree on. -/
def mergeArms (holds fails : ScopeId) : Check Unit := do
  let arena := (← get).arena
  settle (agreed (arena.restrictions holds) (arena.restrictions fails))

/-! ## Statements -/

def verifyIf (v : Visitor) (test : Expr) (consequent : Stmt) (alternate : Option Stmt) :
    Check Unit := do
  let _ ← v.value test
  let (holds, fails) ← openArms test
  inScope holds (v.stmt consequent)
  match alternate with
  | some alternate => inScope fails (v.stmt alternate)
  | none => pure ()
  mergeArms holds fails

def verifyWhile (v : Visitor) (test : Expr) (body : Stmt) : Check Unit := do
  let _ ← v.value test
  let (holds, _) ← openArms test
  inScope holds (v.stmt body)

def verifyForInit (v : Visitor) : Option ForInit → Check Unit
  | some (.declaration declaration) => verifyVariables v declaration
  | some (.expression e) => do
    let _ ← v.value e
  | none => return ()

def verifyFor (v : Visitor) (init : Option ForInit) (test update : Option Expr) (body : Stmt) :
    Check Unit := do
  verifyForInit v init
  let holds ← openBranch
  let fails ← openBranch
  match test with
  | some test =>
    let _ ← v.value test
    narrow test holds fails
  | none => pure ()
  inScope holds do
    v.stmt body
    match update with
    | some update =>
      let _ ← v.value update
    | none => pure ()

/-! ## Expressions -/

/-- `left && right` and `left || right`. The right side is verified where the left one decides
nothing; `||` gives the left side without `null` and `undefined`, or the right side. -/
def verifyLogical (v : Visitor) (operator : String) (left right : Expr) :
    Check (Option TypeId) := do
  match ← v.value left with
  | none => return none
  | some leftType =>
    let isOr := operator = "||"
    let taken ← openBranch
    let skipped ← openBranch
    if isOr then narrow left skipped taken else narrow left taken skipped
    match ← inScope taken (v.expr right) with
    | none => return none
    | some rightType =>
      if isOr then
        let rest ← onTable? fun table => table.removeNullish? leftType
        return some (← onTable fun table => table.union2 (rest.getD leftType) rightType)
      else return some rightType

/-- `test ? consequent : alternate` has the type of either. -/
def verifyConditional (v : Visitor) (test consequent alternate : Expr) :
    Check (Option TypeId) := do
  let _ ← v.value test
  let (holds, fails) ← openArms test
  let consequent ← inScope holds (v.expr consequent)
  let alternate ← inScope fails (v.expr alternate)
  match consequent, alternate with
  | some consequent, some alternate =>
    return some (← onTable fun table => table.union2 consequent alternate)
  | _, _ => return none

end HeaderCheck.Verify

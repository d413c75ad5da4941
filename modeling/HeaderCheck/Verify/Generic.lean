import HeaderCheck.Verify.Visitor
import HeaderCheck.Types.Place

/-!
# HeaderCheck.Verify.Generic

Type variables of a function, solved at a call.

Each occurrence of a type variable has a location in the function type. One below an argument or
below `this` reads the type at the same place in what the call passes; any other must have a
solution by then.

* `Call.solve`: the solutions of the type variables, from the occurrences in order.
* `reconcile?`: two solutions of one variable combine to the wider one.
* `Call.instantiate`: the function type with the solutions put in.
-/

namespace HeaderCheck.Verify

open HeaderCheck.Script (Expr)
open HeaderCheck.Types (FunctionShape Occurrence Step Table TypeId)

/-- A call, or the construction of an object by `new`. -/
structure Call where
  callee : Expr
  arguments : List Expr
  span : Span

/-- What a call passes to a function: the types of its arguments, those of function expressions
being open, and the type of the object whose method is called. -/
structure Passed where
  arguments : List (Option TypeId)
  receiver : Option TypeId

/-- Combine two solutions of a type variable. One that is itself without a solution yields;
otherwise the one that accepts the other is kept. -/
def reconcile? (table : Table) (previous found : TypeId) : Option TypeId :=
  if table.isFree found then some previous
  else if table.isFree previous then some found
  else if table.isSubtype previous found then some previous
  else if table.isSubtype found previous then some found
  else none

/-- Where the solution of an occurrence comes from. -/
inductive Origin where
  /-- The type to read it from, and the place in the source to report. -/
  | passed (type : TypeId) (span : Span)
  /-- The call passes nothing there. -/
  | absent
  /-- Another occurrence of the variable. -/
  | elsewhere

namespace Call

/-- The callee as diagnostics name it. -/
def name (call : Call) (s : State) : String :=
  s.source.snippet call.callee.span

/-- Where the solution of an occurrence comes from, by the first step of its location. -/
def origin (call : Call) (passed : Passed) : Step → Origin
  | .arg i =>
    match call.arguments[i]?, passed.arguments[i]? with
    | some argument, some (some type) => .passed type argument.span
    | _, _ => .absent
  | .this =>
    match passed.receiver with
    | some type => .passed type call.callee.span
    | none => .absent
  | _ => .elsewhere

/-- Take the type found at an occurrence into account. -/
def solveOne (solved : Dict TypeId) (name : String) (found : TypeId) (span : Span) :
    Check (Option (Dict TypeId)) := do
  let s ← get
  match solved.get? name with
  | none => return some (solved.insert name found)
  | some previous =>
    match reconcile? s.table previous found with
    | some next => return some (solved.insert name next)
    | none =>
      report .typeClassMismatch span
        [("expected", s.format previous), ("actual", s.format found)]
      return none

/-- The solutions of the type variables, from their occurrences in order; `none` when that fails,
after a diagnostic. -/
def solve (call : Call) (passed : Passed) :
    List Occurrence → Dict TypeId → Check (Option (Dict TypeId))
  | [], solved => return some solved
  | occurrence :: rest, solved => do
    let s ← get
    match occurrence.location with
    | [] => throw (.malformedGenericLocation occurrence.name .empty)
    | first :: path =>
      match call.origin passed first with
      | .absent => call.solve passed rest solved
      | .elsewhere =>
        if solved.contains occurrence.name then call.solve passed rest solved
        else
          report .unresolvedGeneric call.span
            [("funcName", call.name s), ("genericName", occurrence.name)]
          return none
      | .passed type span =>
        match s.table.typeAt? type path with
        | none => call.solve passed rest solved
        | some found =>
          match ← solveOne solved occurrence.name found span with
          | some solved => call.solve passed rest solved
          | none => return none

/-- The replacements that a solution of the type variables makes in a function type. -/
def bindings (occurrences : List Occurrence) (solved : Dict TypeId) : List (List Step × TypeId) :=
  occurrences.filterMap fun occurrence =>
    (solved.get? occurrence.name).map fun type => (occurrence.location, type)

/-- The function with solutions put in, and without type variables. -/
def putIn (table : Table) (callee : TypeId) (bindings : List (List Step × TypeId)) :
    TypeId × Table :=
  let (made, table) := table.instantiate callee bindings
  match table.functionShape? made with
  | some shape => table.function { shape with generics := [] }
  | none => (made, table)

/-- The function type of a callee at this call; `none` after a diagnostic. -/
def instantiate (call : Call) (callee : TypeId) (shape : FunctionShape) (passed : Passed) :
    Check (Option TypeId) := do
  match ← call.solve passed shape.generics {} with
  | none => return none
  | some solved =>
    return some (← onTable fun table => putIn table callee (bindings shape.generics solved))

end Call

end HeaderCheck.Verify

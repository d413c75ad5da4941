import HeaderCheck.Verify.Visitor

/-!
# HeaderCheck.Verify.Function

Functions against their declared types.

* `verifyFunction`: a function body under the parameters that its type gives.
* `checkFieldOrder`: a constructor assigns the fields of its object in the declared order, so
  that all its objects have one layout.
* `checkReturned`: the last return statement fits the declared result.
-/

namespace HeaderCheck.Verify

open HeaderCheck.Report (Kind)
open HeaderCheck.Scope (FunctionInfo ScopeId isConstructorName)
open HeaderCheck.Script (Function Identifier)
open HeaderCheck.Types (Param TypeId)

/-- Bind the parameters of a function in its scope. One that may be left out is read as being
possibly `undefined`. -/
def bindParams (scope : ScopeId) : List (Identifier × Param) → Check Unit
  | [] => return ()
  | (id, param) :: rest => do
    let type ←
      if param.optional then onTable fun table => table.union2 param.type .undefined
      else pure param.type
    onArena fun a => a.addVar scope id.name type
    bindParams scope rest

/-! ## What a body must have done -/

/-- The first declared field that is not assigned at its place, with what is assigned there
instead. Fields of the prototype are exempt. -/
def misplacedField? (exempt : String → Bool) :
    (declared assigned : List String) → Option (String × Option String)
  | [], _ => none
  | field :: declared, assigned =>
    if assigned.head? = some field || exempt field then
      misplacedField? exempt declared assigned.tail
    else some (field, assigned.head?)

/-- Record the first field of a constructor that is not assigned in the declared order. -/
def checkFieldOrder (f : Function) (info : FunctionInfo) : Check Unit := do
  let s ← get
  match info.thisType.bind s.table.objectShape? with
  | none => return ()
  | some shape =>
    let exempt (field : String) : Bool :=
      (s.arena.prototypeFields? s.focus.scope f.name).any fun fields => fields.contains field
    match misplacedField? exempt (shape.fields.map fun field => field.name) info.knownFields with
    | none => return ()
    | some (field, other) =>
      report .missingFieldInConstructor f.span
        [("fieldName", field), ("otherField", other.getD "no-field")]

/-- Record a return statement in a constructor. -/
def checkConstructorReturn (f : Function) (info : FunctionInfo) : Check Unit := do
  match info.knownReturnType with
  | none => return ()
  | some returned =>
    let span := info.returnSpan.getD f.span
    if returned = .void then report .returnStatementInConstructor span [("funcName", f.name)]
    else
      report .nonVoidReturnInConstructor span
        [("funcName", f.name), ("returnType", (← get).format returned)]

/-- Whether a function of this result needs no return statement. -/
def needsNoReturn (result : TypeId) : Bool :=
  result = .void || result = .undefined || result.isAnyLike

/-- Record that the last return statement does not fit the declared result, or that there is none.
A result that is being inferred accepts everything. -/
def checkReturned (f : Function) (info : FunctionInfo) : Check Unit := do
  let declared := info.returnType
  if declared = .unknownReturn then return ()
  else
    match info.knownReturnType with
    | some actual =>
      let _ ← checkFits (info.returnSpan.getD f.span) declared actual
    | none =>
      if !needsNoReturn declared then
        report .missingReturnStatement f.span
          [("funcName", f.name), ("expected", (← get).format declared)]

/-- What is checked once a body has been verified. -/
def checkBody (f : Function) (info : FunctionInfo) : Check Unit := do
  if info.isConstructor then
    checkFieldOrder f info
    checkConstructorReturn f info
  else checkReturned f info

/-! ## Functions -/

/-- Verify the body of a function in the scope made for it. -/
def enterBody (v : Visitor) (f : Function) (scope : ScopeId) : Check Unit := do
  modify fun s => { s with entered := (scope, f) :: s.entered }
  inScope scope (v.block f.body)

/-- Verify a function against its declared type. `key` tells its scope from those of the other
functions around it. -/
def verifyFunction (v : Visitor) (f : Function) (declared : TypeId) (key : String) :
    Check Unit := do
  let s ← get
  match s.table.functionShape? declared with
  | none =>
    report .typeClassMismatch f.span [("expected", s.format declared), ("actual", "Function")]
  | some shape =>
    let scope ← onArena fun a =>
      a.pushFunction s.focus.scope
        { name := key, thisType := shape.this, returnType := shape.result, funcType := declared,
          isConstructor := isConstructorName f.name }
    let expected := shape.params.length
    let actual := f.params.length
    if actual ≠ expected then
      let kind : Kind := if expected < actual then .tooManyArgsInFunc else .tooFewArgsInFunc
      reportArity kind f.span f.name expected actual
    else
      bindParams scope (f.params.zip shape.params)
      enterBody v f scope
      match (← get).arena.functionInfo? scope with
      | some info => checkBody f info
      | none => return ()

/-- Verify a declared function, unless a call has caused that already. -/
def verifyDeclared (v : Visitor) (f : Function) : Check Unit := do
  let s ← get
  if s.hasFunctionScope f.name then return ()
  else
    match s.declaredType f.name with
    | some declared => verifyFunction v f declared f.name
    | none => reportUntypedFunction f.span f.name

/-- The key of a function expression: its name with its place. -/
def expressionKey (f : Function) : String :=
  f.name ++ "@" ++ toString f.span.start.line.toNat ++ ":" ++ toString f.span.start.column.toNat

/-- A function expression takes its type from the context. -/
def verifyFunctionExpr (v : Visitor) (f : Function) : Check (Option TypeId) := do
  let s ← get
  match s.contextType?.filter s.table.isFunction with
  | none =>
    reportUntypedFunction f.span f.name
    return none
  | some declared =>
    if !s.hasFunctionScope (expressionKey f) then
      verifyFunction v f declared (expressionKey f)
    return some declared

/-- The name of a function from the key of its scope. -/
def nameOfKey (key : String) : String :=
  String.ofList (key.toList.takeWhile fun c => c ≠ '@')

/-- The type of `this`. -/
def verifyThis (span : Span) : Check (Option TypeId) := do
  let s ← get
  match s.arena.functionInfo? s.focus.scope with
  | none =>
    report .thisOutsideFunction span []
    return none
  | some info =>
    match s.arena.thisType? s.focus.scope with
    | some type => return some type
    | none =>
      report .missingThisType span [("funcName", nameOfKey info.name)]
      return none

end HeaderCheck.Verify

import HeaderCheck.Verify.Infer
import HeaderCheck.Verify.Member

/-!
# HeaderCheck.Verify.Call

Calls, constructions by `new`, and requires.

A call is verified in this order: the callee; the arguments that are no function expressions; their
number; the type variables, solved from those arguments; the fit of each argument, function
expressions now having a context; the object whose method is called.

* `Call.verify`, `Call.verifyNew`: the type of a call and of a construction.
* `Call.verifyRequire`: the exports of a required module.
-/

namespace HeaderCheck.Verify

open HeaderCheck.Scope (isConstructorName)
open HeaderCheck.Script (Expr)
open HeaderCheck.Types (FunctionShape Param Table TypeId plainBrand)

/-- The access that an expression is. -/
def Access.ofExpr? : Expr → Option Access
  | .member object property computed span => some { object, property, computed, span }
  | _ => none

/-- Whether an expression is a function expression, which needs a context for its type. -/
def isFunctionExpr : Expr → Bool
  | .function _ => true
  | _ => false

/-- Whether a function type is that of a constructor. -/
def isConstructorShape (table : Table) (shape : FunctionShape) : Bool :=
  shape.result = .void && shape.this.any table.isObject

namespace Call

/-! ## Arguments -/

/-- The types of the arguments, those of function expressions being left open. A parameter without
type variables is the context of its argument. -/
def plainArguments (v : Visitor) :
    List Expr → (params : List Param) → Check (List (Option TypeId))
  | [], _ => return []
  | argument :: rest, params => do
    let type ←
      if isFunctionExpr argument then pure none
      else
        let table := (← get).table
        v.into argument
          ((params.head?.map fun param => param.type).filter fun type => !table.containsFree type)
    return type :: (← plainArguments v rest params.tail)

/-- Whether the number of arguments fits; if not, record it. -/
def checkArity (call : Call) (shape : FunctionShape) (name : String) : Check Bool := do
  let actual := call.arguments.length
  if shape.params.length < actual then
    reportArity .tooManyArgsInCall call.span name shape.params.length actual
    return false
  else if actual < shape.requiredParams then
    reportArity .tooFewArgsInCall call.span name shape.requiredParams actual
    return false
  else return true

/-- Check one argument against its parameter. One that may be left out also takes `undefined`. -/
def checkArgument (span : Span) (param : Param) (actual : TypeId) : Check Unit := do
  let excused ←
    if param.optional && !(← get).table.isSubtype param.type actual then
      let widened ← onTable fun table => table.union2 param.type .undefined
      pure ((← get).table.isSubtype widened actual)
    else pure false
  if !excused then
    let _ ← checkFits span param.type actual

/-- Check each argument against its parameter; function expressions are verified here. -/
def checkArguments (v : Visitor) :
    List Expr → List Param → (verified : List (Option TypeId)) → Check Unit
  | argument :: arguments, param :: params, type :: types => do
    let actual ←
      if type.isNone && isFunctionExpr argument then v.into argument (some param.type)
      else pure type
    match actual with
    | some actual => checkArgument argument.span param actual
    | none => pure ()
    checkArguments v arguments params types
  | _, _, _ => return ()

/-! ## Calls -/

/-- Record that what is called is no function. -/
def reportNonFunction (call : Call) (actual : TypeId) : Check Unit := do
  let s ← get
  report .callingNonFunction call.callee.span
    [("objName", call.name s), ("actual", s.format actual)]

/-- The exports of the module that a call of `require` names. -/
def verifyRequire (v : Visitor) (call : Call) : Check (Option TypeId) := do
  let s ← get
  match call.arguments with
  | [.literal literal] =>
    match literal.string? with
    | none => unknown (s.source.snippet call.span)
    | some request =>
      match ← onSession (v.require s.source.path request) with
      | .resolved path exports =>
        modify fun s =>
          if s.dependencies.contains path then s
          else { s with dependencies := s.dependencies ++ [path] }
        return some exports
      | .cyclic =>
        report .cyclicModuleImport call.span [("moduleName", request)]
        return none
      | .notFound => unknown request
  | _ => unknown (s.source.snippet call.span)
where
  unknown (name : String) : Check (Option TypeId) := do
    report .unknownModuleRequire call.span [("moduleName", name)]
    return none

/-- The type of the callee, and of the object whose method it is. -/
def calleeType (v : Visitor) (call : Call) : Check (Option (TypeId × Option TypeId)) := do
  match Access.ofExpr? call.callee with
  | some access =>
    match ← asRead (v.expr access.object) with
    | none => return none
    | some object =>
      match ← access.typeOn v object with
      | none => return none
      | some method => return some (method, some object)
  | none =>
    match ← v.value call.callee with
    | none => return none
    | some callee => return some (callee, none)

/-- Verify arguments of which nothing is known. -/
def verifyAny (v : Visitor) : List Expr → Check Unit
  | [] => return ()
  | argument :: rest => do
    let _ ← v.value argument
    verifyAny v rest

/-- Whether this calls a constructor by its name, without `new`. -/
def misusesConstructor (call : Call) (table : Table) (shape : FunctionShape) : Option String :=
  match call.callee with
  | .identifier id =>
    if isConstructorName id.name && isConstructorShape table shape then some id.name else none
  | _ => none

/-- The object whose method is called keeps the element type that the call has shown. -/
def refineReceiver (object : Expr) (receiver this : TypeId) : Check Unit := do
  let s ← get
  match object with
  | .identifier id =>
    if s.table.containsFree receiver && !s.table.containsFree this &&
        (s.declaredType id.name).isSome then
      let _ ← onArena fun a => a.forceUpdateVar s.focus.scope id.name this
  | _ => return ()

/-- Check the object whose method is called against the declared `this`. -/
def checkReceiver (call : Call) (receiver this : Option TypeId) : Check Unit := do
  match Access.ofExpr? call.callee, receiver, this with
  | some access, some receiver, some this =>
    let _ ← checkFits access.object.span this receiver
    refineReceiver access.object receiver this
  | _, _, _ => return ()

/-- The function type of the callee with its type variables solved. -/
def solvedShape (call : Call) (callee : TypeId) (shape : FunctionShape) (passed : Passed) :
    Check (Option FunctionShape) := do
  if shape.generics.isEmpty then return some shape
  else
    match ← call.instantiate callee shape passed with
    | none => return none
    | some resolved => return (← get).table.functionShape? resolved

/-- The result of calling a function of a known type. -/
def apply (v : Visitor) (call : Call) (callee : TypeId) (receiver : Option TypeId)
    (shape : FunctionShape) : Check (Option TypeId) := do
  let s ← get
  match call.misusesConstructor s.table shape with
  | some name =>
    report .callingConstructorWithoutNew call.span [("funcName", name)]
    return none
  | none =>
    let arguments ← plainArguments v call.arguments shape.params
    if ← call.checkArity shape (call.name s) then
      match ← call.solvedShape callee shape { arguments, receiver } with
      | none => return none
      | some shape =>
        checkArguments v call.arguments shape.params arguments
        call.checkReceiver receiver shape.this
        return some shape.result
    else return none

/-- The type of a call whose callee has a type. -/
def verifyTyped (v : Visitor) (call : Call) : Check (Option TypeId) := do
  match ← call.calleeType v with
  | none => return none
  | some (callee, receiver) =>
    if callee = .any then
      verifyAny v call.arguments
      return some .any
    else
      match (← get).table.functionShape? callee with
      | none =>
        call.reportNonFunction callee
        return none
      | some shape => call.apply v callee receiver shape

/-- The name that requires a module, unless it is bound to something else. -/
def requireName : String := "require"

/-- The type of a call. A name without a type may require a module or be an untyped function. -/
def verify (v : Visitor) (call : Call) : Check (Option TypeId) := do
  let s ← get
  match call.callee with
  | .identifier id =>
    if (s.lookup id.name).isSome then call.verifyTyped v
    else if id.name = requireName then call.verifyRequire v
    else
      match s.arena.getFunction? s.focus.scope id.name with
      | some untyped => call.infer v id.name untyped
      | none => call.verifyTyped v
  | _ => call.verifyTyped v

/-! ## Constructions -/

/-- The name that must begin with an upper-case letter in a construction. -/
def constructorName? (call : Call) : Option String :=
  match call.callee with
  | .identifier id => some id.name
  | callee => (Access.ofExpr? callee).bind Access.name?

/-- The type of a constructor's object, if it has fields. -/
def instanceType? (table : Table) (shape : FunctionShape) : Option TypeId :=
  shape.this.filter fun this =>
    (table.objectShape? this).any fun object => !object.fields.isEmpty

/-- The type of the object that a constructor of type `shape` makes. -/
def construct (v : Visitor) (call : Call) (shape : FunctionShape) (object : TypeId) :
    Check (Option TypeId) := do
  let name := call.name (← get)
  let arguments ← plainArguments v call.arguments shape.params
  if ← call.checkArity shape name then
    checkArguments v call.arguments shape.params arguments
    if shape.brand = plainBrand then return some object
    else return some (← onTable fun table => table.withBrand object shape.brand)
  else return none

/-- The type of a construction by `new`. -/
def verifyNew (v : Visitor) (call : Call) : Check (Option TypeId) := do
  match ← v.value call.callee with
  | none => return none
  | some callee =>
    let s ← get
    match s.table.functionShape? callee with
    | none =>
      call.reportNonFunction callee
      return none
    | some shape =>
      match instanceType? s.table shape with
      | none =>
        report .constructorThisTypeMustBeObject call.span
          [("funcName", call.name s), ("thisType", (shape.this.map s.format).getD "void")]
        return none
      | some object =>
        if shape.result ≠ .void then
          report .constructorMustReturnVoid call.span
            [("funcName", call.name s), ("returnType", s.format shape.result)]
          return none
        else if call.constructorName?.any fun name => !isConstructorName name then
          report .constructorMustBePascalCase call.span [("funcName", call.name s)]
          return none
        else call.construct v shape object

end Call

end HeaderCheck.Verify

import HeaderCheck.Dict
import HeaderCheck.Project.Error
import HeaderCheck.Report.Diagnostic
import HeaderCheck.Scope.Basic
import HeaderCheck.Signature.Size
import HeaderCheck.Types.Place

/-!
# HeaderCheck.Header.Lower

From the type expressions of a header to types.

* `Lowering`: what is known while one header is lowered.
* `lowerWithin`: the type of an expression. A name is looked up among the type variables in
  scope, then among built-in types, then among the declarations of the header, then among its
  imports; a name that is none of these is reported and stands for `Any`.
* `lowerDeclaration`: the type of a declaration. A declaration that is reached from its own body
  stays a name.
* `Lowered`: what a header contributes.
-/

namespace HeaderCheck.Header

open HeaderCheck.Project (Error)
open HeaderCheck.Report (Diagnostic)
open HeaderCheck.Signature
open HeaderCheck.Types hiding Field

/-- What a header contributes: bindings in order, and types for headers that import it. -/
structure Lowered where
  assignments : List (String × TypeId)
  declarations : Dict TypeId
  diagnostics : List Diagnostic

/-- A declared type with its parameters. -/
structure Declared where
  params : List String
  body : TypeExpr

/-- What is known while one header is lowered. -/
structure Lowering where
  table : Table
  path : String
  declarations : Dict Declared := {}
  /-- Types of declarations without parameters. -/
  resolved : Dict TypeId := {}
  /-- Declarations whose bodies are being lowered, innermost first. -/
  inProgress : List String := []
  imported : Dict TypeId := {}
  /-- Type variables in scope, innermost first. -/
  typeVars : List (Dict TypeId) := []
  diagnostics : List Diagnostic := []

/-- Lowering keeps what it learned also when it fails. -/
abbrev LowerM := ExceptT Error (StateM Lowering)

/-! ## Changes of the state -/

/-- Run an operation on the table. -/
def onTable {α : Type} (f : Table → α × Table) : LowerM α :=
  modifyGet fun s =>
    let (a, table) := f s.table
    (a, { s with table })

/-- Record a diagnostic about the header as a whole. -/
def Lowering.report (s : Lowering) (kind : Report.Kind) (fields : List (String × String)) :
    Lowering :=
  { s with diagnostics := s.diagnostics ++ [Diagnostic.of kind s.path none fields] }

/-- Run `m` with more type variables in scope, which go out of scope after it. -/
def withVariables {α : Type} (typeVars : Dict TypeId) (m : LowerM α) : LowerM α :=
  ExceptT.mk fun s =>
    let (result, s) := m.run { s with typeVars := typeVars :: s.typeVars }
    (result, { s with typeVars := s.typeVars.tail })

/-- Run `m` while the declaration `key` is in progress. -/
def whileInProgress {α : Type} (key : String) (m : LowerM α) : LowerM α :=
  ExceptT.mk fun s =>
    let (result, s) := m.run { s with inProgress := key :: s.inProgress }
    (result, { s with inProgress := s.inProgress.erase key })

/-- The type of a type variable in scope. -/
def Lowering.binding? (s : Lowering) (name : String) : Option TypeId :=
  s.typeVars.findSome? fun scope => scope.get? name

/-! ## Declarations -/

/-- The types that the parameters of a declaration stand for. A parameter without an argument is
left free. -/
def bindParams (params : List String) (args : List TypeId) : LowerM (Dict TypeId) := do
  let bound ← params.zipIdx.mapM fun (param, i) => do
    match args[i]? with
    | some arg => return (param, arg)
    | none => return (param, ← onTable (·.free param))
  return Dict.ofList bound

/-- The type of a declaration without parameters, found once. -/
def lowerPlain (lower : TypeExpr → LowerM TypeId) (name : String) (body : TypeExpr) :
    LowerM TypeId := do
  let s ← get
  match s.resolved.get? name with
  | some done => return done
  | none =>
    if s.inProgress.contains name then onTable (·.literal name false)
    else
      let lowered ← whileInProgress name (lower body)
      modify fun s => { s with resolved := s.resolved.insert name lowered }
      return lowered

/-- The key of an applied declaration among those in progress. -/
def appliedKey (name : String) : String :=
  name ++ "<>"

/-- The type of a declaration with parameters, for the arguments `args`. -/
def lowerApplied (lower : TypeExpr → LowerM TypeId) (name : String) (declared : Declared)
    (args : List TypeId) : LowerM TypeId := do
  if (← get).inProgress.contains (appliedKey name) then onTable (·.literal name false)
  else
    whileInProgress (appliedKey name) do
      let typeVars ← bindParams declared.params args
      withVariables typeVars (lower declared.body)

/-- The type of a declaration of this header. -/
def lowerDeclaration (lower : TypeExpr → LowerM TypeId) (name : String) (args : List TypeId) :
    LowerM TypeId := do
  match (← get).declarations.get? name with
  | none => return .any
  | some declared =>
    if declared.params.isEmpty then lowerPlain lower name declared.body
    else lowerApplied lower name declared args

/-! ## Expressions -/

/-- The type of a name. -/
def lowerLiteral (lower : TypeExpr → LowerM TypeId) (name : String) (builtin : Bool) :
    LowerM TypeId := do
  let s ← get
  match s.binding? name with
  | some bound => return bound
  | none =>
    if builtin || Table.sentinelNames.contains name then onTable (·.literal name true)
    else if s.declarations.contains name then lowerDeclaration lower name []
    else
      match s.imported.get? name with
      | some imported => return imported
      | none =>
        modify fun s => s.report .unknownLiteral [("literal", name)]
        return .any

/-- An applied type. A declaration of this header is applied by lowering its body. -/
def lowerGeneric (lower : TypeExpr → LowerM TypeId) (base : TypeExpr) (args : List TypeExpr) :
    LowerM TypeId := do
  let args ← args.mapM lower
  let s ← get
  let applied : Option String :=
    match base with
    | .literal name _ _ _ =>
      if (s.binding? name).isNone && s.declarations.contains name then some name else none
    | _ => none
  match applied with
  | some name => lowerDeclaration lower name args
  | none =>
    let base ← lower base
    onTable (·.generic base args)

def lowerField (lower : TypeExpr → LowerM TypeId) (field : KeyValue) : LowerM Types.Field := do
  let type ← lower field.value
  return { name := field.key, type, optional := field.optional || field.value.isOptional }

def lowerParam (lower : TypeExpr → LowerM TypeId) (arg : TypeExpr) : LowerM Param := do
  let type ← lower arg
  return { name := arg.label, type, optional := arg.isOptional }

def lowerOptional (lower : TypeExpr → LowerM TypeId) : Option TypeExpr → LowerM (Option TypeId)
  | none => return none
  | some type => return some (← lower type)

/-- Parameters, `this` and result of a function, in that order. -/
def lowerParts (lower : TypeExpr → LowerM TypeId) (args : List TypeExpr) (this : Option TypeExpr)
    (result : TypeExpr) : LowerM (List Param × Option TypeId × TypeId) := do
  let params ← args.mapM (lowerParam lower)
  let this ← lowerOptional lower this
  let result ← lower result
  return (params, this, result)

/-- A type variable with its steps. -/
def lowerOccurrence (descriptor : Descriptor) : Except Error Occurrence :=
  match steps? descriptor.location with
  | .ok location => .ok { name := descriptor.name, location }
  | .error fault => .error (.malformedGenericLocation descriptor.name fault)

/-- Refuse a descriptor that leads out of the function. -/
def checkInside (table : Table) (function : TypeId) (descriptor : Descriptor)
    (occurrence : Occurrence) : Except Error Unit :=
  match table.typeAt? function occurrence.location with
  | some _ => .ok ()
  | none =>
    .error (.malformedGenericLocation descriptor.name (.outside descriptor.location))

/-- A function. Its type variables are free inside it, and each of its locations must lead to a
part of it. -/
def lowerFunction (lower : TypeExpr → LowerM TypeId) (args : List TypeExpr) (result : TypeExpr)
    (this : Option TypeExpr) (generics : List Descriptor) (brand : String) : LowerM TypeId := do
  let typeVars ← generics.mapM fun descriptor => do
    return (descriptor.name, ← onTable (·.free descriptor.name))
  let parts := lowerParts lower args this result
  let (params, this, result) ←
    if generics.isEmpty then parts else withVariables (Dict.ofList typeVars) parts
  let occurrences ← generics.mapM fun descriptor => ExceptT.mk (pure (lowerOccurrence descriptor))
  let id ← onTable (·.function { params, result, this, generics := occurrences, brand })
  let table := (← get).table
  (generics.zip occurrences).forM fun (descriptor, occurrence) =>
    ExceptT.mk (pure (checkInside table id descriptor occurrence))
  return id

/-- One level of an expression, `lower` giving the types of its parts. -/
def lowerLevel (lower : TypeExpr → LowerM TypeId) : TypeExpr → LowerM TypeId
  | .literal name builtin _ _ => lowerLiteral lower name (builtin.getD (isBuiltinName name))
  | .value value _ _ => onTable (·.value value)
  | .object fields _ _ isOpen brand => do
    let fields ← fields.mapM (lowerField lower)
    onTable (·.objectOf { fields, isOpen, brand })
  | .union members _ _ => do
    let members ← members.mapM lower
    onTable (·.union members)
  | .intersection members _ _ => do
    let members ← members.mapM lower
    onTable (·.intersection members)
  | .function args result this _ _ generics brand =>
    lowerFunction lower args result this generics brand
  | .generic base args _ => lowerGeneric lower base args
  | .tuple elements _ _ => do
    let elements ← elements.mapM lower
    onTable (·.tuple elements)
  | .renamed name _ target _ _ => do
    let target ← lower target
    onTable (·.renamed name target)
  | .free name => onTable (·.free name)

/-- The type of an expression, through at most `fuel` levels of it and of the declarations it
refers to. -/
def lowerWithin : (fuel : Nat) → TypeExpr → LowerM TypeId
  | 0, _ => throw .outOfFuel
  | fuel + 1, type => lowerLevel (lowerWithin fuel) type

/-! ## Headers -/

/-- The name of a type parameter. -/
def paramName? : TypeExpr → Option String
  | .literal name _ _ _ | .free name => some name
  | _ => none

/-- The declaration that a statement is, under its name. -/
def declaration? : Statement → Option (String × Declared)
  | .declaration name body generics => some (name, ⟨generics.filterMap paramName?, body⟩)
  | _ => none

/-- The declarations of a header; of those with one name the last counts. -/
def declarationsOf (header : Header) : Dict Declared :=
  Dict.ofList (header.statements.filterMap declaration?)

/-- The local and the declared name of an imported type. -/
def importedName? : TypeExpr → Option (String × String)
  | .literal name _ _ _ => some (name, name)
  | .renamed name _ (.literal target _ _ _) _ _ => some (name, target)
  | _ => none

/-- Take over one type of another header. -/
def Lowering.importType (s : Lowering) (declarations : Dict TypeId) (item : TypeExpr) :
    Lowering :=
  match importedName? item with
  | none => s
  | some (name, target) =>
    match declarations.get? target with
    | none => s.report .unknownLiteral [("literal", target)]
    | some type =>
      if name = target then { s with imported := s.imported.insert name type }
      else
        let (renamed, table) := s.table.renamed name type
        { s with table, imported := s.imported.insert name renamed }

/-- Take over the diagnostics of another header and the listed types of it. -/
def Lowering.importFrom (s : Lowering) (header : Lowered) (items : List TypeExpr) : Lowering :=
  items.foldl (fun s item => s.importType header.declarations item)
    { s with diagnostics := s.diagnostics ++ header.diagnostics }

/-- A constructor gives its name as a brand to itself and to its instances. -/
def brandConstructor (table : Table) (name : String) (type : TypeId) : TypeId × Table :=
  match table.functionShape? type with
  | none => (type, table)
  | some shape =>
    match shape.this with
    | none => (type, table)
    | some this =>
      if table.isObject this && shape.result = .void then
        let (this, table) := table.withBrand this name
        table.function { shape with this := some this, brand := name }
      else (type, table)

/-- The binding of an assignment. -/
def lowerAssignment (fuel : Nat) (name : String) (type : TypeExpr) : LowerM (String × TypeId) := do
  if type.isOptional then throw (.optionalAssignment name)
  let type ← lowerWithin fuel type
  if Scope.isConstructorName name then
    return (name, ← onTable fun table => brandConstructor table name type)
  return (name, type)

/-- Lower the declarations and then the assignments of a header whose imports are known. -/
def lowerStatements (header : Header) : LowerM Lowered := do
  let fuel := header.size + 1
  let declarations ← (← get).declarations.keys.mapM fun name => do
    return (name, ← lowerDeclaration (lowerWithin fuel) name [])
  let assignments ← header.statements.filterMapM fun statement => do
    match statement with
    | .assignment name type => return some (← lowerAssignment fuel name type)
    | _ => return none
  return { assignments, declarations := Dict.ofList declarations,
           diagnostics := (← get).diagnostics }

end HeaderCheck.Header

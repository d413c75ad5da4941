import HeaderCheck.Verify.Function
import HeaderCheck.Verify.Generic

/-!
# HeaderCheck.Verify.Infer

Types that come from expressions themselves and not from a declaration.

* `verifyIdentifier`, `literalType`: names and literals.
* `verifyArray`, `verifyObject`: array and object literals.
* `Call.infer`: a function without a type gets one from its first call.
-/

namespace HeaderCheck.Verify

open HeaderCheck.Script (Expr Function Identifier Literal Property)
open HeaderCheck.Scope (UntypedFunction)
open HeaderCheck.Types (Field FunctionShape ObjectShape Param TypeId plainBrand)

/-! ## Names and literals -/

/-- The type of a name. An unknown one is reported unless its declaration was at fault. -/
def verifyIdentifier (id : Identifier) : Check (Option TypeId) := do
  let s ← get
  match s.lookup id.name with
  | some type => return some type
  | none =>
    if id.name = "undefined" then return some .undefined
    else if s.isUntyped id.name then
      reportUntypedFunction id.span id.name
      return none
    else if s.unknown.contains id.name then return none
    else
      report .unknownIdentifier id.span [("token", id.name)]
      return none

def literalType (literal : Literal) : TypeId :=
  match literal.kind with
  | .string => .string
  | .number => .number
  | .boolean => .boolean
  | .null => .null
  | .regExp => .regExp

/-! ## Array and object literals -/

/-- Whether all elements have a type that fits `element`; those that do not are reported. -/
def verifyElements (v : Visitor) (context : Option TypeId) (element : TypeId) :
    List Expr → Check Bool
  | [] => return true
  | e :: rest => do
    let fits ←
      match ← expecting context (v.expr e) with
      | some actual => checkFits e.span element actual
      | none => pure false
    let restFits ← verifyElements v context element rest
    return fits && restFits

/-- The type of an array literal. The context gives the type of the elements, or else the first
element does; an empty array without a context leaves it open. -/
def verifyArray (v : Visitor) (elements : List Expr) : Check (Option TypeId) := do
  let s ← get
  let context := s.focus.expected.bind s.table.arrayElement?
  match elements with
  | [] =>
    match context with
    | some _ => return s.focus.expected
    | none =>
      let free ← onTable fun table => table.free "T"
      return some (← onTable fun table => table.array free)
  | first :: rest =>
    match ← expecting context (v.expr first) with
    | none => return none
    | some firstType =>
      let element := context.getD firstType
      if ← verifyElements v context element rest then
        return some (← onTable fun table => table.array element)
      else return none

/-- The fields of an object literal; `none` when some value has no type. -/
def verifyFields (v : Visitor) (context : Option ObjectShape) :
    List Property → Check (Option (List Field))
  | [] => return some []
  | property :: rest => do
    if property.kind ≠ "init" then throw (.unsupportedPropertyKind property.kind)
    else
      match property.keyName? with
      | none => throw (.unsupportedPropertyKind "computed")
      | some name =>
        let expected := (context.bind fun shape => shape.find? name).map fun field => field.type
        let type ← v.into property.value expected
        let fields ← verifyFields v context rest
        return do
          let type ← type
          let fields ← fields
          return { name, type } :: fields

/-- The type of an object literal. The empty one is open to new fields. -/
def verifyObject (v : Visitor) (properties : List Property) : Check (Option TypeId) := do
  if properties.isEmpty then return some .openObject
  else
    let s ← get
    match ← verifyFields v (s.focus.expected.bind s.table.objectShape?) properties with
    | some fields => return some (← onTable fun table => table.object fields)
    | none => return none

/-! ## Functions typed by their first call -/

/-- The parameters that a call suggests: the types of its arguments under the names that the
function gives them. -/
def inferParams (v : Visitor) : List Expr → (names : List Identifier) → Check (Option (List Param))
  | [], _ => return some []
  | argument :: rest, names => do
    match ← v.value argument with
    | none => return none
    | some type =>
      match ← inferParams v rest names.tail with
      | none => return none
      | some params => return some ({ name := names.head?.map fun id => id.name, type } :: params)

/-- The type that the return statements of a verified function have shown. -/
def State.returned (s : State) (untyped : UntypedFunction) (name : String) : TypeId :=
  match (s.arena.knownFunction? untyped.definedIn name).bind s.arena.scope? with
  | some { kind := .function info, .. } => info.knownReturnType.getD .void
  | _ => .void

/-- Type an untyped function from a call, verify its body against that type and bind it. Where the
context does not give the result, the body does. -/
def Call.infer (v : Visitor) (call : Call) (name : String) (untyped : UntypedFunction) :
    Check (Option TypeId) := do
  match ← inferParams v call.arguments untyped.node.params with
  | none => return none
  | some params =>
    let s ← get
    let result := s.contextType?.getD .unknownReturn
    let shape : FunctionShape :=
      { params, result, this := none, generics := [], brand := plainBrand }
    let type ← onTable fun table => table.function shape
    let _ ← onArena fun a => a.updateFunction s.focus.scope name type
    inScope untyped.definedIn (verifyFunction v untyped.node type name)
    if untyped.node.params.length ≠ call.arguments.length then return none
    else if result = .unknownReturn then
      let returned := (← get).returned untyped name
      let type ← onTable fun table => table.function { shape with result := returned }
      let _ ← onArena fun a => a.forceUpdateVar untyped.definedIn name type
      return some returned
    else return some result

end HeaderCheck.Verify

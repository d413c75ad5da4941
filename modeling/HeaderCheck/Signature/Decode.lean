import HeaderCheck.Json.Record
import HeaderCheck.Signature.Tree

/-!
# HeaderCheck.Signature.Decode

Headers from JSON.

* `TypeExpr.ofJson?`, `Statement.ofJson?`: nodes chosen by their kind.
* `Header.ofJson?`: a record of statements.
-/

namespace HeaderCheck.Signature

open HeaderCheck.Json (listOf)

def typeKinds : List String :=
  ["object", "unionType", "intersectionType", "typeLiteral", "valueLiteral", "function",
    "genericLiteral", "tuple", "renamedLiteral", "freeLiteral"]

def statementKinds : List String :=
  ["typeDeclaration", "assignment", "import", "comment"]

/-- A place in a list, or the name of a part. -/
def Segment.ofJson? : Json → Option Segment
  | .string name => some (.key name)
  | json => json.index?.map fun i => .index (UInt64.ofNat i)

def Descriptor.ofJson? (json : Json) : Option Descriptor := do
  let [name, location] ← json.fields? ["name", "location"] | none
  let name ← Field.required Json.string? name
  let location ← Field.required (listOf Segment.ofJson?) location
  return { name, location }

/-- The fields of a node that is a list of types. -/
def typeList? (decode : Json → Option TypeExpr) (key : String) (json : Json) :
    Option (List TypeExpr × Option String × Bool) := do
  let [types, label, optional] ← json.fields? [key, "label", "optional"] | none
  let types ← Field.required (listOf decode) types
  let label ← Field.optional Json.string? label
  let optional ← Field.defaulted false Json.bool? optional
  return (types, label, optional)

mutual

/-- A type of at most `fuel` levels; `nested` tells whether it stands inside a node. -/
def TypeExpr.decode : (fuel : Nat) → (nested : Bool) → Json → Option TypeExpr
  | 0, _, _ => none
  | fuel + 1, nested, json => do
    let (kind, body) ← json.node? typeKinds nested
    match kind with
    | "object" =>
      let [fields, label, optional, isOpen, brand] ←
        body.fields? ["keyValues", "label", "optional", "open", "brand"] | none
      let fields ← Field.required (listOf (KeyValue.decode fuel)) fields
      let label ← Field.optional Json.string? label
      let optional ← Field.defaulted false Json.bool? optional
      let isOpen ← Field.defaulted false Json.bool? isOpen
      let brand ← Field.defaulted plainBrand Json.string? brand
      return .object fields label optional isOpen brand
    | "unionType" =>
      let (members, label, optional) ← typeList? (TypeExpr.decode fuel true) "unions" body
      return .union members label optional
    | "intersectionType" =>
      let (members, label, optional) ← typeList? (TypeExpr.decode fuel true) "intersections" body
      return .intersection members label optional
    | "typeLiteral" =>
      let [name, builtin, label, optional] ←
        body.fields? ["name", "builtin", "label", "optional"] | none
      let name ← Field.required Json.string? name
      let builtin ← Field.optional Json.bool? builtin
      let label ← Field.optional Json.string? label
      let optional ← Field.defaulted false Json.bool? optional
      return .literal name builtin label optional
    | "valueLiteral" =>
      let [value, name, label] ← body.fields? ["value", "name", "label"] | none
      let value ← Field.required Json.string? value
      let name ← Field.required Json.string? name
      let label ← Field.optional Json.string? label
      return .value value name label
    | "function" =>
      let [args, result, this, label, optional, generics, brand] ←
        body.fields? ["args", "result", "thisArg", "label", "optional", "generics", "brand"] | none
      let args ← Field.required (listOf (TypeExpr.decode fuel true)) args
      let result ← Field.required (TypeExpr.decode fuel true) result
      let this ← Field.optional (TypeExpr.decode fuel true) this
      let label ← Field.optional Json.string? label
      let optional ← Field.defaulted false Json.bool? optional
      let generics ← Field.defaulted [] (listOf Descriptor.ofJson?) generics
      let brand ← Field.defaulted plainBrand Json.string? brand
      return .function args result this label optional generics brand
    | "genericLiteral" =>
      let [base, args, label] ← body.fields? ["value", "generics", "label"] | none
      let base ← Field.required (TypeExpr.decode fuel true) base
      let args ← Field.required (listOf (TypeExpr.decode fuel true)) args
      let label ← Field.optional Json.string? label
      return .generic base args label
    | "tuple" =>
      let (elements, label, optional) ← typeList? (TypeExpr.decode fuel true) "values" body
      return .tuple elements label optional
    | "renamedLiteral" =>
      let [name, builtin, target, label, optional] ←
        body.fields? ["name", "builtin", "original", "label", "optional"] | none
      let name ← Field.required Json.string? name
      let builtin ← Field.defaulted false Json.bool? builtin
      let target ← Field.required (TypeExpr.decode fuel true) target
      let label ← Field.optional Json.string? label
      let optional ← Field.defaulted false Json.bool? optional
      return .renamed name builtin target label optional
    | "freeLiteral" =>
      let [name] ← body.fields? ["name"] | none
      return .free (← Field.required Json.string? name)
    | _ => none

def KeyValue.decode : (fuel : Nat) → Json → Option KeyValue
  | 0, _ => none
  | fuel + 1, json => do
    let [key, value, optional] ← json.fields? ["key", "value", "optional"] | none
    let key ← Field.required Json.string? key
    let value ← Field.required (TypeExpr.decode fuel true) value
    let optional ← Field.defaulted false Json.bool? optional
    return { key, value, optional }

end

/-- More levels than the decoders use on a value. -/
def levels (json : Json) : Nat :=
  2 * json.depth + 2

def TypeExpr.ofJson? (json : Json) : Option TypeExpr :=
  TypeExpr.decode (levels json) false json

def Statement.ofJson? (json : Json) : Option Statement := do
  let (kind, body) ← json.node? statementKinds false
  let type := TypeExpr.decode (levels json) true
  match kind with
  | "typeDeclaration" =>
    let [name, expression, generics] ←
      body.fields? ["identifier", "typeExpression", "generics"] | none
    let name ← Field.required Json.string? name
    let expression ← Field.required type expression
    let generics ← Field.defaulted [] (listOf type) generics
    return .declaration name expression generics
  | "assignment" =>
    let [name, expression] ← body.fields? ["identifier", "typeExpression"] | none
    let name ← Field.required Json.string? name
    let expression ← Field.required type expression
    return .assignment name expression
  | "import" =>
    let [dependency, types] ← body.fields? ["dependency", "types"] | none
    let dependency ← Field.required Json.string? dependency
    let types ← Field.required (listOf type) types
    return .imports dependency types
  | "comment" =>
    let [text] ← body.fields? ["text"] | none
    return .comment (← Field.required Json.string? text)
  | _ => none

/-- What is looked at when a header is read from a text. -/
def Header.shape : Json.Shape :=
  .record [("statements", .whole)]

def Header.ofJson? (json : Json) : Option Header := do
  let [statements] ← json.fields? ["statements"] | none
  return { statements := ← Field.required (listOf Statement.ofJson?) statements }

end HeaderCheck.Signature

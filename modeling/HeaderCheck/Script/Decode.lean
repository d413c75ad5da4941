import HeaderCheck.Script.Build
import HeaderCheck.Text.SpanForm

/-!
# HeaderCheck.Script.Decode

Script trees from JSON.

* `Expr.ofJson?`, `Stmt.ofJson?`: nodes chosen by their kind.
* `Property.ofJson?`, `Program.ofJson?`: records, which have no kind.
* `Property.shape`, `Program.shape`: what is looked at when they are read from a text. A node is
  always looked at as a whole.

The decoders count down the levels of the JSON value, so each of them is total; the entry points
give them as many levels as the value can have.
-/

namespace HeaderCheck.Script

open HeaderCheck.Json (listOf)

def exprKinds : List String :=
  ["Identifier", "Literal", "ThisExpression", "ArrayExpression", "ObjectExpression",
    "FunctionExpression", "AssignmentExpression", "MemberExpression", "CallExpression",
    "NewExpression", "BinaryExpression", "LogicalExpression", "UnaryExpression",
    "UpdateExpression", "ConditionalExpression"]

def stmtKinds : List String :=
  ["VariableDeclaration", "FunctionDeclaration", "ExpressionStatement", "BlockStatement",
    "IfStatement", "WhileStatement", "ForStatement", "ReturnStatement", "ThrowStatement",
    "EmptyStatement"]

def Identifier.ofJson? (json : Json) : Option Identifier := do
  let [name, span] ← json.fields? ["name", "loc"] | none
  let name ← Field.required Json.string? name
  let span ← Span.field span
  return { name, span }

def Regex.ofJson? (json : Json) : Option Regex := do
  let [pattern, flags] ← json.fields? ["pattern", "flags"] | none
  let pattern ← Field.required Json.string? pattern
  let flags ← Field.defaulted "" Json.string? flags
  return { pattern, flags }

def Literal.ofJson? (json : Json) : Option Literal := do
  let [value, regex, raw, span] ← json.fields? ["value", "regex", "raw", "loc"] | none
  let regex ← Field.optional Regex.ofJson? regex
  let raw ← Field.optional Json.string? raw
  let span ← Span.field span
  return { value := value.getD .null, regex, raw, span }

/-- The fields of a node that joins two operands. -/
def operands? (decode : Json → Option Expr) (operator : Option Json → Option String)
    (json : Json) : Option (String × Expr × Expr × Span) := do
  let [op, left, right, span] ← json.fields? ["operator", "left", "right", "loc"] | none
  let op ← operator op
  let left ← Field.required decode left
  let right ← Field.required decode right
  let span ← Span.field span
  return (op, left, right, span)

/-- The fields of a node with one operand before or after its operator. -/
def operand? (decode : Json → Option Expr) (isPrefix : Bool) (json : Json) :
    Option (String × Expr × Bool × Span) := do
  let [op, argument, fix, span] ← json.fields? ["operator", "argument", "prefix", "loc"] | none
  let op ← Field.required Json.string? op
  let argument ← Field.required decode argument
  let fix ← Field.defaulted isPrefix Json.bool? fix
  let span ← Span.field span
  return (op, argument, fix, span)

/-- The fields of a call. -/
def application? (decode : Json → Option Expr) (json : Json) :
    Option (Expr × List Expr × Span) := do
  let [callee, arguments, span] ← json.fields? ["callee", "arguments", "loc"] | none
  let callee ← Field.required decode callee
  let arguments ← Field.required (listOf decode) arguments
  let span ← Span.field span
  return (callee, arguments, span)

/-- The fields of a block. -/
def block? (decode : Json → Option Stmt) (json : Json) : Option (List Stmt × Span) := do
  let [body, span] ← json.fields? ["body", "loc"] | none
  let body ← Field.required (listOf decode) body
  let span ← Span.field span
  return (body, span)

mutual

/-- An expression of at most `fuel` levels; `nested` tells whether it stands inside a node. -/
def Expr.decode : (fuel : Nat) → (nested : Bool) → Json → Option Expr
  | 0, _, _ => none
  | fuel + 1, nested, json => do
    let (kind, body) ← json.node? exprKinds nested
    match kind with
    | "Identifier" => return .identifier (← Identifier.ofJson? body)
    | "Literal" => return .literal (← Literal.ofJson? body)
    | "ThisExpression" =>
      let [span] ← body.fields? ["loc"] | none
      return .this (← Span.field span)
    | "ArrayExpression" =>
      let [elements, span] ← body.fields? ["elements", "loc"] | none
      let elements ← Field.required (listOf (Expr.decode fuel true)) elements
      return .array elements (← Span.field span)
    | "ObjectExpression" =>
      let [properties, span] ← body.fields? ["properties", "loc"] | none
      let properties ← Field.required (listOf (Property.decode fuel true)) properties
      return .object properties (← Span.field span)
    | "FunctionExpression" => return .function (← Function.decode fuel body)
    | "AssignmentExpression" =>
      let (op, left, right, span) ←
        operands? (Expr.decode fuel true) (Field.defaulted "=" Json.string?) body
      return .assignment op left right span
    | "MemberExpression" =>
      let [object, property, computed, span] ←
        body.fields? ["object", "property", "computed", "loc"] | none
      let object ← Field.required (Expr.decode fuel true) object
      let property ← Field.required (Expr.decode fuel true) property
      let computed ← Field.defaulted false Json.bool? computed
      return .member object property computed (← Span.field span)
    | "CallExpression" =>
      let (callee, arguments, span) ← application? (Expr.decode fuel true) body
      return .call callee arguments span
    | "NewExpression" =>
      let (callee, arguments, span) ← application? (Expr.decode fuel true) body
      return .new callee arguments span
    | "BinaryExpression" =>
      let (op, left, right, span) ←
        operands? (Expr.decode fuel true) (Field.required Json.string?) body
      return .binary op left right span
    | "LogicalExpression" =>
      let (op, left, right, span) ←
        operands? (Expr.decode fuel true) (Field.required Json.string?) body
      return .logical op left right span
    | "UnaryExpression" =>
      let (op, argument, isPrefix, span) ← operand? (Expr.decode fuel true) true body
      return .unary op argument isPrefix span
    | "UpdateExpression" =>
      let (op, argument, isPrefix, span) ← operand? (Expr.decode fuel true) false body
      return .update op argument isPrefix span
    | "ConditionalExpression" =>
      let [test, consequent, alternate, span] ←
        body.fields? ["test", "consequent", "alternate", "loc"] | none
      let test ← Field.required (Expr.decode fuel true) test
      let consequent ← Field.required (Expr.decode fuel true) consequent
      let alternate ← Field.required (Expr.decode fuel true) alternate
      return .conditional test consequent alternate (← Span.field span)
    | _ => none

def Property.decode : (fuel : Nat) → (nested : Bool) → Json → Option Property
  | 0, _, _ => none
  | fuel + 1, nested, json => do
    let [key, value, kind, span] ← json.fields? ["key", "value", "kind", "loc"] | none
    let key ← Field.required (Expr.decode fuel nested) key
    let value ← Field.required (Expr.decode fuel nested) value
    let kind ← Field.defaulted Build.plainProperty Json.string? kind
    let span ← Span.field span
    return { key, value, kind, span }

def Function.decode : (fuel : Nat) → Json → Option Function
  | 0, _ => none
  | fuel + 1, json => do
    let [id, params, body, span] ← json.fields? ["id", "params", "body", "loc"] | none
    let id ← Field.optional Identifier.ofJson? id
    let params ← Field.required (listOf Identifier.ofJson?) params
    let (body, bodySpan) ← Field.required (block? (Stmt.decode fuel true)) body
    let span ← Span.field span
    return { id, params, body, bodySpan, span }

def Declarator.decode : (fuel : Nat) → Json → Option Declarator
  | 0, _ => none
  | fuel + 1, json => do
    let [id, init, span] ← json.fields? ["id", "init", "loc"] | none
    let id ← Field.required Identifier.ofJson? id
    let init ← Field.optional (Expr.decode fuel true) init
    let span ← Span.field span
    return { id, init, span }

def Declaration.decode : (fuel : Nat) → Json → Option Declaration
  | 0, _ => none
  | fuel + 1, json => do
    let [declarators, kind, span] ← json.fields? ["declarations", "kind", "loc"] | none
    let declarators ← Field.required (listOf (Declarator.decode fuel)) declarators
    let kind ← Field.defaulted Build.declarationKind Json.string? kind
    let span ← Span.field span
    return { declarators, kind, span }

/-- Whatever reads as a declaration is one, all else is an expression. -/
def ForInit.decode : (fuel : Nat) → Json → Option ForInit
  | 0, _ => none
  | fuel + 1, json =>
    match Declaration.decode fuel json with
    | some declaration => some (.declaration declaration)
    | none => (Expr.decode fuel true json).map .expression

/-- A statement of at most `fuel` levels; `nested` tells whether it stands inside a node. -/
def Stmt.decode : (fuel : Nat) → (nested : Bool) → Json → Option Stmt
  | 0, _, _ => none
  | fuel + 1, nested, json => do
    let (kind, body) ← json.node? stmtKinds nested
    match kind with
    | "VariableDeclaration" => return .declaration (← Declaration.decode fuel body)
    | "FunctionDeclaration" => return .function (← Function.decode fuel body)
    | "ExpressionStatement" =>
      let [expression, span] ← body.fields? ["expression", "loc"] | none
      let expression ← Field.required (Expr.decode fuel true) expression
      return .expression expression (← Span.field span)
    | "BlockStatement" =>
      let (body, span) ← block? (Stmt.decode fuel true) body
      return .block body span
    | "IfStatement" =>
      let [test, consequent, alternate, span] ←
        body.fields? ["test", "consequent", "alternate", "loc"] | none
      let test ← Field.required (Expr.decode fuel true) test
      let consequent ← Field.required (Stmt.decode fuel true) consequent
      let alternate ← Field.optional (Stmt.decode fuel true) alternate
      return .branch test consequent alternate (← Span.field span)
    | "WhileStatement" =>
      let [test, body, span] ← body.fields? ["test", "body", "loc"] | none
      let test ← Field.required (Expr.decode fuel true) test
      let body ← Field.required (Stmt.decode fuel true) body
      return .whileLoop test body (← Span.field span)
    | "ForStatement" =>
      let [init, test, update, body, span] ←
        body.fields? ["init", "test", "update", "body", "loc"] | none
      let init ← Field.optional (ForInit.decode fuel) init
      let test ← Field.optional (Expr.decode fuel true) test
      let update ← Field.optional (Expr.decode fuel true) update
      let body ← Field.required (Stmt.decode fuel true) body
      return .forLoop init test update body (← Span.field span)
    | "ReturnStatement" =>
      let [argument, span] ← body.fields? ["argument", "loc"] | none
      let argument ← Field.optional (Expr.decode fuel true) argument
      return .returns argument (← Span.field span)
    | "ThrowStatement" =>
      let [argument, span] ← body.fields? ["argument", "loc"] | none
      let argument ← Field.required (Expr.decode fuel true) argument
      return .throws argument (← Span.field span)
    | "EmptyStatement" =>
      let [span] ← body.fields? ["loc"] | none
      return .empty (← Span.field span)
    | _ => none

end

/-- More levels than the decoders use on a value: at most three for each of its own. -/
def levels (json : Json) : Nat :=
  3 * json.depth + 3

def Expr.ofJson? (json : Json) : Option Expr :=
  Expr.decode (levels json) false json

def Stmt.ofJson? (json : Json) : Option Stmt :=
  Stmt.decode (levels json) false json

def Property.ofJson? (json : Json) : Option Property :=
  Property.decode (levels json) false json

def Property.shape : Json.Shape :=
  .record [("key", .whole), ("value", .whole), ("kind", .whole), ("loc", Span.shape)]

def Program.shape : Json.Shape :=
  .record [("body", .whole), ("loc", Span.shape)]

def Program.ofJson? (json : Json) : Option Program := do
  let (body, span) ← block? (Stmt.decode (levels json) false) json
  return { body, span }

end HeaderCheck.Script

import HeaderCheck.Script.Tree
import HeaderCheck.Text.SpanForm

/-!
# HeaderCheck.Script.Encode

JSON forms of script trees. Every field of a node is written, absent ones as `null`; expressions
and statements carry the name of their kind as `type`, all other nodes do not.
-/

namespace HeaderCheck.Script

def Identifier.members (id : Identifier) : List (String × Json) :=
  [("name", .string id.name), ("loc", id.span.toJson)]

def Identifier.toJson (id : Identifier) : Json :=
  .object id.members

def Regex.toJson (regex : Regex) : Json :=
  .object [("pattern", .string regex.pattern), ("flags", .string regex.flags)]

def Literal.members (literal : Literal) : List (String × Json) :=
  [("value", literal.value), ("regex", .ofOption Regex.toJson literal.regex),
    ("raw", .ofOption .string literal.raw), ("loc", literal.span.toJson)]

/-- A node with the name of its kind. -/
def node (kind : String) (members : List (String × Json)) : Json :=
  .object (("type", .string kind) :: members)

def blockMembers (body : List Json) (span : Span) : List (String × Json) :=
  [("body", .array body), ("loc", span.toJson)]

mutual

def Expr.toJson : Expr → Json
  | .identifier id => node "Identifier" id.members
  | .literal lit => node "Literal" lit.members
  | .this span => node "ThisExpression" [("loc", span.toJson)]
  | .array elements span =>
    node "ArrayExpression" [("elements", .array (exprsToJson elements)), ("loc", span.toJson)]
  | .object properties span =>
    node "ObjectExpression"
      [("properties", .array (propertiesToJson properties)), ("loc", span.toJson)]
  | .function f => node "FunctionExpression" f.members
  | .assignment operator left right span =>
    node "AssignmentExpression"
      [("operator", .string operator), ("left", left.toJson), ("right", right.toJson),
        ("loc", span.toJson)]
  | .member object property computed span =>
    node "MemberExpression"
      [("object", object.toJson), ("property", property.toJson), ("computed", .bool computed),
        ("loc", span.toJson)]
  | .call callee arguments span =>
    node "CallExpression"
      [("callee", callee.toJson), ("arguments", .array (exprsToJson arguments)),
        ("loc", span.toJson)]
  | .new callee arguments span =>
    node "NewExpression"
      [("callee", callee.toJson), ("arguments", .array (exprsToJson arguments)),
        ("loc", span.toJson)]
  | .binary operator left right span =>
    node "BinaryExpression"
      [("operator", .string operator), ("left", left.toJson), ("right", right.toJson),
        ("loc", span.toJson)]
  | .logical operator left right span =>
    node "LogicalExpression"
      [("operator", .string operator), ("left", left.toJson), ("right", right.toJson),
        ("loc", span.toJson)]
  | .unary operator argument isPrefix span =>
    node "UnaryExpression"
      [("operator", .string operator), ("argument", argument.toJson), ("prefix", .bool isPrefix),
        ("loc", span.toJson)]
  | .update operator argument isPrefix span =>
    node "UpdateExpression"
      [("operator", .string operator), ("argument", argument.toJson), ("prefix", .bool isPrefix),
        ("loc", span.toJson)]
  | .conditional test consequent alternate span =>
    node "ConditionalExpression"
      [("test", test.toJson), ("consequent", consequent.toJson), ("alternate", alternate.toJson),
        ("loc", span.toJson)]

def exprsToJson : List Expr → List Json
  | [] => []
  | e :: rest => e.toJson :: exprsToJson rest

def exprToJson? : Option Expr → Json
  | none => .null
  | some e => e.toJson

def Property.toJson : Property → Json
  | ⟨key, value, kind, span⟩ =>
    .object [("key", key.toJson), ("value", value.toJson), ("kind", .string kind),
      ("loc", span.toJson)]

def propertiesToJson : List Property → List Json
  | [] => []
  | p :: rest => p.toJson :: propertiesToJson rest

def Function.members : Function → List (String × Json)
  | ⟨id, params, body, bodySpan, span⟩ =>
    [("id", .ofOption Identifier.toJson id), ("params", .array (params.map Identifier.toJson)),
      ("body", .object (blockMembers (stmtsToJson body) bodySpan)), ("loc", span.toJson)]

def Declarator.toJson : Declarator → Json
  | ⟨id, init, span⟩ =>
    .object [("id", id.toJson), ("init", exprToJson? init), ("loc", span.toJson)]

def declaratorsToJson : List Declarator → List Json
  | [] => []
  | d :: rest => d.toJson :: declaratorsToJson rest

def Declaration.members : Declaration → List (String × Json)
  | ⟨declarators, kind, span⟩ =>
    [("declarations", .array (declaratorsToJson declarators)), ("kind", .string kind),
      ("loc", span.toJson)]

/-- A declaration at the start of a `for` carries no kind, an expression does. -/
def ForInit.toJson : ForInit → Json
  | .declaration d => .object d.members
  | .expression e => e.toJson

def forInitToJson? : Option ForInit → Json
  | none => .null
  | some init => init.toJson

def Stmt.toJson : Stmt → Json
  | .declaration d => node "VariableDeclaration" d.members
  | .function f => node "FunctionDeclaration" f.members
  | .expression e span =>
    node "ExpressionStatement" [("expression", e.toJson), ("loc", span.toJson)]
  | .block body span => node "BlockStatement" (blockMembers (stmtsToJson body) span)
  | .branch test consequent alternate span =>
    node "IfStatement"
      [("test", test.toJson), ("consequent", consequent.toJson),
        ("alternate", stmtToJson? alternate), ("loc", span.toJson)]
  | .whileLoop test body span =>
    node "WhileStatement" [("test", test.toJson), ("body", body.toJson), ("loc", span.toJson)]
  | .forLoop init test update body span =>
    node "ForStatement"
      [("init", forInitToJson? init), ("test", exprToJson? test), ("update", exprToJson? update),
        ("body", body.toJson), ("loc", span.toJson)]
  | .returns argument span =>
    node "ReturnStatement" [("argument", exprToJson? argument), ("loc", span.toJson)]
  | .throws argument span =>
    node "ThrowStatement" [("argument", argument.toJson), ("loc", span.toJson)]
  | .empty span => node "EmptyStatement" [("loc", span.toJson)]

def stmtsToJson : List Stmt → List Json
  | [] => []
  | s :: rest => s.toJson :: stmtsToJson rest

def stmtToJson? : Option Stmt → Json
  | none => .null
  | some s => s.toJson

end

def Program.toJson (program : Program) : Json :=
  .object (blockMembers (stmtsToJson program.body) program.span)

end HeaderCheck.Script

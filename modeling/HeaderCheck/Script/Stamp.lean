import HeaderCheck.Script.Tree

/-!
# HeaderCheck.Script.Stamp

Stamping a line onto the nodes that have no span yet.

* `Span.orLine`: a span of its own, or the start of a line for a node without one.
* `Stmt.atLine`: a statement with every spanless node in it placed on a line.
-/

namespace HeaderCheck

/-- The span itself unless it is the default one, which becomes the start of `line`. -/
def Span.orLine (line : UInt32) (span : Span) : Span :=
  if span = {} then Span.onLine line 0 0 else span

namespace Script

def Identifier.atLine (line : UInt32) (id : Identifier) : Identifier :=
  { id with span := id.span.orLine line }

def Literal.atLine (line : UInt32) (literal : Literal) : Literal :=
  { literal with span := literal.span.orLine line }

mutual

def Expr.atLine (line : UInt32) : Expr → Expr
  | .identifier id => .identifier (id.atLine line)
  | .literal lit => .literal (lit.atLine line)
  | .this span => .this (span.orLine line)
  | .array elements span => .array (exprsAtLine line elements) (span.orLine line)
  | .object properties span => .object (propertiesAtLine line properties) (span.orLine line)
  | .function f => .function (f.atLine line)
  | .assignment op left right span =>
    .assignment op (left.atLine line) (right.atLine line) (span.orLine line)
  | .member object property computed span =>
    .member (object.atLine line) (property.atLine line) computed (span.orLine line)
  | .call callee arguments span =>
    .call (callee.atLine line) (exprsAtLine line arguments) (span.orLine line)
  | .new callee arguments span =>
    .new (callee.atLine line) (exprsAtLine line arguments) (span.orLine line)
  | .binary op left right span =>
    .binary op (left.atLine line) (right.atLine line) (span.orLine line)
  | .logical op left right span =>
    .logical op (left.atLine line) (right.atLine line) (span.orLine line)
  | .unary op argument isPrefix span =>
    .unary op (argument.atLine line) isPrefix (span.orLine line)
  | .update op argument isPrefix span =>
    .update op (argument.atLine line) isPrefix (span.orLine line)
  | .conditional test consequent alternate span =>
    .conditional (test.atLine line) (consequent.atLine line) (alternate.atLine line)
      (span.orLine line)

def exprsAtLine (line : UInt32) : List Expr → List Expr
  | [] => []
  | e :: rest => e.atLine line :: exprsAtLine line rest

def exprAtLine? (line : UInt32) : Option Expr → Option Expr
  | none => none
  | some e => some (e.atLine line)

def Property.atLine (line : UInt32) : Property → Property
  | ⟨key, value, kind, span⟩ => ⟨key.atLine line, value.atLine line, kind, span.orLine line⟩

def propertiesAtLine (line : UInt32) : List Property → List Property
  | [] => []
  | p :: rest => p.atLine line :: propertiesAtLine line rest

def Function.atLine (line : UInt32) : Function → Function
  | ⟨id, params, body, bodySpan, span⟩ =>
    ⟨id.map (Identifier.atLine line), params.map (Identifier.atLine line), stmtsAtLine line body,
      bodySpan.orLine line, span.orLine line⟩

def Declarator.atLine (line : UInt32) : Declarator → Declarator
  | ⟨id, init, span⟩ => ⟨id.atLine line, exprAtLine? line init, span.orLine line⟩

def declaratorsAtLine (line : UInt32) : List Declarator → List Declarator
  | [] => []
  | d :: rest => d.atLine line :: declaratorsAtLine line rest

def Declaration.atLine (line : UInt32) : Declaration → Declaration
  | ⟨declarators, kind, span⟩ => ⟨declaratorsAtLine line declarators, kind, span.orLine line⟩

def ForInit.atLine (line : UInt32) : ForInit → ForInit
  | .declaration d => .declaration (d.atLine line)
  | .expression e => .expression (e.atLine line)

def forInitAtLine? (line : UInt32) : Option ForInit → Option ForInit
  | none => none
  | some init => some (init.atLine line)

/-- Place every node of a statement that has no span at the start of `line`. -/
def Stmt.atLine (line : UInt32) : Stmt → Stmt
  | .declaration d => .declaration (d.atLine line)
  | .function f => .function (f.atLine line)
  | .expression e span => .expression (e.atLine line) (span.orLine line)
  | .block body span => .block (stmtsAtLine line body) (span.orLine line)
  | .branch test consequent alternate span =>
    .branch (test.atLine line) (consequent.atLine line) (stmtAtLine? line alternate)
      (span.orLine line)
  | .whileLoop test body span =>
    .whileLoop (test.atLine line) (body.atLine line) (span.orLine line)
  | .forLoop init test update body span =>
    .forLoop (forInitAtLine? line init) (exprAtLine? line test) (exprAtLine? line update)
      (body.atLine line) (span.orLine line)
  | .returns argument span => .returns (exprAtLine? line argument) (span.orLine line)
  | .throws argument span => .throws (argument.atLine line) (span.orLine line)
  | .empty span => .empty (span.orLine line)

def stmtsAtLine (line : UInt32) : List Stmt → List Stmt
  | [] => []
  | s :: rest => s.atLine line :: stmtsAtLine line rest

def stmtAtLine? (line : UInt32) : Option Stmt → Option Stmt
  | none => none
  | some s => some (s.atLine line)

end

end Script

end HeaderCheck

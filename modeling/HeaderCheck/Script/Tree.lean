import HeaderCheck.Json.Value
import HeaderCheck.Text.Span

/-!
# HeaderCheck.Script.Tree

Trees of the scripts that are checked.

* `Expr`, `Stmt`: expressions and statements; every node has the span that diagnostics report.
* `Function`: the shape that function declarations and function expressions share.
* `Source`: a program with its path and its text, from which diagnostics quote.
-/

namespace HeaderCheck.Script

structure Identifier where
  name : String
  span : Span := {}
deriving DecidableEq, Repr

structure Regex where
  pattern : String
  flags : String := ""
deriving DecidableEq, Repr

/-- A literal; its value is whatever JSON value was written for it. -/
structure Literal where
  value : Json := .null
  regex : Option Regex := none
  raw : Option String := none
  span : Span := {}
deriving Repr

mutual

/-- An expression. -/
inductive Expr where
  | identifier (id : Identifier)
  | literal (literal : Literal)
  | this (span : Span)
  | array (elements : List Expr) (span : Span)
  | object (properties : List Property) (span : Span)
  | function (function : Function)
  | assignment (operator : String) (left right : Expr) (span : Span)
  | member (object property : Expr) (computed : Bool) (span : Span)
  | call (callee : Expr) (arguments : List Expr) (span : Span)
  | new (callee : Expr) (arguments : List Expr) (span : Span)
  | binary (operator : String) (left right : Expr) (span : Span)
  | logical (operator : String) (left right : Expr) (span : Span)
  | unary (operator : String) (argument : Expr) (isPrefix : Bool) (span : Span)
  | update (operator : String) (argument : Expr) (isPrefix : Bool) (span : Span)
  | conditional (test consequent alternate : Expr) (span : Span)

/-- A property of an object literal. -/
structure Property where
  key : Expr
  value : Expr
  kind : String
  span : Span

/-- A function declaration or a function expression. -/
structure Function where
  id : Option Identifier
  params : List Identifier
  body : List Stmt
  bodySpan : Span
  span : Span

/-- One variable of a declaration. -/
structure Declarator where
  id : Identifier
  init : Option Expr
  span : Span

/-- A declaration of variables. -/
structure Declaration where
  declarators : List Declarator
  kind : String
  span : Span

/-- What a `for` statement starts with. -/
inductive ForInit where
  | declaration (declaration : Declaration)
  | expression (expression : Expr)

/-- A statement. -/
inductive Stmt where
  | declaration (declaration : Declaration)
  | function (function : Function)
  | expression (expression : Expr) (span : Span)
  | block (body : List Stmt) (span : Span)
  | branch (test : Expr) (consequent : Stmt) (alternate : Option Stmt) (span : Span)
  | whileLoop (test : Expr) (body : Stmt) (span : Span)
  | forLoop (init : Option ForInit) (test update : Option Expr) (body : Stmt) (span : Span)
  | returns (argument : Option Expr) (span : Span)
  | throws (argument : Expr) (span : Span)
  | empty (span : Span)

end

structure Program where
  body : List Stmt
  span : Span := {}

/-- A program with its path and its text. -/
structure Source where
  path : String
  text : String
  program : Program

/-- The text of a source that `span` covers. -/
def Source.snippet (source : Source) (span : Span) : String :=
  span.snippet source.text

def Expr.span : Expr → Span
  | .identifier id => id.span
  | .literal lit => lit.span
  | .function f => f.span
  | .this span | .array _ span | .object _ span | .assignment _ _ _ span | .member _ _ _ span
  | .call _ _ span | .new _ _ span | .binary _ _ _ span | .logical _ _ _ span
  | .unary _ _ _ span | .update _ _ _ span | .conditional _ _ _ span => span

def Stmt.span : Stmt → Span
  | .declaration d => d.span
  | .function f => f.span
  | .expression _ span | .block _ span | .branch _ _ _ span | .whileLoop _ _ span
  | .forLoop _ _ _ _ span | .returns _ span | .throws _ span | .empty span => span

end HeaderCheck.Script

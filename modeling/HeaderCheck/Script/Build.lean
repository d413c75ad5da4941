import HeaderCheck.Script.Tree

/-!
# HeaderCheck.Script.Build

Nodes without spans, built by hand.
-/

namespace HeaderCheck.Script

namespace Build

/-! ## Expressions -/

def ident (name : String) : Expr :=
  .identifier { name }

def literal (value : Json) : Expr :=
  .literal { value }

def string (value : String) : Expr :=
  literal (.string value)

def number (value : Int) : Expr :=
  literal (.ofInt value)

def boolean (value : Bool) : Expr :=
  literal (.bool value)

def null : Expr :=
  literal .null

def regex (pattern : String) : Expr :=
  .literal { regex := some { pattern } }

def this : Expr :=
  .this {}

def array (elements : List Expr) : Expr :=
  .array elements {}

/-- The kind of a property that is a key and a value. -/
def plainProperty : String := "init"

def object (properties : List (String × Expr)) : Expr :=
  .object (properties.map fun (key, value) => ⟨ident key, value, plainProperty, {}⟩) {}

/-- The access `object.name`. -/
def member (object : Expr) (name : String) : Expr :=
  .member object (ident name) false {}

/-- The access `object[property]`. -/
def index (object property : Expr) : Expr :=
  .member object property true {}

def call (callee : Expr) (arguments : List Expr) : Expr :=
  .call callee arguments {}

def new (callee : Expr) (arguments : List Expr) : Expr :=
  .new callee arguments {}

def assignWith (operator : String) (left right : Expr) : Expr :=
  .assignment operator left right {}

def assign (left right : Expr) : Expr :=
  assignWith "=" left right

def binary (operator : String) (left right : Expr) : Expr :=
  .binary operator left right {}

def logical (operator : String) (left right : Expr) : Expr :=
  .logical operator left right {}

def unary (operator : String) (argument : Expr) : Expr :=
  .unary operator argument true {}

def update (operator : String) (argument : Expr) (isPrefix : Bool) : Expr :=
  .update operator argument isPrefix {}

def conditional (test consequent alternate : Expr) : Expr :=
  .conditional test consequent alternate {}

def function (name : Option String) (params : List String) (body : List Stmt) : Function :=
  ⟨name.map fun name => { name }, params.map fun name => { name }, body, {}, {}⟩

def functionExpr (name : Option String) (params : List String) (body : List Stmt) : Expr :=
  .function (function name params body)

/-! ## Statements -/

def functionDecl (name : String) (params : List String) (body : List Stmt) : Stmt :=
  .function (function (some name) params body)

/-- The keyword of a declaration made by hand. -/
def declarationKind : String := "var"

def declaration (name : String) (init : Option Expr) : Declaration :=
  ⟨[⟨{ name }, init, {}⟩], declarationKind, {}⟩

def declare (name : String) (init : Option Expr) : Stmt :=
  .declaration (declaration name init)

def expression (e : Expr) : Stmt :=
  .expression e {}

def block (body : List Stmt) : Stmt :=
  .block body {}

def branch (test : Expr) (consequent : List Stmt) (alternate : Option (List Stmt)) : Stmt :=
  .branch test (block consequent) (alternate.map block) {}

def whileLoop (test : Expr) (body : List Stmt) : Stmt :=
  .whileLoop test (block body) {}

def forLoop (init : Option ForInit) (test update : Option Expr) (body : List Stmt) : Stmt :=
  .forLoop init test update (block body) {}

def returns (argument : Option Expr) : Stmt :=
  .returns argument {}

def throws (argument : Expr) : Stmt :=
  .throws argument {}

def empty : Stmt :=
  .empty {}

def program (body : List Stmt) : Program :=
  { body }

end Build

end HeaderCheck.Script

import HeaderCheck.Script.Tree

/-!
# HeaderCheck.Script.Size

How many nodes scripts have. A walk of a tree is nowhere deeper than that.
-/

namespace HeaderCheck.Script

mutual

/-- How many expressions and statements an expression has, itself included. -/
def Expr.size : Expr → Nat
  | .identifier _ | .literal _ | .this _ => 1
  | .array elements _ => exprsSize elements + 1
  | .object properties _ => propertiesSize properties + 1
  | .function f => f.size + 1
  | .assignment _ left right _ | .binary _ left right _ | .logical _ left right _ =>
    left.size + right.size + 1
  | .member object property _ _ => object.size + property.size + 1
  | .call callee arguments _ | .new callee arguments _ =>
    callee.size + exprsSize arguments + 1
  | .unary _ argument _ _ | .update _ argument _ _ => argument.size + 1
  | .conditional test consequent alternate _ =>
    test.size + consequent.size + alternate.size + 1

def exprsSize : List Expr → Nat
  | [] => 0
  | e :: rest => e.size + exprsSize rest

def exprSize? : Option Expr → Nat
  | none => 0
  | some e => e.size

def Property.size : Property → Nat
  | ⟨key, value, _, _⟩ => key.size + value.size

def propertiesSize : List Property → Nat
  | [] => 0
  | p :: rest => p.size + propertiesSize rest

def Function.size : Function → Nat
  | ⟨_, _, body, _, _⟩ => stmtsSize body

def Declarator.size : Declarator → Nat
  | ⟨_, init, _⟩ => exprSize? init

def declaratorsSize : List Declarator → Nat
  | [] => 0
  | d :: rest => d.size + declaratorsSize rest

def Declaration.size : Declaration → Nat
  | ⟨declarators, _, _⟩ => declaratorsSize declarators

def ForInit.size : ForInit → Nat
  | .declaration d => d.size
  | .expression e => e.size

def forInitSize? : Option ForInit → Nat
  | none => 0
  | some init => init.size

/-- How many expressions and statements a statement has, itself included. -/
def Stmt.size : Stmt → Nat
  | .declaration d => d.size + 1
  | .function f => f.size + 1
  | .expression e _ | .throws e _ => e.size + 1
  | .block body _ => stmtsSize body + 1
  | .branch test consequent alternate _ =>
    test.size + consequent.size + stmtSize? alternate + 1
  | .whileLoop test body _ => test.size + body.size + 1
  | .forLoop init test update body _ =>
    forInitSize? init + exprSize? test + exprSize? update + body.size + 1
  | .returns argument _ => exprSize? argument + 1
  | .empty _ => 1

def stmtsSize : List Stmt → Nat
  | [] => 0
  | s :: rest => s.size + stmtsSize rest

def stmtSize? : Option Stmt → Nat
  | none => 0
  | some s => s.size

end

def Program.size (program : Program) : Nat :=
  stmtsSize program.body

end HeaderCheck.Script

import HeaderCheck.Script.Tree

/-!
# HeaderCheck.Script.Query

Questions about the nodes of a script.

* `Literal.kind`: the primitive class of a literal.
* `Expr.propertyName?`: the name in an access `a.b`.
* `Property.keyName?`: the name in `a: ..` and `"a": ..`.
-/

namespace HeaderCheck.Script

/-- The primitive class of a literal. -/
inductive LiteralKind where
  | string
  | number
  | boolean
  | null
  | regExp
deriving DecidableEq, Repr

namespace Literal

/-- Objects and arrays stand for regular expressions, which have no JSON form. -/
def kind (literal : Literal) : LiteralKind :=
  if literal.regex.isSome then .regExp
  else
    match literal.value with
    | .string _ => .string
    | .number _ => .number
    | .bool _ => .boolean
    | .null => .null
    | .object _ | .array _ => .regExp

def string? (literal : Literal) : Option String :=
  literal.value.string?

/-- The literal as an index into a list. -/
def index? (literal : Literal) : Option Nat :=
  literal.value.index?

end Literal

namespace Expr

def identifier? : Expr → Option Identifier
  | .identifier id => some id
  | _ => none

def isThis : Expr → Bool
  | .this _ => true
  | _ => false

def isMember : Expr → Bool
  | .member .. => true
  | _ => false

/-- The static name of an access `a.b`; `none` for `a[b]` and for all other expressions. -/
def propertyName? : Expr → Option String
  | .member _ property false _ => property.identifier?.map Identifier.name
  | _ => none

end Expr

/-- The name of a property written `a: ..` or `"a": ..`. -/
def Property.keyName? (property : Property) : Option String :=
  match property.key with
  | .identifier id => some id.name
  | .literal lit => lit.string?
  | _ => none

/-- The declared name, or `anonymous` for a function expression without one. -/
def Function.name (f : Function) : String :=
  match f.id with
  | some id => id.name
  | none => "anonymous"

def Stmt.isFunction : Stmt → Bool
  | .function _ => true
  | _ => false

end HeaderCheck.Script

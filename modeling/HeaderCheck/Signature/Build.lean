import HeaderCheck.Signature.Tree

/-!
# HeaderCheck.Signature.Build

Type expressions and header statements, built by hand.

* `labeled`, `optional`: the same type as a named or optional argument, where it can be one.
* `withGenerics`: the same function with type variables.
-/

namespace HeaderCheck.Signature.Build

def literal (name : String) : TypeExpr :=
  .literal name none none false

def value (value : String) : TypeExpr :=
  .value value value none

/-- The type with a label; a type variable takes none. -/
def labeled (label : String) : TypeExpr → TypeExpr
  | .object fields _ optional isOpen brand => .object fields (some label) optional isOpen brand
  | .union members _ optional => .union members (some label) optional
  | .intersection members _ optional => .intersection members (some label) optional
  | .literal name builtin _ optional => .literal name builtin (some label) optional
  | .value value name _ => .value value name (some label)
  | .function args result this _ optional generics brand =>
    .function args result this (some label) optional generics brand
  | .generic base args _ => .generic base args (some label)
  | .tuple elements _ optional => .tuple elements (some label) optional
  | .renamed name builtin target _ optional =>
    .renamed name builtin target (some label) optional
  | .free name => .free name

/-- The type marked as optional; values, generics and type variables take no mark. -/
def optional : TypeExpr → TypeExpr
  | .object fields label _ isOpen brand => .object fields label true isOpen brand
  | .union members label _ => .union members label true
  | .intersection members label _ => .intersection members label true
  | .literal name builtin label _ => .literal name builtin label true
  | .function args result this label _ generics brand =>
    .function args result this label true generics brand
  | .tuple elements label _ => .tuple elements label true
  | .renamed name builtin target label _ => .renamed name builtin target label true
  | other => other

def object (fields : List (String × TypeExpr)) : TypeExpr :=
  .object (fields.map fun (key, value) => ⟨key, value, false⟩) none false false plainBrand

def union (members : List TypeExpr) : TypeExpr :=
  .union members none false

def intersection (members : List TypeExpr) : TypeExpr :=
  .intersection members none false

def generic (base : TypeExpr) (args : List TypeExpr) : TypeExpr :=
  .generic base args none

def tuple (elements : List TypeExpr) : TypeExpr :=
  .tuple elements none false

def renamed (name : String) (target : TypeExpr) : TypeExpr :=
  .renamed name false target none false

def free (name : String) : TypeExpr :=
  .free name

def function (args : List TypeExpr) (result : TypeExpr) : TypeExpr :=
  .function args result none none false [] plainBrand

/-- A function with a type for `this`. -/
def method (this : TypeExpr) (args : List TypeExpr) (result : TypeExpr) : TypeExpr :=
  .function args result (some this) none false [] plainBrand

/-- A function with type variables; other types stay as they are. -/
def withGenerics (type : TypeExpr) (generics : List (String × List Segment)) : TypeExpr :=
  match type with
  | .function args result this label optional _ brand =>
    .function args result this label optional
      (generics.map fun (name, location) => { name, location }) brand
  | other => other

def assignment (name : String) (type : TypeExpr) : Statement :=
  .assignment name type

def declaration (name : String) (generics : List String) (body : TypeExpr) : Statement :=
  .declaration name body (generics.map literal)

def imports (dependency : String) (types : List TypeExpr) : Statement :=
  .imports dependency types

def comment (text : String) : Statement :=
  .comment text

def header (statements : List Statement) : Header :=
  { statements }

end HeaderCheck.Signature.Build

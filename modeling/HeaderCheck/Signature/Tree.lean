/-!
# HeaderCheck.Signature.Tree

Trees of headers: the type expressions and statements of the signature language.

* `TypeExpr`: a type as it is written.
* `Descriptor`: one place of a function type at which a type variable occurs.
* `Header`: the statements of a header.
-/

namespace HeaderCheck.Signature

/-- A step of the path that a descriptor gives, as it is written. -/
inductive Segment where
  | index (value : UInt64)
  | key (value : String)
deriving DecidableEq, Repr

/-- A type variable and the path to one place of the function at which it occurs. -/
structure Descriptor where
  name : String
  location : List Segment
deriving DecidableEq, Repr

mutual

/-- A type as it is written. A label names it as a field or an argument. -/
inductive TypeExpr where
  | object (fields : List KeyValue) (label : Option String) (optional isOpen : Bool)
      (brand : String)
  | union (members : List TypeExpr) (label : Option String) (optional : Bool)
  | intersection (members : List TypeExpr) (label : Option String) (optional : Bool)
  | literal (name : String) (builtin : Option Bool) (label : Option String) (optional : Bool)
  | value (value name : String) (label : Option String)
  | function (args : List TypeExpr) (result : TypeExpr) (this : Option TypeExpr)
      (label : Option String) (optional : Bool) (generics : List Descriptor) (brand : String)
  | generic (base : TypeExpr) (args : List TypeExpr) (label : Option String)
  | tuple (elements : List TypeExpr) (label : Option String) (optional : Bool)
  | renamed (name : String) (builtin : Bool) (target : TypeExpr) (label : Option String)
      (optional : Bool)
  | free (name : String)

/-- A field of an object type. -/
structure KeyValue where
  key : String
  value : TypeExpr
  optional : Bool

end

/-- A statement of a header. -/
inductive Statement where
  | declaration (name : String) (body : TypeExpr) (generics : List TypeExpr)
  | assignment (name : String) (type : TypeExpr)
  | imports (dependency : String) (types : List TypeExpr)
  | comment (text : String)

structure Header where
  statements : List Statement := []

/-- The brand of objects and functions that declare none. -/
def plainBrand : String := "Object"

/-- Names of types that need no declaration. -/
def builtinNames : List String :=
  ["String", "Number", "Boolean", "void", "Any", "Mixed", "Object", "Array", "RegExp",
    "Function", "Error", "Date", "Buffer"]

def isBuiltinName (name : String) : Bool :=
  builtinNames.contains name

namespace TypeExpr

/-- The name of a type as a field or an argument. -/
def label : TypeExpr → Option String
  | .object _ label _ _ _ | .union _ label _ | .intersection _ label _ | .literal _ _ label _
  | .value _ _ label | .function _ _ _ label _ _ _ | .generic _ _ label | .tuple _ label _
  | .renamed _ _ _ label _ => label
  | .free _ => none

/-- Whether a field or an argument of this type may be left out. -/
def isOptional : TypeExpr → Bool
  | .object _ _ optional _ _ | .union _ _ optional | .intersection _ _ optional
  | .literal _ _ _ optional | .function _ _ _ _ optional _ _ | .tuple _ _ optional
  | .renamed _ _ _ _ optional => optional
  | .value .. | .generic .. | .free _ => false

/-- Whether a type literal is built in: what it says, or else whether its name is. -/
def isBuiltin? : TypeExpr → Option Bool
  | .literal name builtin _ _ => some (builtin.getD (isBuiltinName name))
  | _ => none

end TypeExpr

end HeaderCheck.Signature

import HeaderCheck.Dict
import HeaderCheck.Script.Tree
import HeaderCheck.Types.Basic

/-!
# HeaderCheck.Scope.Basic

Scopes: what is known about names inside a file, a function or a branch.

* `Scope`: the names bound, narrowed and declared in one place, and the place around it.
* `Scope.Kind`: a file with the prototype fields of its constructors, a function with what its
  body has shown so far, or a branch of the control flow.
* `Globals`: names, operators and the types behind primitive receivers, for all files.
-/

namespace HeaderCheck.Scope

open HeaderCheck.Types

/-- Handle of a scope. -/
structure ScopeId where
  index : Nat
deriving DecidableEq, Repr, Inhabited

/-- How narrowed types count in a look-up. -/
inductive LookupMode where
  | normal
  /-- The declared type, whatever branches say: for targets of assignments. -/
  | writable
deriving DecidableEq, Repr

/-- A declared function whose type is not known yet. -/
structure UntypedFunction where
  node : Script.Function
  /-- The scope of the declaration, from which the body is verified. -/
  definedIn : ScopeId

/-- A function is a constructor when its name begins with an upper-case ASCII letter. -/
def isConstructorName (name : String) : Bool :=
  match name.toList with
  | c :: _ => c.isUpper
  | [] => false

/-- What is known about a function while its body is verified. -/
structure FunctionInfo where
  name : String
  thisType : Option TypeId := none
  /-- The declared result, or the sentinel of a result that is being inferred. -/
  returnType : TypeId := .unknownReturn
  funcType : TypeId
  isConstructor : Bool
  /-- Fields assigned through `this`, in the order of their first assignments. -/
  knownFields : List String := []
  /-- The type of the last return statement. -/
  knownReturnType : Option TypeId := none
  returnSpan : Option Span := none
  /-- The expected type while the argument of a return statement is verified. -/
  returnExpressionType : Option TypeId := none
deriving Repr

inductive Kind where
  /-- A file, with the prototype fields of each constructor. -/
  | file (prototypes : Dict (Dict TypeId))
  | function (info : FunctionInfo)
  /-- A branch, with the narrowed type of `this`. -/
  | branch (restrictedThis : Option TypeId)
deriving Repr

namespace Kind

def isFunction : Kind → Bool
  | .function _ => true
  | _ => false

def isBranch : Kind → Bool
  | .branch _ => true
  | _ => false

end Kind

end HeaderCheck.Scope

namespace HeaderCheck

open HeaderCheck.Types HeaderCheck.Scope

/-- The names of one place and the place around it. -/
structure Scope where
  parent : Option ScopeId
  kind : Scope.Kind
  identifiers : Dict TypeId := {}
  restrictions : Dict TypeId := {}
  untyped : Dict UntypedFunction := {}
  /-- The scopes made for the functions declared here. -/
  functions : Dict ScopeId := {}

/-- Bindings that all files share. -/
structure Globals where
  identifiers : Dict TypeId := {}
  operators : Dict TypeId := {}
  /-- Types whose members primitive receivers have. -/
  virtualTypes : Dict TypeId := {}
deriving Repr

namespace Globals

/-- Bind a name; a later binding replaces an earlier one. -/
def bind (g : Globals) (name : String) (type : TypeId) : Globals :=
  { g with identifiers := g.identifiers.insert name type }

def bindOperator (g : Globals) (operator : String) (type : TypeId) : Globals :=
  { g with operators := g.operators.insert operator type }

def bindVirtualType (g : Globals) (name : String) (type : TypeId) : Globals :=
  { g with virtualTypes := g.virtualTypes.insert name type }

end Globals

end HeaderCheck

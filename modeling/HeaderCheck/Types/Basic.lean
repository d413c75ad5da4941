/-!
# HeaderCheck.Types.Basic

Types and their handles.

* `TypeId`: the handle of a type in a table. The first nineteen handles are the same in every
  table; `TypeId.string`, `TypeId.null` and so on name them.
* `TypeData`: one level of a type, whose parts are handles.
* `Step`: one step from a type to a part of it.
-/

namespace HeaderCheck.Types

/-- Handle of a type. -/
structure TypeId where
  index : Nat
deriving DecidableEq, Repr, Inhabited

namespace TypeId

def any : TypeId := ⟨0⟩
def mixed : TypeId := ⟨1⟩
def string : TypeId := ⟨2⟩
def number : TypeId := ⟨3⟩
def boolean : TypeId := ⟨4⟩
def void : TypeId := ⟨5⟩
def regExp : TypeId := ⟨6⟩

/-- The name `Object`, which is no object shape. -/
def object : TypeId := ⟨7⟩

/-- The bare name `Array`, which `Array<T>` applies. -/
def array : TypeId := ⟨8⟩

def function : TypeId := ⟨9⟩
def null : TypeId := ⟨10⟩
def undefined : TypeId := ⟨11⟩

/-- A variable before its first assignment. -/
def uninitialized : TypeId := ⟨12⟩

/-- The result of a function whose return type is being inferred. -/
def unknownReturn : TypeId := ⟨13⟩

/-- A variable that was set to `null` and has not been assigned since. -/
def nullDefault : TypeId := ⟨14⟩

/-- A field of an open object that has not been assigned. -/
def openField : TypeId := ⟨15⟩

/-- The exports of a module before they are assigned. -/
def moduleExports : TypeId := ⟨16⟩

/-- The closed object without fields. -/
def emptyObject : TypeId := ⟨17⟩

/-- The open object without fields. -/
def openObject : TypeId := ⟨18⟩

/-- Whether the type stands for something not known yet. -/
def isSentinel (id : TypeId) : Bool :=
  uninitialized.index ≤ id.index && id.index ≤ moduleExports.index

/-- Whether the first assignment to a variable of this type gives it its type. -/
def growsFreely (id : TypeId) : Bool :=
  id = uninitialized || id = nullDefault

/-- Whether all values of the type are `null` or `undefined`. -/
def isNullish (id : TypeId) : Bool :=
  id = null || id = undefined || id = nullDefault || id = uninitialized

def isAnyLike (id : TypeId) : Bool :=
  id = any || id = mixed

end TypeId

/-- One step from a type to a part of it. Fields count by position. -/
inductive Step where
  | arg (index : Nat)
  | this
  | result
  | typeArg (index : Nat)
  | field (index : Nat)
  | member (index : Nat)
  | element (index : Nat)
deriving DecidableEq, Repr

/-- A field of an object type. -/
structure Field where
  name : String
  type : TypeId
  optional : Bool := false
deriving DecidableEq, Repr

/-- The fields of an object in declaration order. Fields may be added to an open object by
assignment; a brand other than `Object` tells objects of equal fields apart. -/
structure ObjectShape where
  fields : List Field
  isOpen : Bool
  brand : String
deriving DecidableEq, Repr

/-- A parameter of a function type. -/
structure Param where
  name : Option String
  type : TypeId
  optional : Bool := false
deriving DecidableEq, Repr

/-- One occurrence of a type variable in a function type. -/
structure Occurrence where
  name : String
  location : List Step
deriving DecidableEq, Repr

structure FunctionShape where
  params : List Param
  result : TypeId
  this : Option TypeId
  generics : List Occurrence
  brand : String
deriving DecidableEq, Repr

/-- One level of a type. -/
inductive TypeData where
  /-- A type that is known by its name. -/
  | literal (name : String) (builtin : Bool)
  /-- A single value: `null` or `undefined`. -/
  | value (value name : String)
  | object (shape : ObjectShape)
  | union (members : List TypeId)
  | intersection (members : List TypeId)
  | function (shape : FunctionShape)
  /-- `base<args>`, such as `Array<String>`. -/
  | generic (base : TypeId) (args : List TypeId)
  | tuple (elements : List TypeId)
  /-- Another name for `target`. -/
  | renamed (name : String) (builtin : Bool) (target : TypeId)
  /-- A type variable without a solution, which fits anything. -/
  | free (name : String)
deriving DecidableEq, Repr

/-- The brand of objects and functions that have none of their own. -/
def plainBrand : String := "Object"

namespace ObjectShape

/-- The first field called `name`. -/
def find? (shape : ObjectShape) (name : String) : Option Field :=
  shape.fields.find? fun field => field.name = name

def position? (shape : ObjectShape) (name : String) : Option Nat :=
  shape.fields.findIdx? fun field => field.name = name

/-- The shape with a required field `name`, in the place of an existing one or at the end. -/
def withField (shape : ObjectShape) (name : String) (type : TypeId) : ObjectShape :=
  match shape.position? name with
  | some i => { shape with fields := shape.fields.set i { name, type } }
  | none => { shape with fields := shape.fields ++ [{ name, type }] }

end ObjectShape

/-- How many parameters a call must supply. -/
def FunctionShape.requiredParams (shape : FunctionShape) : Nat :=
  shape.params.countP fun param => !param.optional

def TypeData.isFree : TypeData → Bool
  | .free _ => true
  | _ => false

/-- The handles that occur in one level of a type. -/
def TypeData.parts : TypeData → List TypeId
  | .literal .. | .value .. | .free _ => []
  | .object shape => shape.fields.map Field.type
  | .union members | .intersection members => members
  | .function shape => shape.params.map Param.type ++ shape.this.toList ++ [shape.result]
  | .generic base args => base :: args
  | .tuple elements => elements
  | .renamed _ _ target => [target]

end HeaderCheck.Types

import HeaderCheck.Scope.Basic
import HeaderCheck.Types.Table

/-!
# HeaderCheck.Builtins

The bindings that every file starts from.

* `identifiers`: names of the language.
* `virtualTypes`: the members of arrays, strings and numbers.
* `operators`: operators as functions; one with several signatures is their intersection.
-/

namespace HeaderCheck.Builtins

open HeaderCheck.Types

/-- Types are made one after the other in one table. -/
abbrev Build := StateM Table

def unnamed (type : TypeId) : Param :=
  { name := none, type }

def optional (type : TypeId) : Param :=
  { name := none, type, optional := true }

def shape (params : List Param) (result : TypeId) : FunctionShape :=
  { params, result, this := none, generics := [], brand := plainBrand }

def functionOf (shape : FunctionShape) : Build TypeId :=
  modifyGet (·.function shape)

def function (params : List TypeId) (result : TypeId) : Build TypeId :=
  functionOf (shape (params.map unnamed) result)

def object (fields : List (String × TypeId)) : Build TypeId :=
  modifyGet (·.object (fields.map fun (name, type) => { name, type }))

def arrayOf (element : TypeId) : Build TypeId :=
  modifyGet (·.array element)

/-! ## Names -/

def objectFunctions : Build TypeId := do
  let source ← modifyGet (·.union2 .object .null)
  let create ← function [source] .openObject
  let strings ← arrayOf .string
  let keys ← function [.object] strings
  object [("create", create), ("keys", keys)]

/-- How many arguments the functions of `console` take. -/
def maxLogged : Nat := 8

def consoleFunctions : Build TypeId := do
  let log ← functionOf (shape (List.replicate maxLogged (optional .any)) .void)
  object [("log", log), ("error", log), ("warn", log), ("info", log)]

def mathFunctions : Build TypeId := do
  let round ← function [.number] .number
  let random ← function [] .number
  object [("floor", round), ("ceil", round), ("round", round), ("abs", round), ("random", random)]

def jsonFunctions : Build TypeId := do
  let stringify ← function [.any] .string
  let parse ← function [.string] .any
  object [("stringify", stringify), ("parse", parse)]

def errorConstructor : Build TypeId := do
  let fields ← object [("message", .string)]
  let this ← modifyGet (·.withBrand fields "Error")
  functionOf { shape [optional .string] .void with this := some this, brand := "Error" }

/-- The names of the language with their types. -/
def identifiers : Build (List (String × TypeId)) := do
  let isArray ← function [.any] .boolean
  let array ← object [("isArray", isArray)]
  let parseInt ← functionOf (shape [unnamed .string, optional .number] .number)
  return [("Object", ← objectFunctions), ("Array", array), ("console", ← consoleFunctions),
    ("Math", ← mathFunctions), ("JSON", ← jsonFunctions), ("Error", ← errorConstructor),
    ("String", ← function [.any] .string), ("Number", ← function [.any] .number),
    ("Boolean", ← function [.any] .boolean), ("parseInt", parseInt),
    ("isNaN", ← function [.any] .boolean)]

/-! ## Members of primitive receivers -/

/-- The members of arrays. The receiver's element type solves `T`. -/
def arrayMembers : Build TypeId := do
  let t ← modifyGet (·.free "T")
  let receiver ← arrayOf t
  let inReceiver : Occurrence := ⟨"T", [.this, .typeArg 0]⟩
  let inArgument : Occurrence := ⟨"T", [.arg 0]⟩
  let inResult : Occurrence := ⟨"T", [.result, .typeArg 0]⟩
  let ofElement ← functionOf
    { shape [unnamed t] .number with this := some receiver, generics := [inReceiver, inArgument] }
  let slice ← functionOf
    { shape [optional .number, optional .number] receiver with
      this := some receiver
      generics := [inReceiver, inResult] }
  let join ← functionOf (shape [optional .string] .string)
  object [("length", .number), ("push", ofElement), ("indexOf", ofElement), ("slice", slice),
    ("join", join)]

def stringMembers : Build TypeId := do
  let strings ← arrayOf .string
  let split ← function [.string] strings
  let indexOf ← function [.string] .number
  let slice ← functionOf (shape [unnamed .number, optional .number] .string)
  let charAt ← function [.number] .string
  let plain ← function [] .string
  object [("length", .number), ("split", split), ("indexOf", indexOf), ("slice", slice),
    ("charAt", charAt), ("toUpperCase", plain), ("toLowerCase", plain), ("trim", plain)]

def numberMembers : Build TypeId := do
  let toFixed ← functionOf (shape [optional .number] .string)
  object [("toFixed", toFixed)]

def virtualTypes : Build (List (String × TypeId)) := do
  return [("TArray", ← arrayMembers), ("TString", ← stringMembers), ("TNumber", ← numberMembers)]

/-! ## Operators -/

def operators : Build (List (String × TypeId)) := do
  let numeric ← function [.number, .number] .number
  let negate ← function [.number] .number
  let compare ← function [.number, .number] .boolean
  let equality ← function [.any, .any] .boolean
  let concat ← function [.string, .string] .string
  let plus ← modifyGet (·.intersection [numeric, concat, negate])
  let minus ← modifyGet (·.intersection [numeric, negate])
  let not ← function [.any] .boolean
  let typeof ← function [.any] .string
  let void ← function [.any] .void
  return [("+", plus), ("-", minus)] ++
    ["*", "/", "%", "<<", ">>", ">>>", "&", "|", "^"].map (·, numeric) ++
    ["<", ">", "<=", ">="].map (·, compare) ++
    ["==", "===", "!=", "!==", "instanceof", "in"].map (·, equality) ++
    [("!", not), ("typeof", typeof), ("void", void), ("delete", not)] ++
    ["~", "++", "--"].map (·, negate)

/-- All bindings that a project starts from. -/
def globals : Build Globals := do
  let identifiers ← identifiers
  let virtualTypes ← virtualTypes
  let operators ← operators
  return { identifiers := Dict.ofList identifiers, operators := Dict.ofList operators,
           virtualTypes := Dict.ofList virtualTypes }

end HeaderCheck.Builtins

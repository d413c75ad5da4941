import HeaderCheck.Project.Compile

/-!
# HeaderCheck.Proofs.Builtins

The built-in bindings, written out.

* `madeTypes`: the types that are made for them, in the order of their handles.
* `bindings`, `table`: the bindings, and the table that they leave.
* `globals_eq`: making the bindings comes to these.

`Project.Session.start_eq` begins sessions there, so a run on fixed input need not make the bindings.
-/

namespace HeaderCheck

open HeaderCheck.Types

namespace Builtins

/-- A function type without `this` and type variables. -/
def made (params : List Param) (result : TypeId) : TypeData :=
  .function (shape params result)

/-- A function type of the members of arrays, which have the handle 40. -/
def madeMember (params : List Param) (result : TypeId) (place : List Step) : TypeData :=
  .function { shape params result with
    this := some ⟨40⟩, generics := [⟨"T", [.this, .typeArg 0]⟩, ⟨"T", place⟩] }

/-- A closed object type. -/
def madeObject (fields : List (String × TypeId)) (brand : String := plainBrand) : TypeData :=
  .object ⟨fields.map fun (name, type) => { name, type }, false, brand⟩

/-- The types from the handle 19 on. -/
def madeTypes : List TypeData :=
  -- 19 to 38: the names of the language
  [made [unnamed .any] .boolean, madeObject [("isArray", ⟨19⟩)],
    made [unnamed .string, optional .number] .number, .union [.object, .null],
    made [unnamed ⟨22⟩] .openObject, .generic .array [.string], made [unnamed .object] ⟨24⟩,
    madeObject [("create", ⟨23⟩), ("keys", ⟨25⟩)],
    made (List.replicate maxLogged (optional .any)) .void,
    madeObject [("log", ⟨27⟩), ("error", ⟨27⟩), ("warn", ⟨27⟩), ("info", ⟨27⟩)],
    made [unnamed .number] .number, made [] .number,
    madeObject [("floor", ⟨29⟩), ("ceil", ⟨29⟩), ("round", ⟨29⟩), ("abs", ⟨29⟩), ("random", ⟨30⟩)],
    made [unnamed .any] .string, made [unnamed .string] .any,
    madeObject [("stringify", ⟨32⟩), ("parse", ⟨33⟩)],
    madeObject [("message", .string)], madeObject [("message", .string)] "Error",
    .function { shape [optional .string] .void with this := some ⟨36⟩, brand := "Error" },
    made [unnamed .any] .number] ++
  -- 39 to 52: the members of arrays, strings and numbers
  [.free "T", .generic .array [⟨39⟩], madeMember [unnamed ⟨39⟩] .number [.arg 0],
    madeMember [optional .number, optional .number] ⟨40⟩ [.result, .typeArg 0],
    made [optional .string] .string,
    madeObject [("length", .number), ("push", ⟨41⟩), ("indexOf", ⟨41⟩), ("slice", ⟨42⟩),
      ("join", ⟨43⟩)],
    made [unnamed .string] ⟨24⟩, made [unnamed .string] .number,
    made [unnamed .number, optional .number] .string, made [unnamed .number] .string, made [] .string,
    madeObject [("length", .number), ("split", ⟨45⟩), ("indexOf", ⟨46⟩), ("slice", ⟨47⟩),
      ("charAt", ⟨48⟩), ("toUpperCase", ⟨49⟩), ("toLowerCase", ⟨49⟩), ("trim", ⟨49⟩)],
    made [optional .number] .string, madeObject [("toFixed", ⟨51⟩)]] ++
  -- 53 to 59: the operators
  [made [unnamed .number, unnamed .number] .number, made [unnamed .number, unnamed .number] .boolean,
    made [unnamed .any, unnamed .any] .boolean, made [unnamed .string, unnamed .string] .string,
    .intersection [⟨53⟩, ⟨56⟩, ⟨29⟩], .intersection [⟨53⟩, ⟨29⟩], made [unnamed .any] .void]

def bindings : Globals where
  identifiers := ⟨[("Object", ⟨26⟩), ("Array", ⟨20⟩), ("console", ⟨28⟩), ("Math", ⟨31⟩), ("JSON", ⟨34⟩),
    ("Error", ⟨37⟩), ("String", ⟨32⟩), ("Number", ⟨38⟩), ("Boolean", ⟨19⟩), ("parseInt", ⟨21⟩),
    ("isNaN", ⟨19⟩)]⟩
  operators := ⟨[("+", ⟨57⟩), ("-", ⟨58⟩)] ++
    ["*", "/", "%", "<<", ">>", ">>>", "&", "|", "^"].map (·, ⟨53⟩) ++
    ["<", ">", "<=", ">="].map (·, ⟨54⟩) ++
    ["==", "===", "!=", "!==", "instanceof", "in"].map (·, ⟨55⟩) ++
    [("!", ⟨19⟩), ("typeof", ⟨32⟩), ("void", ⟨59⟩), ("delete", ⟨19⟩)] ++
    ["~", "++", "--"].map (·, ⟨29⟩)⟩
  virtualTypes := ⟨[("TArray", ⟨44⟩), ("TString", ⟨50⟩), ("TNumber", ⟨52⟩)]⟩

theorem globals_made :
    let built := globals.run Table.initial
    built.2.types.toList = Table.builtins ++ madeTypes ∧ built.2.forward = [] ∧
      built.1.identifiers.entries = bindings.identifiers.entries ∧
      built.1.operators.entries = bindings.operators.entries ∧
      built.1.virtualTypes.entries = bindings.virtualTypes.entries := by
  decide +kernel

/-- The table that the bindings leave. -/
def table : Table where
  types := (Table.builtins ++ madeTypes).toArray
  placed := by
    obtain ⟨htypes, hforward, -⟩ := globals_made
    have hplaced := (globals.run Table.initial).2.placed
    have htoArray : (globals.run Table.initial).2.types = (Table.builtins ++ madeTypes).toArray := by
      rw [← htypes, Array.toArray_toList]
    rw [hforward, htoArray] at hplaced
    exact hplaced

theorem globals_eq : globals.run Table.initial = (bindings, table) := by
  have hmade := globals_made
  generalize globals.run Table.initial = built at hmade
  obtain ⟨⟨⟨identifiers⟩, ⟨operators⟩, ⟨virtualTypes⟩⟩, ⟨forward, ⟨types⟩, placed⟩⟩ := built
  obtain ⟨rfl, rfl, rfl, rfl, rfl⟩ := hmade
  rfl

end Builtins

namespace Project

theorem Session.start_eq (host : Host) (options : Options) : Session.start host options =
    Session.startWith host options Builtins.bindings Builtins.table := by
  rw [Session.start, Builtins.globals_eq]

end Project

end HeaderCheck

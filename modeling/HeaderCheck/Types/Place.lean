import HeaderCheck.Types.Table

/-!
# HeaderCheck.Types.Place

Parts of types reached by paths.

* `Table.typeAt?`: the type at the end of a path.
* `Table.replaceAt?`: the type with another one at the end of a path.
* `Table.instantiate`: a list of such replacements, those that do not fit being skipped.
* `Table.containsFree`: whether a type variable without a solution occurs in a type.
-/

namespace HeaderCheck.Types.Table

/-- The part of one level that a step leads to. -/
def partAt? : TypeData → Step → Option TypeId
  | .function shape, .arg i => shape.params[i]?.map Param.type
  | .function shape, .this => shape.this
  | .function shape, .result => some shape.result
  | .generic _ args, .typeArg i => args[i]?
  | .object shape, .field i => shape.fields[i]?.map Field.type
  | .union members, .member i => members[i]?
  | .intersection members, .member i => members[i]?
  | .tuple elements, .element i => elements[i]?
  | _, _ => none

/-- The part that a step leads to, looking through at most `fuel` other names of the type. -/
def childWithin? (t : Table) : (fuel : Nat) → TypeId → Step → Option TypeId
  | 0, _, _ => none
  | fuel + 1, id, step =>
    match t.lookup id with
    | some (.renamed _ _ target) => t.childWithin? fuel target step
    | some data => partAt? data step
    | none => none

/-- The part of a type that a step leads to; a renamed type has the parts of the type it names. -/
def childAt? (t : Table) (id : TypeId) (step : Step) : Option TypeId :=
  t.childWithin? (t.size + 1) id step

/-- Follow `path` from `root`; `none` when a step does not fit. -/
def typeAt? (t : Table) (root : TypeId) : (path : List Step) → Option TypeId
  | [] => some root
  | step :: path =>
    match t.childAt? root step with
    | some child => t.typeAt? child path
    | none => none

/-- Put `part` where a step leads to. -/
def setPart (t : Table) (data : TypeData) (step : Step) (part : TypeId) : TypeId × Table :=
  match data, step with
  | .function shape, .arg i =>
    t.function { shape with params := shape.params.modify i fun p => { p with type := part } }
  | .function shape, .this => t.function { shape with this := some part }
  | .function shape, .result => t.function { shape with result := part }
  | .generic base args, .typeArg i => t.generic base (args.set i part)
  | .object shape, .field i =>
    t.objectOf { shape with fields := shape.fields.modify i fun f => { f with type := part } }
  | .union members, .member i => t.union (members.set i part)
  | .intersection members, .member i => t.intersection (members.set i part)
  | .tuple elements, .element i => t.tuple (elements.set i part)
  | data, _ => t.add data

/-- Rebuild `root` with `replacement` at the end of `path`; `none` when a step does not fit. -/
def replaceAt? (t : Table) (root : TypeId) (path : List Step) (replacement : TypeId) :
    Option (TypeId × Table) :=
  match path with
  | [] => some (replacement, t)
  | step :: path =>
    match t.lookup root with
    | none => none
    | some data =>
      match partAt? data step with
      | none => none
      | some child =>
        match t.replaceAt? child path replacement with
        | none => none
        | some (part, t) => some (t.setPart data step part)

/-- Replace each located part in turn. A location that does not fit is skipped. -/
def instantiate (t : Table) (root : TypeId) : List (List Step × TypeId) → TypeId × Table
  | [] => (root, t)
  | (path, type) :: rest =>
    match t.replaceAt? root path type with
    | some (next, t) => t.instantiate next rest
    | none => t.instantiate root rest

/-- Whether a type variable without a solution occurs within `fuel` levels of a type. -/
def containsFreeWithin (t : Table) : (fuel : Nat) → TypeId → Bool
  | 0, _ => false
  | fuel + 1, id =>
    match t.lookup id with
    | some (.free _) => true
    | some data => data.parts.any (t.containsFreeWithin fuel)
    | none => false

/-- How many levels are searched below a type for type variables. -/
def maxInlineLevels : Nat := 64

def containsFree (t : Table) (id : TypeId) : Bool :=
  t.containsFreeWithin (maxInlineLevels + 1) id

end HeaderCheck.Types.Table

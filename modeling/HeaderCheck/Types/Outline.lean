import HeaderCheck.Types.Table

/-!
# HeaderCheck.Types.Outline

Types written out in full, without handles.

* `Outline`: the tree of a type.
* `Table.outline`: the tree that a handle stands for. Handles of parts are smaller than that of
  the whole, so a tree is never deeper than its table is long.
-/

namespace HeaderCheck.Types

/-- A type as a tree. -/
inductive Outline where
  | literal (name : String) (builtin : Bool)
  | value (value name : String)
  | object (isOpen : Bool) (brand : String) (fields : List (String × Outline × Bool))
  | union (members : List Outline)
  | intersection (members : List Outline)
  | function (brand : String) (params : List (Option String × Outline × Bool)) (result : Outline)
      (this : Option Outline) (generics : List Occurrence)
  | generic (base : Outline) (args : List Outline)
  | tuple (elements : List Outline)
  | renamed (name : String) (builtin : Bool) (target : Outline)
  | free (name : String)
  /-- The handle stands for no type. -/
  | unknown
deriving Repr, Inhabited

namespace Table

/-- The tree of one level, `part` giving the trees of its parts. -/
def outlineData (part : TypeId → Outline) : TypeData → Outline
  | .literal name builtin => .literal name builtin
  | .value value name => .value value name
  | .object shape =>
    .object shape.isOpen shape.brand
      (shape.fields.map fun field => (field.name, part field.type, field.optional))
  | .union members => .union (members.map part)
  | .intersection members => .intersection (members.map part)
  | .function shape =>
    .function shape.brand
      (shape.params.map fun param => (param.name, part param.type, param.optional))
      (part shape.result) (shape.this.map part) shape.generics
  | .generic base args => .generic (part base) (args.map part)
  | .tuple elements => .tuple (elements.map part)
  | .renamed name builtin target => .renamed name builtin (part target)
  | .free name => .free name

def outlineWithin (t : Table) : (levels : Nat) → TypeId → Outline
  | 0, _ => .unknown
  | levels + 1, id =>
    match t.lookup id with
    | some data => outlineData (t.outlineWithin levels) data
    | none => .unknown

/-- The tree that `id` stands for. -/
def outline (t : Table) (id : TypeId) : Outline :=
  t.outlineWithin (t.size + 1) id

end Table

end HeaderCheck.Types

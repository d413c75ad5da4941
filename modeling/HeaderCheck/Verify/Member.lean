import HeaderCheck.Types.Place
import HeaderCheck.Verify.Visitor

/-!
# HeaderCheck.Verify.Member

Accesses `object.field` and `object[index]`.

* `findField`: the field of a type. Strings, numbers and arrays have the fields of the types that
  the bindings of all files give for them.
* `Access.typeOn`: the type of an access to an object of a known type.
-/

namespace HeaderCheck.Verify

open HeaderCheck.Script (Expr)
open HeaderCheck.Types (Table TypeId)

/-- What a type says about one of its fields. -/
inductive FieldLookup where
  | found (type : TypeId)
  /-- The object has no such field but may get it by assignment. -/
  | growing
  | missing
  /-- A union has no fields, whatever its members have. -/
  | onUnion
deriving DecidableEq, Repr

namespace FieldLookup

def ofOption : Option TypeId → FieldLookup
  | some type => .found type
  | none => .missing

def found? : FieldLookup → Option TypeId
  | .found type => some type
  | _ => none

end FieldLookup

/-- The field of constructors that holds the fields of their objects. -/
def prototypeName : String := "prototype"

/-- The type whose members a primitive or an array has. -/
def virtualTypeName? (table : Table) (id : TypeId) : Option String :=
  match table.lookup id with
  | some (.generic base _) => if base = .array then some "TArray" else none
  | some _ =>
    if id = .string then some "TString"
    else if id = .number then some "TNumber"
    else if id = .array then some "TArray"
    else none
  | none => none

/-- The field of a type, looking through at most `levels` types. -/
def findFieldWithin (table : Table) (globals : Globals) (field : String) :
    (levels : Nat) → TypeId → FieldLookup
  | 0, _ => .missing
  | levels + 1, id =>
    if id = .any then .found .any
    else
      match table.lookup id with
      | some (.object shape) =>
        match shape.find? field with
        | some found => .found found.type
        | none => if shape.isOpen then .growing else .missing
      | some (.function shape) =>
        if field = prototypeName then .ofOption shape.this else .missing
      | some (.union _) => .onUnion
      | some (.intersection members) =>
        .ofOption (members.findSome? fun member =>
          (findFieldWithin table globals field levels member).found?)
      | some (.renamed _ _ target) => findFieldWithin table globals field levels target
      | _ =>
        match (virtualTypeName? table id).bind globals.virtualTypes.get? with
        | some type => findFieldWithin table globals field levels type
        | none => .missing

/-- The field of a type. -/
def findField (table : Table) (globals : Globals) (field : String) (id : TypeId) : FieldLookup :=
  findFieldWithin table globals field (Table.maxInlineLevels + 1) id

/-- An access to a part of an object. -/
structure Access where
  object : Expr
  property : Expr
  computed : Bool
  span : Span

namespace Access

/-- The name in `object.name`. -/
def name? (access : Access) : Option String :=
  if access.computed then none else access.property.identifier?.map fun id => id.name

/-- The object of an access as diagnostics name it. -/
def objectName (access : Access) (s : State) : String :=
  match access.object with
  | .this _ => "this"
  | .identifier id => id.name
  | other => s.source.snippet other.span

/-- The type of the field `field` of an object. -/
def fieldType (access : Access) (object : TypeId) (field : String) : Check (Option TypeId) := do
  let s ← get
  match findField s.table s.session.globals field object with
  | .found type => return some type
  | .growing =>
    if s.focus.isTarget then return some .openField
    else
      reportMissingField access.span field (access.objectName s)
      return none
  | .missing =>
    reportMissingField access.span field (access.objectName s)
    return none
  | .onUnion =>
    report .unionFieldAccess access.span
      [("fieldName", field), ("unionType", s.format object)]
    return none

/-- Record that an index leads to no known field. -/
def reportDynamic (access : Access) : Check Unit := do
  let s ← get
  reportMissingField access.span (s.source.snippet access.property.span) (access.objectName s)

/-- The type of a part that an index of type `index` selects, if that type fits `key`. -/
def indexed (access : Access) (key index part : TypeId) : Check (Option TypeId) := do
  if ← checkFits access.property.span key index then return some part else return none

/-- The type of a part that only the written index can tell. -/
def literalPart (access : Access) (object : TypeId) : Check (Option TypeId) := do
  match (← get).table.lookup object, access.property with
  | some (.tuple elements), .literal literal =>
    match literal.index?.bind fun i => elements[i]? with
    | some element => return some element
    | none =>
      access.reportDynamic
      return none
  | some (.object _), .literal literal =>
    match literal.kind, literal.string? with
    | .string, some key => access.fieldType object key
    | _, _ =>
      access.reportDynamic
      return none
  | _, _ =>
    access.reportDynamic
    return none

/-- The type of `object[index]`: an array gives its elements, `Object<K, V>` its values, a tuple
and an object the part that a literal names. -/
def computedType (v : Visitor) (access : Access) (object : TypeId) : Check (Option TypeId) := do
  match ← asRead (v.expr access.property) with
  | none => return none
  | some index =>
    if object = .any then return some .any
    else
      let table := (← get).table
      match table.arrayElement? object, table.genericParts? object with
      | some element, _ => access.indexed .number index element
      | none, some (base, [key, part]) =>
        if base = .object then access.indexed key index part else access.literalPart object
      | none, _ => access.literalPart object

/-- The type of an access to an object of a known type. -/
def typeOn (v : Visitor) (access : Access) (object : TypeId) : Check (Option TypeId) :=
  if access.computed then access.computedType v object
  else
    match access.name? with
    | some field => access.fieldType object field
    | none => return none

/-- The type of an access. -/
def verify (v : Visitor) (access : Access) : Check (Option TypeId) := do
  match ← asRead (v.expr access.object) with
  | some object => access.typeOn v object
  | none => return none

end Access

end HeaderCheck.Verify

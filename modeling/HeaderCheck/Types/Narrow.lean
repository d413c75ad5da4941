import HeaderCheck.Types.Table

/-!
# HeaderCheck.Types.Narrow

Narrowing of a type by what a test says about its values. Every narrowing gives a type only when
the test changes something; `none` means that the type stays as it is.

* `Table.removeNullish?`, `Table.falsyPart?`: a value that is truthy, or falsy.
* `Table.narrowByTypeof?`: a value whose `typeof` is, or is not, a tag.
* `Table.narrowByValue?`: a value that is, or is not, `null` or `undefined`.
-/

namespace HeaderCheck.Types.Table

/-- The members of a union; any other type is its own only member. -/
def members (t : Table) (id : TypeId) : List TypeId :=
  (t.unionMembers? id).getD [id]

/-- The members that `keep` holds for; `none` when that is all of them or none. -/
def filter? (t : Table) (id : TypeId) (keep : TypeId → Bool) : Option (TypeId × Table) :=
  let all := t.members id
  let kept := all.filter keep
  if kept.isEmpty || kept.length = all.length then none else some (t.union kept)

/-- The members that are neither `null` nor `undefined`. -/
def removeNullish? (t : Table) (id : TypeId) : Option (TypeId × Table) :=
  t.filter? id fun member => !member.isNullish

/-- The members that have a falsy value. -/
def falsyPart? (t : Table) (id : TypeId) : Option (TypeId × Table) :=
  t.filter? id fun member =>
    member.isNullish || member.isAnyLike || member = .string || member = .number ||
      member = .boolean

/-- The type that a tag of `typeof` denotes on its own. -/
def typeofType? (tag : String) : Option TypeId :=
  match tag with
  | "string" => some .string
  | "number" => some .number
  | "boolean" => some .boolean
  | "function" => some .function
  | "object" => some .object
  | "undefined" => some .undefined
  | _ => none

/-- Whether the values of a type have the tag `tag`. -/
def matchesTypeof (t : Table) (id : TypeId) (tag : String) : Bool :=
  match tag with
  | "string" => id = .string
  | "number" => id = .number
  | "boolean" => id = .boolean
  | "undefined" => id = .undefined || id = .uninitialized
  | "function" => id = .function || t.isFunction id
  | "object" =>
    match t.lookup id with
    | some (.object _) | some (.generic ..) | some (.tuple _) => true
    | _ => id = .null || id = .nullDefault || id = .object || id = .regExp
  | _ => false

/-- Narrow by `typeof` being `tag`, or by it being something else. -/
def narrowByTypeof? (t : Table) (id : TypeId) (tag : String) (positive : Bool) :
    Option (TypeId × Table) :=
  if id.isAnyLike then
    if positive then (typeofType? tag).map fun type => (type, t) else none
  else t.filter? id fun member => t.matchesTypeof member tag == positive

/-- Whether the values of `member` are the single value `value`. -/
def isValue (value member : TypeId) : Bool :=
  if value = .null then member = .null || member = .nullDefault
  else if value = .undefined then member = .undefined || member = .uninitialized
  else member = value

/-- Narrow by the value being `value`, or by it being something else. -/
def narrowByValue? (t : Table) (id value : TypeId) (positive : Bool) : Option (TypeId × Table) :=
  if positive && id.isAnyLike then some (value, t)
  else t.filter? id fun member => isValue value member == positive

end HeaderCheck.Types.Table

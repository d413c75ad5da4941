import HeaderCheck.Json.Value

/-!
# HeaderCheck.Json.Record

Records and tagged nodes in JSON.

* `Json.fields?`: the values of the declared fields of a record, written as an object or as the
  list of its values in order.
* `Json.node?`: the kind of a tagged node and the record that remains.
* `Json.Shape`: which parts of a value are looked at.
* `Field.required`, `Field.defaulted`, `Field.optional`: what a missing field means.
-/

namespace HeaderCheck.Json

/-- Values of the members called `name`, in order. -/
def membersNamed (name : String) (members : List (String × Json)) : List Json :=
  (members.filter fun member => member.1 = name).map Prod.snd

/-- The value of each declared field, if it is there. Undeclared members are skipped, a declared
one must not repeat. The list form may leave out fields at its end. -/
def fields? (names : List String) : Json → Option (List (Option Json))
  | .object members =>
    names.mapM fun name =>
      match membersNamed name members with
      | [] => some none
      | [value] => some (some value)
      | _ => none
  | .array items =>
    if items.length ≤ names.length then
      some (items.map some ++ List.replicate (names.length - items.length) none)
    else none
  | _ => none

/-- The key of the member that names the kind of a node. -/
def kindKey : String := "type"

/-- A kind named by its text, or, inside another node, by its place among `kinds`. -/
def kind? (kinds : List String) (nested : Bool) : Json → Option String
  | .string kind => if kinds.contains kind then some kind else none
  | .number n => if nested then n.index?.bind fun i => kinds[i]? else none
  | _ => none

/-- The kind of a tagged node, and the node without the member that names it. -/
def node? (kinds : List String) (nested : Bool) : Json → Option (String × Json)
  | .object members =>
    match membersNamed kindKey members with
    | [tag] => (kind? kinds nested tag).map fun kind =>
      (kind, .object (members.filter fun member => member.1 ≠ kindKey))
    | _ => none
  | .array (tag :: rest) => (kind? kinds nested tag).map fun kind => (kind, .array rest)
  | _ => none

/-- Which parts of a value are looked at. What is not looked at need only be well written. -/
inductive Shape where
  /-- All of it. -/
  | whole
  /-- The declared fields of a record, in order, each with a shape of its own. -/
  | record (fields : List (String × Shape))

namespace Shape

/-- The shape of a member; `none` for a member that is skipped. -/
def member? : Shape → String → Option Shape
  | .whole, _ => some .whole
  | .record fields, name => fields.lookup name

/-- The shapes of the first items of an array; all others are looked at as a whole. -/
def items : Shape → List Shape
  | .whole => []
  | .record fields => fields.map Prod.snd

end Shape

/-- An array with `decode` read from each item. -/
def listOf {α : Type} (decode : Json → Option α) : Json → Option (List α)
  | .array items => items.mapM decode
  | _ => none

end HeaderCheck.Json

namespace HeaderCheck.Field

variable {α : Type}

/-- A field that must be there. -/
def required (decode : Json → Option α) : Option Json → Option α
  | none => none
  | some json => decode json

/-- A field that may be missing and then has the value `default`; `null` is no missing field. -/
def defaulted (default : α) (decode : Json → Option α) : Option Json → Option α
  | none => some default
  | some json => decode json

/-- A field that may be missing or `null`. -/
def optional (decode : Json → Option α) : Option Json → Option (Option α)
  | none | some .null => some none
  | some json => (decode json).map some

end HeaderCheck.Field

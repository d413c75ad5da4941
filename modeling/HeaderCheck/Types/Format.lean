import HeaderCheck.Types.Table

/-!
# HeaderCheck.Types.Format

One-line texts of types in the notation of signatures.

* `Table.format`: the text of a type; what lies deeper than eight levels is written `...`.
-/

namespace HeaderCheck.Types.Table

/-- A mark after the name of what may be left out. -/
def optionalMark (optional : Bool) : String :=
  if optional then "?" else ""

def formatParam (param : Param) (type : String) : String :=
  match param.name with
  | some name => name ++ optionalMark param.optional ++ ": " ++ type
  | none => type ++ optionalMark param.optional

/-- The text of one level, `part` giving the texts of its parts. -/
def formatData (part : TypeId → String) : TypeData → String
  | .literal name _ | .renamed name _ _ | .free name => name
  | .value value _ => value
  | .object shape =>
    if shape.fields.isEmpty then "\x7b\x7d"
    else
      let fields := shape.fields.map fun field =>
        field.name ++ optionalMark field.optional ++ ": " ++ part field.type
      "\x7b " ++ ", ".intercalate fields ++ " \x7d"
  | .union members => " | ".intercalate (members.map part)
  | .intersection members => " & ".intercalate (members.map part)
  | .function shape =>
    let this := shape.this.toList.map fun this => "this: " ++ part this
    let params := shape.params.map fun param => formatParam param (part param.type)
    "(" ++ ", ".intercalate (this ++ params) ++ ") => " ++ part shape.result
  | .generic base args => part base ++ "<" ++ ", ".intercalate (args.map part) ++ ">"
  | .tuple elements => "[" ++ ", ".intercalate (elements.map part) ++ "]"

/-- The text of a type down to `levels` levels. -/
def formatWithin (t : Table) : (levels : Nat) → TypeId → String
  | 0, _ => "..."
  | levels + 1, id =>
    match t.lookup id with
    | some data => formatData (t.formatWithin levels) data
    | none => "<unknown #" ++ toString id.index ++ ">"

/-- How many levels below a type are written. -/
def maxFormatLevels : Nat := 8

def format (t : Table) (id : TypeId) : String :=
  t.formatWithin (maxFormatLevels + 1) id

end HeaderCheck.Types.Table

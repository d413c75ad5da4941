/-!
# HeaderCheck.Text.Template

Message templates with placeholders: a name between braces.

* `replaceAll`: every occurrence of a pattern, leftmost first and without overlap.
* `fill`: the placeholders of a list of fields, one field after the other.
-/

namespace HeaderCheck

/-- A piece of a template: fixed text, or a hole with the name of the field that fills it. -/
inductive Template.Part where
  | text (value : String)
  | hole (name : String)
deriving DecidableEq, Repr

instance : Coe String Template.Part := ⟨.text⟩

/-- A message with holes. -/
abbrev Template : Type := List Template.Part

namespace Template

/-- Replace the occurrences of `pattern` in a text of which the first `skip` characters belong
to an occurrence that has already been replaced. -/
def replaceFrom (pattern replacement : List Char) : (skip : Nat) → List Char → List Char
  | _, [] => []
  | skip + 1, _ :: cs => replaceFrom pattern replacement skip cs
  | 0, c :: cs =>
    if pattern.isPrefixOf (c :: cs) then
      replacement ++ replaceFrom pattern replacement (pattern.length - 1) cs
    else c :: replaceFrom pattern replacement 0 cs

/-- Replace every occurrence of a non-empty `pattern`, scanning from the left. -/
def replaceAll (pattern replacement text : List Char) : List Char :=
  replaceFrom pattern replacement 0 text

/-- The placeholder of a field: its name between braces. -/
def placeholder (name : String) : List Char :=
  '\x7b' :: name.toList ++ ['\x7d']

def Part.written : Part → List Char
  | .text value => value.toList
  | .hole name => placeholder name

/-- The template as text, each hole written as its placeholder. -/
def written (template : Template) : String :=
  String.ofList (template.flatMap Part.written)

/-- Replace the placeholder of `name` by `value`. -/
def fillOne (text : String) (name value : String) : String :=
  String.ofList (replaceAll (placeholder name) value.toList text.toList)

/-- Fill in the fields one after the other. A placeholder without a field stays, and text that
comes from an earlier field is searched again for the later ones. -/
def fill (text : String) (fields : List (String × String)) : String :=
  fields.foldl (fun text field => fillOne text field.1 field.2) text

end Template

end HeaderCheck

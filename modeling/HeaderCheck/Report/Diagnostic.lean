import HeaderCheck.Dict
import HeaderCheck.Report.Kind
import HeaderCheck.Text.SpanForm

/-!
# HeaderCheck.Report.Diagnostic

Diagnostics: what is wrong, where, and the named facts that its message mentions.

* `Diagnostic.of`: a diagnostic with its message filled in.
* `Diagnostic.display`: one line for people.
* `Diagnostic.toJson`: one object for programs, the fields as members beside the fixed ones.
-/

namespace HeaderCheck

namespace Report

structure Diagnostic where
  kind : Kind
  fileName : String
  span : Option Span
  fields : Dict String
  message : String
deriving Repr

namespace Diagnostic

/-- The message of a kind: first its fields are filled in, then the line. -/
def messageOf (kind : Kind) (line : Option UInt32) (fields : Dict String) : String :=
  let filled := Template.fill kind.template.written fields.entries
  Template.fillOne filled "line" ((line.map fun n => toString n.toNat).getD "")

/-- A diagnostic; of fields with one name the last counts. -/
def of (kind : Kind) (fileName : String) (span : Option Span) (fields : List (String × String)) :
    Diagnostic :=
  let fields := Dict.ofList fields
  { kind, fileName, span, fields, message := messageOf kind (span.map Span.line) fields }

def line? (d : Diagnostic) : Option UInt32 :=
  d.span.map Span.line

def field? (d : Diagnostic) (name : String) : Option String :=
  d.fields.get? name

def display (d : Diagnostic) : String :=
  d.fileName ++ ": " ++ d.message ++ " (" ++ d.kind.code ++ ")"

/-- The fixed members, then one member for each field. -/
def toJson (d : Diagnostic) : Json :=
  .object <|
    [("type", .string d.kind.code), ("fileName", .string d.fileName),
      ("loc", .ofOption Span.toJson d.span),
      ("line", .ofOption (fun n => .ofNat n.toNat) d.line?),
      ("messageText", .string d.message)] ++
    d.fields.entries.map fun (name, value) => (name, .string value)

end Diagnostic

end Report

end HeaderCheck
